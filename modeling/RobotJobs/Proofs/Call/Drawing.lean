import Mathlib.Logic.Function.Basic
import RobotJobs.Call.Drawing

/-!
# What a drawing shows

A line of a drawing can be read back although a name may look like units: the units all
have four characters, so the line is cut into units from the left, and the first connector
ends the indentation (`Glyphs.readLine?`).  What is read from the lines of a drawing is the
list of the names with their levels (`Glyphs.Legible.map_readLine_draw`), and calls are
determined by such a list: what is deeper than an entry and follows it stands below it
(`Calls.eq_of_preorder_append`).  So a drawing determines what is drawn
(`Glyphs.draw_injective`).
-/

namespace RobotJobs

namespace Calls

/-! ### Names with levels -/

variable {calls calls' : Calls} {level : Nat} {rest rest' : List (Nat × JobName)}

/-- A list goes on above a level: if it has a first entry, its level is less. -/
def LeavesLevel (level : Nat) (rest : List (Nat × JobName)) : Prop :=
  ∀ e ∈ rest.head?, e.1 < level

/-- After the calls at a level nothing deeper goes on. -/
theorem LeavesLevel.preorder_append (h : LeavesLevel level rest) :
  LeavesLevel (level + 1) (calls.preorder level ++ rest)
  := by
  intro e he
  cases calls with
  | none => apply Nat.lt_succ_of_lt (h e he)
  | call job below others =>
    obtain rfl : (level, job) = e := by simpa [preorder] using he
    apply Nat.lt_succ_self

/-- Where the list goes on above the level, no calls stand at the level. -/
theorem LeavesLevel.eq_none (h : LeavesLevel level rest)
    (heq : rest = calls.preorder level ++ rest') :
  calls = none
  := by
  cases calls with
  | none => rfl
  | call job below others =>
    subst heq
    apply absurd (h (level, job) rfl) (Nat.lt_irrefl level)

/-- Calls are determined by the names with their levels, also if the list goes on above. -/
theorem eq_of_preorder_append (hrest : LeavesLevel level rest) (hrest' : LeavesLevel level rest')
    (h : calls.preorder level ++ rest = calls'.preorder level ++ rest') :
  calls = calls' ∧ rest = rest'
  := by
  induction calls generalizing level calls' rest rest' with
  | none =>
    obtain rfl := hrest.eq_none h
    exact ⟨rfl, h⟩
  | call job below others ihBelow ihOthers =>
    cases calls' with
    | none => cases hrest'.eq_none h.symm
    | call job' below' others' =>
      simp only [preorder, List.cons_append, List.append_assoc, List.cons.injEq, Prod.mk.injEq,
        true_and] at h
      obtain ⟨rfl, h⟩ := h
      obtain ⟨rfl, hafter⟩ := ihBelow hrest.preorder_append hrest'.preorder_append h
      obtain ⟨rfl, rfl⟩ := ihOthers hrest hrest' hafter
      exact ⟨rfl, rfl⟩

theorem preorder_injective (level : Nat) :
  Function.Injective (preorder level)
  := by
  intro calls calls' h
  have hend : LeavesLevel level [] := fun _ he => nomatch he
  apply (eq_of_preorder_append hend hend _).1
  rw [h]

end Calls

namespace Glyphs

/-! ### Lines -/

/-- The level and the name on a line: the number of units before the first connector, and
what follows the connector. -/
def readLine? (g : Glyphs) : List Char → Option (Nat × JobName)
  | a :: b :: c :: d :: line =>
    if [a, b, c, d] = g.branch.toList ∨ [a, b, c, d] = g.corner.toList then
      some (0, ⟨String.ofList line⟩)
    else if [a, b, c, d] = g.bar.toList ∨ [a, b, c, d] = g.blank.toList then
      (g.readLine? line).map (Prod.map (· + 1) id)
    else none
  | _ => none

/-- The units of a set can be told apart: they have four characters each, and what is passed
down is no connector. -/
structure Legible (g : Glyphs) : Prop where
  length_connector : ∀ u ∈ [g.branch, g.corner], u.toList.length = 4
  length_passed : ∀ u ∈ [g.bar, g.blank], u.toList.length = 4
  ne_connector : ∀ u ∈ [g.bar, g.blank], ∀ v ∈ [g.branch, g.corner], u.toList ≠ v.toList

theorem legible_choose (unicode : Bool) :
  (Glyphs.choose unicode).Legible
  := by
  cases unicode with
  | false => constructor <;> decide
  | true => constructor <;> decide

/-- An indentation is worth a number of levels. -/
def Indents (g : Glyphs) (indent : String) (level : Nat) : Prop :=
  ∀ line, g.readLine? (indent.toList ++ line)
    = (g.readLine? line).map (Prod.map (· + level) id)

variable {g : Glyphs} {unit indent : String} {level : Nat} {line : List Char}

theorem exists_eq_of_length {cs : List Char} (h : cs.length = 4) :
  ∃ a b c d, cs = [a, b, c, d]
  := by
  match cs, h with
  | [a, b, c, d], _ => exact ⟨a, b, c, d, rfl⟩

/-- A connector ends the indentation. -/
theorem Legible.readLine_connector (h : g.Legible) (hunit : unit ∈ [g.branch, g.corner])
    (line : List Char) :
  g.readLine? (unit.toList ++ line) = some (0, ⟨String.ofList line⟩)
  := by
  obtain ⟨a, b, c, d, hcs⟩ := exists_eq_of_length (h.length_connector unit hunit)
  have hconnector : [a, b, c, d] = g.branch.toList ∨ [a, b, c, d] = g.corner.toList := by
    rw [← hcs]
    grind
  rw [hcs]
  apply if_pos hconnector

/-- A bar or a blank is one level of the indentation. -/
theorem Legible.readLine_passed (h : g.Legible) (hunit : unit ∈ [g.bar, g.blank])
    (line : List Char) :
  g.readLine? (unit.toList ++ line) = (g.readLine? line).map (Prod.map (· + 1) id)
  := by
  obtain ⟨a, b, c, d, hcs⟩ := exists_eq_of_length (h.length_passed unit hunit)
  have hconnector : ¬ ([a, b, c, d] = g.branch.toList ∨ [a, b, c, d] = g.corner.toList) := by
    rw [← hcs]
    rintro (heq | heq)
    · apply h.ne_connector unit hunit g.branch (by simp) heq
    · apply h.ne_connector unit hunit g.corner (by simp) heq
  have hpassed : [a, b, c, d] = g.bar.toList ∨ [a, b, c, d] = g.blank.toList := by
    rw [← hcs]
    grind
  rw [hcs]
  apply (if_neg hconnector).trans (if_pos hpassed)

theorem indents_empty (g : Glyphs) :
  g.Indents "" 0
  := by
  intro line
  have hid : Prod.map (· + 0) id = (id : Nat × JobName → Nat × JobName) := rfl
  rw [hid, Option.map_id_fun]
  rfl

/-- An indentation with one more unit is worth one more level. -/
theorem Legible.indents_append (h : g.Legible) (hunit : unit ∈ [g.bar, g.blank])
    (hindent : g.Indents indent level) :
  g.Indents (indent ++ unit) (level + 1)
  := by
  intro line
  rw [String.toList_append, List.append_assoc, hindent, h.readLine_passed hunit, Option.map_map]
  congr 1
  funext e
  simp [Prod.map, Nat.add_comm, Nat.add_left_comm]

/-- What is read from a line with a connector is the level of its indentation and its
name. -/
theorem Legible.readLine_line (h : g.Legible) (hunit : unit ∈ [g.branch, g.corner])
    (hindent : g.Indents indent level) (job : JobName) :
  g.readLine? (indent ++ unit ++ job.text).toList = some (level, job)
  := by
  rw [String.toList_append, String.toList_append, List.append_assoc, hindent,
    h.readLine_connector hunit]
  simp

/-- A name that looks like a branch stays a name. -/
example : Glyphs.unicode.readLine? "│   ├── ├── A".toList = some (1, ⟨"├── A"⟩) := by decide

/-- What is read from the lines of a drawing is the list of the names with their levels. -/
theorem Legible.map_readLine_draw (h : g.Legible) (calls : Calls)
    (hindent : g.Indents indent level) :
  (calls.draw g indent).map (fun line => g.readLine? line.toList)
    = (calls.preorder level).map some
  := by
  fun_induction Calls.draw g indent calls generalizing level with
  | case1 => rfl
  | case2 indent job below ih =>
    simp only [List.map_cons, Calls.preorder, List.append_nil]
    rw [h.readLine_line (by simp) hindent, ih (h.indents_append (by simp) hindent)]
  | case3 indent job below job' below' others ihBelow ihOthers =>
    rw [Calls.preorder, List.map_append, List.map_cons, List.map_cons, List.map_append,
      h.readLine_line (by simp) hindent, ihBelow (h.indents_append (by simp) hindent),
      ihOthers hindent, List.cons_append]

/-- A drawing of calls determines the calls. -/
theorem Legible.draw_calls_injective (h : g.Legible) :
  Function.Injective (Calls.draw g "")
  := by
  intro calls calls' heq
  have hread := congrArg (List.map fun line => g.readLine? line.toList) heq
  rw [h.map_readLine_draw calls g.indents_empty,
    h.map_readLine_draw calls' g.indents_empty] at hread
  apply Calls.preorder_injective 0
  apply (List.map_inj_right (fun _ _ => Option.some.inj)).1 hread

/-- A tree is drawn like its root as the only call. -/
theorem draw_tree (g : Glyphs) (tree : CallTree) :
  tree.draw g = (Calls.call tree.root tree.calls .none).draw g ""
  := by
  simp [CallTree.draw, Calls.draw]

/-- In both sets of connectors a drawing determines what is drawn, be it the calls of a job
or a whole tree, whatever text the names are. -/
theorem draw_injective (unicode : Bool) :
  Function.Injective (CallTree.draw (Glyphs.choose unicode))
    ∧ Function.Injective (Calls.draw (Glyphs.choose unicode) "")
  := by
  have hcalls := (legible_choose unicode).draw_calls_injective
  constructor
  · intro tree tree' h
    rw [draw_tree, draw_tree] at h
    obtain ⟨root, calls⟩ := tree
    obtain ⟨root', calls'⟩ := tree'
    obtain ⟨rfl, rfl, -⟩ := Calls.call.inj (hcalls h)
    rfl
  · apply hcalls

end Glyphs

end RobotJobs
