import Mathlib.Data.List.DropRight
import RobotJobs.Text.Blank

/-!
# What trimming leaves

A trimmed text does not begin with a blank character (`beginsBlank_trim`), and nothing is
left of a text exactly if all of its characters are blank (`trim_eq_nil_iff`).  A word at
the end of a text is not touched; only what is blank in front of the text goes
(`trim_append`).
-/

namespace RobotJobs.Text

variable {xs ys cs : List Char} {s : String}

/-- Whether a text begins with a blank character. -/
def beginsBlank (cs : List Char) : Bool :=
  cs.head?.any isBlank

theorem beginsBlank_append (h : beginsBlank xs = true) (ys : List Char) :
  beginsBlank (xs ++ ys) = true
  := by
  cases xs with
  | nil => cases h
  | cons x xs => exact h

theorem trimStart_eq_self (h : beginsBlank cs = false) :
  trimStart cs = cs
  := by
  cases cs with
  | nil => rfl
  | cons c cs =>
    apply List.dropWhile_cons_of_neg
    simpa [beginsBlank] using h

theorem beginsBlank_trimStart (cs : List Char) :
  beginsBlank (trimStart cs) = false
  := by
  have h := List.head?_dropWhile_not isBlank cs
  unfold beginsBlank trimStart
  cases hhead : (cs.dropWhile isBlank).head? with
  | none => rfl
  | some c =>
    rw [hhead] at h
    exact h

theorem trimEnd_isPrefix (cs : List Char) :
  trimEnd cs <+: cs
  := List.rdropWhile_prefix isBlank cs

theorem beginsBlank_trim (cs : List Char) :
  beginsBlank (trim cs) = false
  := by
  rw [← Bool.not_eq_true]
  intro h
  obtain ⟨rest, hrest⟩ := trimEnd_isPrefix (trimStart cs)
  have hblank := beginsBlank_append h rest
  rw [trim, hrest, beginsBlank_trimStart] at hblank
  cases hblank

theorem trimEnd_append (hne : ys ≠ []) (hword : ∀ c ∈ ys, isBlank c = false) :
  trimEnd (xs ++ ys) = xs ++ ys
  := by
  apply List.rdropWhile_eq_self_iff.2
  intro hlast
  rw [List.getLast_append_of_ne_nil hlast hne]
  simp [hword _ (List.getLast_mem hne)]

theorem trimStart_word (hword : ∀ c ∈ ys, isBlank c = false) :
  trimStart ys = ys
  := by
  apply trimStart_eq_self
  cases ys with
  | nil => rfl
  | cons y ys => exact hword y List.mem_cons_self

theorem trimStart_append (hword : ∀ c ∈ ys, isBlank c = false) :
  trimStart (xs ++ ys) = trimStart xs ++ ys
  := by
  have hys := trimStart_word hword
  unfold trimStart at *
  rw [List.dropWhile_append, hys]
  split
  · next hempty => rw [List.isEmpty_iff.1 hempty, List.nil_append]
  · rfl

theorem trim_subset :
  trim cs ⊆ cs
  := by
  intro c hc
  exact (List.dropWhile_suffix isBlank).subset ((trimEnd_isPrefix _).subset hc)

/-- A word at the end of a text stays when the text is trimmed. -/
theorem trim_append (hne : ys ≠ []) (hword : ∀ c ∈ ys, isBlank c = false) :
  trim (xs ++ ys) = trimStart xs ++ ys
  := by
  rw [trim, trimStart_append hword, trimEnd_append hne hword]

/-- Nothing is left of a text exactly if all of its characters are blank. -/
theorem trim_eq_nil_iff :
  trim cs = [] ↔ ∀ c ∈ cs, isBlank c = true
  := by
  rw [← trimStart_eq_nil_iff]
  constructor
  · intro h
    -- All that follows the blank characters in front would be blank, but its first
    -- character is not.
    have hblank : ∀ c ∈ trimStart cs, isBlank c = true := by
      apply List.rdropWhile_eq_nil_iff.1
      exact h
    cases hstart : trimStart cs with
    | nil => rfl
    | cons c rest =>
      have hc := beginsBlank_trimStart cs
      rw [hstart] at hc hblank
      simp [beginsBlank, hblank c List.mem_cons_self] at hc
  · intro h
    rw [trim, h]
    rfl

theorem trimmed_eq_empty_iff :
  trimmed s = "" ↔ ∀ c ∈ s.toList, isBlank c = true
  := by
  rw [← trim_eq_nil_iff, ← String.toList_inj, trimmed, String.toList_ofList]
  rfl

theorem exists_head?_of_ne_empty (h : s ≠ "") :
  ∃ c ∈ s.toList, s.toList.head? = some c
  := by
  obtain ⟨c, cs, hcs⟩ := List.exists_cons_of_ne_nil (mt String.toList_eq_nil_iff.1 h)
  rw [hcs]
  exact ⟨c, List.mem_cons_self, rfl⟩

/-- What is left of a text holds a character that is not blank. -/
theorem exists_not_isBlank_of_trimmed (h : trimmed s ≠ "") :
  ∃ c ∈ (trimmed s).toList, isBlank c = false
  := by
  obtain ⟨c, hmem, hhead⟩ := exists_head?_of_ne_empty h
  use c, hmem
  have hc := beginsBlank_trim s.toList
  rw [trimmed, String.toList_ofList] at hhead
  rwa [beginsBlank, hhead] at hc

theorem trimEnd_append_of_blank (hblank : ∀ c ∈ ys, isBlank c = true) :
  trimEnd (xs ++ ys) = trimEnd xs
  := by
  rw [trimEnd, trimEnd, List.reverse_append, List.dropWhile_append_of_pos]
  intro c hc
  exact hblank c (List.mem_reverse.1 hc)

/-- Blank characters at the end of a text do not matter when the text is trimmed. -/
theorem trim_append_of_blank (hblank : ∀ c ∈ ys, isBlank c = true) :
  trim (xs ++ ys) = trim xs
  := by
  cases hstart : trimStart xs with
  | nil =>
    have hxs := trimStart_eq_nil_iff.1 hstart
    have hall : ∀ c ∈ xs ++ ys, isBlank c = true := by
      intro c hc
      exact (List.mem_append.1 hc).elim (hxs c) (hblank c)
    rw [trim_eq_nil_iff.2 hall, trim_eq_nil_iff.2 hxs]
  | cons c rest =>
    have hleft : trimStart (xs ++ ys) = trimStart xs ++ ys := by
      unfold trimStart at *
      rw [List.dropWhile_append, hstart]
      rfl
    rw [trim, trim, hleft, trimEnd_append_of_blank hblank]

theorem firstWord_eq_self (hword : ∀ c ∈ ys, isBlank c = false) :
  firstWord ys = ys
  := by
  rw [firstWord, trimStart_word hword]
  apply List.takeWhile_eq_self_iff.2
  intro c hc
  simp [hword c hc]

end RobotJobs.Text
