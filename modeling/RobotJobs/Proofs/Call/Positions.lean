import Mathlib.Data.Finset.Card
import RobotJobs.Proofs.Call.Insertions

/-!
# Positions in calls

A call stands at a position: a chain of nested entries, each told by its number at its level
(`Calls.At`).  What is counted of some calls is counted over their positions.  The names are
those at all positions, none of them stands at two positions exactly if there are as many
different names as calls, and the depth is the length of the longest position
(`Calls.nameSet_positions`).
-/

namespace RobotJobs

/-! ### The number of different names -/

namespace JobName

variable {names : List JobName} {name : JobName}

theorem length_sorted (names : List JobName) :
  (sorted names).length = names.toFinset.card
  := by
  rw [← List.toFinset_card_of_nodup (nodup_sorted names)]
  congr 1
  ext name
  simp [mem_sorted]

theorem length_sorted_le (names : List JobName) :
  (sorted names).length ≤ names.length
  := by
  rw [length_sorted]
  apply List.toFinset_card_le

/-- There are as many different names as names exactly if no name is repeated. -/
theorem length_sorted_eq_iff :
  (sorted names).length = names.length ↔ names.Nodup
  := by
  rw [length_sorted]
  apply Multiset.toFinset_card_eq_card_iff_nodup

theorem length_sorted_cons_of_mem (h : name ∈ names) :
  (sorted (name :: names)).length = (sorted names).length
  := by
  rw [length_sorted, length_sorted, List.toFinset_cons,
    Finset.card_insert_of_mem (List.mem_toFinset.2 h)]

theorem length_sorted_cons_of_not_mem (h : name ∉ names) :
  (sorted (name :: names)).length = (sorted names).length + 1
  := by
  rw [length_sorted, length_sorted, List.toFinset_cons,
    Finset.card_insert_of_notMem (mt List.mem_toFinset.1 h)]

end JobName

namespace Calls

/-! ### Positions -/

/-- A call of a job stands at a position.  The position tells the numbers of nested entries, each
among the calls of the one before it. -/
inductive At : Calls → List ℕ → JobName → Prop
  | entry {calls : Calls} {i : ℕ} {job : JobName} {below : Calls}
      (h : calls.entries[i]? = some (job, below)) : At calls [i] job
  | nested {calls : Calls} {i : ℕ} {job : JobName} {below : Calls} {position : List ℕ}
      {name : JobName} (h : calls.entries[i]? = some (job, below))
      (hbelow : At below position name) : At calls (i :: position) name

variable {calls below others : Calls} {job name : JobName} {position : List ℕ} {i : ℕ}

theorem not_at_nil :
  ¬ calls.At [] name
  := nofun

/-- A position leads to an entry, and it ends there or leads on below the entry. -/
theorem at_cons_iff :
  calls.At (i :: position) name
    ↔ ∃ job below, calls.entries[i]? = some (job, below)
      ∧ (position = [] ∧ job = name ∨ below.At position name)
  := by
  constructor
  · intro h
    cases h with
    | entry h => exact ⟨_, _, h, .inl ⟨rfl, rfl⟩⟩
    | nested h hbelow => exact ⟨_, _, h, .inr hbelow⟩
  · rintro ⟨job, below, h, ⟨rfl, rfl⟩ | hbelow⟩
    · apply At.entry h
    · apply At.nested h hbelow

theorem not_none_at :
  ¬ none.At position name
  := by
  cases position with
  | nil => apply not_at_nil
  | cons i position => simp [at_cons_iff, entries]

theorem call_at_zero_iff :
  (call job below others).At (0 :: position) name
    ↔ position = [] ∧ job = name ∨ below.At position name
  := by
  simp [at_cons_iff, entries]

theorem call_at_succ_iff :
  (call job below others).At ((i + 1) :: position) name ↔ others.At (i :: position) name
  := by
  rw [at_cons_iff, at_cons_iff]
  rfl

/-- The positions of the calls at all levels with the names there, each call before the calls
below it, when the entries are numbered from `n` on. -/
def positions (n : ℕ) : Calls → List (List ℕ × JobName)
  | none => []
  | call job below others =>
    ([n], job) :: ((below.positions 0).map (Prod.map (n :: ·) id) ++ others.positions (n + 1))

theorem map_snd_positions (calls : Calls) (n : ℕ) :
  (calls.positions n).map Prod.snd = calls.names
  := by
  induction calls generalizing n with
  | none => rfl
  | call job below others ihBelow ihOthers =>
    simp [positions, names, ← ihBelow 0, ← ihOthers (n + 1), Function.comp_def]

theorem at_iff_exists_cons :
  calls.At position name ↔ ∃ i rest, position = (0 + i) :: rest ∧ calls.At (i :: rest) name
  := by
  cases position with
  | nil => simp [not_at_nil]
  | cons i rest => simp

/-- With the entries numbered from `n` on, all positions begin there or later. -/
theorem mem_positions_iff {n : ℕ} :
  (position, name) ∈ calls.positions n
    ↔ ∃ i rest, position = (n + i) :: rest ∧ calls.At (i :: rest) name
  := by
  induction calls generalizing n position with
  | none => simp [positions, not_none_at]
  | call job below others ihBelow ihOthers =>
    have hbelow (rest : List ℕ) : (rest, name) ∈ below.positions 0 ↔ below.At rest name :=
      ihBelow.trans at_iff_exists_cons.symm
    have hmem : (position, name) ∈ (call job below others).positions n
        ↔ (position = [n] ∧ job = name) ∨ (∃ rest, position = n :: rest ∧ below.At rest name)
          ∨ ∃ i rest, position = (n + 1 + i) :: rest ∧ others.At (i :: rest) name := by
      simp [positions, ihOthers, ← hbelow, Prod.map, and_comm, eq_comm]
    rw [hmem]
    constructor
    · rintro (⟨rfl, rfl⟩ | ⟨rest, rfl, hat⟩ | ⟨i, rest, rfl, hat⟩)
      · exact ⟨0, [], rfl, call_at_zero_iff.2 (.inl ⟨rfl, rfl⟩)⟩
      · exact ⟨0, rest, rfl, call_at_zero_iff.2 (.inr hat)⟩
      · exact ⟨i + 1, rest, by rw [Nat.add_right_comm, Nat.add_assoc], call_at_succ_iff.2 hat⟩
    · rintro ⟨_ | i, rest, rfl, hat⟩
      · rcases call_at_zero_iff.1 hat with ⟨rfl, rfl⟩ | hat
        · exact .inl ⟨rfl, rfl⟩
        · exact .inr (.inl ⟨rest, rfl, hat⟩)
      · exact .inr (.inr ⟨i, rest, by rw [Nat.add_right_comm, Nat.add_assoc],
          call_at_succ_iff.1 hat⟩)

theorem mem_positions_zero_iff :
  (position, name) ∈ calls.positions 0 ↔ calls.At position name
  := mem_positions_iff.trans at_iff_exists_cons.symm

theorem exists_of_mem_map_fst {n : ℕ} (h : position ∈ (calls.positions n).map Prod.fst) :
  ∃ i rest, position = (n + i) :: rest
  := by
  obtain ⟨⟨position, name⟩, hmem, rfl⟩ := List.mem_map.1 h
  obtain ⟨i, rest, hposition, -⟩ := mem_positions_iff.1 hmem
  exact ⟨i, rest, hposition⟩

/-- No position is listed twice. -/
theorem nodup_positions (calls : Calls) (n : ℕ) :
  ((calls.positions n).map Prod.fst).Nodup
  := by
  induction calls generalizing n with
  | none => simp [positions]
  | call job below others ihBelow ihOthers =>
    have hsplit : ((call job below others).positions n).map Prod.fst
        = [n] :: (((below.positions 0).map Prod.fst).map (n :: ·)
          ++ (others.positions (n + 1)).map Prod.fst) := by
      simp [positions, Function.comp_def]
    -- The positions of the first entry, of what is below it and of the rest begin differently.
    rw [hsplit, List.nodup_cons, List.nodup_append, List.mem_append, not_or]
    refine ⟨⟨?_, ?_⟩, ?_, ihOthers (n + 1), ?_⟩
    · intro hmem
      obtain ⟨rest, hrest, hposition⟩ := List.mem_map.1 hmem
      obtain ⟨i, rest, rfl⟩ := exists_of_mem_map_fst hrest
      simp at hposition
    · intro hmem
      obtain ⟨i, rest, hposition⟩ := exists_of_mem_map_fst hmem
      have hn : n = n + 1 + i := (List.cons.inj hposition).1
      omega
    · apply (ihBelow 0).map List.cons_injective
    · intro position hbelow position' hothers heq
      obtain ⟨rest, -, rfl⟩ := List.mem_map.1 hbelow
      obtain ⟨i, rest', rfl⟩ := exists_of_mem_map_fst hothers
      have hn : n = n + 1 + i := (List.cons.inj heq).1
      omega

/-! ### What is counted over positions -/

theorem mem_names_iff :
  name ∈ calls.names ↔ ∃ position, calls.At position name
  := by
  rw [← map_snd_positions calls 0]
  simp only [List.mem_map, Prod.exists, exists_eq_right, mem_positions_zero_iff]

/-- No name is repeated exactly if no name stands at two positions. -/
theorem nodup_names_iff :
  calls.names.Nodup
    ↔ ∀ name position position', calls.At position name → calls.At position' name →
      position = position'
  := by
  have hnodup : (calls.positions 0).Nodup := (nodup_positions calls 0).of_map
  rw [← map_snd_positions calls 0, List.nodup_map_iff_inj_on hnodup]
  constructor
  · intro h name position position' hat hat'
    have heq := h (position, name) (mem_positions_zero_iff.2 hat)
      (position', name) (mem_positions_zero_iff.2 hat') rfl
    apply congrArg Prod.fst heq
  · rintro h ⟨position, name⟩ hmem ⟨position', name'⟩ hmem' rfl
    rw [h name position position' (mem_positions_zero_iff.1 hmem) (mem_positions_zero_iff.1 hmem')]

theorem depth_lt_of_mem_entries (h : (job, below) ∈ calls.entries) :
  below.depth < calls.depth
  := by
  induction calls with
  | none => simp [entries] at h
  | call job' below' others _ ih =>
    rw [depth]
    rcases List.mem_cons.1 h with heq | hothers
    · cases heq
      omega
    · have hdepth := ih hothers
      omega

/-- Positions are no longer than the calls are deep. -/
theorem At.length_le_depth (h : calls.At position name) :
  position.length ≤ calls.depth
  := by
  induction h with
  | entry h =>
    have hdepth := depth_lt_of_mem_entries (List.mem_of_getElem? h)
    rw [List.length_singleton]
    omega
  | nested h _ ih =>
    have hdepth := depth_lt_of_mem_entries (List.mem_of_getElem? h)
    rw [List.length_cons]
    omega

/-- Some position is as long as the calls are deep, unless there are no calls. -/
theorem exists_at_of_depth (h : calls.depth ≠ 0) :
  ∃ position name, calls.At position name ∧ position.length = calls.depth
  := by
  induction calls with
  | none => contradiction
  | call job below others ihBelow ihOthers =>
    rw [depth] at h ⊢
    rcases Nat.lt_or_ge (1 + below.depth) others.depth with hdeeper | hbelow
    · obtain ⟨position, name, hat, hlength⟩ := ihOthers (by omega)
      rw [Nat.max_eq_right hdeeper.le, ← hlength]
      cases position with
      | nil => exact absurd hat not_at_nil
      | cons i position => exact ⟨(i + 1) :: position, name, call_at_succ_iff.2 hat, rfl⟩
    · rw [Nat.max_eq_left hbelow, Nat.add_comm]
      by_cases hleaf : below.depth = 0
      · exact ⟨[0], job, call_at_zero_iff.2 (.inl ⟨rfl, rfl⟩), by rw [hleaf]; rfl⟩
      · obtain ⟨position, name, hat, hlength⟩ := ihBelow hleaf
        exact ⟨0 :: position, name, call_at_zero_iff.2 (.inr hat), by rw [← hlength]; rfl⟩

/-- The depth is the length of the longest chain of nested entries, which may have none. -/
theorem isGreatest_depth (calls : Calls) :
  IsGreatest { n | n = 0 ∨ ∃ position name, calls.At position name ∧ position.length = n }
    calls.depth
  := by
  constructor
  · by_cases h : calls.depth = 0
    · apply Or.inl h
    · apply Or.inr (exists_at_of_depth h)
  · rintro n (rfl | ⟨position, name, hat, rfl⟩)
    · apply Nat.zero_le
    · apply hat.length_le_depth

theorem depth_le_nodeCount (calls : Calls) :
  calls.depth ≤ calls.nodeCount
  := by
  induction calls with
  | none => rfl
  | call job below others ihBelow ihOthers =>
    rw [depth, nodeCount]
    omega

/-- The different names in some calls are those at all positions.  There are no more of them than
calls, and as many exactly if no name stands at two positions.  The depth is no greater than
the number of calls, and it is the length of the longest chain of nested entries.  In a tree
with these calls there is one name more, that of the root, unless it stands at a position. -/
theorem nameSet_positions (calls : Calls) :
  (calls.nameSet.Nodup ∧ ∀ name, name ∈ calls.nameSet ↔ ∃ position, calls.At position name)
    ∧ calls.nameSet.length ≤ calls.nodeCount
    ∧ (calls.nameSet.length = calls.nodeCount
      ↔ ∀ name position position', calls.At position name → calls.At position' name →
        position = position')
    ∧ calls.depth ≤ calls.nodeCount
    ∧ IsGreatest { n | n = 0 ∨ ∃ position name, calls.At position name ∧ position.length = n }
      calls.depth
    ∧ ∀ root, (CallTree.mk root calls).reachable.Nodup
      ∧ ((∃ position, calls.At position root) →
        (CallTree.mk root calls).reachable.length = calls.nameSet.length)
      ∧ ((¬ ∃ position, calls.At position root) →
        (CallTree.mk root calls).reachable.length = calls.nameSet.length + 1)
  := by
  refine ⟨⟨?_, ?_⟩, ?_, ?_, ?_, ?_, ?_⟩
  · apply JobName.nodup_sorted
  · intro name
    rw [nameSet, JobName.mem_sorted, mem_names_iff]
  · rw [← length_names]
    apply JobName.length_sorted_le
  · rw [← length_names, nameSet, JobName.length_sorted_eq_iff, nodup_names_iff]
  · apply depth_le_nodeCount
  · apply isGreatest_depth
  · intro root
    rw [← mem_names_iff]
    refine ⟨?_, ?_, ?_⟩
    · apply JobName.nodup_sorted
    · apply JobName.length_sorted_cons_of_mem
    · apply JobName.length_sorted_cons_of_not_mem

end Calls

end RobotJobs
