import RobotJobs.Proofs.Text.EditRows
import RobotJobs.Proofs.Text.Utf8
import RobotJobs.Settings.Notice

/-!
# Suggested keys

The distance of two keys is the least number of edits of bytes that lead from the one to the
other, a metric (`keyDistance_metric`).  Of some candidates the nearest one to a key is the
first of those that the fewest edits of bytes lead to (`nearestKey?_eq_some_iff`).  It is
suggested if two edits are enough, and if they are not, they lead to no known key at all
(`suggestedKey?_firstLeast`).
-/

namespace RobotJobs

variable {measure : String → ℕ} {candidates : List String} {candidate other c c' key : String}

/-! ### The first of the least -/

/-- A candidate with a smaller measure than every one before it, and none after it has a
smaller one. -/
def FirstLeast (measure : String → ℕ) (candidates : List String) (c : String) : Prop :=
  ∃ before after, candidates = before ++ c :: after
    ∧ (∀ other ∈ before, measure c < measure other) ∧ ∀ other ∈ after, measure c ≤ measure other

theorem FirstLeast.mem (h : FirstLeast measure candidates c) :
  c ∈ candidates
  := by
  obtain ⟨before, after, rfl, -, -⟩ := h
  simp

theorem FirstLeast.le (h : FirstLeast measure candidates c) (hother : other ∈ candidates) :
  measure c ≤ measure other
  := by
  obtain ⟨before, after, rfl, hbefore, hafter⟩ := h
  rcases List.mem_append.1 hother with hother | hother
  · exact (hbefore other hother).le
  · rcases List.mem_cons.1 hother with rfl | hother
    · exact le_rfl
    · exact hafter other hother

/-- The first candidate is the first of the least if no other one has a smaller measure. -/
theorem firstLeast_cons_self (h : ∀ other ∈ candidates, measure candidate ≤ measure other) :
  FirstLeast measure (candidate :: candidates) candidate
  := ⟨[], candidates, rfl, nofun, h⟩

theorem FirstLeast.cons (h : FirstLeast measure candidates c)
    (hlt : measure c < measure candidate) :
  FirstLeast measure (candidate :: candidates) c
  := by
  obtain ⟨before, after, rfl, hbefore, hafter⟩ := h
  refine ⟨candidate :: before, after, rfl, ?_, hafter⟩
  exact List.forall_mem_cons.2 ⟨hlt, hbefore⟩

theorem FirstLeast.unique (h : FirstLeast measure candidates c)
    (h' : FirstLeast measure candidates c') :
  c = c'
  := by
  obtain ⟨before, after, heq, hbefore, -⟩ := id h
  obtain ⟨before', after', heq', hbefore', -⟩ := id h'
  -- If one of them stood before the other, it would have the greater measure.
  rcases List.append_eq_append_iff.1 (heq.symm.trans heq') with ⟨mid, hmid, hc⟩ | ⟨mid, hmid, hc'⟩
  · cases mid with
    | nil => exact (List.cons.inj hc).1
    | cons m mid =>
      obtain rfl := (List.cons.inj hc).1
      have hlt := hbefore' c (by simp [hmid])
      exact absurd hlt (h.le h'.mem).not_gt
  · cases mid with
    | nil => exact (List.cons.inj hc').1.symm
    | cons m mid =>
      obtain rfl := (List.cons.inj hc').1
      have hlt := hbefore c' (by simp [hmid])
      exact absurd hlt (h'.le h.mem).not_gt

/-! ### The nearest key -/

theorem nearestKey?_eq_none_iff :
  nearestKey? key candidates = none ↔ candidates = []
  := by
  cases candidates with
  | nil => simp [nearestKey?]
  | cons candidate candidates =>
    simp only [nearestKey?]
    split
    · simp
    · split <;> simp

theorem firstLeast_of_nearestKey? {d : ℕ} (h : nearestKey? key candidates = some (c, d)) :
  FirstLeast (keyDistance key) candidates c ∧ d = keyDistance key c
  := by
  induction candidates generalizing c d with
  | nil => cases h
  | cons candidate candidates ih =>
    simp only [nearestKey?] at h
    split at h
    · next hnone =>
      cases h
      rw [nearestKey?_eq_none_iff.1 hnone]
      exact ⟨firstLeast_cons_self nofun, rfl⟩
    · next other d' hsome =>
      obtain ⟨hother, rfl⟩ := ih hsome
      split at h
      · next hle =>
        cases h
        exact ⟨firstLeast_cons_self fun _ hmem => hle.trans (hother.le hmem), rfl⟩
      · next hlt =>
        cases h
        exact ⟨hother.cons (Nat.lt_of_not_le hlt), rfl⟩

/-- The nearest candidate is the first of those with the least distance. -/
theorem nearestKey?_eq_some_iff :
  nearestKey? key candidates = some (c, keyDistance key c)
    ↔ FirstLeast (keyDistance key) candidates c
  := by
  constructor
  · intro h
    exact (firstLeast_of_nearestKey? h).1
  · intro h
    cases hnearest : nearestKey? key candidates with
    | none =>
      have hmem := h.mem
      rw [nearestKey?_eq_none_iff.1 hnearest] at hmem
      cases hmem
    | some found =>
      obtain ⟨c', d⟩ := found
      obtain ⟨hc', rfl⟩ := firstLeast_of_nearestKey? hnearest
      rw [h.unique hc']

/-- The distance of two keys is the least number of edits of bytes that lead from the one to
the other. -/
theorem isLeast_keyDistance (a b : String) :
  IsLeast { n | Text.Edits n (Text.toBytes a) (Text.toBytes b) } (keyDistance a b)
  := Text.isLeast_editDistance (Text.toBytes a) (Text.toBytes b)

/-- The distance of two keys is the least number of insertions, deletions and substitutions of
single bytes that turn the one into the other, which the recursion on their first bytes tells as
well.  It is also what two rows that are overwritten in place come to, whatever the second row
holds at first and without regard to whether the keys are the same.  It is zero only for keys
that are the same, it is symmetric, and it obeys the triangle inequality. -/
theorem keyDistance_metric (a b : String) :
  IsLeast { n | Text.Edits n (Text.toBytes a) (Text.toBytes b) } (keyDistance a b)
    ∧ keyDistance a b = Text.distance (Text.toBytes a) (Text.toBytes b)
    ∧ (∀ row, row.length = (Text.toBytes b).length + 1 →
      keyDistance a b = Text.distanceInPlace (Text.toBytes a) (Text.toBytes b) row)
    ∧ (keyDistance a b = 0 ↔ a = b)
    ∧ keyDistance a b = keyDistance b a
    ∧ ∀ c, keyDistance a c ≤ keyDistance a b + keyDistance b c
  := by
  refine ⟨isLeast_keyDistance a b, ?_, ?_, ?_, ?_, ?_⟩
  · apply Text.editDistance_eq_distance
  · intro row hrow
    rw [Text.distanceInPlace_eq _ _ hrow, keyDistance]
  · rw [keyDistance, Text.editDistance_eq_zero_iff]
    apply (Function.LeftInverse.injective Text.ofBytes_toBytes).eq_iff
  · apply Text.editDistance_comm
  · intro c
    apply Text.editDistance_triangle

/-- The distance of a key from each known one is the least number of edits of bytes that lead
from the one to the other.  A known key is suggested exactly if it is the first of those at the
least distance and this distance is at most two; no key is suggested exactly if the distance
of each is more than two. -/
theorem suggestedKey?_firstLeast (key : String) :
  (∀ c, IsLeast { n | Text.Edits n (Text.toBytes key) (Text.toBytes c) } (keyDistance key c))
    ∧ (∀ c, suggestedKey? key = some c
      ↔ FirstLeast (keyDistance key) knownKeys c ∧ keyDistance key c ≤ 2)
    ∧ (suggestedKey? key = none ↔ ∀ c ∈ knownKeys, 2 < keyDistance key c)
  := by
  have hknown : nearestKey? key knownKeys ≠ none := mt nearestKey?_eq_none_iff.1 (by decide)
  obtain ⟨⟨c, d⟩, hnearest⟩ := Option.ne_none_iff_exists'.1 hknown
  obtain ⟨hc, rfl⟩ := firstLeast_of_nearestKey? hnearest
  have hsuggested : suggestedKey? key = if keyDistance key c ≤ 2 then some c else none := by
    rw [suggestedKey?, hnearest]
  refine ⟨isLeast_keyDistance key, ?_, ?_⟩
  · intro c'
    rw [hsuggested]
    constructor
    · intro h
      split at h
      · next hle =>
        cases h
        exact ⟨hc, hle⟩
      · cases h
    · rintro ⟨hc', hle⟩
      obtain rfl := hc'.unique hc
      rw [if_pos hle]
  · rw [hsuggested]
    constructor
    · intro h c' hc'
      split at h
      · cases h
      · next hlt => exact (Nat.lt_of_not_le hlt).trans_le (hc.le hc')
    · intro h
      rw [if_neg (h c hc.mem).not_ge]

end RobotJobs
