import Mathlib.Order.Bounds.Basic
import RobotJobs.Text.EditDistance

/-!
# Least numbers of edits

An edit inserts, deletes or replaces one element of a list (`Edit`), and `Edits n` relates two
lists if `n` edits turn the first one into the second one.  The least such number obeys a
recursion on the first elements of both lists (`distance`), because nothing is gained by edits
that do not go from the left to the right (`isLeast_distance`).

The rows of `editDistance` hold distances between beginnings of the lists, and a beginning
grows at its end.  So they are distances of reversed lists (`foldl_nextRow`), but edits can be
read from the other end as well, and what is computed is the least number of edits
(`isLeast_editDistance`).  Edits can be taken back and put one after another, so the computed
distance is a metric.
-/

namespace RobotJobs.Text

variable {α : Type} {as bs cs : List α} {n : ℕ}

/-! ### Edits -/

/-- One edit: an element is inserted, deleted or replaced, at the beginning of a list or after
elements that stay. -/
inductive Edit : List α → List α → Prop
  | insert (a : α) (as : List α) : Edit as (a :: as)
  | delete (a : α) (as : List α) : Edit (a :: as) as
  | substitute (a b : α) (as : List α) : Edit (a :: as) (b :: as)
  | further (a : α) {as bs : List α} (h : Edit as bs) : Edit (a :: as) (a :: bs)

/-- A number of edits, one after the other. -/
inductive Edits : ℕ → List α → List α → Prop
  | none (as : List α) : Edits 0 as as
  | more {n : ℕ} {as bs cs : List α} (h : Edit as bs) (hs : Edits n bs cs) : Edits (n + 1) as cs

theorem Edits.further (h : Edits n as bs) (a : α) :
  Edits n (a :: as) (a :: bs)
  := by
  induction h with
  | none as => exact .none (a :: as)
  | more h _ ih => exact .more (h.further a) ih

theorem Edits.min {m : ℕ} (hm : Edits m as bs) (hn : Edits n as bs) :
  Edits (min m n) as bs
  := by
  rcases Nat.le_total m n with h | h
  · rwa [Nat.min_eq_left h]
  · rwa [Nat.min_eq_right h]

theorem Edits.trans {m : ℕ} (hm : Edits m as bs) (hn : Edits n bs cs) :
  Edits (m + n) as cs
  := by
  induction hm with
  | none as =>
    rw [Nat.zero_add]
    apply hn
  | more h _ ih =>
    rw [Nat.add_right_comm]
    apply Edits.more h (ih hn)

/-- What one edit does another one takes back. -/
theorem Edit.symm (h : Edit as bs) :
  Edit bs as
  := by
  induction h with
  | insert a as => apply Edit.delete
  | delete a as => apply Edit.insert
  | substitute a b as => apply Edit.substitute
  | further a _ ih => apply Edit.further a ih

theorem Edits.symm (h : Edits n as bs) :
  Edits n bs as
  := by
  induction h with
  | none as => apply Edits.none
  | more h _ ih => apply ih.trans (.more h.symm (.none _))

theorem edits_nil_left (bs : List α) :
  Edits bs.length [] bs
  := by
  induction bs with
  | nil => exact .none []
  | cons b bs ih => exact .more (.insert b []) (ih.further b)

theorem edits_nil_right (as : List α) :
  Edits as.length as []
  := by
  induction as with
  | nil => exact .none []
  | cons a as ih => exact .more (.delete a as) ih

/-! ### Edits from the other end -/

theorem Edit.append (h : Edit as bs) (cs : List α) :
  Edit (as ++ cs) (bs ++ cs)
  := by
  induction h with
  | insert a as => exact .insert a (as ++ cs)
  | delete a as => exact .delete a (as ++ cs)
  | substitute a b as => exact .substitute a b (as ++ cs)
  | further a _ ih => exact .further a ih

theorem Edit.after (h : Edit as bs) (front : List α) :
  Edit (front ++ as) (front ++ bs)
  := by
  induction front with
  | nil => exact h
  | cons a front ih => exact .further a ih

theorem Edit.reverse (h : Edit as bs) :
  Edit as.reverse bs.reverse
  := by
  induction h with
  | insert a as => simpa using (Edit.insert a []).after as.reverse
  | delete a as => simpa using (Edit.delete a []).after as.reverse
  | substitute a b as => simpa using (Edit.substitute a b []).after as.reverse
  | further a _ ih => simpa using ih.append [a]

theorem Edits.reverse (h : Edits n as bs) :
  Edits n as.reverse bs.reverse
  := by
  induction h with
  | none as => exact .none as.reverse
  | more h _ ih => exact .more h.reverse ih

theorem edits_reverse_iff :
  Edits n as.reverse bs.reverse ↔ Edits n as bs
  := by
  constructor
  · intro h
    simpa using h.reverse
  · exact Edits.reverse

/-! ### The recursion -/

variable [DecidableEq α]

/-- The distance of two lists, by what becomes of their first elements. -/
def distance : List α → List α → ℕ
  | [], bs => bs.length
  | a :: as, [] => (a :: as).length
  | a :: as, b :: bs =>
    min (min (distance as (b :: bs) + 1) (distance (a :: as) bs + 1))
      (distance as bs + if a = b then 0 else 1)

@[simp]
theorem distance_nil_left (bs : List α) :
  distance [] bs = bs.length
  := by
  rw [distance]

@[simp]
theorem distance_nil_right (as : List α) :
  distance as [] = as.length
  := by
  cases as <;> rw [distance]

theorem distance_cons_cons (a b : α) (as bs : List α) :
  distance (a :: as) (b :: bs)
    = min (min (distance as (b :: bs) + 1) (distance (a :: as) bs + 1))
        (distance as bs + if a = b then 0 else 1)
  := by
  rw [distance]

theorem distance_self (as : List α) :
  distance as as = 0
  := by
  induction as with
  | nil => simp
  | cons a as ih => simp [distance_cons_cons, ih]

/-- As many edits as the distance tells are enough. -/
theorem edits_distance (as bs : List α) :
  Edits (distance as bs) as bs
  := by
  induction as, bs using distance.induct with
  | case1 bs => simpa using edits_nil_left bs
  | case2 a as => simpa using edits_nil_right (a :: as)
  | case3 a as b bs hdelete hinsert hkeep =>
    have hfirst : Edits (distance as bs + if a = b then 0 else 1) (a :: as) (b :: bs) := by
      split
      · next heq =>
        rw [heq]
        exact hkeep.further b
      · exact .more (.substitute a b as) (hkeep.further b)
    rw [distance_cons_cons]
    apply Edits.min _ hfirst
    exact .min (.more (.delete a as) hdelete) (.more (.insert b (a :: as)) (hinsert.further b))

/-! ### What one edit changes -/

theorem distance_cons_left_le (a : α) (as cs : List α) :
  distance (a :: as) cs ≤ distance as cs + 1
  := by
  cases cs with
  | nil => simp
  | cons c cs =>
    rw [distance_cons_cons]
    omega

theorem distance_cons_right_le (as : List α) (c : α) (cs : List α) :
  distance as (c :: cs) ≤ distance as cs + 1
  := by
  cases as with
  | nil => simp
  | cons a as =>
    rw [distance_cons_cons]
    omega

theorem distance_le_cons_left (a : α) (as cs : List α) :
  distance as cs ≤ distance (a :: as) cs + 1
  := by
  induction cs with
  | nil =>
    simp
    omega
  | cons c cs ih =>
    have hright := distance_cons_right_le as c cs
    rw [distance_cons_cons]
    omega

theorem distance_substitute_le (a b : α) (as cs : List α) :
  distance (a :: as) cs ≤ distance (b :: as) cs + 1
  := by
  induction cs with
  | nil => simp
  | cons c cs ih =>
    rw [distance_cons_cons, distance_cons_cons]
    split <;> split <;> omega

theorem distance_further_le (a : α) (h : ∀ cs, distance as cs ≤ distance bs cs + 1)
    (cs : List α) :
  distance (a :: as) cs ≤ distance (a :: bs) cs + 1
  := by
  induction cs with
  | nil => simpa using h []
  | cons c cs ih =>
    have hcons := h (c :: cs)
    have hcs := h cs
    rw [distance_cons_cons, distance_cons_cons]
    omega

/-- One edit changes the distance to a list by one at most. -/
theorem Edit.distance_le (h : Edit as bs) (cs : List α) :
  distance as cs ≤ distance bs cs + 1
  := by
  induction h generalizing cs with
  | insert a as => exact distance_le_cons_left a as cs
  | delete a as => exact distance_cons_left_le a as cs
  | substitute a b as => exact distance_substitute_le a b as cs
  | further a _ ih => exact distance_further_le a ih cs

/-- Fewer edits than the distance tells are not enough. -/
theorem Edits.distance_le (h : Edits n as bs) :
  distance as bs ≤ n
  := by
  induction h with
  | none as => exact (distance_self as).le
  | more h _ ih => exact (h.distance_le _).trans (Nat.succ_le_succ ih)

/-- The distance is the least number of edits that turn one list into the other. -/
theorem isLeast_distance (as bs : List α) :
  IsLeast { n | Edits n as bs } (distance as bs)
  := ⟨edits_distance as bs, fun _ => Edits.distance_le⟩

/-! ### Row by row -/

/-- The distances from `p` to `q` and to the lists that come about when the elements of a list
are put in front of `q` one after the other. -/
def distances (p q : List α) : List α → List ℕ
  | [] => [distance p q]
  | b :: bs => distance p q :: distances p (b :: q) bs

theorem distances_eq_cons (p q bs : List α) :
  ∃ row, distances p q bs = distance p q :: row
  := by
  cases bs with
  | nil => exact ⟨_, rfl⟩
  | cons b bs => exact ⟨_, rfl⟩

theorem distances_nil (q bs : List α) :
  distances [] q bs = List.range' q.length (bs.length + 1)
  := by
  induction bs generalizing q with
  | nil => simp [distances]
  | cons b bs ih =>
    rw [distances, ih, List.length_cons, List.length_cons, List.range'_succ (n := bs.length + 1)]
    simp

theorem getLastD_distances (p q bs : List α) :
  (distances p q bs).getLastD 0 = distance p (bs.reverse ++ q)
  := by
  induction bs generalizing q with
  | nil => rfl
  | cons b bs ih =>
    obtain ⟨row, hrow⟩ := distances_eq_cons p (b :: q) bs
    have hlast := ih (b :: q)
    rw [hrow] at hlast
    rw [distances, hrow, List.reverse_cons, List.append_assoc, List.singleton_append, ← hlast]
    rfl

/-- The entries of a row after its first one are distances if those of the row before are. -/
theorem cons_nextDistances (a : α) (p q bs : List α) :
  distance (a :: p) q :: nextDistances a bs (distance (a :: p) q) (distances p q bs)
    = distances (a :: p) q bs
  := by
  induction bs generalizing q with
  | nil => rfl
  | cons b bs ih =>
    obtain ⟨row, hrow⟩ := distances_eq_cons p (b :: q) bs
    have hrest := ih (b :: q)
    rw [hrow] at hrest
    rw [distances, distances, hrow, nextDistances, ← distance_cons_cons, hrest]

theorem nextRow_distances (a : α) (p bs : List α) :
  nextRow bs (distances p [] bs) a = distances (a :: p) [] bs
  := by
  obtain ⟨row, hrow⟩ := distances_eq_cons p [] bs
  have hfirst : (distances p [] bs).headD 0 + 1 = distance (a :: p) [] := by
    rw [hrow]
    simp
  rw [nextRow, hfirst, cons_nextDistances]

/-- The row for some beginning of the first list holds the distances from it to all beginnings
of the second list, all of them reversed. -/
theorem foldl_nextRow (as p bs : List α) :
  as.foldl (nextRow bs) (distances p [] bs) = distances (as.reverse ++ p) [] bs
  := by
  induction as generalizing p with
  | nil => rfl
  | cons a as ih =>
    rw [List.foldl_cons, nextRow_distances, ih, List.reverse_cons, List.append_assoc]
    rfl

theorem editDistance_eq (as bs : List α) :
  editDistance as bs = distance as.reverse bs.reverse
  := by
  unfold editDistance
  split
  · next heq => rw [heq, distance_self]
  · have hfirst : List.range (bs.length + 1) = distances [] [] bs := by
      rw [distances_nil, List.range_eq_range']
      rfl
    rw [hfirst, foldl_nextRow, getLastD_distances, List.append_nil, List.append_nil]

/-- What is computed is the least number of edits that turn one list into the other. -/
theorem isLeast_editDistance (as bs : List α) :
  IsLeast { n | Edits n as bs } (editDistance as bs)
  := by
  rw [editDistance_eq]
  simpa only [edits_reverse_iff] using isLeast_distance as.reverse bs.reverse

/-! ### The distance as a metric -/

theorem editDistance_le (h : Edits n as bs) :
  editDistance as bs ≤ n
  := (isLeast_editDistance as bs).2 h

theorem edits_editDistance (as bs : List α) :
  Edits (editDistance as bs) as bs
  := (isLeast_editDistance as bs).1

/-- What is computed is the distance of the recursion. -/
theorem editDistance_eq_distance (as bs : List α) :
  editDistance as bs = distance as bs
  := (isLeast_editDistance as bs).unique (isLeast_distance as bs)

theorem editDistance_eq_zero_iff :
  editDistance as bs = 0 ↔ as = bs
  := by
  constructor
  · intro h
    have hedits := edits_editDistance as bs
    rw [h] at hedits
    cases hedits
    rfl
  · rintro rfl
    rw [editDistance, if_pos rfl]

theorem editDistance_comm (as bs : List α) :
  editDistance as bs = editDistance bs as
  := by
  apply Nat.le_antisymm
  · apply editDistance_le (edits_editDistance bs as).symm
  · apply editDistance_le (edits_editDistance as bs).symm

theorem editDistance_triangle (as bs cs : List α) :
  editDistance as cs ≤ editDistance as bs + editDistance bs cs
  := by
  apply editDistance_le
  apply (edits_editDistance as bs).trans (edits_editDistance bs cs)

end RobotJobs.Text
