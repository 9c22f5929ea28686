import RobotJobs.Call.Traversal

/-!
# Following references

`visit` recurses as deep as its budget allows.  The relation `Follows` says what it does
without a budget: the references of a caller are taken in order, each called job is
entered, what it refers to is followed, and the calls below it are put under its name.
`Visits` is the same for a single job.  Both depend on a store only through its answers
about jobs.

A budget beyond the number of names that have not been visited is never used up, so every
walk is a visit in this sense (`visits_walk`).
-/

namespace RobotJobs

/-- What is answered about a job: the jobs it refers to, or the problem with its file. -/
abbrev CallAnswer := JobName → Except Problem (List JobName)

namespace Traversal

/-- The traversal after a job has been entered, and the references to follow from there.
There are none from a job that was visited before, nor from one with a problem. -/
def enter (t : Traversal) (answer : CallAnswer) (job : JobName) :
    Traversal × List JobName :=
  if t.visited.contains job then (t.record (.again job), [])
  else match answer job with
    | .error problem => ((t.mark job).record (.problem problem), [])
    | .ok jobs => (t.mark job, jobs)

variable {t : Traversal} {answer : CallAnswer} {job name : JobName}

@[simp]
theorem visited_record (t : Traversal) (event : CallEvent) :
  (t.record event).visited = t.visited
  := rfl

@[simp]
theorem listing_record (t : Traversal) (event : CallEvent) :
  (t.record event).listing = t.listing
  := rfl

@[simp]
theorem visited_mark (t : Traversal) (job : JobName) :
  (t.mark job).visited = job :: t.visited
  := rfl

@[simp]
theorem listing_mark (t : Traversal) (job : JobName) :
  (t.mark job).listing = t.listing
  := rfl

theorem enter_visited (h : job ∈ t.visited) :
  t.enter answer job = (t.record (.again job), [])
  := by
  simp [enter, h]

theorem enter_error {problem : Problem} (h : job ∉ t.visited)
    (hanswer : answer job = .error problem) :
  t.enter answer job = ((t.mark job).record (.problem problem), [])
  := by
  simp [enter, h, hanswer]

theorem enter_ok {jobs : List JobName} (h : job ∉ t.visited) (hanswer : answer job = .ok jobs) :
  t.enter answer job = (t.mark job, jobs)
  := by
  simp [enter, h, hanswer]

/-- After a job has been entered, it is visited, and so is what was visited before. -/
theorem mem_visited_enter :
  name ∈ (t.enter answer job).1.visited ↔ name = job ∨ name ∈ t.visited
  := by
  by_cases h : job ∈ t.visited
  · rw [enter_visited h, visited_record]
    constructor
    · apply Or.inr
    · rintro (rfl | hname)
      · exact h
      · exact hname
  · cases hanswer : answer job with
    | error problem => simp [enter_error h hanswer]
    | ok jobs => simp [enter_ok h hanswer]

@[simp]
theorem listing_enter : (t.enter answer job).1.listing = t.listing
  := by
  by_cases h : job ∈ t.visited
  · simp [enter_visited h]
  · cases hanswer : answer job with
    | error problem => simp [enter_error h hanswer]
    | ok jobs => simp [enter_ok h hanswer]

/-- References are followed only from a job that is entered for the first time, and they
are the ones that are answered. -/
theorem enter_of_mem (h : name ∈ (t.enter answer job).2) :
  job ∉ t.visited ∧ ∃ jobs, answer job = .ok jobs ∧ t.enter answer job = (t.mark job, jobs)
  := by
  by_cases hvisited : job ∈ t.visited
  · simp [enter_visited hvisited] at h
  · cases hanswer : answer job with
    | error problem => simp [enter_error hvisited hanswer] at h
    | ok jobs => exact ⟨hvisited, jobs, rfl, enter_ok hvisited hanswer⟩

/-- How many of the given names have not been visited. -/
def pending (t : Traversal) (names : List JobName) : Nat :=
  (names.filter fun name => !t.visited.contains name).length

theorem pending_eq_countP (t : Traversal) (names : List JobName) :
  t.pending names = names.countP fun name => !t.visited.contains name
  := List.countP_eq_length_filter.symm

theorem pending_le {t t' : Traversal} (h : ∀ name ∈ t.visited, name ∈ t'.visited)
    (names : List JobName) :
  t'.pending names ≤ t.pending names
  := by
  rw [pending_eq_countP, pending_eq_countP]
  apply List.countP_mono_left
  intro name _ hname
  simp only [Bool.not_eq_true', List.contains_eq_mem, decide_eq_false_iff_not] at hname ⊢
  exact fun hvisited => hname (h name hvisited)

/-- Marking a job as visited leaves fewer names that are not. -/
theorem pending_mark_lt {names : List JobName} (hjob : job ∈ names) (h : job ∉ t.visited) :
  (t.mark job).pending names < t.pending names
  := by
  induction names with
  | nil => cases hjob
  | cons head tail ih =>
    have hle : (t.mark job).pending tail ≤ t.pending tail := by
      apply pending_le
      intro name hname
      exact List.mem_cons_of_mem _ hname
    by_cases hhead : head = job
    · subst hhead
      have hleft : (t.mark head).pending (head :: tail) = (t.mark head).pending tail := by
        simp [pending]
      have hright : t.pending (head :: tail) = t.pending tail + 1 := by
        simp [pending, h]
      omega
    · have hlt := ih ((List.mem_cons.1 hjob).resolve_left (Ne.symm hhead))
      by_cases hvisited : head ∈ t.visited
      · simpa [pending, hhead, hvisited] using hlt
      · simpa [pending, hhead, hvisited] using hlt

end Traversal

/-- The references of a caller are followed in order: from the calls and the traversal before
them to the calls and the traversal after them. -/
inductive Follows (answer : CallAnswer) :
    JobName → List JobName → Calls → Traversal → Calls → Traversal → Prop where
  | done (caller : JobName) (calls : Calls) (t : Traversal) :
      Follows answer caller [] calls t calls t
  | next {caller called : JobName} {rest : List JobName} {calls below calls' : Calls}
      {t t₁ t' : Traversal}
      (inside : Follows answer called
        ((t.record (.reference caller called)).enter answer called).2 .none
        ((t.record (.reference caller called)).enter answer called).1 below t₁)
      (after : Follows answer caller rest (calls.insert called below) t₁ calls' t') :
      Follows answer caller (called :: rest) calls t calls' t'

/-- A job is visited: it is entered and its references are followed. -/
def Visits (answer : CallAnswer) (job : JobName) (t : Traversal) (calls : Calls)
    (t' : Traversal) : Prop :=
  Follows answer job (t.enter answer job).2 .none (t.enter answer job).1 calls t'

namespace Follows

variable {answer : CallAnswer} {caller : JobName} {jobs : List JobName}
  {calls calls' : Calls} {t t' : Traversal}

theorem listing_eq (h : Follows answer caller jobs calls t calls' t') :
  t'.listing = t.listing
  := by
  induction h with
  | done => rfl
  | next _ _ ihInside ihAfter => rw [ihAfter, ihInside, Traversal.listing_enter,
      Traversal.listing_record]

/-- What was visited stays visited. -/
theorem visited_subset (h : Follows answer caller jobs calls t calls' t') :
  ∀ name ∈ t.visited, name ∈ t'.visited
  := by
  induction h with
  | done => exact fun _ hname => hname
  | next _ _ ihInside ihAfter =>
    intro name hname
    apply ihAfter
    apply ihInside
    exact Traversal.mem_visited_enter.2 (.inr hname)

end Follows

namespace Visits

variable {answer : CallAnswer} {job : JobName} {calls : Calls} {t t' : Traversal}

theorem visited_subset (h : Visits answer job t calls t') :
  ∀ name ∈ t.visited, name ∈ t'.visited
  := by
  intro name hname
  apply Follows.visited_subset h
  exact Traversal.mem_visited_enter.2 (.inr hname)

/-- A job is visited by the end of a visit of it. -/
theorem job_visited (h : Visits answer job t calls t') :
  job ∈ t'.visited
  := by
  apply Follows.visited_subset h
  exact Traversal.mem_visited_enter.2 (.inl rfl)

end Visits

namespace FileView

variable (view : FileView) (folder : JobFolder)

/-- The references of a caller, followed with a budget for each visit. -/
def follow (budget : Nat) (caller : JobName) (jobs : List JobName) (calls : Calls)
    (t : Traversal) : Calls × Traversal :=
  jobs.foldl (fun (calls, t) called =>
    let (below, t) := view.visit folder budget called (t.record (.reference caller called))
    (calls.insert called below, t)) (calls, t)

theorem follow_cons (budget : Nat) (caller called : JobName) (rest : List JobName)
    (calls : Calls) (t : Traversal) :
  view.follow folder budget caller (called :: rest) calls t
    = view.follow folder budget caller rest
        (calls.insert called
          (view.visit folder budget called (t.record (.reference caller called))).1)
        (view.visit folder budget called (t.record (.reference caller called))).2
  := rfl

/-- A visit enters the job and follows what there is to follow. -/
theorem visit_succ (budget : Nat) (job : JobName) (t : Traversal) :
  view.visit folder (budget + 1) job t
    = view.follow folder budget job (t.enter (view.callsOf folder t.listing) job).2 .none
        (t.enter (view.callsOf folder t.listing) job).1
  := by
  by_cases h : job ∈ t.visited
  · rw [Traversal.enter_visited h]
    simp [visit, h, follow]
  · cases hanswer : view.callsOf folder t.listing job with
    | error problem =>
      rw [Traversal.enter_error h hanswer]
      simp [visit, h, hanswer, follow]
    | ok jobs =>
      rw [Traversal.enter_ok h hanswer]
      simp [visit, h, hanswer, follow]

variable {view folder} {listing : Option (List String)}

/-- References are followed completely if the budget suffices for every visit. -/
theorem follows_follow {names : List JobName} {budget : Nat}
    (hvisit : ∀ job t, t.listing = listing → job ∈ names → t.pending names < budget →
      Visits (view.callsOf folder listing) job t (view.visit folder budget job t).1
        (view.visit folder budget job t).2)
    (caller : JobName) (jobs : List JobName) (hjobs : ∀ job ∈ jobs, job ∈ names)
    (calls : Calls) (t : Traversal) (hlisting : t.listing = listing)
    (hbudget : t.pending names < budget) :
  Follows (view.callsOf folder listing) caller jobs calls t
    (view.follow folder budget caller jobs calls t).1
    (view.follow folder budget caller jobs calls t).2
  := by
  induction jobs generalizing calls t with
  | nil => exact .done caller calls t
  | cons called rest ih =>
    have hinside := hvisit called (t.record (.reference caller called)) hlisting
      (hjobs called List.mem_cons_self) hbudget
    rw [follow_cons]
    apply Follows.next hinside
    apply ih
    · intro job hjob
      exact hjobs job (List.mem_cons_of_mem _ hjob)
    · rw [Follows.listing_eq hinside, Traversal.listing_enter]
      exact hlisting
    · apply Nat.lt_of_le_of_lt _ hbudget
      apply Traversal.pending_le
      exact hinside.visited_subset

/-- A visit is complete if its budget is greater than the number of names that can occur
and have not been visited: the visit marks one of them before it recurses. -/
theorem visits_visit (names : List JobName)
    (hnames : ∀ job jobs, view.callsOf folder listing job = .ok jobs → ∀ called ∈ jobs,
      called ∈ names)
    (budget : Nat) (job : JobName) (t : Traversal) (hlisting : t.listing = listing)
    (hjob : job ∈ names) (hbudget : t.pending names < budget) :
  Visits (view.callsOf folder listing) job t (view.visit folder budget job t).1
    (view.visit folder budget job t).2
  := by
  induction budget generalizing job t with
  | zero => omega
  | succ budget ih =>
    rw [visit_succ, hlisting]
    unfold Visits
    rcases hfollow : (t.enter (view.callsOf folder listing) job).2 with _ | ⟨called, rest⟩
    · exact .done _ _ _
    · obtain ⟨hnew, jobs, hanswer, henter⟩ :=
        Traversal.enter_of_mem (hfollow ▸ List.mem_cons_self)
      rw [← hfollow, henter]
      apply follows_follow ih
      · exact hnames job jobs hanswer
      · exact hlisting
      · have hmark := Traversal.pending_mark_lt hjob hnew
        exact Nat.lt_of_lt_of_le hmark (Nat.le_of_lt_succ hbudget)

theorem mem_namesFrom {job name : JobName} :
  name ∈ view.namesFrom folder job
    ↔ name = job ∨ ∃ bytes ∈ view.contents, name ∈ Reference.inBytes folder.marker bytes
  := by
  simp [namesFrom]

/-- Only references in the store are ever followed. -/
theorem mem_namesFrom_of_callsOf {job root called : JobName} {jobs : List JobName}
    (h : view.callsOf folder listing job = .ok jobs) (hcalled : called ∈ jobs) :
  called ∈ view.namesFrom folder root
  := by
  unfold callsOf at h
  split at h
  · cases h
  · split at h
    · cases h
    · split at h
      · next bytes hread =>
        cases h
        exact mem_namesFrom.2 (.inr ⟨bytes, view.mem_contents hread, hcalled⟩)
      · cases h

/-- A visit is complete if its budget is greater than the number of names that can occur in
the store and have not been visited. -/
theorem visits_of_budget_lt {budget : Nat} {job : JobName} {t : Traversal}
    (h : view.budget folder job t < budget) :
  Visits (view.callsOf folder t.listing) job t (view.visit folder budget job t).1
    (view.visit folder budget job t).2
  := by
  apply visits_visit (view.namesFrom folder job)
  · intro caller jobs hanswer called hcalled
    exact mem_namesFrom_of_callsOf hanswer hcalled
  · rfl
  · exact mem_namesFrom.2 (.inl rfl)
  · exact h

/-- A walk follows all references. -/
theorem visits_walk (job : JobName) (t : Traversal) :
  Visits (view.callsOf folder t.listing) job t (view.walk folder job t).1
    (view.walk folder job t).2
  := visits_of_budget_lt (Nat.lt_succ_self _)

end FileView

end RobotJobs
