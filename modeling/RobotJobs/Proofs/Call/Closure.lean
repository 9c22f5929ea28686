import Mathlib.Data.Set.Defs
import RobotJobs.Proofs.Call.Following

/-!
# What has been visited

A visit never expands a job twice and cuts every repeated name to a name without calls.
Nothing is lost by that: a name that is visited by the end and was not before has all its
references among the visited names (`Follows.visited_closed`).  Nor is anything added:
nothing is visited outside a closed set that has what is followed
(`Follows.visited_of_callClosed`).
-/

namespace RobotJobs

/-- A set of names has, with every job that answers, the jobs that it refers to. -/
def CallClosed (answer : CallAnswer) (names : Set JobName) : Prop :=
  ∀ job ∈ names, ∀ jobs, answer job = .ok jobs → ∀ called ∈ jobs, called ∈ names

variable {answer : CallAnswer} {caller job called : JobName} {jobs : List JobName}
  {calls calls' : Calls} {t t' : Traversal} {names : Set JobName}

/-- A closed set has the references that are followed from a job in it. -/
theorem CallClosed.mem_of_mem_enter (h : CallClosed answer names) (hjob : job ∈ names)
    (hcalled : called ∈ (t.enter answer job).2) :
  called ∈ names
  := by
  obtain ⟨-, jobs, hanswer, henter⟩ := Traversal.enter_of_mem hcalled
  rw [henter] at hcalled
  exact h job hjob jobs hanswer called hcalled

/-- Entering a job of a set visits nothing outside the set. -/
theorem Traversal.visited_or_of_enter {name : JobName} (hjob : job ∈ names)
    (h : name ∈ (t.enter answer job).1.visited ∨ name ∈ names) :
  name ∈ t.visited ∨ name ∈ names
  := by
  rcases h with h | h
  · rcases Traversal.mem_visited_enter.1 h with rfl | h
    · exact .inr hjob
    · exact .inl h
  · exact .inr h

/-- Every reference that is followed is visited. -/
theorem Follows.visited_of_mem (h : Follows answer caller jobs calls t calls' t') :
  ∀ called ∈ jobs, called ∈ t'.visited
  := by
  induction h with
  | done => exact fun _ hcalled => nomatch hcalled
  | next inside after _ ihAfter =>
    intro name hname
    rcases List.mem_cons.1 hname with rfl | hname
    · apply after.visited_subset
      exact Visits.job_visited inside
    · exact ihAfter name hname

/-- The references of a job that is visited for the first time are visited. -/
theorem Visits.visited_of_answer (h : Visits answer job t calls t')
    (hnew : job ∉ t.visited) (hanswer : answer job = .ok jobs) :
  ∀ called ∈ jobs, called ∈ t'.visited
  := by
  unfold Visits at h
  rw [Traversal.enter_ok hnew hanswer] at h
  exact h.visited_of_mem

/-- A name visited on the way has all its references visited at the end. -/
theorem Follows.visited_closed (h : Follows answer caller jobs calls t calls' t') :
  ∀ name ∈ t'.visited, name ∉ t.visited → ∀ jobs, answer name = .ok jobs →
    ∀ called ∈ jobs, called ∈ t'.visited
  := by
  induction h with
  | done => exact fun _ hname hnew => absurd hname hnew
  | @next caller called rest calls below calls' t t₁ t' inside after ihInside ihAfter =>
    intro name hname hnew jobs hanswer name' hname'
    by_cases h₁ : name ∈ t₁.visited
    · -- It was visited below the first reference, or it is the first reference itself.
      apply after.visited_subset
      by_cases hname₁ : name = called
      · subst hname₁
        exact Visits.visited_of_answer inside hnew hanswer name' hname'
      · refine ihInside name h₁ (fun hentered => ?_) jobs hanswer name' hname'
        exact (Traversal.mem_visited_enter.1 hentered).elim hname₁ hnew
    · exact ihAfter name hname h₁ jobs hanswer name' hname'

/-- A name visited by the end of a visit has all its references visited at the end. -/
theorem Visits.visited_closed (h : Visits answer job t calls t') :
  ∀ name ∈ t'.visited, name ∉ t.visited → ∀ jobs, answer name = .ok jobs →
    ∀ called ∈ jobs, called ∈ t'.visited
  := by
  intro name hname hnew jobs hanswer
  by_cases hjob : name = job
  · subst hjob
    exact h.visited_of_answer hnew hanswer
  · apply Follows.visited_closed h name hname _ jobs hanswer
    intro hentered
    exact (Traversal.mem_visited_enter.1 hentered).elim hjob hnew

/-- Nothing is visited outside a closed set that has the references. -/
theorem Follows.visited_of_callClosed (hnames : CallClosed answer names)
    (h : Follows answer caller jobs calls t calls' t') :
  (∀ called ∈ jobs, called ∈ names) → ∀ name ∈ t'.visited, name ∈ t.visited ∨ name ∈ names
  := by
  induction h with
  | done => exact fun _ _ hname => .inl hname
  | @next caller called rest calls below calls' t t₁ t' _ _ ihInside ihAfter =>
    intro hjobs name hname
    have hcalled : called ∈ names := hjobs called List.mem_cons_self
    rcases ihAfter (fun job hjob => hjobs job (List.mem_cons_of_mem _ hjob)) name hname with h | h
    · apply Traversal.visited_or_of_enter (t := t.record _) hcalled
      exact ihInside (fun _ => hnames.mem_of_mem_enter hcalled) name h
    · exact .inr h

/-- A visit of a job in a closed set visits nothing outside. -/
theorem Visits.visited_of_callClosed (hnames : CallClosed answer names) (hjob : job ∈ names)
    (h : Visits answer job t calls t') :
  ∀ name ∈ t'.visited, name ∈ t.visited ∨ name ∈ names
  := by
  intro name hname
  apply Traversal.visited_or_of_enter hjob
  exact Follows.visited_of_callClosed hnames h (fun _ => hnames.mem_of_mem_enter hjob) name hname

end RobotJobs
