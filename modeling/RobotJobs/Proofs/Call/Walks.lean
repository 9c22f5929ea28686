import Mathlib.Logic.Relation
import RobotJobs.Proofs.Call.ProblemOrder
import RobotJobs.Proofs.Call.Root

/-!
# Several walks in one traversal

A traversal can walk several jobs one after another.  Every later walk is cut where it meets
what was visited by the earlier ones, so its calls depend on the order; what has been
visited in the end does not.  For after every walk the visited names are closed under calls
(`Visits.callClosed`), and then one more walk adds exactly what the walked job reaches
(`Visits.mem_visited_iff`).  So the names that are visited after walks of given jobs are
those reached from them, there is one problem for each of these that cannot be loaded, and
neither depends on the order of the jobs or on their repetition
(`FileView.mem_visited_walkAll_iff`).
-/

namespace RobotJobs

/-- A job is answered with a reference to another one. -/
def CallAnswer.Refers (answer : CallAnswer) (caller called : JobName) : Prop :=
  ∃ jobs, answer caller = .ok jobs ∧ called ∈ jobs

variable {answer : CallAnswer} {job name : JobName} {names : Set JobName} {calls : Calls}
  {t t' : Traversal}

/-- A closed set has everything that is reached from a job in it. -/
theorem CallClosed.mem_of_reaches (h : CallClosed answer names) (hjob : job ∈ names)
    (hname : Relation.ReflTransGen answer.Refers job name) :
  name ∈ names
  := by
  induction hname with
  | refl => apply hjob
  | tail _ hrefers ih =>
    obtain ⟨jobs, hanswer, hcalled⟩ := hrefers
    apply h _ ih jobs hanswer _ hcalled

/-- What is reached from a job is closed. -/
theorem callClosed_reaches (answer : CallAnswer) (job : JobName) :
  CallClosed answer {name | Relation.ReflTransGen answer.Refers job name}
  := by
  intro caller hcaller jobs hanswer called hcalled
  apply Relation.ReflTransGen.tail hcaller
  exact ⟨jobs, hanswer, hcalled⟩

/-- If the visited names are closed before a visit, they are closed after it. -/
theorem Visits.callClosed (h : Visits answer job t calls t')
    (hclosed : CallClosed answer {name | name ∈ t.visited}) :
  CallClosed answer {name | name ∈ t'.visited}
  := by
  intro caller hcaller jobs hanswer called hcalled
  by_cases hvisited : caller ∈ t.visited
  · apply h.visited_subset
    apply hclosed caller hvisited jobs hanswer called hcalled
  · apply h.visited_closed caller hcaller hvisited jobs hanswer called hcalled

/-- If the visited names are closed before a visit, the visit adds what the job reaches. -/
theorem Visits.mem_visited_iff (h : Visits answer job t calls t')
    (hclosed : CallClosed answer {name | name ∈ t.visited}) :
  name ∈ t'.visited ↔ name ∈ t.visited ∨ Relation.ReflTransGen answer.Refers job name
  := by
  constructor
  · intro hname
    apply h.visited_of_callClosed (callClosed_reaches answer job) .refl name hname
  · rintro (hname | hname)
    · apply h.visited_subset name hname
    · apply (h.callClosed hclosed).mem_of_reaches h.job_visited hname

namespace FileView

variable {view : FileView} {folder : JobFolder} {listing : Option (List String)}
  {jobs : List JobName} {caller called : JobName}

/-- A job can be loaded and its file refers to another one. -/
def Refers (view : FileView) (folder : JobFolder) (listing : Option (List String))
    (caller called : JobName) : Prop :=
  ∃ bytes, view.LoadsListed folder listing caller bytes
    ∧ called ∈ Reference.inBytes folder.marker bytes

theorem refers_callsOf (view : FileView) (folder : JobFolder) (listing : Option (List String)) :
  CallAnswer.Refers (view.callsOf folder listing) = view.Refers folder listing
  := by
  funext caller called
  simp only [CallAnswer.Refers, callsOf_eq_ok_iff, Refers]
  apply propext
  constructor
  · rintro ⟨_, ⟨bytes, hloads, rfl⟩, hcalled⟩
    exact ⟨bytes, hloads, hcalled⟩
  · rintro ⟨bytes, hloads, hcalled⟩
    exact ⟨_, ⟨bytes, hloads, rfl⟩, hcalled⟩

instance (view : FileView) (folder : JobFolder) (listing : Option (List String))
    (job : JobName) : Decidable (∃ bytes, view.LoadsListed folder listing job bytes) :=
  decidable_of_iff (¬ ∃ p, view.callsOf folder listing job = .error p) (by
    rw [exists_callsOf_error_iff, not_not])

/-- The traversal after jobs have been walked one after another. -/
def walkAll (view : FileView) (folder : JobFolder) (jobs : List JobName) (t : Traversal) :
    Traversal :=
  jobs.foldl (fun t job => (view.walk folder job t).2) t

theorem listing_walk (view : FileView) (folder : JobFolder) (job : JobName) (t : Traversal) :
  (view.walk folder job t).2.listing = t.listing
  := by
  rw [Follows.listing_eq (visits_walk job t), Traversal.listing_enter]

/-- Walks put nodes into trees, one walk after another. -/
theorem lays_walkAll (view : FileView) (folder : JobFolder) (jobs : List JobName)
    (t : Traversal) :
  ∃ nodes, Traversal.Lays (view.callsOf folder t.listing) t nodes (view.walkAll folder jobs t)
  := by
  induction jobs generalizing t with
  | nil => exact ⟨[], .refl _ t⟩
  | cons job jobs ih =>
    obtain ⟨nodes, hnodes⟩ := ih (view.walk folder job t).2
    rw [listing_walk] at hnodes
    exact ⟨_, (visits_walk job t).lays.trans hnodes⟩

/-- If the visited names are closed, walks add what the walked jobs reach. -/
theorem mem_visited_walkAll (t : Traversal)
    (hclosed : CallClosed (view.callsOf folder t.listing) {name | name ∈ t.visited}) :
  name ∈ (view.walkAll folder jobs t).visited
    ↔ name ∈ t.visited ∨ ∃ job ∈ jobs,
      Relation.ReflTransGen (CallAnswer.Refers (view.callsOf folder t.listing)) job name
  := by
  induction jobs generalizing t with
  | nil => simp [walkAll]
  | cons job jobs ih =>
    have hvisits := @visits_walk view folder job t
    have hnext := ih (view.walk folder job t).2
    rw [listing_walk] at hnext
    rw [walkAll, List.foldl_cons, ← walkAll, hnext (hvisits.callClosed hclosed),
      hvisits.mem_visited_iff hclosed, or_assoc]
    simp only [List.mem_cons, exists_eq_or_imp]

/-- What one traversal has visited after walks of given jobs is what is reached from these.
It has one problem for every such name that cannot be loaded, and no other.  Neither the
visited names nor the problems depend on the order of the jobs or on their repetition. -/
theorem mem_visited_walkAll_iff (view : FileView) (folder : JobFolder)
    (listing : Option (List String)) (jobs : List JobName) :
  (∀ name, name ∈ (view.walkAll folder jobs { listing }).visited
      ↔ ∃ job ∈ jobs, Relation.ReflTransGen (view.Refers folder listing) job name)
    ∧ (∀ job, ((view.walkAll folder jobs { listing }).problems.map Problem.job).count job
      = if job ∈ (view.walkAll folder jobs { listing }).visited
          ∧ ¬ ∃ bytes, view.LoadsListed folder listing job bytes then 1 else 0)
    ∧ ∀ jobs', (∀ job, job ∈ jobs' ↔ job ∈ jobs) →
      (∀ name, name ∈ (view.walkAll folder jobs' { listing }).visited
        ↔ name ∈ (view.walkAll folder jobs { listing }).visited)
      ∧ ∀ p, p ∈ (view.walkAll folder jobs' { listing }).problems
        ↔ p ∈ (view.walkAll folder jobs { listing }).problems
  := by
  have hvisited (jobs : List JobName) (name : JobName) :
      name ∈ (view.walkAll folder jobs { listing }).visited
        ↔ ∃ job ∈ jobs, Relation.ReflTransGen (view.Refers folder listing) job name := by
    rw [mem_visited_walkAll _ (fun _ hname => absurd hname List.not_mem_nil), refers_callsOf]
    simp
  have hproblems (jobs : List JobName) (p : Problem) :
      p ∈ (view.walkAll folder jobs { listing }).problems
        ↔ ∃ name ∈ (view.walkAll folder jobs { listing }).visited,
          view.callsOf folder listing name = .error p := by
    obtain ⟨nodes, hlays⟩ := lays_walkAll view folder jobs { listing }
    rw [hlays.accounts.problems]
    simp [Traversal.problems]
  refine ⟨hvisited jobs, ?_, ?_⟩
  · intro job
    obtain ⟨nodes, hlays⟩ := lays_walkAll view folder jobs { listing }
    simp only [← exists_callsOf_error_iff]
    apply hlays.count_problems rfl rfl
    exact fun _ _ => job_of_callsOf_error
  · intro jobs' hjobs
    have hsame (name : JobName) :
        name ∈ (view.walkAll folder jobs' { listing }).visited
          ↔ name ∈ (view.walkAll folder jobs { listing }).visited := by
      simp only [hvisited, hjobs]
    use hsame
    intro p
    simp only [hproblems, hsame]

/-- A caller and the job that it refers to, walked in either order and more than once. -/
theorem mem_visited_walkAll_withCaller :
  (∀ job, job ∈ [⟨"B"⟩, ⟨"A"⟩, ⟨"B"⟩] ↔ job ∈ ([⟨"A"⟩, ⟨"B"⟩] : List JobName))
    ∧ ∀ name, name ∈ ((Memory.withCaller [0x41]).view.walkAll Memory.sampleFolder
          [⟨"B"⟩, ⟨"A"⟩, ⟨"B"⟩] {}).visited
        ↔ name ∈ ((Memory.withCaller [0x41]).view.walkAll Memory.sampleFolder
          [⟨"A"⟩, ⟨"B"⟩] {}).visited
  := by
  have hjobs : ∀ job, job ∈ [⟨"B"⟩, ⟨"A"⟩, ⟨"B"⟩] ↔ job ∈ ([⟨"A"⟩, ⟨"B"⟩] : List JobName) := by
    intro job
    simp only [List.mem_cons, List.not_mem_nil, or_false]
    tauto
  use hjobs
  apply ((mem_visited_walkAll_iff _ _ none _).2.2 _ hjobs).1

end FileView

end RobotJobs
