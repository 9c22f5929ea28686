import Mathlib.Data.Set.Card
import RobotJobs.Proofs.Call.Agreement
import RobotJobs.Proofs.Call.Expansion

/-!
# How deep visits nest

That references can be followed says what comes out of it, and not how many visits are made
inside one another on the way.  `FollowsWith` is `Follows` with a record of the visits: a
`VisitTree` has a node for every visit, with its job, the traversal it begins with and the
visits made inside it.  Whatever can be followed can be followed with exactly one record
(`Follows.exists_followsWith`, `FollowsWith.toFollows`, `FollowsWith.unique`).

Among names that can occur, a visit returns at once or leaves fewer pending for the visits
inside it than it finds itself (`FollowsWith.descends`).  Hence visits nest no deeper than
there are pending names (`VisitTree.Descends.depth_le`).  Every name is entered once
(`FollowsWith.entersOnce`), and a walk depends on no more of a store than one reading for
each of the names that are read (`FileView.walk_congr_of_reads`).  For the names in a store
this bounds the walk of any job in any traversal, and every budget beyond that bound leads to
the same walk (`FileView.nesting_walk`).
-/

namespace RobotJobs

/-- Visits made one after the other: the job of the first one, the traversal it begins with,
the visits made inside it, and the visits after it. -/
inductive VisitTree where
  | none
  | visit (job : JobName) (before : Traversal) (inside others : VisitTree)

namespace FileView

/-- Whether a store is asked for the file of a job when the job is entered. -/
def asks (folder : JobFolder) (listing : Option (List String)) (job : JobName) : Bool :=
  job.isFileStem && isListed listing (folder.fileName job)

/-- What a store answers about a job depends on one reading at most, and on none if the job
is no file stem or not listed. -/
theorem callsOf_congr_of_asks {view view' : FileView} {folder : JobFolder}
    {listing : Option (List String)} {job : JobName}
    (h : asks folder listing job = true →
      view'.read (folder.jobPath job) = view.read (folder.jobPath job)) :
  view'.callsOf folder listing job = view.callsOf folder listing job
  := by
  unfold callsOf
  by_cases hstem : job.isFileStem = true
  · by_cases hlisted : isListed listing (folder.fileName job) = true
    · rw [h (by simp [asks, hstem, hlisted])]
    · simp [hlisted]
  · simp [hstem]

end FileView

namespace VisitTree

/-- How many visits are made inside one another. -/
def depth : VisitTree → Nat
  | none => 0
  | visit _ _ inside others => max (inside.depth + 1) others.depth

/-- The traversals that the outer visits begin with. -/
def starts : VisitTree → List Traversal
  | none => []
  | visit _ t _ others => t :: others.starts

/-- The jobs that are visited for the first time, in order. -/
def entered : VisitTree → List JobName
  | none => []
  | visit job t inside others =>
    (if job ∈ t.visited then [] else [job]) ++ inside.entered ++ others.entered

/-- The jobs whose files are read, in order. -/
def reads (folder : JobFolder) (listing : Option (List String)) (visits : VisitTree) :
    List JobName :=
  visits.entered.filter (FileView.asks folder listing)

/-- Every visit returns at once because its job has been visited, or the visits inside it
begin with fewer pending names than it does itself. -/
def Descends (names : List JobName) : VisitTree → Prop
  | none => True
  | visit job t inside others =>
    (job ∈ t.visited ∧ inside = none
        ∨ job ∉ t.visited ∧ ∀ s ∈ inside.starts, s.pending names < t.pending names)
      ∧ inside.Descends names ∧ others.Descends names

/-- No job is visited for the first time twice, nor one that a traversal has visited. -/
def EntersOnce (visits : VisitTree) (t : Traversal) : Prop :=
  visits.entered.Nodup ∧ ∀ name ∈ visits.entered, name ∉ t.visited

variable {visits inside : VisitTree} {names : List JobName} {t : Traversal} {job : JobName}

/-- Visits that begin with fewer pending names than a bound nest no deeper than the bound. -/
theorem Descends.depth_le {bound : Nat} (h : visits.Descends names)
    (hstarts : ∀ s ∈ visits.starts, s.pending names < bound) :
  visits.depth ≤ bound
  := by
  induction visits generalizing bound with
  | none => exact Nat.zero_le _
  | visit job t inside others ihInside ihOthers =>
    obtain ⟨hvisit, hinside, hothers⟩ := h
    have hdepth : inside.depth ≤ t.pending names := by
      apply ihInside hinside
      rcases hvisit with ⟨-, rfl⟩ | ⟨-, hfewer⟩
      · exact fun s hs => nomatch hs
      · exact hfewer
    have hlt : t.pending names < bound := hstarts t List.mem_cons_self
    apply Nat.max_le_of_le_of_le
    · omega
    · apply ihOthers hothers
      intro s hs
      exact hstarts s (List.mem_cons_of_mem _ hs)

theorem entered_visit (job : JobName) (t : Traversal) (inside others : VisitTree) :
  (visit job t inside others).entered = (visit job t inside none).entered ++ others.entered
  := by
  simp [entered]

/-- A visit enters its job if that is new, and what is entered inside it. -/
theorem mem_visited_or_entered {answer : CallAnswer} {name : JobName} :
  name ∈ (t.enter answer job).1.visited ∨ name ∈ inside.entered
    ↔ name ∈ t.visited ∨ name ∈ (visit job t inside none).entered
  := by
  rw [Traversal.mem_visited_enter]
  by_cases h : job ∈ t.visited
  · simp only [entered, h, if_true, List.nil_append, List.append_nil]
    grind
  · simp only [entered, h, if_false, List.append_nil, List.cons_append, List.nil_append,
      List.mem_cons]
    tauto

/-- A visit enters names once if the visits inside it do after its job has been entered. -/
theorem EntersOnce.visit {answer : CallAnswer}
    (h : inside.EntersOnce (t.enter answer job).1) :
  (VisitTree.visit job t inside none).EntersOnce t
  := by
  obtain ⟨hnodup, hnew⟩ := h
  have hjob : job ∉ inside.entered := fun hmem =>
    hnew job hmem (Traversal.mem_visited_enter.2 (.inl rfl))
  have hinside : ∀ name ∈ inside.entered, name ∉ t.visited := fun name hmem hvisited =>
    hnew name hmem (Traversal.mem_visited_enter.2 (.inr hvisited))
  by_cases hvisited : job ∈ t.visited
  · simpa [EntersOnce, entered, hvisited] using ⟨hnodup, hinside⟩
  · simpa [EntersOnce, entered, hvisited] using ⟨⟨hjob, hnodup⟩, hinside⟩

theorem EntersOnce.nodup_reads (h : visits.EntersOnce t) (folder : JobFolder)
    (listing : Option (List String)) :
  (visits.reads folder listing).Nodup
  := h.1.filter _

theorem EntersOnce.not_mem_of_mem_reads {folder : JobFolder} {listing : Option (List String)}
    {name : JobName} (h : visits.EntersOnce t) (hname : name ∈ visits.reads folder listing) :
  name ∉ t.visited
  := h.2 name (List.mem_of_mem_filter hname)

end VisitTree

/-- The references of a caller are followed in order with the given visits, one outer visit for
every reference. -/
inductive FollowsWith (answer : CallAnswer) :
    JobName → List JobName → Calls → Traversal → Calls → Traversal → VisitTree → Prop where
  | done (caller : JobName) (calls : Calls) (t : Traversal) :
      FollowsWith answer caller [] calls t calls t .none
  | next {caller called : JobName} {rest : List JobName} {calls below calls' : Calls}
      {t t₁ t' : Traversal} {within others : VisitTree}
      (inside : FollowsWith answer called
        ((t.record (.reference caller called)).enter answer called).2 .none
        ((t.record (.reference caller called)).enter answer called).1 below t₁ within)
      (after : FollowsWith answer caller rest (calls.insert called below) t₁ calls' t' others) :
      FollowsWith answer caller (called :: rest) calls t calls' t'
        (.visit called (t.record (.reference caller called)) within others)

/-- A job is visited with the given visits inside. -/
def VisitsWith (answer : CallAnswer) (job : JobName) (t : Traversal) (calls : Calls)
    (t' : Traversal) (inside : VisitTree) : Prop :=
  FollowsWith answer job (t.enter answer job).2 .none (t.enter answer job).1 calls t' inside

variable {answer : CallAnswer} {caller job name : JobName} {jobs names : List JobName}
  {calls calls' calls₁ calls₂ : Calls} {t t' t₁ t₂ : Traversal}
  {visits visits₁ visits₂ inside : VisitTree}

/-- Whatever is followed is followed with some visits. -/
theorem Follows.exists_followsWith (h : Follows answer caller jobs calls t calls' t') :
  ∃ visits, FollowsWith answer caller jobs calls t calls' t' visits
  := by
  induction h with
  | done => exact ⟨.none, .done _ _ _⟩
  | next _ _ ihInside ihAfter =>
    obtain ⟨within, hinside⟩ := ihInside
    obtain ⟨others, hafter⟩ := ihAfter
    exact ⟨.visit _ _ within others, .next hinside hafter⟩

theorem Visits.exists_visitsWith (h : Visits answer job t calls t') :
  ∃ inside, VisitsWith answer job t calls t' inside
  := Follows.exists_followsWith h

namespace FollowsWith

theorem toFollows (h : FollowsWith answer caller jobs calls t calls' t' visits) :
  Follows answer caller jobs calls t calls' t'
  := by
  induction h with
  | done => exact .done _ _ _
  | next _ _ ihInside ihAfter => exact .next ihInside ihAfter

/-- The visits are determined, as is what comes out of them. -/
theorem unique (h : FollowsWith answer caller jobs calls t calls₁ t₁ visits₁) :
  ∀ {calls₂ t₂ visits₂}, FollowsWith answer caller jobs calls t calls₂ t₂ visits₂ →
    calls₁ = calls₂ ∧ t₁ = t₂ ∧ visits₁ = visits₂
  := by
  induction h with
  | done =>
    rintro _ _ _ ⟨⟩
    exact ⟨rfl, rfl, rfl⟩
  | next _ _ ihInside ihAfter =>
    rintro _ _ _ ⟨⟩
    next inside after =>
      obtain ⟨rfl, rfl, rfl⟩ := ihInside inside
      obtain ⟨rfl, rfl, rfl⟩ := ihAfter after
      exact ⟨rfl, rfl, rfl⟩

/-- What was visited before is visited whenever one of the outer visits begins. -/
theorem visited_subset_starts (h : FollowsWith answer caller jobs calls t calls' t' visits) :
  ∀ s ∈ visits.starts, ∀ name ∈ t.visited, name ∈ s.visited
  := by
  induction h with
  | done => exact fun s hs => nomatch hs
  | next hinside _ _ ihAfter =>
    intro s hs name hname
    rcases List.mem_cons.1 hs with rfl | hs
    · exact hname
    · apply ihAfter s hs
      apply hinside.toFollows.visited_subset
      exact Traversal.mem_visited_enter.2 (.inr hname)

/-- What is visited in the end was visited before or is entered on the way. -/
theorem mem_visited_iff (h : FollowsWith answer caller jobs calls t calls' t' visits) :
  name ∈ t'.visited ↔ name ∈ t.visited ∨ name ∈ visits.entered
  := by
  induction h with
  | done => simp [VisitTree.entered]
  | @next caller called _ _ _ _ t _ _ within others _ _ ihInside ihAfter =>
    rw [ihAfter, ihInside, VisitTree.mem_visited_or_entered, Traversal.visited_record,
      VisitTree.entered_visit called _ within others, List.mem_append, or_assoc]

/-- Every name is entered once. -/
theorem entersOnce (h : FollowsWith answer caller jobs calls t calls' t' visits) :
  visits.EntersOnce t
  := by
  induction h with
  | done => exact ⟨List.nodup_nil, fun name hname => nomatch hname⟩
  | @next caller called _ _ _ _ t t₁ _ within others hinside _ ihInside ihAfter =>
    obtain ⟨hnodup, hnew⟩ := ihInside.visit
    obtain ⟨hnodupAfter, hnewAfter⟩ := ihAfter
    have hvisited {name : JobName} :
        name ∈ t₁.visited ↔ name ∈ t.visited ∨ name ∈ (VisitTree.visit called
          (t.record (.reference caller called)) within .none).entered := by
      rw [hinside.mem_visited_iff, VisitTree.mem_visited_or_entered, Traversal.visited_record]
    unfold VisitTree.EntersOnce
    rw [VisitTree.entered_visit]
    constructor
    · apply List.nodup_append.2 ⟨hnodup, hnodupAfter, _⟩
      rintro name hname _ hafter rfl
      exact hnewAfter name hafter (hvisited.2 (.inr hname))
    · intro name hname
      rcases List.mem_append.1 hname with hname | hname
      · exact hnew name hname
      · exact fun hbefore => hnewAfter name hname (hvisited.2 (.inl hbefore))

end FollowsWith

namespace VisitsWith

theorem toVisits (h : VisitsWith answer job t calls t' inside) :
  Visits answer job t calls t'
  := FollowsWith.toFollows h

/-- A visit with visits inside is the first one of its job, so fewer names are pending when
these begin. -/
theorem returns_or_descends (h : VisitsWith answer job t calls t' inside) (hjob : job ∈ names) :
  job ∈ t.visited ∧ inside = .none
    ∨ job ∉ t.visited ∧ ∀ s ∈ inside.starts, s.pending names < t.pending names
  := by
  by_cases hvisited : job ∈ t.visited
  · left
    unfold VisitsWith at h
    rw [Traversal.enter_visited hvisited] at h
    cases h
    exact ⟨hvisited, rfl⟩
  · right
    use hvisited
    intro s hs
    apply Nat.lt_of_le_of_lt _ (Traversal.pending_mark_lt hjob hvisited)
    apply Traversal.pending_le
    intro name hname
    apply FollowsWith.visited_subset_starts h s hs
    exact Traversal.mem_visited_enter.2 (List.mem_cons.1 hname)

theorem mem_visited_iff (h : VisitsWith answer job t calls t' inside) :
  name ∈ t'.visited
    ↔ name ∈ t.visited ∨ name ∈ (VisitTree.visit job t inside .none).entered
  := by
  rw [FollowsWith.mem_visited_iff h, VisitTree.mem_visited_or_entered]

theorem entersOnce (h : VisitsWith answer job t calls t' inside) :
  (VisitTree.visit job t inside .none).EntersOnce t
  := (FollowsWith.entersOnce h).visit

end VisitsWith

/-- The visits made on the way descend if the given names are closed under calls and have
the references that are followed. -/
theorem FollowsWith.descends (h : FollowsWith answer caller jobs calls t calls' t' visits)
    (hclosed : CallClosed answer {name | name ∈ names}) :
  (∀ job ∈ jobs, job ∈ names) → visits.Descends names
  := by
  induction h with
  | done => exact fun _ => trivial
  | @next _ called _ _ _ _ _ _ _ _ _ hinside _ ihInside ihAfter =>
    intro hjobs
    have hcalled : called ∈ names := hjobs called List.mem_cons_self
    refine ⟨VisitsWith.returns_or_descends hinside hcalled, ?_, ?_⟩
    · exact ihInside fun _ => hclosed.mem_of_mem_enter hcalled
    · exact ihAfter fun job hjob => hjobs job (List.mem_cons_of_mem _ hjob)

theorem VisitsWith.descends (h : VisitsWith answer job t calls t' inside)
    (hclosed : CallClosed answer {name | name ∈ names}) (hjob : job ∈ names) :
  (VisitTree.visit job t inside .none).Descends names
  := by
  refine ⟨h.returns_or_descends hjob, ?_, trivial⟩
  exact FollowsWith.descends h hclosed fun _ => hclosed.mem_of_mem_enter hjob

namespace Traversal

/-- The pending names of a list without repetitions are counted as a set. -/
theorem pending_eq_ncard (hnames : names.Nodup) :
  t.pending names = {name | name ∈ names ∧ name ∉ t.visited}.ncard
  := by
  have hset : {name | name ∈ names ∧ name ∉ t.visited}
      = ((names.filter fun name => !t.visited.contains name).toFinset : Set JobName) := by
    ext name
    simp
  rw [hset, Set.ncard_coe_finset, List.toFinset_card_of_nodup (hnames.filter _)]
  rfl

end Traversal

namespace FileView

variable {view : FileView} {folder : JobFolder}

/-- The names that can occur in a store are closed under calls. -/
theorem callClosed_namesFrom {listing : Option (List String)} :
  CallClosed (view.callsOf folder listing) {name | name ∈ view.namesFrom folder job}
  := fun _ _ _ hanswer _ hcalled => mem_namesFrom_of_callsOf hanswer hcalled

/-- A walk is the same in a store in which the files that it reads are the same. -/
theorem walk_congr_of_reads {view' : FileView}
    (h : VisitsWith (view.callsOf folder t.listing) job t (view.walk folder job t).1
      (view.walk folder job t).2 inside)
    (hreads : ∀ name ∈ (VisitTree.visit job t inside .none).reads folder t.listing,
      view'.read (folder.jobPath name) = view.read (folder.jobPath name)) :
  view'.walk folder job t = view.walk folder job t
  := by
  have hvisits : Visits (view'.callsOf folder t.listing) job t (view.walk folder job t).1
      (view.walk folder job t).2 := by
    apply h.toVisits.congr
    intro name hname hnew
    apply callsOf_congr_of_asks
    intro hasks
    apply hreads name
    have hentered := (h.mem_visited_iff.1 hname).resolve_left hnew
    exact List.mem_filter.2 ⟨hentered, hasks⟩
  obtain ⟨hcalls, hafter⟩ := Follows.unique (visits_walk job t) hvisits
  exact Prod.ext hcalls hafter

theorem budget_eq_ncard (view : FileView) (folder : JobFolder) (job : JobName)
    (t : Traversal) :
  view.budget folder job t
    = {name | (name = job ∨ ∃ bytes ∈ view.contents,
        name ∈ Reference.inBytes folder.marker bytes) ∧ name ∉ t.visited}.ncard
  := by
  have hnodup : (view.namesFrom folder job).Nodup := by
    unfold namesFrom
    rw [← JobName.nil_newAfter]
    exact JobName.nodup_newAfter
  calc view.budget folder job t
      = t.pending (view.namesFrom folder job) := rfl
    _ = _ := Traversal.pending_eq_ncard hnodup
    _ = _ := by simp only [mem_namesFrom]

/-- A walk is what a visit with a greater budget than the number of pending names is. -/
theorem visit_eq_walk {budget : Nat} (h : view.budget folder job t < budget) :
  view.visit folder budget job t = view.walk folder job t
  := by
  obtain ⟨hcalls, hafter⟩ := Follows.unique (visits_of_budget_lt h) (visits_walk job t)
  exact Prod.ext hcalls hafter

/-- A walk from any traversal ends.  Let the pending names be those that are not visited and
occur as a reference in the store, or are the job that the walk begins with.  A visit of a job
that has been visited returns at once.  Every other visit leaves fewer pending names for the
visits inside it, so visits nest no deeper than there are pending names, and one more.  No
name is read twice, nor one that was visited before the walk, and the walk depends on no more
of the store than these readings.  And every budget beyond the number of pending names leads
to the same walk. -/
theorem nesting_walk (view : FileView) (folder : JobFolder) (job : JobName) (t : Traversal) :
  view.budget folder job t
      = {name | (name = job ∨ ∃ bytes ∈ view.contents,
          name ∈ Reference.inBytes folder.marker bytes) ∧ name ∉ t.visited}.ncard
    ∧ (job ∈ t.visited → view.walk folder job t = (.none, t.record (.again job)))
    ∧ (∃ inside, VisitsWith (view.callsOf folder t.listing) job t (view.walk folder job t).1
          (view.walk folder job t).2 inside
        ∧ (VisitTree.visit job t inside .none).Descends (view.namesFrom folder job)
        ∧ (VisitTree.visit job t inside .none).depth ≤ view.budget folder job t + 1
        ∧ ((VisitTree.visit job t inside .none).reads folder t.listing).Nodup
        ∧ (∀ name ∈ (VisitTree.visit job t inside .none).reads folder t.listing,
            name ∉ t.visited)
        ∧ ∀ view' : FileView,
            (∀ name ∈ (VisitTree.visit job t inside .none).reads folder t.listing,
              view'.read (folder.jobPath name) = view.read (folder.jobPath name)) →
            view'.walk folder job t = view.walk folder job t)
    ∧ ∀ budget, view.budget folder job t + 1 ≤ budget →
        view.visit folder budget job t = view.walk folder job t
  := by
  refine ⟨budget_eq_ncard view folder job t, ?_, ?_, fun budget h => visit_eq_walk h⟩
  · intro hvisited
    simp [walk, visit, hvisited]
  · obtain ⟨inside, hinside⟩ := Visits.exists_visitsWith (@visits_walk view folder job t)
    have hdescends : (VisitTree.visit job t inside .none).Descends
        (view.namesFrom folder job) := by
      apply hinside.descends callClosed_namesFrom
      exact mem_namesFrom.2 (.inl rfl)
    have honce : (VisitTree.visit job t inside .none).EntersOnce t := hinside.entersOnce
    refine ⟨inside, hinside, hdescends, ?_, ?_, ?_, ?_⟩
    · apply hdescends.depth_le
      intro s hs
      rw [List.mem_singleton.1 hs]
      exact Nat.lt_succ_self _
    · exact honce.nodup_reads folder t.listing
    · exact fun name hname => honce.not_mem_of_mem_reads hname
    · exact fun view' hreads => walk_congr_of_reads hinside hreads

end FileView

namespace Memory

/-- A store that ignores letter case, in which two jobs refer to one another, the second by
another spelling of the first. -/
def withLoop : Memory :=
  { (({} : Memory).add (samplePath (Text.toBytes "A")) (Text.toBytes "CALL JOB:B")).add
      (samplePath (Text.toBytes "B")) (Text.toBytes "CALL JOB:a") with ignoresCase := true }

/-- Three names are pending in a loop of two files, and a budget of four is as good as any. -/
theorem nesting_withLoop :
  withLoop.view.budget sampleFolder ⟨"A"⟩ {} = 3
    ∧ (∀ budget, 4 ≤ budget → withLoop.view.visit sampleFolder budget ⟨"A"⟩ {}
        = withLoop.view.walk sampleFolder ⟨"A"⟩ {})
    ∧ withLoop.view.walk sampleFolder ⟨"A"⟩ { visited := [⟨"A"⟩] }
        = (.none, { visited := [⟨"A"⟩], events := [.again ⟨"A"⟩] })
  := by
  have hbudget : withLoop.view.budget sampleFolder ⟨"A"⟩ {} = 3 := by decide
  refine ⟨hbudget, ?_, ?_⟩
  · obtain ⟨-, -, -, hwalk⟩ := FileView.nesting_walk withLoop.view sampleFolder ⟨"A"⟩ {}
    intro budget h
    exact hwalk budget (by rwa [hbudget])
  · obtain ⟨-, hagain, -⟩ := FileView.nesting_walk withLoop.view sampleFolder ⟨"A"⟩
      { visited := [⟨"A"⟩] }
    exact hagain (by decide)

end Memory

end RobotJobs
