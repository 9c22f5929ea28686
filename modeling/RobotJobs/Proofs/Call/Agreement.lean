import RobotJobs.Proofs.Call.Root

/-!
# What an analysis depends on

A traversal asks about a job only when it enters the job for the first time.  So two ways
to answer that agree on the names visited on the way lead along the same way
(`Follows.congr`), there is only one way for given answers (`Follows.unique`), and the
listing that a traversal carries along plays no part in it (`Follows.relist`).

For an analysis this means that only the files of the jobs in it matter: two stores that
agree on these have the same analysis, whatever else they hold (`analyze_eq_of_agree`).
-/

namespace RobotJobs

namespace Traversal

variable {t : Traversal} {answer answer' : CallAnswer} {job name : JobName}

/-- The traversal with another listing. -/
def relist (t : Traversal) (listing : Option (List String)) : Traversal :=
  { t with listing }

theorem enter_relist (t : Traversal) (listing : Option (List String)) (answer : CallAnswer)
    (job : JobName) :
  (t.relist listing).enter answer job
    = ((t.enter answer job).1.relist listing, (t.enter answer job).2)
  := by
  have hvisited : (t.relist listing).visited = t.visited := rfl
  by_cases h : job ∈ t.visited
  · rw [enter_visited h, enter_visited (hvisited ▸ h)]
    rfl
  · cases hanswer : answer job with
    | error problem =>
      rw [enter_error h hanswer, enter_error (hvisited ▸ h) hanswer]
      rfl
    | ok jobs =>
      rw [enter_ok h hanswer, enter_ok (hvisited ▸ h) hanswer]
      rfl

/-- Entering a job asks about no other job, and about this one only for the first time. -/
theorem enter_congr (h : job ∉ t.visited → answer' job = answer job) :
  t.enter answer' job = t.enter answer job
  := by
  by_cases hvisited : job ∈ t.visited
  · rw [enter_visited hvisited, enter_visited hvisited]
  · simp only [enter, h hvisited]

end Traversal

variable {answer answer' : CallAnswer} {caller job : JobName} {jobs : List JobName}
  {calls calls' calls₁ calls₂ : Calls} {t t' t₁ t₂ : Traversal}

/-- Following references takes the same way if the names visited on the way are answered
the same. -/
theorem Follows.congr (h : Follows answer caller jobs calls t calls' t') :
  (∀ name ∈ t'.visited, name ∉ t.visited → answer' name = answer name) →
    Follows answer' caller jobs calls t calls' t'
  := by
  induction h with
  | done => exact fun _ => .done _ _ _
  | @next caller called rest calls below calls' t t₁ t' inside after ihInside ihAfter =>
    intro hagree
    have hcalled : called ∈ t₁.visited := Visits.job_visited inside
    have hbefore : ∀ name ∈ t.visited, name ∈ t₁.visited :=
      Visits.visited_subset (t := t.record _) inside
    have henter : (t.record (.reference caller called)).enter answer' called
        = (t.record (.reference caller called)).enter answer called := by
      apply Traversal.enter_congr
      intro hnew
      exact hagree called (after.visited_subset called hcalled) hnew
    have hinside : Visits answer' called (t.record (.reference caller called)) below t₁ := by
      unfold Visits
      rw [henter]
      apply ihInside
      intro name hname hnew
      apply hagree name (after.visited_subset name hname)
      exact fun hvisited => hnew (Traversal.mem_visited_enter.2 (.inr hvisited))
    apply Follows.next hinside
    apply ihAfter
    intro name hname hnew
    apply hagree name hname
    exact fun hvisited => hnew (hbefore name hvisited)

/-- The references of a caller are followed in one way only. -/
theorem Follows.unique (h : Follows answer caller jobs calls t calls₁ t₁) :
  ∀ {calls₂ t₂}, Follows answer caller jobs calls t calls₂ t₂ → calls₁ = calls₂ ∧ t₁ = t₂
  := by
  induction h with
  | done =>
    rintro _ _ ⟨⟩
    exact ⟨rfl, rfl⟩
  | next _ _ ihInside ihAfter =>
    rintro _ _ ⟨⟩
    next inside after =>
      obtain ⟨rfl, rfl⟩ := ihInside inside
      exact ihAfter after

/-- The listing is not looked at while references are followed. -/
theorem Follows.relist (listing : Option (List String))
    (h : Follows answer caller jobs calls t calls' t') :
  Follows answer caller jobs calls (t.relist listing) calls' (t'.relist listing)
  := by
  induction h with
  | done => exact .done _ _ _
  | @next caller called _ _ _ _ t _ _ _ _ ihInside ihAfter =>
    have henter := Traversal.enter_relist (t.record (.reference caller called)) listing answer
      called
    apply Follows.next _ ihAfter
    rw [show (t.relist listing).record (.reference caller called)
      = (t.record (.reference caller called)).relist listing from rfl, henter]
    exact ihInside

/-- A visit takes the same way if the names visited on the way are answered the same. -/
theorem Visits.congr (h : Visits answer job t calls t')
    (hagree : ∀ name ∈ t'.visited, name ∉ t.visited → answer' name = answer name) :
  Visits answer' job t calls t'
  := by
  have henter : t.enter answer' job = t.enter answer job := by
    apply Traversal.enter_congr
    exact hagree job h.job_visited
  unfold Visits
  rw [henter]
  apply Follows.congr h
  intro name hname hnew
  apply hagree name hname
  exact fun hvisited => hnew (Traversal.mem_visited_enter.2 (.inr hvisited))

theorem Visits.relist (listing : Option (List String)) (h : Visits answer job t calls t') :
  Visits answer job (t.relist listing) calls (t'.relist listing)
  := by
  unfold Visits
  rw [Traversal.enter_relist]
  exact Follows.relist listing h

namespace FileView

variable {view view' : FileView} {folder : JobFolder} {job root : JobName}

/-- What is answered about a job is determined by whether its file is listed and, if it is,
by what comes out of reading it. -/
theorem answer_congr
    (hlisted : isListed (view'.fileNames? folder.path) (folder.fileName job)
      = isListed (view.fileNames? folder.path) (folder.fileName job))
    (hread : isListed (view.fileNames? folder.path) (folder.fileName job) = true →
      view'.read (folder.jobPath job) = view.read (folder.jobPath job)) :
  view'.answer folder job = view.answer folder job
  := by
  unfold answer callsOf
  rw [hlisted]
  cases h : isListed (view.fileNames? folder.path) (folder.fileName job) with
  | false => rfl
  | true => rw [hread h]

/-- Two stores have the same analysis of a job if they answer the same about the jobs in
it. -/
theorem analyze_congr
    (h : ∀ job ∈ (view.analyze folder root).reachable,
      view'.answer folder job = view.answer folder job) :
  view'.analyze folder root = view.analyze folder root
  := by
  have hvisits : Visits (view'.answer folder) root (view'.startTraversal folder)
      (view.analyze folder root).tree.calls
      ((view.finalTraversal folder root).relist (view'.fileNames? folder.path)) := by
    apply Visits.relist (t := view.startTraversal folder)
    apply (visits_analyze view folder root).congr
    intro name hname _
    exact h name (mem_reachable_iff_visited.2 hname)
  obtain ⟨hcalls, hfinal⟩ := Follows.unique (visits_analyze view' folder root) hvisits
  calc view'.analyze folder root
      = ⟨⟨root, (view'.analyze folder root).tree.calls⟩,
          (view'.finalTraversal folder root).events.reverse⟩ := rfl
    _ = ⟨⟨root, (view.analyze folder root).tree.calls⟩,
          (view.finalTraversal folder root).events.reverse⟩ := by
        rw [hcalls, hfinal]
        rfl
    _ = view.analyze folder root := rfl

/-- Let two stores list the job folder, and let them agree on every job in the analysis of
the one store: on whether the file of the job is listed, and on what comes out of reading
it.  Then the analysis is the same in the other store, with its calls, its names and its
problems in their order, whatever else the two stores hold. -/
theorem analyze_eq_of_agree (view view' : FileView) (folder : JobFolder) (root : JobName)
    (paths paths' : List Path) (hlist : view.list folder.path = .ok paths)
    (hlist' : view'.list folder.path = .ok paths')
    (hagree : ∀ job ∈ (view.analyze folder root).reachable,
      ((∃ path ∈ paths', path.fileNameText? = some (folder.fileName job))
          ↔ ∃ path ∈ paths, path.fileNameText? = some (folder.fileName job))
        ∧ view'.read (folder.jobPath job) = view.read (folder.jobPath job)) :
  (view'.analyze folder root).tree = (view.analyze folder root).tree
    ∧ (view'.analyze folder root).problems = (view.analyze folder root).problems
    ∧ (view'.analyze folder root).reachable = (view.analyze folder root).reachable
  := by
  have hanalysis : view'.analyze folder root = view.analyze folder root := by
    apply analyze_congr
    intro job hjob
    obtain ⟨hlisted, hread⟩ := hagree job hjob
    apply answer_congr _ (fun _ => hread)
    rw [Bool.eq_iff_iff, isListed_fileNames_iff, isListed_fileNames_iff]
    simpa [hlist, hlist'] using hlisted
  rw [hanalysis]
  exact ⟨rfl, rfl, rfl⟩

/-- If a job refers to one other job and that one to none, the two are all that is reached. -/
theorem eq_or_eq_of_mem_reachable {name : JobName}
    (hcaller : view.read (Memory.sampleFolder.jobPath ⟨"A"⟩) = .ok (Text.toBytes "CALL JOB:B"))
    (hcalled : view.read (Memory.sampleFolder.jobPath ⟨"B"⟩) = .ok [])
    (h : name ∈ (view.analyze Memory.sampleFolder ⟨"A"⟩).reachable) :
  name = ⟨"A"⟩ ∨ name = ⟨"B"⟩
  := by
  apply mem_of_mem_reachable {name | name = ⟨"A"⟩ ∨ name = ⟨"B"⟩} (.inl rfl) _ h
  rintro job (rfl | rfl) bytes hloads called hmem
  · rw [hloads.read] at hcaller
    cases hcaller
    have hcalls : Reference.inBytes Memory.sampleFolder.marker (Text.toBytes "CALL JOB:B")
        = [⟨"B"⟩] := by decide
    rw [hcalls] at hmem
    exact .inr (List.mem_singleton.1 hmem)
  · rw [hloads.read] at hcalled
    cases hcalled
    cases hmem

/-- A store with a third job, which refers to the first one. -/
def withBystander : Memory :=
  (Memory.withCaller [0x41]).add (Memory.samplePath (Text.toBytes "C"))
    (Text.toBytes "CALL JOB:A")

/-- A job that is not reached does not matter, although it refers to the starting job. -/
theorem analyze_withBystander :
  Memory.samplePath (Text.toBytes "C") ∈ withBystander.files.paths
    ∧ (withBystander.view.analyze Memory.sampleFolder ⟨"A"⟩).tree
      = ((Memory.withCaller [0x41]).view.analyze Memory.sampleFolder ⟨"A"⟩).tree
    ∧ (withBystander.view.analyze Memory.sampleFolder ⟨"A"⟩).problems
      = ((Memory.withCaller [0x41]).view.analyze Memory.sampleFolder ⟨"A"⟩).problems
    ∧ (withBystander.view.analyze Memory.sampleFolder ⟨"A"⟩).reachable
      = ((Memory.withCaller [0x41]).view.analyze Memory.sampleFolder ⟨"A"⟩).reachable
  := by
  constructor
  · decide
  · apply analyze_eq_of_agree _ _ _ _ _ withBystander.files.paths
    · rfl
    · rfl
    · intro job hjob
      rcases eq_or_eq_of_mem_reachable rfl rfl hjob with rfl | rfl
      · exact ⟨by decide, rfl⟩
      · exact ⟨by decide, rfl⟩

end FileView

end RobotJobs
