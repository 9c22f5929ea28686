import Mathlib.Tactic.Use
import RobotJobs.Proofs.Call.Following
import RobotJobs.Proofs.Call.Nodes

/-!
# How a call tree is expanded

The nodes of a visit, in preorder, follow one rule: the first node of a name calls the jobs
that its job refers to, each once, and every other node calls none.  `Expanded` is this
rule for nodes that come after given names.

What is put into the tree between two traversals is expanded after the names that were
visited before, and accounts for what was visited and recorded since (`Traversal.Lays`); one
visit does so, and the visits of a run do so one after another (`Follows.lays`).  There is
only one way to expand given jobs (`Expanded.unique`), so the rule determines the tree of a
visit.
-/

namespace RobotJobs

/-! ### Names in the order of their first occurrences -/

/-- The names of a list that are not among given names, each where it occurs first. -/
def JobName.newAfter (before names : List JobName) : List JobName :=
  (names.removeAll before).eraseDups

namespace JobName

variable {before before' names names' : List JobName} {name : JobName}

theorem nil_newAfter (names : List JobName) :
  newAfter [] names = names.eraseDups
  := by
  simp [newAfter, List.removeAll_nil]

@[simp]
theorem newAfter_nil (before : List JobName) :
  newAfter before [] = []
  := rfl

theorem newAfter_cons_of_mem (h : name ∈ before) :
  newAfter before (name :: names) = newAfter before names
  := by
  simp [newAfter, List.removeAll, h]

theorem newAfter_cons_of_not_mem (h : name ∉ before) :
  newAfter before (name :: names) = name :: newAfter (name :: before) names
  := by
  simp only [newAfter, List.removeAll, List.elem_eq_mem, h, decide_false, Bool.not_false,
    List.filter_cons_of_pos, List.eraseDups_cons, List.filter_filter, List.mem_cons]
  congr 2
  apply List.filter_congr
  intro other _
  simp [Bool.beq_eq_decide_eq]

/-- Which names are new depends only on which are given. -/
theorem newAfter_congr (h : ∀ name, name ∈ before ↔ name ∈ before') :
  newAfter before names = newAfter before' names
  := by
  simp only [newAfter, List.removeAll, List.elem_eq_mem, h]

theorem newAfter_append :
  newAfter before (names ++ names')
    = newAfter before names ++ newAfter (before ++ names) names'
  := by
  induction names generalizing before with
  | nil => simp
  | cons name names ih =>
    by_cases h : name ∈ before
    · rw [List.cons_append, newAfter_cons_of_mem h, newAfter_cons_of_mem h, ih]
      congr 1
      apply newAfter_congr
      intro other
      grind
    · rw [List.cons_append, newAfter_cons_of_not_mem h, newAfter_cons_of_not_mem h, ih,
        List.cons_append]
      congr 2
      apply newAfter_congr
      intro other
      grind

theorem mem_newAfter :
  name ∈ newAfter before names ↔ name ∈ names ∧ name ∉ before
  := by
  simp [newAfter, List.removeAll]

/-- A new name occurs once. -/
theorem nodup_newAfter :
  (newAfter before names).Nodup
  := by
  induction names generalizing before with
  | nil => apply List.nodup_nil
  | cons name names ih =>
    by_cases h : name ∈ before
    · rw [newAfter_cons_of_mem h]
      apply ih
    · rw [newAfter_cons_of_not_mem h, List.nodup_cons]
      constructor
      · intro hname
        apply (mem_newAfter.1 hname).2
        apply List.mem_cons_self
      · apply ih

/-- Different names stay as they are when repetitions are erased. -/
theorem eraseDups_eq_self (h : names.Nodup) :
  names.eraseDups = names
  := by
  induction names with
  | nil => rfl
  | cons name names ih =>
    obtain ⟨hname, hnames⟩ := List.nodup_cons.1 h
    have hfilter : names.filter (fun other => !other == name) = names := by
      apply List.filter_eq_self.2
      rintro other hother
      grind
    rw [List.eraseDups_cons, hfilter, ih hnames]

end JobName

/-! ### The rule -/

namespace CallAnswer

/-- What is to be called by a node of a name that comes after nodes of given names: the jobs
that are referred to, each once, if the name occurs for the first time. -/
def expansion (answer : CallAnswer) (before : List JobName) (job : JobName) : List JobName :=
  if job ∈ before then []
  else match answer job with
    | .ok jobs => jobs.eraseDups
    | .error _ => []

/-- Every node of a list calls what it has to call after the given names and after the nodes
before it. -/
def Expanded (answer : CallAnswer) : List JobName → List (JobName × Calls) → Prop
  | _, [] => True
  | before, (job, below) :: nodes =>
    below.jobs = answer.expansion before job ∧ answer.Expanded (before ++ [job]) nodes

/-- The problem that is answered about a job, if there is one. -/
def problem? (answer : CallAnswer) (job : JobName) : Option Problem :=
  match answer job with
  | .ok _ => none
  | .error problem => some problem

variable {answer : CallAnswer} {before before' jobs : List JobName} {job : JobName}
  {nodes nodes' : List (JobName × Calls)}

theorem problem?_eq_some_iff {p : Problem} :
  answer.problem? job = some p ↔ answer job = .error p
  := by
  unfold problem?
  cases answer job with
  | error problem => simp
  | ok jobs => simp

theorem expansion_of_mem (h : job ∈ before) :
  answer.expansion before job = []
  := if_pos h

theorem expansion_of_error {p : Problem} (h : answer job = .error p) :
  answer.expansion before job = []
  := by
  simp [expansion, h]

theorem expansion_of_ok (hnew : job ∉ before) (h : answer job = .ok jobs) :
  answer.expansion before job = jobs.eraseDups
  := by
  simp [expansion, hnew, h]

theorem expansion_congr (h : ∀ name, name ∈ before ↔ name ∈ before') :
  answer.expansion before job = answer.expansion before' job
  := by
  simp only [expansion, h]

theorem Expanded.congr (h : ∀ name, name ∈ before ↔ name ∈ before') :
  answer.Expanded before nodes ↔ answer.Expanded before' nodes
  := by
  induction nodes generalizing before before' with
  | nil => rfl
  | cons node nodes ih =>
    obtain ⟨job, below⟩ := node
    rw [Expanded, Expanded, expansion_congr h]
    apply and_congr_right'
    apply ih
    intro name
    rw [List.mem_append, List.mem_append, h]

theorem expanded_append :
  answer.Expanded before (nodes ++ nodes')
    ↔ answer.Expanded before nodes ∧ answer.Expanded (before ++ nodes.map Prod.fst) nodes'
  := by
  induction nodes generalizing before with
  | nil => simp [Expanded]
  | cons node nodes ih =>
    obtain ⟨job, below⟩ := node
    rw [List.cons_append, Expanded, Expanded, ih, and_assoc]
    simp

/-- Nodes are expanded if each of them is expanded after the nodes before it. -/
theorem expanded_iff :
  answer.Expanded before nodes
    ↔ ∀ nodes₁ job below nodes₂, nodes = nodes₁ ++ (job, below) :: nodes₂ →
      below.jobs = answer.expansion (before ++ nodes₁.map Prod.fst) job
  := by
  constructor
  · rintro h nodes₁ job below nodes₂ rfl
    obtain ⟨-, hnode, -⟩ := expanded_append.1 h
    apply hnode
  · intro h
    induction nodes generalizing before with
    | nil => trivial
    | cons node nodes ih =>
      obtain ⟨job, below⟩ := node
      constructor
      · simpa using h [] job below nodes rfl
      · apply ih
        intro nodes₁ job' below' nodes₂ hnodes
        simpa using h ((job, below) :: nodes₁) job' below' nodes₂ (by rw [hnodes]; rfl)

/-- There is only one way to expand given jobs. -/
theorem Expanded.unique {calls calls' : Calls} (hjobs : calls.jobs = calls'.jobs)
    (h : answer.Expanded before calls.nodes) (h' : answer.Expanded before calls'.nodes) :
  calls = calls'
  := by
  induction calls generalizing before calls' with
  | none =>
    symm
    apply Calls.jobs_eq_nil_iff.1
    apply hjobs.symm
  | call job below others ihBelow ihOthers =>
    cases calls' with
    | none => cases hjobs
    | call job' below' others' =>
      obtain ⟨rfl, hothers⟩ := List.cons.inj hjobs
      obtain ⟨hbelow, hrest⟩ := h
      obtain ⟨hbelow', hrest'⟩ := h'
      obtain ⟨hinside, hafter⟩ := expanded_append.1 hrest
      obtain ⟨hinside', hafter'⟩ := expanded_append.1 hrest'
      obtain rfl := ihBelow (hbelow.trans hbelow'.symm) hinside hinside'
      obtain rfl := ihOthers hothers hafter hafter'
      rfl

end CallAnswer

/-! ### Nodes put into the tree between two traversals -/

namespace Traversal

/-- The nodes are put into the tree between two traversals: they are expanded after the
names that were visited before, their names are what was visited since, and the problems of
these, in the order of their first occurrences, are what was recorded since. -/
structure Lays (answer : CallAnswer) (t : Traversal) (nodes : List (JobName × Calls))
    (t' : Traversal) : Prop where
  expanded : answer.Expanded t.visited nodes
  visited : ∀ name, name ∈ t'.visited ↔ name ∈ t.visited ∨ name ∈ nodes.map Prod.fst
  problems : t'.problems
    = t.problems ++ (JobName.newAfter t.visited (nodes.map Prod.fst)).filterMap answer.problem?

variable {answer : CallAnswer} {t t₁ t' : Traversal} {nodes nodes' : List (JobName × Calls)}
  {job caller called : JobName} {below : Calls}

theorem Lays.refl (answer : CallAnswer) (t : Traversal) :
  Lays answer t [] t
  := by
  constructor
  · trivial
  · simp
  · simp

theorem Lays.trans (h : Lays answer t nodes t₁) (h' : Lays answer t₁ nodes' t') :
  Lays answer t (nodes ++ nodes') t'
  := by
  have hvisited (name : JobName) :
      name ∈ t.visited ++ nodes.map Prod.fst ↔ name ∈ t₁.visited := by
    rw [List.mem_append, h.visited]
  constructor
  · apply CallAnswer.expanded_append.2
    use h.expanded
    apply (CallAnswer.Expanded.congr hvisited).2
    apply h'.expanded
  · intro name
    rw [h'.visited, h.visited, List.map_append, List.mem_append, or_assoc]
  · rw [h'.problems, h.problems, List.map_append, JobName.newAfter_append,
      JobName.newAfter_congr hvisited, List.filterMap_append, List.append_assoc]

/-- An event that is no problem puts no node into the tree. -/
theorem lays_record {event : CallEvent} (h : event.problem? = none) :
  Lays answer t [] (t.record event)
  := by
  constructor
  · trivial
  · simp
  · rw [problems_record, h]
    simp

/-- The jobs called by a job that is entered are the ones that are followed from it. -/
theorem eraseDups_enter (answer : CallAnswer) (t : Traversal) (job : JobName) :
  (t.enter answer job).2.eraseDups = answer.expansion t.visited job
  := by
  by_cases h : job ∈ t.visited
  · rw [enter_visited h, CallAnswer.expansion_of_mem h]
    rfl
  · cases hanswer : answer job with
    | error problem =>
      rw [enter_error h hanswer, CallAnswer.expansion_of_error hanswer]
      rfl
    | ok jobs => rw [enter_ok h hanswer, CallAnswer.expansion_of_ok h hanswer]

/-- Entering a job records its problem, if it is new and has one. -/
theorem problems_enter (answer : CallAnswer) (t : Traversal) (job : JobName) :
  (t.enter answer job).1.problems
    = t.problems ++ (JobName.newAfter t.visited [job]).filterMap answer.problem?
  := by
  by_cases h : job ∈ t.visited
  · rw [enter_visited h, problems_record, JobName.newAfter_cons_of_mem h]
    simp [CallEvent.problem?]
  · rw [JobName.newAfter_cons_of_not_mem h]
    cases hanswer : answer job with
    | error problem =>
      rw [enter_error h hanswer, problems_record]
      simp [CallEvent.problem?, problems, mark, CallAnswer.problem?, hanswer]
    | ok jobs =>
      rw [enter_ok h hanswer]
      simp [problems, mark, CallAnswer.problem?, hanswer]

/-- Entering a job puts its node into the tree. -/
theorem lays_enter (hbelow : below.jobs = answer.expansion t.visited job) :
  Lays answer t [(job, below)] (t.enter answer job).1
  := by
  constructor
  · exact ⟨hbelow, trivial⟩
  · intro name
    rw [mem_visited_enter, or_comm]
    simp
  · apply problems_enter

end Traversal

variable {answer : CallAnswer} {caller job : JobName} {jobs : List JobName}
  {calls calls' : Calls} {t t' : Traversal}

/-- Following references calls each of the jobs once, in order of first appearance. -/
theorem Follows.jobs_eq (h : Follows answer caller jobs calls t calls' t') :
  calls.jobs.Nodup → calls'.jobs = (calls.jobs ++ jobs).eraseDups
  := by
  induction h with
  | done =>
    intro hnodup
    rw [List.append_nil, JobName.eraseDups_eq_self hnodup]
  | next _ _ _ ihAfter =>
    intro hnodup
    rw [ihAfter (Calls.nodup_jobs_insert hnodup), Calls.eraseDups_jobs_insert]

/-- A visit calls what is to be called by the first node of its name. -/
theorem Visits.jobs_eq (h : Visits answer job t calls t') :
  calls.jobs = answer.expansion t.visited job
  := by
  rw [← Traversal.eraseDups_enter]
  apply Follows.jobs_eq h List.nodup_nil

/-- Following references puts nodes into the tree. -/
theorem Follows.lays (h : Follows answer caller jobs calls t calls' t') :
  (∀ job ∈ calls.jobs, job ∈ t.visited) →
    ∃ nodes, calls'.nodes = calls.nodes ++ nodes ∧ Traversal.Lays answer t nodes t'
  := by
  induction h with
  | done =>
    intro _
    use []
    constructor
    · rw [List.append_nil]
    · apply Traversal.Lays.refl
  | @next caller called rest calls below calls' t t₁ t' inside after ihInside ihAfter =>
    intro hcalls
    have hreference : Traversal.Lays answer t [] (t.record (.reference caller called)) :=
      Traversal.lays_record rfl
    have hinserted : ∀ job ∈ (calls.insert called below).jobs, job ∈ t₁.visited := by
      intro job hjob
      rcases Calls.mem_jobs_insert.1 hjob with hjob | rfl
      · exact Visits.visited_subset inside job (hcalls job hjob)
      · exact Visits.job_visited inside
    obtain ⟨nodes', hnodes', hlays'⟩ := ihAfter hinserted
    by_cases hcalled : called ∈ calls.jobs
    · -- The reference is a repetition: its job was visited before and is not called again.
      rw [Calls.insert_of_mem hcalled] at hnodes'
      rw [Traversal.enter_visited (t := t.record _) (hcalls called hcalled)] at inside
      cases inside
      use nodes', hnodes'
      apply hreference.trans ((Traversal.lays_record rfl).trans hlays')
    · obtain ⟨nodes, hnodes, hlays⟩ := ihInside (fun _ hjob => nomatch hjob)
      have henter := Traversal.lays_enter
        (Visits.jobs_eq (t := t.record (.reference caller called)) inside)
      use (called, below) :: nodes ++ nodes'
      constructor
      · rw [hnodes', Calls.insert_of_not_mem hcalled, Calls.nodes_append, hnodes, Calls.nodes,
          List.nil_append, List.append_assoc]
      · apply hreference.trans ((henter.trans hlays).trans hlays')

/-- A visit puts the node of its job and the nodes below it into the tree. -/
theorem Visits.lays (h : Visits answer job t calls t') :
  Traversal.Lays answer t ((job, calls) :: calls.nodes) t'
  := by
  obtain ⟨nodes, hnodes, hlays⟩ := Follows.lays h (fun _ hjob => nomatch hjob)
  rw [hnodes]
  apply (Traversal.lays_enter h.jobs_eq).trans hlays

end RobotJobs
