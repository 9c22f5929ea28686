import RobotJobs.Proofs.Call.Reachable

/-!
# The tree of an analysis

The nodes of an analysis are expanded: in preorder, the first node of a name whose job can
be loaded calls what the file refers to, and every other node calls nothing.  A job that
cannot be loaded has no calls wherever it stands (`FileView.eq_none_of_mem_nodes`), and the
rule determines the tree (`FileView.tree_analyze_eq_iff`).
-/

namespace RobotJobs

namespace FileView

variable {view : FileView} {folder : JobFolder} {before : List JobName} {job root : JobName}
  {below : Calls}

/-- A job with a problem has no calls wherever it stands in an analysis. -/
theorem eq_none_of_mem_nodes {p : Problem} (hproblem : view.answer folder job = .error p)
    (h : (job, below) ∈ (view.analyze folder root).tree.nodes) :
  below = .none
  := by
  obtain ⟨nodes₁, nodes₂, hnodes⟩ := List.append_of_mem h
  have hbelow := CallAnswer.expanded_iff.1 (lays_analyze view folder root).expanded _ _ _ _ hnodes
  apply Calls.jobs_eq_nil_iff.1
  rw [hbelow, CallAnswer.expansion_of_error hproblem]

/-- What is to be called by a node: if it is the first of its name and its job can be
loaded, the jobs that the file refers to; otherwise nothing. -/
theorem jobs_eq_expansion_iff :
  below.jobs = (view.answer folder).expansion before job
    ↔ (job ∉ before → ∀ bytes, view.Loads folder job bytes →
        below.jobs = (Reference.inBytes folder.marker bytes).eraseDups)
      ∧ ((job ∈ before ∨ ¬ ∃ bytes, view.Loads folder job bytes) → below = .none)
  := by
  by_cases hbefore : job ∈ before
  · simp [CallAnswer.expansion_of_mem hbefore, Calls.jobs_eq_nil_iff, hbefore]
  · cases hanswer : view.answer folder job with
    | error problem =>
      have hloads := exists_answer_error_iff.1 ⟨problem, hanswer⟩
      have hnever (bytes : List UInt8) : ¬ view.Loads folder job bytes :=
        fun h => hloads ⟨bytes, h⟩
      simp [CallAnswer.expansion_of_error hanswer, hnever, Calls.jobs_eq_nil_iff]
    | ok jobs =>
      obtain ⟨bytes, hloads, rfl⟩ := answer_eq_ok_iff.1 hanswer
      have hbytes (bytes' : List UInt8) : view.Loads folder job bytes' ↔ bytes' = bytes := by
        constructor
        · intro h
          apply Except.ok.inj (h.read.symm.trans hloads.read)
        · rintro rfl
          apply hloads
      simp [CallAnswer.expansion_of_ok hbefore hanswer, hbefore, hbytes]

/-- The tree of an analysis is determined by what its nodes call.  In preorder, with the
root first, the first node of a name whose job can be loaded calls the jobs that the file
refers to, each once and in the order of their first appearance; every other node, be it a
later one of its name or one whose job cannot be loaded, calls nothing.  There is no other
tree of the same root like this. -/
theorem tree_analyze_eq_iff (view : FileView) (folder : JobFolder) (root : JobName)
    (tree : CallTree) :
  (view.analyze folder root).tree = tree
    ↔ tree.root = root
      ∧ ∀ before job below after, tree.nodes = before ++ (job, below) :: after →
        (job ∉ before.map Prod.fst → ∀ bytes, view.Loads folder job bytes →
          below.jobs = (Reference.inBytes folder.marker bytes).eraseDups)
        ∧ ((job ∈ before.map Prod.fst ∨ ¬ ∃ bytes, view.Loads folder job bytes) →
          below = .none)
  := by
  have hexpanded : (view.answer folder).Expanded [] (view.analyze folder root).tree.nodes :=
    (lays_analyze view folder root).expanded
  calc (view.analyze folder root).tree = tree
      ↔ tree.root = root ∧ (view.answer folder).Expanded [] tree.nodes := by
        constructor
        · rintro rfl
          exact ⟨rfl, hexpanded⟩
        · rintro ⟨hroot, htree⟩
          obtain ⟨root', calls⟩ := tree
          obtain rfl : root' = root := hroot
          have hcalls := CallAnswer.Expanded.unique (hexpanded.1.trans htree.1.symm)
            hexpanded.2 htree.2
          apply congrArg (CallTree.mk root') hcalls
    _ ↔ _ := by
        simp only [CallAnswer.expanded_iff, List.nil_append, jobs_eq_expansion_iff]

end FileView

end RobotJobs
