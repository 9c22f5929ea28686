import RobotJobs.Call.Tree

/-!
# Drawings of call trees

A tree is drawn with one line for each call.  The last call at its level hangs on a
corner and leaves the column below it blank, every other call hangs on a branch and
passes a bar down.  There is one set of connectors in box-drawing characters and one in
ASCII; all units of a set have the same width.
-/

namespace RobotJobs

/-- The units a drawing is made of. -/
structure Glyphs where
  branch : String
  corner : String
  bar : String
  blank : String
  deriving DecidableEq

/-- Connectors in box-drawing characters. -/
def Glyphs.unicode : Glyphs := ⟨"├── ", "└── ", "│   ", "    "⟩

/-- Connectors in ASCII characters. -/
def Glyphs.ascii : Glyphs := ⟨"|-- ", "\x60-- ", "|   ", "    "⟩

/-- The connectors for an output that can show box-drawing characters, or not. -/
def Glyphs.choose (unicode : Bool) : Glyphs :=
  if unicode then .unicode else .ascii

/-- The lines of the calls of a job, each after the same indentation. -/
def Calls.draw (g : Glyphs) (indent : String) : Calls → List String
  | none => []
  | call job below none =>
    (indent ++ g.corner ++ job.text) :: below.draw g (indent ++ g.blank)
  | call job below (call job' below' others) =>
    (indent ++ g.branch ++ job.text) :: below.draw g (indent ++ g.bar) ++
      (call job' below' others).draw g indent

/-- The lines of a tree, with the root as the only call at the top. -/
def CallTree.draw (g : Glyphs) (tree : CallTree) : List String :=
  (g.corner ++ tree.root.text) :: tree.calls.draw g g.blank

theorem Calls.length_draw (g : Glyphs) (calls : Calls) (indent : String) :
  (calls.draw g indent).length = calls.nodeCount
  := by
  fun_induction Calls.draw g indent calls with
  | case1 => rfl
  | case2 indent job below ih => simp [nodeCount, ih]; omega
  | case3 indent job below job' below' others ih ih' =>
    simp only [List.length_cons, List.length_append, ih, ih', nodeCount]
    omega

end RobotJobs
