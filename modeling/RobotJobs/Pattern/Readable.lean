import RobotJobs.Pattern.Class
import RobotJobs.Text.Alphanumeric

/-!
# Readable patterns

A pattern is a row of symbols, classes and groups, cut by bars into alternatives.  Each may
be followed by marks that repeat it.  A group stands between parentheses; it may begin with
a name, which no other group has, or with flags that set the mode inside.  Flags that stand
alone in parentheses set the mode for the rest of the group they are in.  Counted repetition
does not occur, because a value holds no closing brace.

A pattern is readable when all its parts are and no more than `depthLimit` of them are
inside each other.
-/

namespace RobotJobs.Pattern

/-- The greatest depth of a pattern. -/
def depthLimit : Nat := 250

/-- A mode after a flag that is set or taken back. -/
def Mode.set (mode : Mode) (flag : Char) (on : Bool) : Mode :=
  match flag with
  | 'i' => { mode with anyCase := on }
  | 'u' => { mode with unicode := on }
  | 'x' => { mode with spaced := on }
  | _ => mode

/-- Flags with those that stand before them, the last first, up to the character that ends
them: the mode they make, and whether they stand alone. -/
def flags (mode : Mode) (before : List Char) : Reader (Mode × Bool)
  | [] => none
  | c :: cs =>
    if c = ':' then
      if before.head? = some '-' then none else some ((mode, false), cs)
    else if c = ')' then
      if before = [] ∨ before.head? = some '-' then none else some ((mode, true), cs)
    else if c ∈ before ∨ c ∉ ['i', 'm', 's', 'U', 'u', 'R', 'x', '-'] then none
    else flags (mode.set c ('-' ∉ before)) (c :: before) cs

/-- The name of a group, up to the mark that ends it. -/
def groupName : Reader (List Char) := fun cs =>
  let name := cs.takeWhile (· != '>')
  match name, cs.drop name.length with
  | c :: more, _ :: cs =>
    if (c = '_' || Text.isAlphabetic c) &&
      more.all fun c => c ∈ ['_', '.', '[', ']'] || Text.isAlphanumeric c
    then some (name, cs) else none
  | _, _ => none

/-- What has been read of a group: the alternatives that have ended, the parts of the last
one, and the depth of what a mark would repeat. -/
structure OpenGroup where
  alternatives : Row := {}
  parts : Row := {}
  repeatable : Option Nat := none

namespace OpenGroup

/-- A group with one more part. -/
def add (group : OpenGroup) (depth : Nat) : OpenGroup :=
  { group with parts := group.parts.add depth, repeatable := some depth }

/-- A group after flags that stand alone. -/
def addFlags (group : OpenGroup) : OpenGroup :=
  { group.add 0 with repeatable := none }

/-- A group whose last part is repeated. -/
def again? (group : OpenGroup) : Option OpenGroup :=
  group.repeatable.map fun depth =>
    { group with
      parts := { group.parts with deepest := max group.parts.deepest (depth + 1) }
      repeatable := some (depth + 1) }

/-- A group after a bar. -/
def next (group : OpenGroup) : OpenGroup where
  alternatives := group.alternatives.add group.parts.depth

/-- The depth of what a group holds. -/
def depth (group : OpenGroup) : Nat :=
  (group.alternatives.add group.parts.depth).depth

end OpenGroup

/-- What has been read of a pattern: the mode at its end, the names of its groups, the
innermost open group, and the others with the mode that comes back after the group inside. -/
structure Progress where
  mode : Mode := {}
  names : List (List Char) := []
  group : OpenGroup := {}
  outer : List (Mode × OpenGroup) := []

namespace Progress

/-- A pattern with a group opened in a mode. -/
def opened (p : Progress) (mode : Mode) : Progress :=
  { p with mode, group := {}, outer := (p.mode, p.group) :: p.outer }

/-- A pattern with a named group opened. -/
def named? (p : Progress) (cs : List Char) : Option (Progress × List Char) := do
  let (name, cs) ← groupName cs
  if name ∈ p.names then none
  else some ({ p.opened p.mode with names := name :: p.names }, cs)

/-- A pattern after an opening parenthesis and what belongs to it. -/
def open? (p : Progress) (cs : List Char) : Option (Progress × List Char) :=
  match p.mode.skip cs with
  | '?' :: 'P' :: '<' :: cs => p.named? cs
  | '?' :: '<' :: cs => p.named? cs
  | '?' :: cs => (flags p.mode [] cs).map fun ((mode, alone), cs) =>
      (if alone then { p with mode, group := p.group.addFlags } else p.opened mode, cs)
  | cs => some (p.opened p.mode, cs)

/-- A pattern after a closing parenthesis. -/
def close? (p : Progress) : Option Progress :=
  match p.outer with
  | [] => none
  | (mode, group) :: outer => some { p with mode, group := group.add (p.group.depth + 1), outer }

/-- A pattern with one more part. -/
def add (p : Progress) (depth : Nat) : Progress :=
  { p with group := p.group.add depth }

/-- A pattern after the part that a character begins. -/
def step? (p : Progress) (c : Char) (cs : List Char) : Option (Progress × List Char) :=
  if c = '(' then p.open? cs
  else if c = ')' then p.close?.map (·, cs)
  else if c = '|' then some ({ p with group := p.group.next }, cs)
  else if c ∈ ['?', '*', '+'] then
    p.group.again?.map fun group =>
      ({ p with group }, if cs.head? = some '?' then cs.tail else cs)
  else if c = '\x7b' then none
  else if c = '[' then (classDepth p.mode cs).map fun (depth, cs) => (p.add depth, cs)
  else (symbol p.mode (c :: cs)).bind fun (s, cs) =>
    if s.isMeant p.mode then some (p.add 0, cs) else none

/-- A whole pattern from some progress on; the number bounds the steps. -/
def run (p : Progress) : Nat → List Char → Option Progress
  | 0, _ => none
  | n + 1, cs =>
    match p.mode.skip cs with
    | [] => some p
    | c :: cs => (p.step? c cs).bind fun (p, cs) => p.run n cs

/-- Whether a pattern may end here. -/
def isWhole (p : Progress) : Bool :=
  p.outer.isEmpty && p.group.depth ≤ depthLimit

end Progress

/-- Whether a text is a pattern. -/
def isReadable (cs : List Char) : Bool :=
  (({} : Progress).run (cs.length + 1) cs).any (·.isWhole)

end RobotJobs.Pattern
