import RobotJobs.Pattern.Symbol

/-!
# Classes of characters

A class stands between brackets and lists the characters it holds, or with a caret the ones
it does not hold: symbols, ranges, named classes and other classes.  Two lists may be joined
by an operator.  Dashes at the beginning stand for themselves, and so does a closing bracket
as the very first of a list.

Beside the rest of the text the reader gives the depth of a class, the number of parts
inside each other.  A row of two or more parts is itself such a part.
-/

namespace RobotJobs.Pattern

/-- Parts side by side. -/
structure Row where
  count : Nat := 0
  deepest : Nat := 0

namespace Row

/-- A row with one more part. -/
def add (row : Row) (depth : Nat) : Row where
  count := row.count + 1
  deepest := max row.deepest depth

/-- The depth of a row. -/
def depth (row : Row) : Nat :=
  if row.count ≥ 2 then row.deepest + 1 else row.deepest

end Row

/-- The names of classes. -/
def classNames : List String := [
  "alnum", "alpha", "ascii", "blank", "cntrl", "digit", "graph", "lower", "print", "punct",
  "space", "upper", "word", "xdigit"]

/-- A named class after its opening bracket, and whether it holds all other characters. -/
def namedClass : Reader Bool
  | ':' :: cs =>
    let others := cs.head? == some '^'
    let cs := if others then cs.tail else cs
    let name := cs.takeWhile (· != ':')
    match cs.drop name.length with
    | ':' :: ']' :: cs => if String.ofList name ∈ classNames then some (others, cs) else none
    | _ => none
  | _ => none

/-- The character that tells whether a dash makes a range, for which the mark of a comment
counts for nothing but its text does. -/
def afterDash? (mode : Mode) (cs : List Char) : Option Char :=
  if mode.spaced then
    match Text.trimStart cs with
    | '#' :: cs => (Text.trimStart cs).head?
    | cs => cs.head?
  else cs.head?

/-- A symbol or a range in a class. -/
def member (mode : Mode) : Reader Unit := fun cs => do
  let (least, cs) ← symbolInClass mode cs
  if !least.isMeantInClass mode then none
  match mode.skip cs with
  | '-' :: more =>
    if afterDash? mode more ∈ [some ']', some '-'] then some ((), '-' :: more)
    else
      let (greatest, cs) ← symbolInClass mode (mode.skip more)
      match least, greatest with
      | .char a _, .char b _ =>
        if a ≤ b && greatest.isMeantInClass mode then some ((), cs) else none
      | _, _ => none
  | cs => some ((), cs)

/-- What has been read of a class: the depth of what stands before the last operator, the
parts after it, and whether there are only dashes so far. -/
structure OpenClass where
  operand : Option Nat := none
  parts : Row := {}
  begins : Bool := true

namespace OpenClass

/-- A class with one more part. -/
def add (cls : OpenClass) (depth : Nat) : OpenClass :=
  { cls with parts := cls.parts.add depth, begins := false }

/-- The depth of what a class lists. -/
def depth (cls : OpenClass) : Nat :=
  match cls.operand with
  | none => cls.parts.depth
  | some depth => max depth cls.parts.depth + 1

/-- A class with an operator after what it lists. -/
def join (cls : OpenClass) : OpenClass where
  operand := some cls.depth
  begins := false

/-- Whether a character stands for itself because of where it is. -/
def keeps (cls : OpenClass) (c : Char) : Bool :=
  cls.begins && (c = '-' || (c = ']' && cls.parts.count = 0))

end OpenClass

/-- What stands after an opening bracket and perhaps a caret. -/
def afterCaret? (mode : Mode) (cs : List Char) : Option (List Char) :=
  match mode.skip cs with
  | '^' :: cs => if mode.unicode then some cs else none
  | cs => some cs

/-- The rest of a class inside others; the number bounds the steps. -/
def classRest (mode : Mode) : Nat → List OpenClass → OpenClass → Reader Nat
  | 0, _, _, _ => none
  | n + 1, outer, cls, cs =>
    match mode.skip cs with
    | [] => none
    | c :: cs =>
      if cls.keeps c then
        if mode.needsCases then none
        else classRest mode n outer { cls.add 0 with begins := c = '-' } cs
      else if c = '[' then
        match namedClass cs with
        | some (others, cs) =>
          if mode.needsCases || (others && !mode.unicode) then none
          else classRest mode n outer (cls.add 0) cs
        | none => (afterCaret? mode cs).bind (classRest mode n (cls :: outer) {})
      else if c = ']' then
        match outer with
        | [] => some (cls.depth + 1, cs)
        | next :: outer => classRest mode n outer (next.add (cls.depth + 1)) cs
      else if c ∈ ['&', '-', '~'] ∧ cs.head? = some c then
        classRest mode n outer cls.join cs.tail
      else match member mode (c :: cs) with
        | some (_, cs) => classRest mode n outer (cls.add 0) cs
        | none => none

/-- A class after its opening bracket, with its depth. -/
def classDepth (mode : Mode) : Reader Nat := fun cs =>
  (afterCaret? mode cs).bind (classRest mode (cs.length + 1) [] {})

end RobotJobs.Pattern
