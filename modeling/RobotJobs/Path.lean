import RobotJobs.Text.Split
import RobotJobs.Text.Utf8

/-!
# Paths

A path is a sequence of bytes and is shown exactly as it was written.  Two paths mean
the same place when they have the same components: repeated and trailing slashes and
inner dots do not count, a leading dot and every double dot do.  Places are ordered
component by component, `/` before `.` before `..` before names, and names by their
bytes.

`Path.join` is textual.  The parent and the file name of a path are read off its
components.
-/

namespace RobotJobs

/-- A path as it was written. -/
structure Path where
  bytes : List UInt8
  deriving DecidableEq

/-- One step of a path. -/
inductive Component where
  | root
  | here
  | up
  | name (bytes : List UInt8)
  deriving DecidableEq

/-- The bytes by which components are ordered. -/
def Component.key : Component → List UInt8
  | .root => [0]
  | .here => [1]
  | .up => [2]
  | .name bytes => 3 :: bytes

theorem Component.key_injective {a b : Component} (h : a.key = b.key) :
  a = b
  := by
  cases a <;> cases b <;> simp_all [Component.key]

/-- What a path means: its components, from the outside in. -/
abbrev Place := List Component

namespace Place

/-- The key by which places are ordered. -/
def key (p : Place) : List (List UInt8) :=
  p.map Component.key

/-- The order of places. -/
def Before (p q : Place) : Prop :=
  p.key < q.key

instance (p q : Place) : Decidable (p.Before q) :=
  inferInstanceAs (Decidable (_ < _))

theorem key_injective {p q : Place} (h : p.key = q.key) :
  p = q
  := List.map_inj_right (fun _ _ => Component.key_injective) |>.1 h

theorem not_before_self (p : Place) :
  ¬ p.Before p
  := List.lt_irrefl _

theorem Before.trans {p q r : Place} (h : p.Before q) (h' : q.Before r) :
  p.Before r
  := List.lt_trans h h'

theorem before_of_not_before {p q : Place} (h : ¬ p.Before q) (hne : p ≠ q) :
  q.Before p
  := by
  apply Std.lt_of_le_of_ne
  · exact List.not_lt.1 h
  · exact fun e => hne (key_injective e.symm)

/-- The place that holds a place; the empty place and a bare root have none. -/
def parent? (p : Place) : Option Place :=
  match p.getLast? with
  | none | some .root => none
  | some _ => some p.dropLast

/-- The name at the end of a place. -/
def fileName? (p : Place) : Option (List UInt8) :=
  match p.getLast? with
  | some (.name bytes) => some bytes
  | _ => none

end Place

namespace Path

/-- The byte between components. -/
def slash : UInt8 := 0x2F

/-- The byte `.`. -/
def dot : UInt8 := 0x2E

/-- A path given as text. -/
def ofString (s : String) : Path :=
  ⟨Text.toBytes s⟩

/-- The text of a path, with U+FFFD for bytes that are no text. -/
def display (p : Path) : String :=
  Text.ofBytes p.bytes

/-- Whether a path starts at the root. -/
def isAbsolute (p : Path) : Bool :=
  p.bytes.head? == some slash

/-- What an inner segment of a path contributes: nothing for an empty one and for a dot. -/
def component? (segment : List UInt8) : Option Component :=
  if segment = [] ∨ segment = [dot] then none
  else if segment = [dot, dot] then some .up
  else some (.name segment)

/-- What the first segment of a path contributes. -/
def firstComponent? (segment : List UInt8) (last : Bool) : Option Component :=
  if segment = [] then (if last then none else some .root)
  else if segment = [dot] then some .here
  else component? segment

/-- The place that a path means. -/
def place (p : Path) : Place :=
  match Text.segments slash p.bytes with
  | [] => []
  | s :: ss => (firstComponent? s ss.isEmpty).toList ++ ss.filterMap component?

/-- The place that holds what the path means. -/
def parent? (p : Path) : Option Place :=
  p.place.parent?

/-- The file name at the end of a path, as bytes. -/
def fileName? (p : Path) : Option (List UInt8) :=
  p.place.fileName?

/-- The file name at the end of a path, as text. -/
def fileNameText? (p : Path) : Option String :=
  p.fileName?.map Text.ofBytes

/-- Whether a path ends in a slash or is empty, so that a name may follow directly. -/
def endsOpen (p : Path) : Bool :=
  p.bytes.getLast? == none || p.bytes.getLast? == some slash

/-- The second path, taken from the first one unless it starts at the root. -/
def join (p q : Path) : Path :=
  if q.isAbsolute then q
  else if p.endsOpen then ⟨p.bytes ++ q.bytes⟩
  else ⟨p.bytes ++ slash :: q.bytes⟩

end Path

end RobotJobs
