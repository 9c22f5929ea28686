import RobotJobs.Toml.Node

/-!
# From lines to a tree

A document begins with assignments and goes on with sections, each a header and more
assignments.  `Document.entries?` puts them together, and fails if two of them define the
same thing.

An assignment under a dotted key makes the tables on its way, and enters only tables that
came about like this or that have no header of their own yet; the table that it ends in
has to be one of the former.  A header makes the tables on its way too.  The header of a
table that was made so takes over what is there and moves the table to the end; any other
second header of a table is refused, unless both are headers of a repeated section.
-/

namespace RobotJobs.Toml

/-- A key of several parts: those on the way and the last one. -/
structure DottedKey where
  path : List String
  name : String
  deriving DecidableEq

/-- A key and its value. -/
structure Assignment where
  key : DottedKey
  value : Node

/-- A header, double for a repeated section, and the assignments below it. -/
structure Section where
  key : DottedKey
  repeated : Bool
  assignments : List Assignment

/-- The parts of a document. -/
structure Document where
  preamble : List Assignment
  sections : List Section

/-- The tables with the last one changed. -/
def onLast (f : Entries → Option Entries) : List Entries → Option (List Entries)
  | [] => none
  | [es] => (f es).map fun es => [es]
  | es :: rest => (onLast f rest).map (es :: ·)

namespace Entries

/-- The entries with a value added under a dotted key. -/
def assign (name : String) (value : Node) : List String → Entries → Option Entries
  | [], es => if (es.find? name).isSome then none else some (es ++ [(name, value)])
  | part :: path, es => do
    let node ← match es.find? part with
      | none => (assign name value path []).map (.table .dotted)
      | some (.table .dotted below) => (assign name value path below).map (.table .dotted)
      | some (.table .implied below) =>
        if path.isEmpty then none else (assign name value path below).map (.table .implied)
      | some (.sections tables) =>
        if path.isEmpty then none else (onLast (assign name value path) tables).map .sections
      | some _ => none
    some (es.put part node)

/-- The entries with all assignments made, one after the other. -/
def assignAll (es : Entries) (assignments : List Assignment) : Option Entries :=
  assignments.foldlM (fun es a => es.assign a.key.name a.value a.key.path) es

/-- The entries with those changed to which the way of a header leads. -/
def descend (f : Entries → Option Entries) : List String → Entries → Option Entries
  | [], es => f es
  | part :: path, es => do
    let node ← match es.find? part with
      | none => (descend f path []).map (.table .implied)
      | some (.table .braces _) => none
      | some (.table origin below) => (descend f path below).map (.table origin)
      | some (.sections tables) => (onLast (descend f path) tables).map .sections
      | some _ => none
    some (es.put part node)

end Entries

namespace Section

/-- The entries with a section among them. -/
def add (s : Section) (es : Entries) : Option Entries :=
  match s.repeated, es.find? s.key.name with
  | false, none =>
    (Entries.assignAll [] s.assignments).map fun below =>
      es ++ [(s.key.name, .table .header below)]
  | false, some (.table .implied below) =>
    (Entries.assignAll below s.assignments).map fun below =>
      es.erase s.key.name ++ [(s.key.name, .table .header below)]
  | true, none =>
    (Entries.assignAll [] s.assignments).map fun below =>
      es ++ [(s.key.name, .sections [below])]
  | true, some (.sections tables) =>
    (Entries.assignAll [] s.assignments).map fun below =>
      es.put s.key.name (.sections (tables ++ [below]))
  | _, _ => none

/-- The entries with a section at the place that its header tells. -/
def place (es : Entries) (s : Section) : Option Entries :=
  es.descend s.add s.key.path

end Section

/-- The tree of a document. -/
def Document.entries? (d : Document) : Option Entries := do
  let es ← Entries.assignAll [] d.preamble
  d.sections.foldlM Section.place es

end RobotJobs.Toml
