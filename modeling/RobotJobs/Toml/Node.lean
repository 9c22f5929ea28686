import RobotJobs.Number.Binary64

/-!
# TOML documents as trees

A document is a list of entries, each a key with a `Node`: a text, a number, a truth
value, a date or time, an array or a table.  Of a date or time only the fact is kept.

A table remembers where it comes from, because that decides what may be added to it: a
header, a dotted key, a header further down that passes through it, or braces.
-/

namespace RobotJobs.Toml

/-- Where a table comes from: braces, a header of its own, a dotted key, or the header of a
table inside it. -/
inductive Origin where
  | braces
  | header
  | dotted
  | implied
  deriving DecidableEq

/-- A value of a document. -/
inductive Node where
  | text (s : String)
  | integer (n : Int)
  | decimal (x : Binary64)
  | truth (b : Bool)
  | moment
  | array (items : List Node)
  | sections (tables : List (List (String × Node)))
  | table (origin : Origin) (entries : List (String × Node))

/-- Keys with their values, in the order of the document. -/
abbrev Entries := List (String × Node)

namespace Node

/-- The items of an array; tables with a common repeated header are one too. -/
def items? : Node → Option (List Node)
  | array items => some items
  | sections tables => some (tables.map (table .header))
  | _ => none

/-- Whether a node is an array or a table without contents. -/
def isVoid : Node → Bool
  | array items => items.isEmpty
  | sections tables => tables.isEmpty
  | table _ entries => entries.isEmpty
  | _ => false

end Node

namespace Entries

/-- The value of a key. -/
def find? (key : String) (es : Entries) : Option Node :=
  List.lookup key es

/-- The entries with a value in the place of the one that the key has, or at the end. -/
def put (key : String) (node : Node) : Entries → Entries
  | [] => [(key, node)]
  | (k, n) :: es => if k = key then (key, node) :: es else (k, n) :: put key node es

/-- The entries without a key. -/
def erase (key : String) (es : Entries) : Entries :=
  es.filter fun e => e.1 ≠ key

end Entries

end RobotJobs.Toml
