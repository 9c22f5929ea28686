import RobotJobs.Toml.Document
import RobotJobs.Toml.Moment
import RobotJobs.Toml.Number
import RobotJobs.Toml.Text

/-!
# Reading TOML

`Document.ofText?` reads the parts of a document, and `parse?` the tree of a whole text.  A
byte order mark before the text is skipped, and a carriage return before a line feed
belongs to the line end.

Arrays and tables in braces are nested less than eighty levels deep, and a key has less
than eighty parts.
-/

namespace RobotJobs.Toml

/-- The number of levels, and of parts of a key, that is too large. -/
def nestingLimit : Nat := 80

/-- Whether a character may stand in a key without quotes. -/
def isBare (c : Char) : Bool :=
  c.isAlphanum || c == '_' || c == '-'

/-- One part of a key. -/
def keyPart : Reader String := fun cs =>
  let name := cs.takeWhile isBare
  if name.isEmpty then lineText cs
  else some (String.ofList name, cs.drop name.length)

/-- A key of less than a given number of parts, with the gaps around each. -/
def dottedKey : Nat → Reader DottedKey
  | 0, _ => none
  | n + 1, cs => do
    let (part, cs) ← keyPart (skipGaps cs)
    match skipGaps cs with
    | '.' :: cs =>
      let (key, cs) ← dottedKey n cs
      some (⟨part :: key.path, key.name⟩, cs)
    | cs => some (⟨[], part⟩, cs)

/-- A key. -/
def key : Reader DottedKey :=
  dottedKey (nestingLimit - 1)

/-- A key and its value. -/
def assignment (value : Reader Node) : Reader Assignment := fun cs => do
  let (key, cs) ← key cs
  let (value, cs) ← value (skipGaps (← after '=' cs))
  some (⟨key, value⟩, cs)

/-- The characters without the gaps, line feeds and comments they begin with. -/
def skipComments (inComment : Bool) : List Char → List Char
  | [] => []
  | c :: cs =>
    if c = '\n' then skipComments false cs
    else if inComment then (if isPlain c then skipComments true cs else c :: cs)
    else if isGap c then skipComments false cs
    else if c = '#' then skipComments true cs
    else c :: cs

/-- The items of an array up to its end; the number bounds their count. -/
def items (value : Reader Node) : Nat → Reader (List Node)
  | 0, _ => none
  | n + 1, cs =>
    match skipComments false cs with
    | ']' :: cs => some ([], cs)
    | cs => do
      let (item, cs) ← value cs
      match skipComments false cs with
      | ',' :: cs =>
        let (rest, cs) ← items value n cs
        some (item :: rest, cs)
      | ']' :: cs => some ([item], cs)
      | _ => none

/-- The assignments in braces up to the end; the number bounds their count. -/
def assignments (value : Reader Node) : Nat → Reader (List Assignment)
  | 0, _ => none
  | n + 1, cs => do
    let (first, cs) ← assignment value cs
    match skipGaps cs with
    | ',' :: cs =>
      let (rest, cs) ← assignments value n cs
      some (first :: rest, cs)
    | '\x7d' :: cs => some ([first], cs)
    | _ => none

/-- The entries in braces up to the end. -/
def bracedEntries (value : Reader Node) : Reader Entries := fun cs =>
  match skipGaps cs with
  | '\x7d' :: cs => some ([], cs)
  | cs => do
    let (as, cs) ← assignments value (cs.length + 1) cs
    some (← Entries.assignAll [] as, cs)

/-- A value that holds no other one. -/
def scalar : Reader Node := fun cs =>
  match cs with
  | '"' :: _ | '\'' :: _ => (text cs).map fun (s, cs) => (.text s, cs)
  | 't' :: 'r' :: 'u' :: 'e' :: cs => some (.truth true, cs)
  | 'f' :: 'a' :: 'l' :: 's' :: 'e' :: cs => some (.truth false, cs)
  | cs => match afterMoment cs with
    | some cs => some (.moment, cs)
    | none => number cs

/-- A value with a given number of levels. -/
def value : Nat → Reader Node
  | 0, cs => scalar cs
  | depth + 1, cs =>
    match cs with
    | '[' :: cs => (items (value depth) (cs.length + 1) cs).map fun (xs, cs) => (.array xs, cs)
    | '\x7b' :: cs =>
      (bracedEntries (value depth) cs).map fun (es, cs) => (.table .braces es, cs)
    | cs => scalar cs

/-- The characters after the end of a line, before which there may be gaps and a comment. -/
def afterLine (cs : List Char) : Option (List Char) :=
  let cs := match skipGaps cs with
    | '#' :: cs => cs.dropWhile isPlain
    | cs => cs
  match cs with
  | [] => some []
  | c :: cs => if c = '\n' then some cs else none

/-- The header of a section after its opening brackets, with the line that it is on. -/
def header (closing : List Char) : Reader DottedKey := fun cs => do
  let (key, cs) ← key cs
  some (key, ← afterLine (← Text.afterStart? closing cs))

namespace Document

/-- The document with one more section in front, for which its preamble is the content. -/
def under (d : Document) (key : DottedKey) (repeated : Bool) : Document :=
  ⟨[], ⟨key, repeated, d.preamble⟩ :: d.sections⟩

/-- The document with one more assignment in front. -/
def after (d : Document) (a : Assignment) : Document :=
  { d with preamble := a :: d.preamble }

/-- The document of some characters; the number bounds its lines. -/
def ofLines : Nat → List Char → Option Document
  | 0, _ => none
  | n + 1, cs =>
    match skipGaps cs with
    | [] => some ⟨[], []⟩
    | '[' :: '[' :: cs => do
      let (key, cs) ← header [']', ']'] cs
      some ((← ofLines n cs).under key true)
    | '[' :: cs => do
      let (key, cs) ← header [']'] cs
      some ((← ofLines n cs).under key false)
    | c :: cs => do
      if c = '\n' ∨ c = '#' then ofLines n (← afterLine (c :: cs))
      else
        let (a, cs) ← assignment (value (nestingLimit - 1)) (c :: cs)
        some ((← ofLines n (← afterLine cs)).after a)

end Document

/-- The characters with a line feed for every carriage return and line feed. -/
def unifyLineEnds : List Char → List Char
  | [] => []
  | c :: cs =>
    if c = '\r' ∧ cs.head? = some '\n' then unifyLineEnds cs else c :: unifyLineEnds cs

/-- The characters without the byte order mark they begin with. -/
def skipMark : List Char → List Char
  | [] => []
  | c :: cs => if c = '\uFEFF' then cs else c :: cs

/-- The document of a text. -/
def Document.ofText? (text : List Char) : Option Document :=
  let cs := unifyLineEnds (skipMark text)
  ofLines (cs.length + 1) cs

/-- The tree of a text. -/
def parse? (text : List Char) : Option Entries := do
  (← Document.ofText? text).entries?

end RobotJobs.Toml
