/-!
# UTF-8

Bytes are read one at a time by a small machine: `Reading` is what it knows of an
unfinished character.  `pieces` lists what was read, `none` standing for one maximal
run of bytes that begins no character.  `decode` puts the replacement character in the
place of every such run, `decode?` accepts no such run, and `encode` writes characters
as bytes.

A byte below 128 is a character wherever it stands: it ends an unfinished one and is
never swallowed by it.
-/

namespace RobotJobs.Text

/-- What is known between two bytes: nothing, or the bits of an unfinished character,
the range of its next byte and the number of bytes after that one. -/
inductive Reading where
  | between
  | within (bits : Nat) (least greatest : UInt8) (more : Nat)
  deriving DecidableEq

/-- The reading that a byte begins, or the character that it is. -/
def Reading.start (b : UInt8) : List (Option Char) × Reading :=
  if b < 0x80 then ([some (Char.ofNat b.toNat)], .between)
  else if b < 0xC2 then ([none], .between)
  else if b < 0xE0 then ([], .within (b.toNat - 0xC0) 0x80 0xBF 0)
  else if b = 0xE0 then ([], .within 0 0xA0 0xBF 1)
  else if b = 0xED then ([], .within 0xD 0x80 0x9F 1)
  else if b < 0xF0 then ([], .within (b.toNat - 0xE0) 0x80 0xBF 1)
  else if b = 0xF0 then ([], .within 0 0x90 0xBF 2)
  else if b < 0xF4 then ([], .within (b.toNat - 0xF0) 0x80 0xBF 2)
  else if b = 0xF4 then ([], .within 4 0x80 0x8F 2)
  else ([none], .between)

/-- One step of the machine: what is read to the end by this byte, and what is known
after it. -/
def Reading.feed (b : UInt8) : Reading → List (Option Char) × Reading
  | .between => start b
  | .within bits least greatest more =>
    if least ≤ b && b ≤ greatest then
      let bits := bits * 64 + (b.toNat - 0x80)
      match more with
      | 0 => ([some (Char.ofNat bits)], .between)
      | more + 1 => ([], .within bits 0x80 0xBF more)
    else
      let (read, next) := start b
      (none :: read, next)

/-- What is left over when the bytes end. -/
def Reading.finish : Reading → List (Option Char)
  | .between => []
  | .within .. => [none]

/-- The characters and the unreadable runs of bytes, from a given reading on. -/
def Reading.pieces : Reading → List UInt8 → List (Option Char)
  | r, [] => r.finish
  | r, b :: bs =>
    let (read, next) := r.feed b
    read ++ next.pieces bs

/-- The characters, with U+FFFD for each maximal unreadable run of bytes. -/
def decode (bytes : List UInt8) : List Char :=
  (Reading.between.pieces bytes).map (·.getD '\uFFFD')

/-- The characters, if all bytes can be read. -/
def decode? (bytes : List UInt8) : Option (List Char) :=
  (Reading.between.pieces bytes).mapM id

/-- The bytes of a text. -/
def encode (cs : List Char) : List UInt8 :=
  cs.flatMap String.utf8EncodeChar

/-- The text of some bytes, with U+FFFD for what cannot be read. -/
def ofBytes (bytes : List UInt8) : String :=
  String.ofList (decode bytes)

/-- The bytes of a string. -/
def toBytes (s : String) : List UInt8 :=
  encode s.toList

end RobotJobs.Text
