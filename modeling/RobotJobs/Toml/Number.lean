import RobotJobs.Text.Split
import RobotJobs.Toml.Node
import RobotJobs.Toml.Text

/-!
# Numbers in TOML

An integer is written in decimal digits, or without a sign in hexadecimal, octal or binary
ones after `0x`, `0o` or `0b`; it has to fit into 64 bits.  A decimal number has a
fraction, an exponent or both, or is `inf` or `nan`.  Single underscores may stand between
digits, and a decimal number does not begin with a needless zero.
-/

namespace RobotJobs.Toml

/-- Digits with single underscores between them; the underscores are dropped. -/
def digits (isDigit : Char → Bool) : Reader (List Char) := fun cs =>
  let run := cs.takeWhile fun c => isDigit c || c == '_'
  if (Text.segments '_' run).all (!·.isEmpty) then
    some (run.filter (· ≠ '_'), cs.drop run.length)
  else none

/-- The number with given digits. -/
def ofDigits (base : Nat) (ds : List Char) : Nat :=
  ds.foldl (fun n d => n * base + (hexDigit? d).getD 0) 0

/-- Whether a sign is negative, and what follows; without a sign a number is positive. -/
def sign : List Char → Bool × List Char
  | '-' :: cs => (true, cs)
  | '+' :: cs => (false, cs)
  | cs => (false, cs)

/-- The node of an integer that fits into 64 bits. -/
def integer? (negative : Bool) (n : Nat) : Option Node :=
  let n : Int := if negative then -n else n
  if -Int.pow 2 63 ≤ n ∧ n < Int.pow 2 63 then some (.integer n) else none

/-- An integer in digits of a given base. -/
def inBase (base : Nat) : Reader Node := fun cs => do
  let (ds, cs) ← digits (fun c => ((hexDigit? c).map (decide <| · < base)).getD false) cs
  some (← integer? false (ofDigits base ds), cs)

/-- The node of a decimal number; one that is too large is refused. -/
def decimal? (negative : Bool) (ds : List Char) (exponent : Int) : Option Node :=
  match Binary64.ofDecimal negative (ofDigits 10 ds) exponent with
  | .infinite false => none
  | x => some (.decimal x)

/-- The digits after a point, if there is one. -/
def fraction : Reader (Option (List Char))
  | '.' :: cs => (digits Char.isDigit cs).map fun (ds, cs) => (some ds, cs)
  | cs => some (none, cs)

/-- The exponent, if there is one. -/
def exponent : Reader (Option Int) := fun cs =>
  match cs with
  | 'e' :: cs | 'E' :: cs =>
    let (negative, cs) := sign cs
    (digits Char.isDigit cs).map fun (ds, cs) =>
      let n : Int := ofDigits 10 ds
      (some (if negative then -n else n), cs)
  | cs => some (none, cs)

/-- A number in decimal digits. -/
def inDecimal (negative : Bool) : Reader Node := fun cs => do
  let (whole, cs) ← digits Char.isDigit cs
  if whole.head? = some '0' ∧ whole.length ≠ 1 then none
  else
    let (fraction, cs) ← fraction cs
    let (exponent, cs) ← exponent cs
    match fraction, exponent with
    | none, none => some (← integer? negative (ofDigits 10 whole), cs)
    | fraction, exponent =>
      let after := fraction.getD []
      some (← decimal? negative (whole ++ after) (exponent.getD 0 - after.length), cs)

/-- A number. -/
def number : Reader Node := fun cs =>
  match cs with
  | '0' :: 'x' :: cs => inBase 16 cs
  | '0' :: 'o' :: cs => inBase 8 cs
  | '0' :: 'b' :: cs => inBase 2 cs
  | cs =>
    let (negative, cs) := sign cs
    match cs with
    | 'i' :: 'n' :: 'f' :: cs => some (.decimal (.infinite negative), cs)
    | 'n' :: 'a' :: 'n' :: cs => some (.decimal .nan, cs)
    | cs => inDecimal negative cs

end RobotJobs.Toml
