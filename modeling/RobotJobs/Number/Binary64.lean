/-!
# Binary numbers of 64 bits and their decimal text

A `Binary64` is a number m · 2 ^ e with m below 2 ^ 53 and e at least -1074, or an
infinity, or no number.  `ofDecimal` takes a decimal number to the nearest one, a tie to
the even m; what is too large becomes infinite.  `text` is the shortest decimal number
that is taken back to the same one, written with a point and without an exponent.

All arithmetic is exact arithmetic of natural numbers.
-/

namespace RobotJobs

/-- A binary number of 64 bits. -/
inductive Binary64 where
  | nan
  | infinite (negative : Bool)
  | finite (negative : Bool) (significand : Nat) (exponent : Int)
  deriving DecidableEq

namespace Binary64

/-- The least exponent. -/
def leastExponent : Int := -1074

/-- The greatest exponent. -/
def greatestExponent : Int := 971

/-- A fraction times a power of a base, as numerator and denominator. -/
def scale (base num den : Nat) (exponent : Int) : Nat × Nat :=
  if exponent ≥ 0 then (num * base.pow exponent.toNat, den)
  else (num, den * base.pow (-exponent).toNat)

/-- A fraction rounded to the nearest natural number, a tie to the even one. -/
def roundToEven (num den : Nat) : Nat :=
  let q := num / den
  let r := 2 * (num % den)
  if r < den then q else if den < r then q + 1 else q + q % 2

/-- The greatest power of two, by its exponent, that a positive fraction is not below. -/
def log2 (num den : Nat) : Int :=
  let k : Int := (Nat.log2 num : Int) - Nat.log2 den
  let (n, d) := scale 2 num den (-k)
  if d ≤ n then k else k - 1

/-- The number nearest to a fraction. -/
def ofFraction (negative : Bool) (num den : Nat) : Binary64 :=
  if num = 0 then finite negative 0 0
  else
    let e := max (log2 num den - 52) leastExponent
    let (n, d) := scale 2 num den (-e)
    let m := roundToEven n d
    let (m, e) := if m = Nat.pow 2 53 then (Nat.pow 2 52, e + 1) else (m, e)
    if e > greatestExponent then infinite negative else finite negative m e

/-- The number nearest to `digits` · 10 ^ `exponent`. -/
def ofDecimal (negative : Bool) (digits : Nat) (exponent : Int) : Binary64 :=
  let length : Int := (Nat.toDigits 10 digits).length
  if digits = 0 ∨ length + exponent < -400 then finite negative 0 0
  else if length + exponent > 400 then infinite negative
  else
    let (num, den) := scale 10 digits 1 exponent
    ofFraction negative num den

/-- The decimal number with the fewest digits, from `length` on, among those that are taken
to `significand` · 2 ^ `exponent`; of two such numbers the nearer one, and the greater one
when both are equally near. -/
def shortestFrom (significand : Nat) (exponent : Int) (place : Int) :
    Nat → Nat → Nat × Int
  | _, 0 => (significand, exponent)
  | length, more + 1 =>
    let power := place - length
    let (num, den) := scale 2 significand 1 exponent
    let (num, den) := scale 10 num den (-power)
    let below := num / den
    let takenBack (d : Nat) : Bool :=
      decide (ofDecimal false d power = finite false significand exponent)
    let low := takenBack below
    let high := takenBack (below + 1)
    if low ∧ (!high ∨ 2 * (num % den) < den) then (below, power)
    else if high then (if below + 1 = 10 ^ length then (1, place) else (below + 1, power))
    else shortestFrom significand exponent place (length + 1) more

/-- The number of decimal digits before the point of a positive fraction, negative or zero
when the first digit comes after the point. -/
def decimalPlace (num den : Nat) : Int :=
  if den ≤ num then (Nat.toDigits 10 (num / den)).length
  else 1 - (Nat.toDigits 10 ((den - 1) / num)).length

/-- Digits with a point after some of them, and zeros where digits are missing. -/
def positional (digits : Nat) (exponent : Int) : String :=
  let ds := Nat.toDigits 10 digits
  if exponent ≥ 0 then
    String.ofList (ds ++ List.replicate exponent.toNat '0') ++ ".0"
  else
    let after := (-exponent).toNat
    let ds := List.replicate (after + 1 - ds.length) '0' ++ ds
    String.ofList (ds.take (ds.length - after)) ++ "." ++
      String.ofList (ds.drop (ds.length - after))

/-- The shortest decimal text of a number. -/
def text : Binary64 → String
  | nan => "NaN"
  | infinite negative => if negative then "-inf" else "inf"
  | finite negative significand exponent =>
    let sign := if negative then "-" else ""
    if significand = 0 then sign ++ "0.0"
    else
      let (num, den) := scale 2 significand 1 exponent
      let (digits, power) := shortestFrom significand exponent (decimalPlace num den) 1 17
      sign ++ positional digits power

end Binary64

end RobotJobs
