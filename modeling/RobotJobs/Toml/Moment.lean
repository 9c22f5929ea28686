import RobotJobs.Toml.Text

/-!
# Dates and times in TOML

A moment is a date, a time of day, or both with a `T` or a space between them; after both
there may be an offset from world time.  All numbers have a fixed count of digits and a
range; how many days a month has depends on the month and the year.
-/

namespace RobotJobs.Toml

/-- A number of a fixed count of decimal digits. -/
def fixed (count : Nat) : Reader Nat := fun cs =>
  let ds := cs.take count
  if ds.length = count ∧ ds.all Char.isDigit then
    some (ds.foldl (fun n d => n * 10 + (d.toNat - 48)) 0, cs.drop count)
  else none

/-- The characters after a given first one. -/
def after (c : Char) (cs : List Char) : Option (List Char) :=
  Text.afterStart? [c] cs

/-- The number of days of a month. -/
def daysIn (year month : Nat) : Nat :=
  if month = 2 then
    if year % 4 = 0 ∧ (year % 100 ≠ 0 ∨ year % 400 = 0) then 29 else 28
  else if month = 4 ∨ month = 6 ∨ month = 9 ∨ month = 11 then 30
  else 31

/-- The characters after a date. -/
def afterDate (cs : List Char) : Option (List Char) := do
  let (year, cs) ← fixed 4 cs
  let (month, cs) ← fixed 2 (← after '-' cs)
  let (day, cs) ← fixed 2 (← after '-' cs)
  if 1 ≤ month ∧ month ≤ 12 ∧ 1 ≤ day ∧ day ≤ daysIn year month then some cs else none

/-- The characters after hours and minutes. -/
def afterMinutes (cs : List Char) : Option (List Char) := do
  let (hour, cs) ← fixed 2 cs
  let (minute, cs) ← fixed 2 (← after ':' cs)
  if hour ≤ 23 ∧ minute ≤ 59 then some cs else none

/-- The characters after a fraction of a second, if there is one. -/
def skipFraction : List Char → List Char
  | '.' :: d :: cs => if d.isDigit then cs.dropWhile Char.isDigit else '.' :: d :: cs
  | cs => cs

/-- The characters after a time of day; a leap second counts as a second. -/
def afterTime (cs : List Char) : Option (List Char) := do
  let (second, cs) ← fixed 2 (← after ':' (← afterMinutes cs))
  if second ≤ 60 then some (skipFraction cs) else none

/-- The characters after an offset, if there is one. -/
def skipOffset (cs : List Char) : List Char :=
  match cs with
  | 'Z' :: rest | 'z' :: rest => rest
  | '+' :: rest | '-' :: rest => (afterMinutes rest).getD cs
  | _ => cs

/-- The characters after the time that belongs to a date, if there is one. -/
def skipTimeOfDate (cs : List Char) : List Char :=
  match cs with
  | 'T' :: rest | 't' :: rest | ' ' :: rest => ((afterTime rest).map skipOffset).getD cs
  | _ => cs

/-- The characters after a moment. -/
def afterMoment (cs : List Char) : Option (List Char) :=
  match afterDate cs with
  | some cs => some (skipTimeOfDate cs)
  | none => afterTime cs

end RobotJobs.Toml
