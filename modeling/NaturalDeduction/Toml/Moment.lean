/-
  Dates and times in TOML.

  A moment is a date, a time, or both, with an offset from universal time only
  behind both. `isMoment` accepts the texts of the moments that exist.
-/

namespace NaturalDeduction.Toml

/-- The value of a digit. -/
def digitValue (c : Char) : Nat := c.toNat - '0'.toNat

/-- The number written with two digits at the head of a text, and the rest. -/
def twoDigits? : List Char → Option (Nat × List Char)
  | a :: b :: rest =>
    if a.isDigit && b.isDigit then some (digitValue a * 10 + digitValue b, rest) else none
  | _ => none

/-- Whether a year of the Gregorian calendar has a 29 February. -/
def isLeapYear (year : Nat) : Bool :=
  year % 4 == 0 && (year % 100 != 0 || year % 400 == 0)

/-- The number of days of a month. -/
def daysOf (year month : Nat) : Nat :=
  match month with
  | 2 => if isLeapYear year then 29 else 28
  | 4 | 6 | 9 | 11 => 30
  | _ => 31

/-- Reads a date, and gives the rest. -/
def dateAt? (cs : List Char) : Option (List Char) := do
  let (century, cs) ← twoDigits? cs
  let (year, cs) ← twoDigits? cs
  let '-' :: cs := cs | none
  let (month, cs) ← twoDigits? cs
  let '-' :: cs := cs | none
  let (day, cs) ← twoDigits? cs
  if 1 ≤ month && month ≤ 12 && 1 ≤ day && day ≤ daysOf (century * 100 + year) month then some cs
  else none

/-- Reads hours and minutes, and gives the rest. -/
def clockAt? (cs : List Char) : Option (List Char) := do
  let (hour, cs) ← twoDigits? cs
  let ':' :: cs := cs | none
  let (minute, cs) ← twoDigits? cs
  if hour < 24 && minute < 60 then some cs else none

/-- Skips a fraction of a second, if there is one. -/
def skipFraction? : List Char → Option (List Char)
  | '.' :: cs =>
    match cs with
    | c :: _ => if c.isDigit then some (cs.dropWhile Char.isDigit) else none
    | [] => none
  | cs => some cs

/-- Reads a time, and gives the rest. Seconds may be left out, and there may be a leap second. -/
def timeAt? (cs : List Char) : Option (List Char) := do
  match ← clockAt? cs with
  | ':' :: cs =>
    let (second, cs) ← twoDigits? cs
    if second ≤ 60 then skipFraction? cs else none
  | cs => some cs

/-- Whether a text is an offset or empty. -/
def isOffset (cs : List Char) : Bool :=
  match cs with
  | [] | ['Z'] | ['z'] => true
  | '+' :: cs | '-' :: cs => clockAt? cs == some []
  | _ => false

/-- Whether a character may stand between a date and a time. -/
def separatesTime (c : Char) : Bool :=
  c == 'T' || c == 't' || c == ' '

/-- Whether a text is a date, a time, or both. -/
def isMoment (cs : List Char) : Bool :=
  timeAt? cs == some [] ||
    match dateAt? cs with
    | none => false
    | some [] => true
    | some (c :: cs) => separatesTime c && (timeAt? cs).any isOffset

end NaturalDeduction.Toml
