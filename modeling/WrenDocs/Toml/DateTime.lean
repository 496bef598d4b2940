import WrenDocs.Toml.Reader

/-! Dates and times in TOML: a date, a time of day, or both, and with both an
offset from universal time. -/
namespace WrenDocs.Toml

/-- A number of exactly so many digits. -/
def fixedDigits (count : Nat) : Reader Nat := fun text =>
  let digits := text.take count
  if digits.length = count ∧ digits.all Char.isDigit then
    some (digits.foldl (fun n c => 10 * n + (c.toNat - '0'.toNat)) 0, text.drop count)
  else none

/-- Two digits whose number lies in a range. -/
def twoDigits (low high : Nat) : Reader Nat := fun text =>
  (fixedDigits 2 text).bind fun (value, rest) =>
    if low ≤ value ∧ value ≤ high then some (value, rest) else none

def isLeapYear (year : Nat) : Bool :=
  year % 4 == 0 && (year % 100 != 0 || year % 400 == 0)

def daysInMonth (year month : Nat) : Nat :=
  if month = 2 then if isLeapYear year then 29 else 28
  else if month = 4 ∨ month = 6 ∨ month = 9 ∨ month = 11 then 30
  else 31

/-- A day of the calendar. -/
def date : Reader Unit := fun text => do
  let (year, text) ← fixedDigits 4 text
  let (_, text) ← Reader.literal ['-'] text
  let (month, text) ← twoDigits 1 12 text
  let (_, text) ← Reader.literal ['-'] text
  let (_, text) ← twoDigits 1 (daysInMonth year month) text
  return ((), text)

/-- A time of day. The last minute may have a leap second, and a fraction of a
second may follow. -/
def time : Reader Unit := fun text => do
  let (_, text) ← twoDigits 0 23 text
  let (_, text) ← Reader.literal [':'] text
  let (_, text) ← twoDigits 0 59 text
  let (_, text) ← Reader.literal [':'] text
  let (_, text) ← twoDigits 0 60 text
  match text with
  | '.' :: rest =>
    match rest.takeWhile Char.isDigit with
    | [] => return ((), text)
    | digits => return ((), rest.drop digits.length)
  | _ => return ((), text)

/-- The offset from universal time. -/
def offset : Reader Unit
  | 'Z' :: text | 'z' :: text => some ((), text)
  | '+' :: text | '-' :: text => do
    let (_, text) ← twoDigits 0 23 text
    let (_, text) ← Reader.literal [':'] text
    let (_, text) ← twoDigits 0 59 text
    return ((), text)
  | _ => none

/-- The time of day after a date, with its offset if there is one. -/
def timeAfterDate : Reader Unit
  | 'T' :: text | 't' :: text | ' ' :: text =>
    (time text).map fun (_, rest) => (offset rest).getD ((), rest)
  | _ => none

/-- A date, a time of day, or both. -/
def dateTime : Reader Unit :=
  Reader.orElse (fun text => (date text).map fun (_, rest) =>
    (timeAfterDate rest).getD ((), rest)) time

end WrenDocs.Toml
