import WrenDocs.Text.Utf8

/-! Readers: functions that take a value off the front of a text and tell what is
left of it. -/
namespace WrenDocs.Toml

/-- The value at the front of a text and the rest, or nothing if no such value
stands there. -/
abbrev Reader (α : Type) := Text → Option (α × Text)

namespace Reader

variable {α β : Type}

/-- The value of the first reader, or else that of the second. -/
def orElse (first second : Reader α) : Reader α := fun text =>
  (first text).or (second text)

/-- A reader whose value goes through a function. -/
def map (f : α → β) (read : Reader α) : Reader β := fun text =>
  (read text).map fun found => (f found.1, found.2)

/-- Exactly this text. -/
def literal (expected : Text) : Reader Unit := fun text =>
  if expected.isPrefixOf text then some ((), text.drop expected.length) else none

/-- One character that passes a test. -/
def char (test : Char → Bool) : Reader Char
  | c :: text => if test c then some (c, text) else none
  | [] => none

/-- As many values as follow one another. A value that takes nothing ends them,
so the text that is left always gets shorter. -/
def many (read : Reader α) (text : Text) : List α × Text :=
  match read text with
  | none => ([], text)
  | some (value, rest) =>
    if rest.length < text.length then
      let (values, last) := many read rest
      (value :: values, last)
    else ([], text)
termination_by text.length

/-- One value, and then one more after every separator. -/
def separatedBy (separator : Reader Unit) (read : Reader α) : Reader (List α) := fun text =>
  (read text).map fun (value, rest) =>
    let (values, last) := many (fun text => (separator text).bind fun found => read found.2) rest
    (value :: values, last)

end Reader

end WrenDocs.Toml
