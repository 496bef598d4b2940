import WrenDocs.Text.Alphanumeric
import WrenDocs.Text.Utf8

/-! Escapes inside strings. Past its end a text reads as NUL, so an escape that
is made of a backslash and NUL is also found at a backslash that ends the text;
its lexeme then holds that NUL and is longer than the text. -/
namespace WrenDocs.Lexeme

/-- The character past the end of a text. -/
def pastEnd : Char := '\x00'

/-- A backslash and one character of the set. -/
def charEscape (set : List Char) : Text → Text
  | '\\' :: text => if set.contains (text.headD pastEnd) then ['\\', text.headD pastEnd] else []
  | _ => []

/-- A backslash, the marker, and exactly so many hexadecimal digits. -/
def hexEscape (marker : Char) (count : Nat) : Text → Text
  | '\\' :: text =>
    if text.headD pastEnd = marker then
      let digits := (text.drop 1).take count
      if digits.length = count ∧ digits.all Text.isHexDigit then '\\' :: marker :: digits else []
    else []
  | _ => []

end WrenDocs.Lexeme
