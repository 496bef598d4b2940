import WrenDocs.Text.Alphanumeric
import WrenDocs.Text.Utf8

/-! Numbers. A dot or an exponent mark belongs to a number only with a digit
after it. -/
namespace WrenDocs.Lexeme

/-- `0x` and at least one hexadecimal digit. -/
def hexNumber : Text → Text
  | '0' :: 'x' :: text =>
    match text.takeWhile Text.isHexDigit with
    | [] => []
    | digits => ['0', 'x'] ++ digits
  | _ => []

/-- `.` and at least one digit. -/
def fraction : Text → Text
  | '.' :: text =>
    match text.takeWhile Char.isDigit with
    | [] => []
    | digits => '.' :: digits
  | _ => []

/-- The sign that may follow an exponent mark. -/
def sign : Text → Text
  | '-' :: _ => ['-']
  | '+' :: _ => ['+']
  | _ => []

/-- `e` or `E`, a sign or none, and at least one digit. -/
def exponent : Text → Text
  | c :: text =>
    if c = 'e' ∨ c = 'E' then
      match (text.drop (sign text).length).takeWhile Char.isDigit with
      | [] => []
      | digits => c :: sign text ++ digits
    else []
  | [] => []

/-- Digits, then a fraction or none, then an exponent or none. -/
def decimal (text : Text) : Text :=
  match text.takeWhile Char.isDigit with
  | [] => []
  | whole =>
    let afterWhole := text.drop whole.length
    let part := fraction afterWhole
    whole ++ part ++ exponent (afterWhole.drop part.length)

end WrenDocs.Lexeme
