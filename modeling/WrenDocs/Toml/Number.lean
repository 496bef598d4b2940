import WrenDocs.Lexeme.Number
import WrenDocs.Toml.Quoted

/-! Numbers in TOML. Underscores may stand between digits. Integers have 64 bits
with a sign; a float may round to minus infinity but not to plus infinity. -/
namespace WrenDocs.Toml

/-- Digits with at most one underscore between two of them; the value is the
digits alone. -/
def digits (isDigit : Char → Bool) : Reader Text := fun text =>
  (Reader.char isDigit text).map fun (first, rest) =>
    let (others, last) := Reader.many
      (Reader.orElse (Reader.char isDigit) fun text =>
        (Reader.literal ['_'] text).bind fun found => Reader.char isDigit found.2) rest
    (first :: others, last)

/-- The digits of a decimal number. A number of more than one digit does not
begin with zero. -/
def wholeDigits : Reader Text
  | '0' :: text => some (['0'], text)
  | text => digits Char.isDigit text

def valueInBase (base : Nat) (digits : Text) : Nat :=
  digits.foldl (fun n c => base * n + hexValue c) 0

/-- The value of a sign, which may be missing, and the text after it. -/
def signed (text : Text) : Int × Text :=
  match text with
  | '-' :: rest => (-1, rest)
  | '+' :: rest => (1, rest)
  | _ => (1, text)

/-- An integer that fits 64 bits. -/
def fitting (value : Int) : Option Int :=
  if -Int.pow 2 63 ≤ value ∧ value < Int.pow 2 63 then some value else none

/-- An integer after a mark for its base. -/
def basedInteger (mark : Char) (base : Nat) (isDigit : Char → Bool) : Reader Int := fun text =>
  (Reader.literal ['0', mark] text).bind fun (_, text) =>
    (digits isDigit text).bind fun (digits, rest) =>
      (fitting (valueInBase base digits)).map (·, rest)

def decimalInteger : Reader Int := fun text =>
  let (sign, text) := signed text
  (wholeDigits text).bind fun (digits, rest) =>
    (fitting (sign * valueInBase 10 digits)).map (·, rest)

def isOctalDigit (c : Char) : Bool :=
  decide ('0' ≤ c) && decide (c ≤ '7')

def isBinaryDigit (c : Char) : Bool :=
  c == '0' || c == '1'

def integer : Reader Int :=
  Reader.orElse (basedInteger 'x' 16 Text.isHexDigit) <|
  Reader.orElse (basedInteger 'o' 8 isOctalDigit) <|
  Reader.orElse (basedInteger 'b' 2 isBinaryDigit) decimalInteger

/-- Whether the number made of such digits and a power of ten rounds to infinity
in double precision, where a number halfway beyond the greatest double does. -/
def overflows (digits : Nat) (power : Int) : Bool :=
  let places : Int := (Nat.toDigits 10 digits).length
  if digits = 0 ∨ places + power < 309 then false
  else if 309 < places + power then true
  else
    let bound := Nat.pow 2 1024 - Nat.pow 2 970
    if 0 ≤ power then decide (bound ≤ digits * Nat.pow 10 power.toNat)
    else decide (bound * Nat.pow 10 (-power).toNat ≤ digits)

/-- `.` and digits. -/
def fractionDigits (text : Text) : Text × Text :=
  match (Reader.literal ['.'] text).bind fun found => digits Char.isDigit found.2 with
  | some found => found
  | none => ([], text)

/-- An exponent mark, a sign that may be missing, and digits; zero if there is no
such thing. -/
def exponentValue (text : Text) : Int × Text :=
  let found? := (Reader.char (fun c => c == 'e' || c == 'E') text).bind fun (_, text) =>
    let (sign, text) := signed text
    (digits Char.isDigit text).map fun (digits, rest) => (sign * valueInBase 10 digits, rest)
  found?.getD (0, text)

/-- A decimal number with a fraction or an exponent. -/
def decimalFloat : Reader Unit := fun text =>
  let (sign, text) := signed text
  (wholeDigits text).bind fun (whole, afterWhole) =>
    let (part, afterPart) := fractionDigits afterWhole
    let (power, rest) := exponentValue afterPart
    let number := valueInBase 10 (whole ++ part)
    if rest.length = afterWhole.length ∨ (sign = 1 ∧ overflows number (power - part.length)) then
      none
    else some ((), rest)

/-- Infinity or no number, with a sign or not. -/
def specialFloat : Reader Unit := fun text =>
  Reader.orElse (Reader.literal "inf".toList) (Reader.literal "nan".toList) (signed text).2

def float : Reader Unit :=
  Reader.orElse decimalFloat specialFloat

end WrenDocs.Toml
