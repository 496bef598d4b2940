import WrenDocs.Text.Alphanumeric
import WrenDocs.Toml.Reader

/-! Quoted text in TOML: basic strings with escapes, literal strings without, each
on one line or on several. -/
namespace WrenDocs.Toml

/-- A control character, the tab aside. Newlines are control characters too; the
strings on several lines read them on their own. -/
def isControl (c : Char) : Bool :=
  c != '\t' && (decide (c.toNat < 0x20) || c.toNat == 0x7f)

def isBlank (c : Char) : Bool :=
  c == ' ' || c == '\t'

def skipBlanks (text : Text) : Text :=
  text.dropWhile isBlank

/-- A newline, with a carriage return before it or not. -/
def newline : Reader Unit
  | '\n' :: text => some ((), text)
  | '\r' :: '\n' :: text => some ((), text)
  | _ => none

/-- The value of a hexadecimal digit. -/
def hexValue (c : Char) : Nat :=
  if c.isDigit then c.toNat - '0'.toNat
  else if c.isLower then c.toNat - 'a'.toNat + 10
  else c.toNat - 'A'.toNat + 10

/-- The character whose code point is written in so many hexadecimal digits. -/
def codePoint (count : Nat) : Reader Char := fun text =>
  let digits := text.take count
  let value := digits.foldl (fun n c => 16 * n + hexValue c) 0
  if digits.length = count ∧ digits.all Text.isHexDigit ∧ value.isValidChar then
    some (Char.ofNat value, text.drop count)
  else none

/-- The character that stands for what follows a backslash. -/
def escape : Reader Char
  | 'b' :: text => some ('\x08', text)
  | 't' :: text => some ('\t', text)
  | 'n' :: text => some ('\n', text)
  | 'f' :: text => some ('\x0c', text)
  | 'r' :: text => some ('\r', text)
  | '"' :: text => some ('"', text)
  | '\\' :: text => some ('\\', text)
  | 'u' :: text => codePoint 4 text
  | 'U' :: text => codePoint 8 text
  | _ => none

/-- One character of a basic string. -/
def basicChar : Reader Char
  | '\\' :: text => escape text
  | c :: text => if c = '"' ∨ isControl c then none else some (c, text)
  | [] => none

/-- Text in double quotes, on one line. -/
def basicString : Reader Text
  | '"' :: text =>
    match Reader.many basicChar text with
    | (chars, '"' :: rest) => some (chars, rest)
    | _ => none
  | _ => none

/-- Text in single quotes, on one line. -/
def literalString : Reader Text
  | '\'' :: text =>
    match Reader.many (Reader.char fun c => c != '\'' && !isControl c) text with
    | (chars, '\'' :: rest) => some (chars, rest)
    | _ => none
  | _ => none

/-- Whether quotes at the front of a text close a string on several lines. Three
do; the one or two quotes before them belong to the string. -/
def closes (quote : Char) (text : Text) : Bool :=
  let run := (text.takeWhile (· == quote)).length
  run == 3 || decide (5 < run)

/-- The blanks and newlines after a backslash at the end of a line. -/
def skipLines : Text → Text
  | ' ' :: text => skipLines text
  | '\t' :: text => skipLines text
  | '\n' :: text => skipLines text
  | '\r' :: '\n' :: text => skipLines text
  | text => text

/-- What a string on several lines may hold beside escapes: quotes that do not
close it, newlines, and all characters but the control characters. -/
def multilineChar (quote : Char) : Reader Text := fun text =>
  match newline text with
  | some (_, rest) => some (['\n'], rest)
  | none =>
    match text with
    | c :: rest =>
      if c = quote then if closes quote text then none else some ([c], rest)
      else if isControl c then none
      else some ([c], rest)
    | [] => none

/-- One character of a basic string on several lines, or a backslash at the end
of a line with all blank space up to the next character. -/
def multilineBasicChar : Reader Text
  | '\\' :: text =>
    match newline (skipBlanks text) with
    | some (_, rest) => some ([], skipLines rest)
    | none => Reader.map (fun c => [c]) escape text
  | text => multilineChar '"' text

/-- Text between three quotes and three quotes. A newline right after the first
three is not part of it. -/
def multilineString (quote : Char) (read : Reader Text) : Reader Text := fun text =>
  let fence := List.replicate 3 quote
  (Reader.literal fence text).bind fun (_, body) =>
    let body := ((newline body).map Prod.snd).getD body
    let (parts, rest) := Reader.many read body
    (Reader.literal fence rest).map fun (_, rest) => (parts.flatten, rest)

/-- A string of any of the four kinds. -/
def string : Reader Text :=
  Reader.orElse (multilineString '"' multilineBasicChar) <|
  Reader.orElse basicString <|
  Reader.orElse (multilineString '\'' (multilineChar '\'')) literalString

end WrenDocs.Toml
