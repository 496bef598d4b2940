import WrenDocs.Toml.Document

/-! Settings as a TOML document: sections with headers, and a key on each line.
Every text takes the plainest of the quoted forms that can hold it. -/
namespace WrenDocs.Toml

/-- What a key is set to. -/
inductive Setting where
  | string (value : String)
  | flag (value : Bool)
  | list (items : List String)
  deriving DecidableEq, Repr, Inhabited

/-- Settings under a header; the first section of a document has an empty one. -/
structure Section where
  header : List String
  settings : List (String × Setting)
  deriving DecidableEq, Repr, Inhabited

namespace Setting

/-- The most quotes in a row. -/
def longestRun (quote : Char) : Text → Nat
  | [] => 0
  | c :: text =>
    if c = quote then
      max ((c :: text).takeWhile (· == quote)).length (longestRun quote text)
    else longestRun quote text

/-- A control character that only an escape can write; a newline is none, for a
string on several lines holds it. -/
def needsEscape (c : Char) : Bool :=
  isControl c && c != '\n'

/-- The forms in which a text can be quoted. -/
inductive Form where
  | basic
  | literal
  | multilineBasic
  | multilineLiteral
  deriving DecidableEq, Repr

/-- The first form that can hold a text: basic and literal strings on one line if
they need no escapes, then both on several lines, then a basic string with
escapes. -/
def formOf (text : Text) : Form :=
  let control := text.any needsEscape
  let lines := text.contains '\n'
  let backslash := text.contains '\\'
  if !control && !lines && !backslash && !text.contains '"' then .basic
  else if !control && !lines && !text.contains '\'' then .literal
  else if !control && !backslash && decide (longestRun '"' text ≤ 2) then .multilineBasic
  else if !control && decide (longestRun '\'' text ≤ 2) then .multilineLiteral
  else if lines then .multilineBasic
  else .basic

/-- A code point in four capital hexadecimal digits. -/
def hexCode (c : Char) : Text :=
  let digits := (Nat.toDigits 16 c.toNat).map Char.toUpper
  List.replicate (4 - digits.length) '0' ++ digits

/-- A character that a basic string writes by an escape, quotes and newlines
aside. -/
def escapeChar (c : Char) : Text :=
  match c with
  | '\x08' => ['\\', 'b']
  | '\t' => ['\\', 't']
  | '\x0c' => ['\\', 'f']
  | '\r' => ['\\', 'r']
  | '\\' => ['\\', '\\']
  | c => if isControl c then ['\\', 'u'] ++ hexCode c else [c]

/-- The body of a basic string. So many quotes in a row may stand as they are;
the next is escaped, and the count begins again. Newlines stand as they are on
several lines only. -/
def escapeText (multiline : Bool) (allowed run : Nat) : Text → Text
  | [] => []
  | c :: text =>
    if c = '"' then
      if run < allowed then '"' :: escapeText multiline allowed (run + 1) text
      else '\\' :: '"' :: escapeText multiline allowed 0 text
    else if c = '\n' then
      (if multiline then ['\n'] else ['\\', 'n']) ++ escapeText multiline allowed 0 text
    else escapeChar c ++ escapeText multiline allowed 0 text

/-- The newline that a text with several lines has before its first line, where
no reader takes it for part of the text. -/
def openingNewline (text : Text) : Text :=
  if text.contains '\n' then ['\n'] else []

def fence (quote : Char) : Text :=
  List.replicate 3 quote

/-- A text in quotes of such a form. -/
def quoteIn (form : Form) (text : Text) : Text :=
  match form with
  | .basic => '"' :: escapeText false 0 0 text ++ ['"']
  | .literal => '\'' :: text ++ ['\'']
  | .multilineBasic => fence '"' ++ openingNewline text ++ escapeText true 2 0 text ++ fence '"'
  | .multilineLiteral => fence '\'' ++ openingNewline text ++ text ++ fence '\''

/-- A text in the first form that can hold it. -/
def quote (text : Text) : Text :=
  quoteIn (formOf text) text

/-- A key, in quotes only where it needs them: basic without escapes, then
literal, then basic with escapes. -/
def writeKey (key : Text) : Text :=
  if key ≠ [] ∧ key.all isBareKeyChar then key
  else
    let control := key.any isControl
    if !control && !key.contains '\\' && !key.contains '"' then quoteIn .basic key
    else if !control && !key.contains '\'' then quoteIn .literal key
    else quoteIn .basic key

/-- Items between brackets: up to one stays on the line, more have a line each. -/
def writeList : List String → Text
  | [] => ['[', ']']
  | [item] => '[' :: quote item.toList ++ [']']
  | items =>
    "[\n".toList ++ items.flatMap (fun item => "    ".toList ++ quote item.toList ++ ",\n".toList)
      ++ [']']

def write : Setting → Text
  | string value => quote value.toList
  | flag true => "true".toList
  | flag false => "false".toList
  | list items => writeList items

end Setting

namespace Section

/-- The parts of a header with dots between them. -/
def writeHeader : List String → Text
  | [] => []
  | [key] => Setting.writeKey key.toList
  | key :: keys => Setting.writeKey key.toList ++ '.' :: writeHeader keys

/-- The lines of a section, after an empty line and its header if it has one. -/
def write (part : Section) : Text :=
  (if part.header.isEmpty then [] else "\n[".toList ++ writeHeader part.header ++ "]\n".toList)
    ++ part.settings.flatMap fun (key, setting) =>
      Setting.writeKey key.toList ++ " = ".toList ++ setting.write ++ ['\n']

/-- Sections one after the other. -/
def writeAll (parts : List Section) : Text :=
  parts.flatMap write

end Section

end WrenDocs.Toml
