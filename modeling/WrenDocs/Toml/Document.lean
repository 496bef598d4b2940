import WrenDocs.Toml.DateTime
import WrenDocs.Toml.Draft
import WrenDocs.Toml.Number

/-! TOML documents, version 1.0. A document is read line by line; the lines then
define the tables in turn, and a definition that clashes with an earlier one
makes the whole document invalid. -/
namespace WrenDocs.Toml

/-- Values nest less deep than this, and dotted keys have fewer parts. -/
def depthLimit : Nat := 80

/-! ## Keys -/

/-- A character of a key without quotes. -/
def isBareKeyChar (c : Char) : Bool :=
  c.isAlphanum || c == '-' || c == '_'

def bareKey : Reader Text := fun text =>
  match text.takeWhile isBareKeyChar with
  | [] => none
  | key => some (key, text.drop key.length)

/-- One part of a key, with blanks around it. -/
def keyPart : Reader String := fun text =>
  (Reader.orElse basicString (Reader.orElse literalString bareKey) (skipBlanks text)).map
    fun (key, rest) => (String.ofList key, skipBlanks rest)

/-- The parts of a dotted key: those before the last, and the last. -/
def keyPath : Reader (List String × String) := fun text =>
  (Reader.separatedBy (Reader.literal ['.']) keyPart text).bind fun (parts, rest) =>
    if parts.length < depthLimit then
      parts.getLast?.map fun last => ((parts.dropLast, last), rest)
    else none

/-- A key, `=` and a value with blanks around it. -/
def pair (value : Reader Value) : Reader (List String × String × Value) := fun text => do
  let ((path, last), text) ← keyPath text
  let (_, text) ← Reader.literal ['='] text
  let (value, text) ← value (skipBlanks text)
  return ((path, last, value), skipBlanks text)

/-! ## Values -/

/-- What a reader took from a text. -/
def written (text rest : Text) : String :=
  String.ofList (text.take (text.length - rest.length))

def boolean : Reader Bool :=
  Reader.orElse (Reader.map (fun _ => true) (Reader.literal "true".toList))
    (Reader.map (fun _ => false) (Reader.literal "false".toList))

/-- A value that holds no other values. -/
def scalar : Reader Value := fun text =>
  Reader.orElse (Reader.map (fun chars => Value.string (String.ofList chars)) string)
    (Reader.orElse (Reader.map Value.boolean boolean)
    (Reader.orElse (fun text => (dateTime text).map fun (_, rest) =>
      (Value.dateTime (written text rest), rest))
    (Reader.orElse (fun text => (float text).map fun (_, rest) =>
      (Value.float (written text rest), rest))
    (Reader.map Value.integer integer)))) text

/-- `#` and what may follow it on a line. -/
def comment : Reader Unit
  | '#' :: text => some ((), text.dropWhile fun c => !isControl c)
  | _ => none

/-- Blanks, newlines, and comments that end with a newline. -/
def skipSpace (text : Text) : Text :=
  (Reader.many (Reader.orElse (Reader.map (fun _ => ()) (Reader.char isBlank))
    (Reader.orElse newline fun text => (comment text).bind fun found => newline found.2))
    text).2

/-- What follows the opening bracket of an array. Items have commas between them
and may have one after the last; space is free. -/
def arrayRest (item : Reader Value) : Reader (List Value) := fun text =>
  let spaced : Reader Value := fun text =>
    (item (skipSpace text)).map fun (value, rest) => (value, skipSpace rest)
  let (items, rest) :=
    match Reader.separatedBy (Reader.literal [',']) spaced text with
    | none => ([], skipSpace text)
    | some (items, rest) =>
      match rest with
      | ',' :: rest => (items, skipSpace rest)
      | _ => (items, rest)
  (Reader.literal [']'] rest).map fun (_, rest) => (items, rest)

/-- What follows the opening brace of a table in a line. Pairs have commas between
them and none after the last. -/
def tableRest (value : Reader Value) : Reader Table := fun text => do
  let (pairs, rest) :=
    (Reader.separatedBy (Reader.literal [',']) (pair value) text).getD ([], skipBlanks text)
  let (_, rest) ← Reader.literal ['\x7d'] rest
  let entries ← pairs.foldlM (fun entries (path, last, value) =>
    Draft.defineDotted last (.value value) path entries) []
  return (Draft.toTable entries, rest)

/-- A value that nests at most so deep. -/
def value : Nat → Reader Value
  | 0 => scalar
  | depth + 1 => fun text =>
    match text with
    | '[' :: text => Reader.map Value.array (arrayRest (value depth)) text
    | '\x7b' :: text => Reader.map Value.table (tableRest (value depth)) text
    | _ => scalar text

/-! ## Lines -/

/-- What a line says. -/
inductive Line where
  | blank
  | pair (path : List String) (last : String) (value : Value)
  /-- The header of a table. -/
  | table (path : List String) (last : String)
  /-- The header of an element of an array of tables. -/
  | element (path : List String) (last : String)
  deriving Repr, Inhabited

/-- A header between such brackets. -/
def header (opening closing : Text) : Reader (List String × String) := fun text => do
  let (_, text) ← Reader.literal opening text
  let (path, text) ← keyPath text
  let (_, text) ← Reader.literal closing text
  return (path, text)

/-- What a line says, without the comment and the end of the line. -/
def statement : Reader Line :=
  Reader.orElse (Reader.map (fun (path, last) => .element path last)
    (header ['[', '['] [']', ']'])) <|
  Reader.orElse (Reader.map (fun (path, last) => .table path last) (header ['['] [']'])) <|
  Reader.map (fun (path, last, value) => .pair path last value) (pair (value (depthLimit - 1)))

/-- A line with its end. The last line may end with the document. -/
def line : Reader Line
  | [] => none
  | text =>
    let text := skipBlanks text
    let (line, rest) := (statement text).getD (.blank, text)
    let rest := skipBlanks rest
    let rest := ((comment rest).map Prod.snd).getD rest
    match rest with
    | [] => some (line, [])
    | _ => (newline rest).map fun (_, rest) => (line, rest)

/-! ## Documents -/

/-- A document under way: what is defined, and the path of the last header. -/
structure Reading where
  entries : Draft.Entries
  current : List String
  deriving Repr, Inhabited

/-- Takes in what a line says. -/
def Reading.add (reading : Reading) : Line → Option Reading
  | .blank => some reading
  | .pair path last value =>
    (Draft.inTable (Draft.defineDotted last (.value value) path) reading.current
      reading.entries).map ({ reading with entries := · })
  | .table path last =>
    (Draft.inTable (Draft.defineTable last) path reading.entries).map (⟨·, path ++ [last]⟩)
  | .element path last =>
    (Draft.inTable (Draft.defineElement last) path reading.entries).map (⟨·, path ++ [last]⟩)

/-- A text without the mark that may stand at the very front of a document. -/
def withoutMark : Text → Text
  | '\ufeff' :: text => text
  | text => text

/-- The table that a document describes, if it is a valid document. -/
def Table.ofText? (document : Text) : Option Table := do
  match Reader.many line (withoutMark document) with
  | (lines, []) =>
    let reading ← lines.foldlM Reading.add ⟨[], []⟩
    return Draft.toTable reading.entries
  | _ => none

end WrenDocs.Toml
