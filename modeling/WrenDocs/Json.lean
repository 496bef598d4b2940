import WrenDocs.Text.Utf8

/-! JSON values and their two written forms: compact on one line, and indented
with one member on each line. -/
namespace WrenDocs

inductive Json where
  | null
  | bool (value : Bool)
  | number (value : Nat)
  | string (value : Text)
  | array (items : List Json)
  /-- Members in the order in which they are written. -/
  | object (members : List (String × Json))
  deriving Repr, Inhabited

namespace Json

/-- One character between the quotes. Quote, backslash and the characters below
U+0020 are escaped, five of these by a letter; all others stand as they are. -/
def escapeChar (c : Char) : Text :=
  match c with
  | '"' => ['\\', '"']
  | '\\' => ['\\', '\\']
  | '\x08' => ['\\', 'b']
  | '\x0c' => ['\\', 'f']
  | '\n' => ['\\', 'n']
  | '\r' => ['\\', 'r']
  | '\t' => ['\\', 't']
  | c =>
    if c.toNat < 0x10 then ['\\', 'u', '0', '0', '0'] ++ Nat.toDigits 16 c.toNat
    else if c.toNat < 0x20 then ['\\', 'u', '0', '0'] ++ Nat.toDigits 16 c.toNat
    else [c]

/-- A text in quotes. -/
def quote (text : Text) : Text :=
  '"' :: text.flatMap escapeChar ++ ['"']

def ofBool : Bool → Text
  | true => "true".toList
  | false => "false".toList

/-- Texts with a separator between them. -/
def separated (separator : Text) : List Text → Text
  | [] => []
  | [text] => text
  | text :: texts => text ++ separator ++ separated separator texts

mutual

/-- A value on one line, without any blank. -/
def compact : Json → Text
  | null => "null".toList
  | bool value => ofBool value
  | number value => Nat.toDigits 10 value
  | string value => quote value
  | array items => '[' :: separated [','] (compactItems items) ++ [']']
  | object members => '{' :: separated [','] (compactMembers members) ++ ['}']

def compactItems : List Json → List Text
  | [] => []
  | item :: items => compact item :: compactItems items

def compactMembers : List (String × Json) → List Text
  | [] => []
  | (key, value) :: members =>
    (quote key.toList ++ ':' :: compact value) :: compactMembers members

end

/-- A new line with so many levels of two blanks. -/
def newline (level : Nat) : Text :=
  '\n' :: List.replicate (2 * level) ' '

/-- Members or items on lines of their own between two brackets; nothing stands
between the brackets if there are none. -/
def block (level : Nat) (opening closing : Char) (entries : List Text) : Text :=
  match entries with
  | [] => [opening, closing]
  | _ => opening :: newline (level + 1) ++ separated (',' :: newline (level + 1)) entries
      ++ newline level ++ [closing]

mutual

/-- A value with its items and members on lines of their own, at such a level. -/
def indented (level : Nat) : Json → Text
  | null => "null".toList
  | bool value => ofBool value
  | number value => Nat.toDigits 10 value
  | string value => quote value
  | array items => block level '[' ']' (indentedItems (level + 1) items)
  | object members => block level '{' '}' (indentedMembers (level + 1) members)

def indentedItems (level : Nat) : List Json → List Text
  | [] => []
  | item :: items => indented level item :: indentedItems level items

def indentedMembers (level : Nat) : List (String × Json) → List Text
  | [] => []
  | (key, value) :: members =>
    (quote key.toList ++ ':' :: ' ' :: indented level value) :: indentedMembers level members

end

/-- A value with its items and members on lines of their own. -/
def pretty (value : Json) : Text :=
  indented 0 value

end Json

end WrenDocs
