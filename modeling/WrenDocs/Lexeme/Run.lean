import WrenDocs.Text.Alphanumeric
import WrenDocs.Text.Utf8

/-! Lexemes that run on until something else begins: names, operators, and the
bodies of comments, strings and markup. -/
namespace WrenDocs.Lexeme

/-- The characters of an operator. -/
def operatorChars : List Char :=
  ['!', '%', '&', '*', '+', '-', '.', '/', ':', '<', '=', '>', '?', '\\', '^', '|', '~']

def isOperatorChar (c : Char) : Bool :=
  operatorChars.contains c

/-- A name whose first character passes the test. -/
def name (isHead : Char → Bool) : Text → Text
  | c :: text => if isHead c then c :: text.takeWhile Text.isNameChar else []
  | [] => []

/-- Two underscores and the rest of a name. -/
def classVariable : Text → Text
  | '_' :: '_' :: text => '_' :: '_' :: text.takeWhile Text.isNameChar
  | _ => []

/-- `//` and the rest of its line. -/
def lineComment : Text → Text
  | '/' :: '/' :: text => '/' :: '/' :: text.takeWhile (· != '\n')
  | _ => []

/-- The body of a block comment: up to the next `/*` or `*/`. -/
def commentText : Text → Text
  | '/' :: '*' :: _ => []
  | '*' :: '/' :: _ => []
  | c :: text => c :: commentText text
  | [] => []

/-- The body of a string: up to the next backslash, `%` or quote. -/
def stringText (quote : Char) (text : Text) : Text :=
  text.takeWhile fun c => c != '\\' && c != quote && c != '%'

/-- The body of markup: up to the next backslash, `<` or double brace. A lone
brace is part of it. -/
def markupText : Text → Text
  | '\\' :: _ => []
  | '<' :: _ => []
  | '{' :: '{' :: _ => []
  | c :: text => c :: markupText text
  | [] => []

end WrenDocs.Lexeme
