import WrenDocs.Text.Utf8

/-! Attribute lines and the line that names an interpreter: `#` to the end of
the line, or to the end of a parenthesised list that ends a line. -/
namespace WrenDocs.Lexeme

/-- The end of the text, or a newline. -/
def atLineEnd : Text → Bool
  | [] => true
  | c :: _ => c == '\n'

/-- The text through the first `)` that ends a line, if there is one. -/
def throughClosingLine? : Text → Option Text
  | [] => none
  | c :: text =>
    if c = ')' ∧ atLineEnd text then some [c] else (throughClosingLine? text).map (c :: ·)

/-- The rest of an attribute after its `#`. The first `(` on the line that has
a `)` before some end of line takes everything through it, newlines included;
with none the line ends the attribute. Once one `(` has found no such `)`, no
later one will, so `listPossible` spares the search. -/
def attributeBody (listPossible : Bool) : Text → Text
  | [] => []
  | c :: text =>
    if c = '\n' then []
    else if c = '(' ∧ listPossible then
      match throughClosingLine? text with
      | some arguments => c :: arguments
      | none => c :: attributeBody false text
    else c :: attributeBody listPossible text

/-- An attribute, or the line that names an interpreter. -/
def attributeLine : Text → Text
  | '#' :: text => '#' :: attributeBody true text
  | _ => []

end WrenDocs.Lexeme
