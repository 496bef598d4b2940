import WrenDocs.Lexeme.Attribute
import WrenDocs.Lexeme.Delimited
import WrenDocs.Lexeme.Escape
import WrenDocs.Lexeme.Number
import WrenDocs.Lexeme.Run
import WrenDocs.Text.Space

/-! The patterns of the rules. A pattern takes a lexeme off the front of a text
and never takes an empty one, so whoever follows it gets on. -/
namespace WrenDocs

inductive Pattern where
  /-- One or more space characters. -/
  | space
  /-- Exactly this text. -/
  | literal (text : Text)
  /-- One character of the set. -/
  | oneOf (set : List Char)
  /-- One of the words, whole, and not right after a dot. -/
  | word (words : List Text)
  /-- An opening or closing tag, with a lower-case letter first. -/
  | htmlTag
  /-- `//` to the end of the line. -/
  | lineComment
  /-- `#` to the end of the line, or of its argument list. -/
  | attributeLine
  /-- One or more operator characters. -/
  | operatorRun
  | lowerName
  | upperName
  /-- A name that begins with two underscores. -/
  | classVariable
  /-- A name that begins with an underscore. -/
  | instanceVariable
  | hexNumber
  | decimal
  /-- Text between triple double quotes. -/
  | rawString
  /-- Text between backticks. -/
  | query
  /-- Comment text that neither opens nor closes a comment. -/
  | commentText
  /-- A backslash and one character of the set. -/
  | charEscape (set : List Char)
  /-- A backslash, the marker and exactly so many hexadecimal digits. -/
  | hexEscape (marker : Char) (count : Nat)
  /-- String text up to a backslash, a `%` or the quote. -/
  | stringText (quote : Char)
  /-- Any tag with something between its brackets. -/
  | markupTag
  /-- Markup up to a backslash, a `<` or a double brace. -/
  | markupText
  deriving DecidableEq, Repr, Inhabited

namespace Pattern

/-- The whole word at the front of a text, if it is in the list and the
character before it is no dot: after a dot every word is the name of a member,
and a word that goes on is another word. -/
def wordOf (words : List Text) (before : Option Char) (text : Text) : Text :=
  let word := text.takeWhile Text.isWordChar
  if before ≠ some '.' ∧ words.contains word then word else []

/-- The lexeme of a pattern at the front of a text, empty if there is none;
`before` is the character in front of the text. -/
def lexeme (before : Option Char) (text : Text) : Pattern → Text
  | space => text.takeWhile Text.isSpace
  | literal expected => if expected.isPrefixOf text then expected else []
  | oneOf set => (text.take 1).takeWhile set.contains
  | word words => wordOf words before text
  | htmlTag => Lexeme.htmlTag text
  | lineComment => Lexeme.lineComment text
  | attributeLine => Lexeme.attributeLine text
  | operatorRun => text.takeWhile Lexeme.isOperatorChar
  | lowerName => Lexeme.name Char.isLower text
  | upperName => Lexeme.name Char.isUpper text
  | classVariable => Lexeme.classVariable text
  | instanceVariable => Lexeme.name (· == '_') text
  | hexNumber => Lexeme.hexNumber text
  | decimal => Lexeme.decimal text
  | rawString => Lexeme.rawString text
  | query => Lexeme.query text
  | commentText => Lexeme.commentText text
  | charEscape set => Lexeme.charEscape set text
  | hexEscape marker count => Lexeme.hexEscape marker count text
  | stringText quote => Lexeme.stringText quote text
  | markupTag => Lexeme.markupTag text
  | markupText => Lexeme.markupText text

/-- The lexeme of a pattern at the front of a text, if there is one. An empty
lexeme is none. -/
def lexeme? (pattern : Pattern) (before : Option Char) (text : Text) : Option Text :=
  match pattern.lexeme before text with
  | [] => none
  | lexeme => some lexeme

/-- How many bytes a pattern takes at the front of a text. -/
def byteLength? (pattern : Pattern) (before : Option Char) (text : Text) : Option Nat :=
  (pattern.lexeme? before text).map Text.byteCount

theorem lexeme?_eq_some_iff {pattern : Pattern} {before : Option Char} {text lexeme : Text} :
    pattern.lexeme? before text = some lexeme ↔
      pattern.lexeme before text = lexeme ∧ lexeme ≠ [] := by
  unfold lexeme?
  split
  · rename_i hnil
    simp only [hnil, reduceCtorEq, false_iff, not_and]
    exact fun h hne => hne h.symm
  · rename_i found hfound
    simp only [Option.some.injEq]
    exact ⟨fun h => ⟨h, h ▸ hfound⟩, And.left⟩

end Pattern

end WrenDocs
