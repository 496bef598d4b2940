import WrenDocs.Span

/-! Well-nested sources as syntax trees: plain pieces and brackets of seven
sorts, each around a body of its own kind. A tree says how it is printed, and
where in the print the delimiters of its brackets stand. -/
namespace WrenDocs.Nesting

/-- The kinds of body: code, the pieces of a string, a block comment, and markup. -/
inductive Kind where
  | code
  | string
  | comment
  | markup
  deriving DecidableEq, Repr

inductive Bracket where
  /-- Code in parentheses. -/
  | parenthesis
  /-- A string in double quotes. -/
  | double
  /-- A string in single quotes. -/
  | single
  /-- Code in double braces, in code and in markup. -/
  | braces
  /-- A block comment, in code and in another comment. -/
  | comment
  /-- Markup in a paragraph tag. -/
  | paragraph
  /-- Code in a string. -/
  | interpolation
  deriving DecidableEq, Repr

namespace Bracket

def all : List Bracket :=
  [parenthesis, double, single, braces, comment, paragraph, interpolation]

theorem mem_all (bracket : Bracket) : bracket ∈ all := by
  cases bracket <;> decide

def opening : Bracket → Text
  | parenthesis => ['(']
  | double => ['"']
  | single => ['\'']
  | braces => ['{', '{']
  | comment => ['/', '*']
  | paragraph => ['<', 'p', '>']
  | interpolation => ['%', '(']

def closing : Bracket → Text
  | parenthesis | interpolation => [')']
  | double => ['"']
  | single => ['\'']
  | braces => ['}', '}']
  | comment => ['*', '/']
  | paragraph => ['<', '/', 'p', '>']

/-- What both delimiters are. -/
def category : Bracket → Category
  | parenthesis => .punctuation
  | double => .stringDouble
  | single => .stringSingle
  | braces | interpolation => .stringInterpol
  | comment => .commentMultiline
  | paragraph => .other

/-- The kind of body that stands in a bracket. -/
def inner : Bracket → Kind
  | parenthesis | braces | interpolation => .code
  | double | single => .string
  | comment => .comment
  | paragraph => .markup

/-- Whether a bracket may stand in a body of a kind. -/
def standsIn (kind : Kind) : Bracket → Bool
  | parenthesis | double | single | paragraph => kind == .code
  | braces => kind == .code || kind == .markup
  | comment => kind == .code || kind == .comment
  | interpolation => kind == .string

end Bracket

def plainChars : List Char :=
  [ 'a', 'b', 'c', 'd', 'e', 'f', 'g', 'h', 'i', 'j', 'k', 'l', 'm',
    'n', 'o', 'p', 'q', 'r', 's', 't', 'u', 'v', 'w', 'x', 'y', 'z',
    '0', '1', '2', '3', '4', '5', '6', '7', '8', '9', ' ' ]

namespace Kind

/-- The characters of the plain pieces; in code there is a piece with a `+` besides. -/
def alphabet : Kind → List Char
  | code | comment | markup => plainChars
  | string => '+' :: plainChars

/-- Whether a text is one plain piece. In comments and markup it may be empty. -/
def isPiece (kind : Kind) (text : Text) : Bool :=
  match kind with
  | code => text == [' ', '+', ' '] || text != [] && text.all kind.alphabet.contains
  | string => text != [] && text.all kind.alphabet.contains
  | comment | markup => text.all kind.alphabet.contains

end Kind

/-- A list of plain pieces and brackets. -/
inductive Body : Kind → Type where
  | nil {kind : Kind} : Body kind
  | piece {kind : Kind} (text : Text) (hpiece : kind.isPiece text = true) (rest : Body kind) :
      Body kind
  | enclosed {kind : Kind} (bracket : Bracket) (hstands : bracket.standsIn kind = true)
      (body : Body bracket.inner) (rest : Body kind) : Body kind

namespace Body

def print {kind : Kind} : Body kind → Text
  | nil => []
  | piece text _ rest => text ++ rest.print
  | enclosed bracket _ body rest =>
    bracket.opening ++ (body.print ++ (bracket.closing ++ rest.print))

/-- The spans of all opening and closing delimiters in the print, where it
begins at such an offset. -/
def delimiters {kind : Kind} (offset : Nat) : Body kind → List Span
  | nil => []
  | piece text _ rest => rest.delimiters (offset + Text.byteCount text)
  | enclosed bracket _ body rest =>
    let start := offset + Text.byteCount bracket.opening
    let stop := start + Text.byteCount body.print
    let next := stop + Text.byteCount bracket.closing
    ⟨offset, start, bracket.category⟩ :: body.delimiters start ++
      ⟨stop, next, bracket.category⟩ :: rest.delimiters next

def isEmpty {kind : Kind} : Body kind → Bool
  | nil => true
  | _ => false

def startsDouble {kind : Kind} : Body kind → Bool
  | enclosed .double _ _ _ => true
  | _ => false

/-- No empty string in double quotes is directly followed by another string in
double quotes: three quotes in a row begin a raw string. -/
def separated {kind : Kind} : Body kind → Bool
  | nil => true
  | piece _ _ rest => rest.separated
  | enclosed bracket _ body rest =>
    body.separated && rest.separated &&
      !(bracket == .double && body.isEmpty && rest.startsDouble)

end Body

end WrenDocs.Nesting
