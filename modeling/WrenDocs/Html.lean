import WrenDocs.Span
import WrenDocs.Text.Split

/-! Spans as HTML. Every piece of a line is an element of its own, so no element
crosses a line, and the five characters of markup are written as entities. -/
namespace WrenDocs.Html

/-- A character as it stands in text or in an attribute. -/
def escapeChar : Char → Text
  | '&' => "&amp;".toList
  | '<' => "&lt;".toList
  | '>' => "&gt;".toList
  | '"' => "&quot;".toList
  | '\'' => "&#39;".toList
  | c => [c]

/-- A text as it stands in text or in an attribute. -/
def escape (text : Text) : Text :=
  text.flatMap escapeChar

/-- How spans are written. -/
structure Style where
  /-- Stands before every style class. -/
  classPrefix : Text
  /-- The class of the enclosing block. -/
  wrapperClass : Text
  /-- Whether the elements stand without the enclosing block. -/
  bare : Bool
  deriving DecidableEq, Repr

/-- The plain style classes, in a block of the class `highlight`. -/
def Style.standard : Style :=
  ⟨[], "highlight".toList, false⟩

/-- One piece of a line. Nothing is written for an empty piece. -/
def piece (style : Style) (category : Category) (text : Text) : Text :=
  match text with
  | [] => []
  | _ => "<span class=\"".toList ++ escape style.classPrefix ++ category.styleClass.toList
      ++ "\">".toList ++ escape text ++ "</span>".toList

/-- What a span covers, piece by piece, with the newlines between the pieces. -/
def element (style : Style) (category : Category) (text : Text) : Text :=
  Text.joinWith '\n' ((Text.splitOn '\n' text).map (piece style category))

/-- The elements of all spans. -/
def elements (style : Style) (source : Text) (spans : List Span) : Text :=
  spans.flatMap fun span => element style span.category (span.text source)

/-- The spans of a source as HTML. -/
def render (style : Style) (source : Text) (spans : List Span) : Text :=
  if style.bare then elements style source spans
  else "<div class=\"".toList ++ escape style.wrapperClass ++ "\"><pre>".toList
    ++ elements style source spans ++ "</pre></div>\n".toList

end WrenDocs.Html
