import WrenDocs.Category
import WrenDocs.Text.Utf8

/-! A range of a source text with what stands there. -/
namespace WrenDocs

structure Span where
  /-- Offset of the first byte. -/
  start : Nat
  /-- Offset just past the last byte. -/
  stop : Nat
  category : Category
  deriving DecidableEq, Repr, Inhabited

namespace Span

/-- How many bytes a span covers, unless it ends before it starts. -/
def length? (span : Span) : Option Nat :=
  if span.start ≤ span.stop then some (span.stop - span.start) else none

def isEmpty (span : Span) : Bool :=
  span.start == span.stop

/-- What a span covers in a source. A span that does not fit the source, or
that cuts a character, covers nothing. -/
def text (span : Span) (source : Text) : Text :=
  (Text.slice? span.start span.stop source).getD []

end Span

end WrenDocs
