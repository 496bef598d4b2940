import WrenDocs.Classifier

/-! A source as a renderer wants it: neighbouring spans of one category are one
span, so a nested comment is one comment and not seven pieces. -/
namespace WrenDocs

structure Highlighted where
  spans : List Span
  /-- The innermost mode that the source leaves open, if it leaves one open. -/
  unterminated? : Option Mode
  deriving DecidableEq, Repr, Inhabited

namespace Highlighted

/-- Merges neighbouring spans that touch and have one category. -/
def coalesce : List Span → List Span
  | [] => []
  | span :: spans =>
    match coalesce spans with
    | [] => [span]
    | next :: others =>
      if span.category = next.category ∧ span.stop = next.start then
        { next with start := span.start } :: others
      else span :: next :: others

/-- Plain text: all of a source as one span, and nothing for an empty one. -/
def plain (source : Text) : Highlighted :=
  match source with
  | [] => ⟨[], none⟩
  | _ => ⟨[⟨0, Text.byteCount source, .other⟩], none⟩

/-- Whether some piece could not be classified. -/
def hasErrors (highlighted : Highlighted) : Bool :=
  highlighted.spans.any fun span => span.category == .error

end Highlighted

/-- A source, classified and merged. -/
def highlight (source : Text) : Highlighted :=
  let (tokens, last) := (Classifier.ofText source).run
  { spans := Highlighted.coalesce (Classifier.spansFrom 0 tokens)
    unterminated? := if 1 < last.depth then some last.mode else none }

end WrenDocs
