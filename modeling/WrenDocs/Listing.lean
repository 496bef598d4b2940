import WrenDocs.Classifier
import WrenDocs.Text.Quoted

/-! Spans as a listing, one line for each. The text of a span is quoted, so it
stays on its line whatever it holds. -/
namespace WrenDocs.Listing

/-- The line of a span, with `hidden` telling which characters are written by
their code points. -/
def lineHiding (hidden : Char → Bool) (source : Text) (span : Span) : Text :=
  "  ".toList ++ span.category.dottedName.toList ++ " @ ".toList
    ++ Nat.toDigits 10 span.start ++ "..".toList ++ Nat.toDigits 10 span.stop
    ++ " ".toList ++ Text.quoteHiding hidden (span.text source) ++ ['\n']

/-- The line of a span. -/
def line (source : Text) (span : Span) : Text :=
  lineHiding Text.isHidden source span

/-- The lines of spans over a source. -/
def ofSpans (source : Text) (spans : List Span) : Text :=
  spans.flatMap (line source)

/-- The tokens of a source, one on each line. -/
def ofSource (source : Text) : Text :=
  ofSpans source (classify source)

/-- How many lines a text has. A newline ends a line, and the last line needs
none. -/
def lineCount : Text → Nat
  | [] => 0
  | [_] => 1
  | c :: next :: text => lineCount (next :: text) + if c = '\n' then 1 else 0

end WrenDocs.Listing
