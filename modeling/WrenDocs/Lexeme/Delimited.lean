import WrenDocs.Text.Utf8

/-! Lexemes with a closer: markup tags, raw strings and quoted queries. Each
function takes a lexeme off the front of a text, the empty one if none begins
there. A lexeme that is never closed is no lexeme, however far the text goes. -/
namespace WrenDocs.Lexeme

/-- The text through the first `stop`, if there is one. -/
def through? (stop : Char) : Text → Option Text
  | [] => none
  | c :: text => if c = stop then some [c] else (through? stop text).map (c :: ·)

/-- `<` or `</`, a lower-case ASCII letter, then through the next `>`. -/
def htmlTag : Text → Text
  | '<' :: '/' :: c :: text =>
    if c.isLower then ((through? '>' text).map (['<', '/', c] ++ ·)).getD [] else []
  | '<' :: c :: text =>
    if c.isLower then ((through? '>' text).map (['<', c] ++ ·)).getD [] else []
  | _ => []

/-- `<`, at least one character, then through the next `>`. Nothing stands
between the brackets of `<>`, so it begins no tag. -/
def markupTag : Text → Text
  | '<' :: '>' :: _ => []
  | '<' :: text => ((through? '>' text).map ('<' :: ·)).getD []
  | _ => []

/-- The text through the first three double quotes in a row. -/
def throughTripleQuote? : Text → Option Text
  | '"' :: '"' :: '"' :: _ => some ['"', '"', '"']
  | c :: text => (throughTripleQuote? text).map (c :: ·)
  | [] => none

/-- Three double quotes, through the next three. -/
def rawString : Text → Text
  | '"' :: '"' :: '"' :: text =>
    ((throughTripleQuote? text).map (['"', '"', '"'] ++ ·)).getD []
  | _ => []

/-- The text through the first backtick that no backslash escapes. -/
def throughBacktick? : Text → Option Text
  | '`' :: _ => some ['`']
  | '\\' :: c :: text => (throughBacktick? text).map (['\\', c] ++ ·)
  | ['\\'] => none
  | c :: text => (throughBacktick? text).map (c :: ·)
  | [] => none

/-- A query in backticks, where a backslash escapes any character. -/
def query : Text → Text
  | '`' :: text => ((throughBacktick? text).map ('`' :: ·)).getD []
  | _ => []

end WrenDocs.Lexeme
