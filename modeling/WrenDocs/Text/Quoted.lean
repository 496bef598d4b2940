import WrenDocs.Text.Printable
import WrenDocs.Text.Utf8

/-! Text in double quotes, as the listings show it: on one line, with every
hidden character written by its code point. -/
namespace WrenDocs.Text

/-- One character between the quotes. The six characters with a short escape
take it; any other character that `hidden` names is written by its code point
in lower-case hexadecimal. -/
def quoteChar (hidden : Char → Bool) (c : Char) : Text :=
  match c with
  | '"' => ['\\', '"']
  | '\\' => ['\\', '\\']
  | '\n' => ['\\', 'n']
  | '\r' => ['\\', 'r']
  | '\t' => ['\\', 't']
  | '\x00' => ['\\', '0']
  | c => if hidden c then ['\\', 'u', '{'] ++ Nat.toDigits 16 c.toNat ++ ['}'] else [c]

/-- A text in double quotes, where `hidden` tells which characters are written
by their code points. -/
def quoteHiding (hidden : Char → Bool) (text : Text) : Text :=
  '"' :: text.flatMap (quoteChar hidden) ++ ['"']

/-- A text in double quotes, as the listings show it. -/
def quote (text : Text) : Text :=
  quoteHiding isHidden text

end WrenDocs.Text
