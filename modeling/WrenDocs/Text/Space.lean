import WrenDocs.Text.Ranges
import WrenDocs.Text.Utf8

/-! The characters that separate words, and what is left of a text between them. -/
namespace WrenDocs.Text

/-- The characters with the property White_Space. -/
def whiteSpace : Ranges :=
  [ (0x9, 0xd), (0x20, 0x20), (0x85, 0x85), (0xa0, 0xa0), (0x1680, 0x1680), (0x2000, 0x200a),
    (0x2028, 0x2029), (0x202f, 0x202f), (0x205f, 0x205f), (0x3000, 0x3000) ]

def isWhiteSpace (c : Char) : Bool :=
  whiteSpace.contains c.toNat

/-- White space, or one of the four ASCII separators U+001C to U+001F. -/
def isSpace (c : Char) : Bool :=
  isWhiteSpace c || (decide (0x1c ≤ c.toNat) && decide (c.toNat ≤ 0x1f))

/-- A text without the white space at its two ends. -/
def trim (text : Text) : Text :=
  ((text.dropWhile isWhiteSpace).reverse.dropWhile isWhiteSpace).reverse

end WrenDocs.Text
