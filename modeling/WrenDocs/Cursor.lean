import WrenDocs.Pattern

/-! A place in a source text, counted in bytes. It may stand anywhere, also past
the end or inside a character; what is left there is then the empty text, and
the bytes past the end read as zero. -/
namespace WrenDocs

structure Cursor where
  source : Text
  position : Nat
  deriving DecidableEq, Repr, Inhabited

namespace Cursor

def bytes (cursor : Cursor) : List UInt8 :=
  Text.bytes cursor.source

/-- The byte so many places ahead, zero past the end. -/
def byteAt (cursor : Cursor) (ahead : Nat) : UInt8 :=
  (cursor.bytes[cursor.position + ahead]?).getD 0

/-- The byte just before the cursor, if the source has one there. -/
def previous? (cursor : Cursor) : Option UInt8 :=
  match cursor.position with
  | 0 => none
  | position + 1 => cursor.bytes[position]?

/-- Whether nothing is left. This compares places and not bytes, for a NUL may
be part of the source. -/
def atEnd (cursor : Cursor) : Bool :=
  decide (cursor.bytes.length ≤ cursor.position)

/-- The text from the cursor on. -/
def rest (cursor : Cursor) : Text :=
  ((Text.splitAtByte? cursor.position cursor.source).map Prod.snd).getD []

/-- The character before the cursor, if the cursor stands between characters. -/
def before? (cursor : Cursor) : Option Char :=
  (Text.splitAtByte? cursor.position cursor.source).bind fun cut => cut.1.getLast?

/-- Moves on by so many bytes, past the end if need be. -/
def advance (cursor : Cursor) (count : Nat) : Cursor :=
  { cursor with position := cursor.position + count }

/-- Moves on over one character; stays where no text is left. -/
def advanceChar (cursor : Cursor) : Cursor :=
  cursor.advance (Text.byteCount (cursor.rest.take 1))

def startsWith (cursor : Cursor) (expected : Text) : Bool :=
  expected.isPrefixOf cursor.rest

/-- How many bytes in a row pass the test, wherever the cursor stands. -/
def bytesWhile (cursor : Cursor) (test : UInt8 → Bool) : Nat :=
  ((cursor.bytes.drop cursor.position).takeWhile test).length

/-- How many bytes the characters in a row that pass the test take. -/
def charsWhile (cursor : Cursor) (test : Char → Bool) : Nat :=
  Text.byteCount (cursor.rest.takeWhile test)

/-- Moves on to the first of these characters, or to the end. -/
def advanceUntil (cursor : Cursor) (stops : List Char) : Cursor :=
  cursor.advance (cursor.charsWhile fun c => !stops.contains c)

/-- The text between an offset and the cursor. -/
def textFrom (cursor : Cursor) (start : Nat) : Text :=
  (Text.slice? start cursor.position cursor.source).getD []

/-- How many bytes a pattern takes at the cursor. -/
def matchLength? (cursor : Cursor) (pattern : Pattern) : Option Nat :=
  pattern.byteLength? cursor.before? cursor.rest

end Cursor

end WrenDocs
