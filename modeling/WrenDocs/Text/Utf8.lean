/-! Text as the list of its characters, measured in UTF-8 bytes. Offsets count
bytes and cuts fall between characters, so a cut that names a byte inside a
character does not exist. -/
namespace WrenDocs

/-- A text is the list of its characters. Strings appear where values are
stored and where text enters or leaves the program. -/
abbrev Text := List Char

namespace Text

/-- How many bytes a text takes in UTF-8. -/
def byteCount (text : Text) : Nat :=
  text.foldr (fun c count => c.utf8Size + count) 0

/-- The bytes of a text in UTF-8. -/
def bytes (text : Text) : List UInt8 :=
  text.flatMap String.utf8EncodeChar

/-- Cuts a text after so many bytes. There is no cut past the end and none
inside a character. -/
def splitAtByte? : Nat → Text → Option (Text × Text)
  | 0, text => some ([], text)
  | _ + 1, [] => none
  | n + 1, c :: text =>
    if c.utf8Size ≤ n + 1 then
      (splitAtByte? (n + 1 - c.utf8Size) text).map fun cut => (c :: cut.1, cut.2)
    else none

/-- The text between two byte offsets, if both are cuts in this order. -/
def slice? (start stop : Nat) (text : Text) : Option Text :=
  if start ≤ stop then
    (splitAtByte? start text).bind fun cut => (splitAtByte? (stop - start) cut.2).map Prod.fst
  else none

@[simp] theorem byteCount_nil : byteCount [] = 0 := rfl

@[simp] theorem byteCount_cons (c : Char) (text : Text) :
    byteCount (c :: text) = c.utf8Size + byteCount text := rfl

@[simp] theorem byteCount_append (a b : Text) :
    byteCount (a ++ b) = byteCount a + byteCount b := by
  induction a with
  | nil => simp
  | cons c a ih => rw [List.cons_append, byteCount_cons, byteCount_cons, ih, Nat.add_assoc]

/-- Every place between two characters is a cut. -/
theorem splitAtByte?_byteCount (before after : Text) :
    splitAtByte? (byteCount before) (before ++ after) = some (before, after) := by
  induction before with
  | nil => simp [splitAtByte?]
  | cons c before ih =>
    have hpos := c.utf8Size_pos
    obtain ⟨n, hn⟩ : ∃ n, byteCount (c :: before) = n + 1 :=
      ⟨c.utf8Size + byteCount before - 1, by rw [byteCount_cons]; omega⟩
    rw [hn, List.cons_append, splitAtByte?]
    rw [byteCount_cons] at hn
    rw [if_pos (by omega), show n + 1 - c.utf8Size = byteCount before by omega, ih]
    rfl

end Text

end WrenDocs
