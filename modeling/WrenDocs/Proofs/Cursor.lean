import WrenDocs.Cursor
import WrenDocs.Proofs.Ascii
import WrenDocs.Proofs.Coverage

/-! The byte before a cursor. Texts are lists of characters, a cursor looks back by
one byte; between two characters it sees a dot exactly where a dot stands. -/
namespace WrenDocs

/-- The byte of a dot. -/
def Text.dotByte : UInt8 := 0x2E

namespace Text

theorem bytes_cons (c : Char) (text : Text) :
    bytes (c :: text) = String.utf8EncodeChar c ++ bytes text :=
  List.flatMap_cons

theorem length_bytes (text : Text) : (bytes text).length = byteCount text := by
  induction text with
  | nil => rfl
  | cons c text ih =>
    rw [bytes_cons, List.length_append, String.length_utf8EncodeChar, byteCount_cons, ih]

theorem bytes_append (front back : Text) : bytes (front ++ back) = bytes front ++ bytes back :=
  List.flatMap_append

/-- Only the dot itself ends in the byte of a dot: the last byte of a longer
character is never an ASCII one. -/
theorem getLast?_utf8EncodeChar_eq_dot_iff (c : Char) :
    (String.utf8EncodeChar c).getLast? = some dotByte ↔ c = '.' := by
  cases hascii : isAscii c with
  | true =>
    have htable : ascii.all (fun c => decide (c.toUInt8 = dotByte ↔ c = '.')) = true := by decide
    rw [utf8EncodeChar_of_isAscii hascii, List.getLast?_singleton, Option.some_inj]
    exact of_decide_eq_true (List.all_eq_true.mp htable c (mem_ascii hascii))
  | false =>
    constructor
    · intro h
      have hhigh := le_of_mem_utf8EncodeChar hascii (List.mem_of_getLast? h)
      exact absurd hhigh (by decide)
    · rintro rfl
      exact absurd hascii (by decide)

theorem getLast?_bytes_eq_dot_iff (text : Text) :
    (bytes text).getLast? = some dotByte ↔ text.getLast? = some '.' := by
  obtain rfl | ⟨text, c, rfl⟩ := List.eq_nil_or_concat text
  · simp [bytes]
  · have hlast : bytes [c] = String.utf8EncodeChar c := List.flatMap_singleton ..
    have hne : (String.utf8EncodeChar c) ≠ [] := String.utf8EncodeChar_ne_nil
    rw [List.concat_eq_append, bytes_append, hlast, List.getLast?_append,
      List.getLast?_eq_some_getLast hne, Option.some_or, ← List.getLast?_eq_some_getLast hne,
      getLast?_utf8EncodeChar_eq_dot_iff, List.getLast?_concat, Option.some_inj]

end Text

namespace Cursor

theorem previous?_append (front back : Text) :
    (Cursor.mk (front ++ back) (Text.byteCount front)).previous? = (Text.bytes front).getLast? := by
  cases hcount : Text.byteCount front with
  | zero =>
    rw [← Text.length_bytes, List.length_eq_zero_iff] at hcount
    rw [hcount]
    rfl
  | succ count =>
    rw [← Text.length_bytes] at hcount
    rw [List.getLast?_eq_getElem?, hcount, Nat.add_sub_cancel]
    simp only [previous?, bytes]
    rw [Text.bytes_append, List.getElem?_append_left (by omega)]

/-- Between two characters the byte before the cursor tells whether the
character before it is a dot. -/
theorem previous?_eq_dot_iff {cursor : Cursor} (h : cursor.source.IsBoundary cursor.position) :
    cursor.previous? = some Text.dotByte ↔ cursor.before? = some '.' := by
  obtain ⟨source, position⟩ := cursor
  obtain ⟨front, back, rfl, rfl⟩ := h
  rw [previous?_append, Text.getLast?_bytes_eq_dot_iff, before?, Text.splitAtByte?_byteCount,
    Option.bind_some]

end Cursor

end WrenDocs
