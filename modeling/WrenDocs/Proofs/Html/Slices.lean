import WrenDocs.Proofs.Ascii
import WrenDocs.Proofs.Cursor
import WrenDocs.Proofs.Html.Entity

/-! Escaping in bytes. The bytes of a text are gone through one at a time; what stands
between two of them that need an entity is copied as a slice of the text, and a slice that
begins or ends inside a character does not exist. Every slice that is asked for exists, and
the text that comes out is the escaped text. -/
namespace WrenDocs.Html

/-- The bytes that may not stand in markup as they are, with the entities for them. -/
def byteEntities : List (UInt8 × Text) :=
  [('&'.toUInt8, "&amp;".toList), ('<'.toUInt8, "&lt;".toList), ('>'.toUInt8, "&gt;".toList),
    ('"'.toUInt8, "&quot;".toList), ('\''.toUInt8, "&#39;".toList)]

/-- Escapes a text from a byte on, with these bytes ahead. What stands from `last` on has
been passed, but is not written yet. -/
def escapeFrom (text : Text) (last position : Nat) : List UInt8 → Option Text
  | [] => Text.slice? last (Text.byteCount text) text
  | byte :: bytes =>
    match byteEntities.lookup byte with
    | none => escapeFrom text last (position + 1) bytes
    | some entity => do
      let pending ← Text.slice? last position text
      let written ← escapeFrom text (position + 1) (position + 1) bytes
      return pending ++ entity ++ written

/-- A text escaped slice by slice; nothing, if a slice does not exist. -/
def escapeBySlices? (text : Text) : Option Text :=
  escapeFrom text 0 0 (Text.bytes text)

/-! ## The bytes of one character -/

theorem lookup_of_isAscii {c : Char} (h : Text.isAscii c = true) :
    byteEntities.lookup c.toUInt8 = if escapeChar c = [c] then none else some (escapeChar c) := by
  have hall : Text.ascii.all (fun c => byteEntities.lookup c.toUInt8 ==
      if escapeChar c = [c] then none else some (escapeChar c)) = true := by decide
  exact eq_of_beq (List.all_eq_true.mp hall c (Text.mem_ascii h))

theorem lookup_of_le {byte : UInt8} (h : 0x80 ≤ byte.toNat) : byteEntities.lookup byte = none := by
  have hsmall : byteEntities.all (fun entry => decide (entry.1.toNat < 0x80)) = true := by decide
  rw [List.lookup_eq_none_iff]
  intro entry hentry
  have hlt := of_decide_eq_true (List.all_eq_true.mp hsmall entry hentry)
  rw [bne_iff_ne]
  rintro rfl
  omega

theorem isAscii_of_escapeChar {c : Char} (h : escapeChar c ≠ [c]) : Text.isAscii c = true := by
  rw [escapeChar.eq_def] at h
  split at h
  case h_6 => exact absurd rfl h
  all_goals rfl

/-- A character that needs an entity is one byte. -/
theorem bytes_of_entity {c : Char} (h : escapeChar c ≠ [c]) :
    String.utf8EncodeChar c = [c.toUInt8] ∧
      byteEntities.lookup c.toUInt8 = some (escapeChar c) := by
  have hascii := isAscii_of_escapeChar h
  refine ⟨Text.utf8EncodeChar_of_isAscii hascii, ?_⟩
  rw [lookup_of_isAscii hascii, if_neg h]

/-- No byte of any other character needs one. -/
theorem lookup_of_mem_bytes {c : Char} (h : escapeChar c = [c]) {byte : UInt8}
    (hbyte : byte ∈ String.utf8EncodeChar c) : byteEntities.lookup byte = none := by
  cases hascii : Text.isAscii c with
  | true =>
    rw [Text.utf8EncodeChar_of_isAscii hascii, List.mem_singleton] at hbyte
    rw [hbyte, lookup_of_isAscii hascii, if_pos h]
  | false => exact lookup_of_le (Text.le_of_mem_utf8EncodeChar hascii hbyte)

/-! ## The slices of a text -/

theorem escapeFrom_passed {text : Text} {last position : Nat} {passed : List UInt8}
    (h : ∀ byte ∈ passed, byteEntities.lookup byte = none) (bytes : List UInt8) :
    escapeFrom text last position (passed ++ bytes) =
      escapeFrom text last (position + passed.length) bytes := by
  induction passed generalizing position with
  | nil => rfl
  | cons byte passed ih =>
    obtain ⟨hbyte, hpassed⟩ := List.forall_mem_cons.mp h
    rw [List.cons_append, escapeFrom, hbyte]
    dsimp only
    rw [ih hpassed, List.length_cons, Nat.add_assoc, Nat.add_comm 1]

/-- Between two characters the slice that is pending begins and ends between two. A
character that stays makes it longer; one that is replaced has it written, and the
next slice begins behind that character. -/
theorem escapeFrom_bytes (front pending back : Text) :
    escapeFrom (front ++ (pending ++ back)) (Text.byteCount front)
      (Text.byteCount front + Text.byteCount pending) (Text.bytes back) =
        some (pending ++ escape back) := by
  induction back generalizing front pending with
  | nil =>
    have hslice := Text.slice?_byteCount front pending []
    simpa [Text.bytes, escapeFrom, escape] using hslice
  | cons c back ih =>
    have hescape : escape (c :: back) = escapeChar c ++ escape back := List.flatMap_cons
    rw [Text.bytes_cons, hescape]
    by_cases hplain : escapeChar c = [c]
    · have hnext := ih front (pending ++ [c])
      rw [escapeFrom_passed (fun byte => lookup_of_mem_bytes hplain), hplain,
        String.length_utf8EncodeChar]
      simpa [Nat.add_assoc] using hnext
    · obtain ⟨hbyte, hentity⟩ := bytes_of_entity hplain
      have hsize : c.utf8Size = 1 := by
        rw [← String.length_utf8EncodeChar, hbyte, List.length_singleton]
      have hnext := ih (front ++ pending ++ [c]) []
      simp only [Text.byteCount_append, Text.byteCount_cons, Text.byteCount_nil, hsize,
        List.append_assoc, List.singleton_append, List.nil_append, Nat.add_zero] at hnext
      rw [hbyte, List.singleton_append, escapeFrom, hentity]
      dsimp only
      rw [Text.slice?_byteCount, Nat.add_assoc, hnext, ← List.append_assoc]
      rfl

theorem escapeBySlices?_eq (text : Text) : escapeBySlices? text = some (escape text) :=
  escapeFrom_bytes [] [] text

end WrenDocs.Html
