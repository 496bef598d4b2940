import WrenDocs.Text.Alphanumeric
import WrenDocs.Text.Space

/-! ASCII characters. There are few enough of them to go through, and the letters,
digits and names of the language are made of them. -/
namespace WrenDocs.Text

def isAscii (c : Char) : Bool :=
  decide (c.toNat < 0x80)

/-- All ASCII characters. -/
def ascii : List Char :=
  (List.range 0x80).map Char.ofNat

theorem mem_ascii {c : Char} (h : isAscii c = true) : c ∈ ascii :=
  List.mem_map.mpr ⟨c.toNat, List.mem_range.mpr (of_decide_eq_true h), Char.ofNat_toNat c⟩

theorem isAlphanum_eq (c : Char) : c.isAlphanum = (c.isUpper || c.isLower || c.isDigit) := rfl

theorem toNat_of_isUpper {c : Char} (h : c.isUpper = true) : 65 ≤ c.toNat ∧ c.toNat ≤ 90 :=
  (of_decide_eq_true h).imp UInt32.le_iff_toNat_le.mp UInt32.le_iff_toNat_le.mp

theorem toNat_of_isLower {c : Char} (h : c.isLower = true) : 97 ≤ c.toNat ∧ c.toNat ≤ 122 := by
  obtain ⟨hlow, hhigh⟩ := Bool.and_eq_true_iff.mp h
  exact ⟨UInt32.le_iff_toNat_le.mp (of_decide_eq_true hlow),
    UInt32.le_iff_toNat_le.mp (of_decide_eq_true hhigh)⟩

theorem toNat_of_isDigit {c : Char} (h : c.isDigit = true) : 48 ≤ c.toNat ∧ c.toNat ≤ 57 := by
  obtain ⟨hlow, hhigh⟩ := Bool.and_eq_true_iff.mp h
  exact ⟨UInt32.le_iff_toNat_le.mp (of_decide_eq_true hlow),
    UInt32.le_iff_toNat_le.mp (of_decide_eq_true hhigh)⟩

theorem isAscii_of_isAlphanum {c : Char} (h : c.isAlphanum = true) : isAscii c = true := by
  rw [isAlphanum_eq, Bool.or_eq_true, Bool.or_eq_true] at h
  rcases h with (hupper | hlower) | hdigit
  · have hrange := toNat_of_isUpper hupper
    exact decide_eq_true (by omega)
  · have hrange := toNat_of_isLower hlower
    exact decide_eq_true (by omega)
  · have hrange := toNat_of_isDigit hdigit
    exact decide_eq_true (by omega)

theorem isAscii_of_isNameChar {c : Char} (h : isNameChar c = true) : isAscii c = true := by
  simp only [isNameChar, Bool.or_eq_true, beq_iff_eq] at h
  rcases h with h | rfl
  · exact isAscii_of_isAlphanum h
  · rfl

/-! ## In bytes -/

theorem utf8EncodeChar_of_isAscii {c : Char} (h : isAscii c = true) :
    String.utf8EncodeChar c = [c.toUInt8] := by
  have hshort : c.val.toNat ≤ 127 := Nat.le_of_lt_succ (of_decide_eq_true h)
  exact if_pos hshort

/-- No byte of any other character is one of an ASCII character. -/
theorem le_of_mem_utf8EncodeChar {c : Char} {byte : UInt8} (h : isAscii c = false)
    (hbyte : byte ∈ String.utf8EncodeChar c) : 0x80 ≤ byte.toNat := by
  have hlong : ¬ c.val.toNat ≤ 127 := by
    have hnot := of_decide_eq_false h
    have hval : c.toNat = c.val.toNat := rfl
    omega
  have hhigh (base value : Nat) (hbase : 128 ≤ base) (hsmall : base + value < 256) :
      0x80 ≤ (UInt8.ofNat (value + base)).toNat := by
    rw [UInt8.toNat_ofNat', Nat.mod_eq_of_lt (by omega)]
    omega
  unfold String.utf8EncodeChar at hbyte
  rw [if_neg hlong] at hbyte
  split at hbyte
  · simp only [List.mem_cons, List.not_mem_nil, or_false] at hbyte
    rcases hbyte with rfl | rfl <;> exact hhigh _ _ (by omega) (by omega)
  · split at hbyte <;> simp only [List.mem_cons, List.not_mem_nil, or_false] at hbyte
    · rcases hbyte with rfl | rfl | rfl <;> exact hhigh _ _ (by omega) (by omega)
    · rcases hbyte with rfl | rfl | rfl | rfl <;> exact hhigh _ _ (by omega) (by omega)

theorem toNat_toUInt8_of_isAscii {c : Char} (h : isAscii c = true) :
    c.toUInt8.toNat = c.toNat := by
  have htable : ascii.all (fun c => c.toUInt8.toNat == c.toNat) = true := by decide
  exact eq_of_beq (List.all_eq_true.mp htable c (mem_ascii h))

/-- ASCII characters are told apart by their bytes. -/
theorem toUInt8_inj_of_isAscii {c d : Char} (hc : isAscii c = true) (hd : isAscii d = true)
    (h : c.toUInt8 = d.toUInt8) : c = d := by
  rw [← Char.ofNat_toNat c, ← toNat_toUInt8_of_isAscii hc, h, toNat_toUInt8_of_isAscii hd,
    Char.ofNat_toNat]

/-- The byte of an ASCII character is a byte of no other, and the first of its own. -/
theorem eq_of_getElem?_utf8EncodeChar {c d : Char} {place : Nat} (hc : isAscii c = true)
    (h : (String.utf8EncodeChar d)[place]? = some c.toUInt8) : d = c ∧ place = 0 := by
  cases hd : isAscii d with
  | true =>
    rw [utf8EncodeChar_of_isAscii hd, List.getElem?_singleton] at h
    split at h
    · rename_i hplace
      exact ⟨toUInt8_inj_of_isAscii hd hc (Option.some.inj h), hplace⟩
    · cases h
  | false =>
    have hhigh := le_of_mem_utf8EncodeChar hd (List.mem_of_getElem? h)
    have hlow : c.toNat < 0x80 := of_decide_eq_true hc
    rw [toNat_toUInt8_of_isAscii hc] at hhigh
    omega

end WrenDocs.Text
