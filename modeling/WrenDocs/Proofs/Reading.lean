import WrenDocs.Proofs.Grammar
import WrenDocs.Proofs.Toml.Reader
import WrenDocs.Toml.Quoted

/-! Numbers and quoted texts read back, as listings and JSON write them. -/
namespace WrenDocs.Reading
open Toml (Reader)
open Toml.Reader

/-! ## Numbers -/

/-- A number, in the decimal digits that it is written with. -/
def natural : Reader Nat := fun text =>
  let digits := text.takeWhile Char.isDigit
  let number := Nat.ofDigitChars 10 digits 0
  if digits = Nat.toDigits 10 number then some (number, text.drop digits.length) else none

/-- The number that hexadecimal digits write. -/
def hexNumber (digits : Text) : Nat :=
  digits.foldl (fun number c => 16 * number + Toml.hexValue c) 0

theorem natural_toDigits (number : Nat) {rest : Text} (h : ∀ c ∈ rest.head?, c.isDigit = false) :
    natural (Nat.toDigits 10 number ++ rest) = some (number, rest) := by
  have hruns : Grammar.Runs Char.isDigit (Nat.toDigits 10 number) rest :=
    ⟨fun c => Nat.isDigit_of_mem_toDigits (by decide) (by decide), h⟩
  simp only [natural, hruns.takeWhile_append, Nat.ofDigitChars_ten_toDigits, if_true,
    List.drop_left]

theorem natural_of_head? {c : Char} (h : c.isDigit = false) (rest : Text) :
    natural (c :: rest) = none := by
  simp [natural, h]

theorem hexDigit_digitChar {digit : Nat} (h : digit < 16) :
    Text.isHexDigit digit.digitChar = true ∧ Toml.hexValue digit.digitChar = digit := by
  have hall : (List.range 16).all (fun digit => Text.isHexDigit digit.digitChar &&
      decide (Toml.hexValue digit.digitChar = digit)) = true := by decide
  simpa using List.all_eq_true.mp hall digit (List.mem_range.mpr h)

theorem isHexDigit_of_mem_toDigits {number : Nat} {c : Char} (h : c ∈ Nat.toDigits 16 number) :
    Text.isHexDigit c = true := by
  induction number using Nat.strongRecOn with
  | ind number ih =>
    rw [Nat.toDigits_eq_if (by decide)] at h
    split at h
    · rename_i hlt
      obtain rfl := List.mem_singleton.mp h
      exact (hexDigit_digitChar hlt).1
    · rcases List.mem_append.mp h with h | h
      · exact ih (number / 16) (by omega) h
      · obtain rfl := List.mem_singleton.mp h
        exact (hexDigit_digitChar (Nat.mod_lt _ (by decide))).1

theorem hexNumber_toDigits (number : Nat) : hexNumber (Nat.toDigits 16 number) = number := by
  induction number using Nat.strongRecOn with
  | ind number ih =>
    rw [Nat.toDigits_eq_if (by decide)]
    split
    · rename_i hlt
      rw [hexNumber, List.foldl_cons, List.foldl_nil, (hexDigit_digitChar hlt).2]
      omega
    · have hfront := ih (number / 16) (by omega)
      rw [hexNumber] at hfront
      rw [hexNumber, List.foldl_append, hfront, List.foldl_cons, List.foldl_nil,
        (hexDigit_digitChar (Nat.mod_lt _ (by decide))).2]
      omega

/-- Zeros in front do not count. -/
theorem hexNumber_zeros (count : Nat) (digits : Text) :
    hexNumber (List.replicate count '0' ++ digits) = hexNumber digits := by
  induction count with
  | zero => rfl
  | succ count ih =>
    rw [List.replicate_succ, List.cons_append]
    exact ih

theorem codePoint_append {digits : Text} {c : Char} (hdigits : ∀ d ∈ digits, Text.isHexDigit d = true)
    (hnumber : hexNumber digits = c.toNat) (rest : Text) :
    Toml.codePoint digits.length (digits ++ rest) = some (c, rest) := by
  have hvalid : c.toNat.isValidChar := c.valid
  have hall : digits.all Text.isHexDigit = true := List.all_eq_true.mpr hdigits
  rw [hexNumber] at hnumber
  simp only [Toml.codePoint, List.take_left, List.drop_left, hnumber, hall, hvalid, and_self,
    if_true, Char.ofNat_toNat]

/-! ## Quoted texts -/

/-- A character between double quotes: what a backslash stands for, or a character as
it is, unless it has to be escaped. -/
def quotedChar (escaped : Reader Char) (needsEscape : Char → Bool) : Reader Char
  | '\\' :: text => escaped text
  | c :: text => if c = '"' ∨ needsEscape c then none else some (c, text)
  | [] => none

/-- Characters between two double quotes. -/
def quoted (escaped : Reader Char) (needsEscape : Char → Bool) : Reader Text
  | '"' :: text =>
    match Reader.many (quotedChar escaped needsEscape) text with
    | (chars, '"' :: rest) => some (chars, rest)
    | _ => none
  | _ => none

/-- Characters are written as they are, or as a backslash and a text without newlines
that is read as the character. -/
def Escapes (write : Char → Text) (escaped : Reader Char) (needsEscape : Char → Bool) : Prop :=
  ∀ c,
    (∃ text, write c = '\\' :: text ∧ '\n' ∉ text ∧
      ∀ rest, escaped (text ++ rest) = some (c, rest)) ∨
    (write c = [c] ∧ c ≠ '\\' ∧ c ≠ '"' ∧ c ≠ '\n' ∧ needsEscape c = false)

section

variable {write : Char → Text} {escaped : Reader Char} {needsEscape : Char → Bool}

theorem Escapes.quotedChar_append (h : Escapes write escaped needsEscape) (c : Char) (rest : Text) :
    quotedChar escaped needsEscape (write c ++ rest) = some (c, rest) := by
  rcases h c with ⟨text, heq, -, hread⟩ | ⟨heq, hback, hquote, -, hplain⟩
  · rw [heq]
    exact hread rest
  · rw [heq, List.singleton_append, quotedChar, if_neg (by simp [hquote, hplain])]
    exact hback

theorem Escapes.quoted_append (h : Escapes write escaped needsEscape) (text rest : Text) :
    quoted escaped needsEscape ('"' :: text.flatMap write ++ ['"'] ++ rest) = some (text, rest) := by
  have hne (c : Char) : write c ≠ [] := by
    rcases h c with ⟨written, heq, -⟩ | ⟨heq, -⟩ <;> simp [heq]
  have htakes : Takes (quotedChar escaped needsEscape) (text.flatMap write ++ '"' :: rest) text
      ('"' :: rest) :=
    takes_flatMap (fun _ => True) hne (fun _ _ => trivial)
      (fun c _ rest _ => h.quotedChar_append c rest) trivial
  have hmany := htakes.many_eq rfl
  simp only [quoted, List.cons_append, List.append_assoc, List.nil_append, hmany]

theorem Escapes.newline_not_mem (h : Escapes write escaped needsEscape) (text : Text) :
    '\n' ∉ '"' :: text.flatMap write ++ ['"'] := by
  have hchar (c : Char) : '\n' ∉ write c := by
    rcases h c with ⟨written, heq, hwritten, -⟩ | ⟨heq, -, -, hnewline, -⟩
    · simp [heq, hwritten]
    · simp [heq, Ne.symm hnewline]
  simp [hchar]

end

theorem quoted_of_head? {escaped : Reader Char} {needsEscape : Char → Bool} {text : Text}
    (h : text.head? ≠ some '"') : quoted escaped needsEscape text = none := by
  rw [quoted.eq_def]
  split
  · simp at h
  · rfl

/-! ## One after the other -/

theorem mapM_map {α β γ : Type} {read : β → Option γ} {write : α → β} {value : α → γ} {items : List α}
    (h : ∀ item ∈ items, read (write item) = some (value item)) :
    (items.map write).mapM read = some (items.map value) := by
  induction items with
  | nil => rfl
  | cons item items ih =>
    obtain ⟨hitem, hitems⟩ := List.forall_mem_cons.mp h
    rw [List.map_cons, List.mapM_cons, hitem, ih hitems]
    rfl

end WrenDocs.Reading
