import WrenDocs.Proofs.Reading
import WrenDocs.Toml.Setting

/-! Strings on one line read back: what an escape stands for is read, and all else
stands as itself. -/
namespace WrenDocs.Toml
open Reader Setting

/-! ## Escapes -/

/-- The code of a control character has four hexadecimal digits that say it. -/
theorem hexCode_of_isControl {c : Char} (h : isControl c = true) :
    (hexCode c).length = 4 ∧ (hexCode c).all Text.isHexDigit = true ∧
      (hexCode c).foldl (fun n d => 16 * n + hexValue d) 0 = c.toNat := by
  have hcodes : (List.range 128).all (fun n =>
      decide ((hexCode (Char.ofNat n)).length = 4) && (hexCode (Char.ofNat n)).all Text.isHexDigit &&
        decide ((hexCode (Char.ofNat n)).foldl (fun n d => 16 * n + hexValue d) 0 = n)) = true := by
    decide
  have hlt : c.toNat < 128 := by
    simp only [isControl, Bool.and_eq_true, Bool.or_eq_true, decide_eq_true_eq, beq_iff_eq] at h
    omega
  have hcode := List.all_eq_true.mp hcodes c.toNat (List.mem_range.mpr hlt)
  simp only [Char.ofNat_toNat, Bool.and_eq_true, decide_eq_true_eq] at hcode
  exact ⟨hcode.1.1, hcode.1.2, hcode.2⟩

theorem codePoint_hexCode {c : Char} (h : isControl c = true) (rest : Text) :
    codePoint 4 (hexCode c ++ rest) = some (c, rest) := by
  obtain ⟨hlength, hdigits, hvalue⟩ := hexCode_of_isControl h
  have hcode := Reading.codePoint_append (List.all_eq_true.mp hdigits) hvalue rest
  rwa [hlength] at hcode

theorem ne_return_of_isControl {c : Char} (h : isControl c = false) : c ≠ '\r' := by
  rintro rfl
  simp [isControl] at h

/-- A character that begins neither a newline nor blank space. -/
def isInk (c : Char) : Bool :=
  !isBlank c && c != '\n' && c != '\r'

/-- A character stands as itself, or as an escape that is read as it. -/
theorem escapeChar_cases (c : Char) :
    (∃ mark text, escapeChar c = '\\' :: mark :: text ∧ isInk mark = true ∧
      ∀ rest, escape (mark :: text ++ rest) = some (c, rest)) ∨
    (escapeChar c = [c] ∧ c ≠ '\\' ∧ isControl c = false) := by
  rw [escapeChar.eq_def]
  split
  case h_6 hback =>
    split
    · rename_i hcontrol
      exact .inl ⟨'u', hexCode c, rfl, rfl, fun rest => codePoint_hexCode hcontrol rest⟩
    · rename_i hplain
      exact .inr ⟨rfl, hback, by simpa using hplain⟩
  all_goals exact .inl ⟨_, [], rfl, rfl, fun rest => rfl⟩

theorem exists_escapeChar {c : Char} (hquote : c ≠ '"') (hnewline : c ≠ '\n') :
    ∃ first text, escapeChar c = first :: text ∧ first ≠ '"' ∧ first ≠ '\n' ∧ first ≠ '\r' := by
  rcases escapeChar_cases c with ⟨mark, text, heq, -⟩ | ⟨heq, -, hcontrol⟩
  · exact ⟨'\\', mark :: text, heq, by decide, by decide, by decide⟩
  · exact ⟨c, [], heq, hquote, hnewline, ne_return_of_isControl hcontrol⟩

theorem escapeText_quote (multiline : Bool) (allowed run : Nat) (text : Text) :
    escapeText multiline allowed run ('"' :: text) =
      if run < allowed then '"' :: escapeText multiline allowed (run + 1) text
      else '\\' :: '"' :: escapeText multiline allowed 0 text := by
  rw [escapeText, if_pos rfl]

theorem escapeText_newline (multiline : Bool) (allowed run : Nat) (text : Text) :
    escapeText multiline allowed run ('\n' :: text) =
      (if multiline then ['\n'] else ['\\', 'n']) ++ escapeText multiline allowed 0 text := by
  rw [escapeText, if_neg (by decide), if_pos rfl]

theorem escapeText_other {c : Char} (hquote : c ≠ '"') (hnewline : c ≠ '\n') (multiline : Bool)
    (allowed run : Nat) (text : Text) : escapeText multiline allowed run (c :: text) =
      escapeChar c ++ escapeText multiline allowed 0 text := by
  rw [escapeText, if_neg hquote, if_neg hnewline]

/-! ## Strings on one line -/

theorem basicChar_plain {c : Char} (hback : c ≠ '\\') (hquote : c ≠ '"')
    (hcontrol : isControl c = false) (text : Text) : basicChar (c :: text) = some (c, text) := by
  rw [basicChar.eq_def]
  split
  · rename_i heq
    exact absurd (List.cons.inj heq).1 hback
  · rename_i heq
    obtain ⟨rfl, rfl⟩ := List.cons.inj heq
    simp [hquote, hcontrol]
  · rename_i heq
    simp at heq

theorem basicChar_escapeChar {c : Char} (hquote : c ≠ '"') (rest : Text) :
    basicChar (escapeChar c ++ rest) = some (c, rest) := by
  rcases escapeChar_cases c with ⟨mark, text, heq, -, hread⟩ | ⟨heq, hback, hcontrol⟩
  · rw [heq]
    exact hread rest
  · rw [heq]
    exact basicChar_plain hback hquote hcontrol rest

theorem takes_basicChar (run : Nat) (text rest : Text) :
    Takes basicChar (escapeText false 0 run text ++ '"' :: rest) text ('"' :: rest) := by
  induction text generalizing run with
  | nil => exact .refl _
  | cons c text ih =>
    by_cases hquote : c = '"'
    · subst hquote
      rw [escapeText_quote, if_neg (Nat.not_lt_zero run), List.cons_append, List.cons_append]
      exact .head rfl (by simp only [List.length_cons]; omega) (ih 0)
    · by_cases hnewline : c = '\n'
      · subst hnewline
        rw [escapeText_newline, if_neg Bool.false_ne_true, List.append_assoc, List.cons_append,
          List.singleton_append]
        exact .head rfl (by simp only [List.length_cons]; omega) (ih 0)
      · have hread := basicChar_escapeChar hquote (escapeText false 0 0 text ++ '"' :: rest)
        obtain ⟨first, tail, heq, -⟩ := exists_escapeChar hquote hnewline
        rw [escapeText_other hquote hnewline, List.append_assoc]
        refine .head hread ?_ (ih 0)
        rw [heq, List.cons_append, List.length_cons, @List.length_append _ tail]
        omega

theorem basicString_quoteIn (text rest : Text) :
    basicString (quoteIn .basic text ++ rest) = some (text, rest) := by
  have hmany := (takes_basicChar 0 text rest).many_eq rfl
  simp only [quoteIn, List.cons_append, List.append_assoc, List.nil_append, basicString, hmany]

theorem literalString_quoteIn {text : Text} (h : ∀ c ∈ text, c ≠ '\'' ∧ isControl c = false)
    (rest : Text) : literalString (quoteIn .literal text ++ rest) = some (text, rest) := by
  let read : Reader Char := Reader.char fun c => c != '\'' && !isControl c
  have htakes : Takes read (text ++ '\'' :: rest) text ('\'' :: rest) := by
    induction text with
    | nil => exact .refl _
    | cons c text ih =>
      obtain ⟨⟨hquote, hcontrol⟩, htext⟩ := List.forall_mem_cons.mp h
      refine .head ?_ (by simp) (ih htext)
      simp [read, Reader.char, hquote, hcontrol]
  have hmany := htakes.many_eq rfl
  simp only [quoteIn, List.cons_append, List.append_assoc, List.nil_append, literalString]
  rw [hmany]
  rfl

end WrenDocs.Toml
