import WrenDocs.Proofs.Grammar

/-! Escapes. What stands past the end of a text reads as NUL, so these are the
two functions that may take more than there is; they do not where NUL is no
part of the escape. -/
namespace WrenDocs.Lexeme
open Grammar

/-- What an escape takes, if the text goes on behind its backslash. -/
theorem charEscape_sound {set : List Char} {text : Text} (h : charEscape set text ≠ [])
    (hset : Lexeme.pastEnd ∉ set) :
    charEscape set text <+: text ∧ ∃ c ∈ set, charEscape set text = ['\\', c] := by
  unfold charEscape at h ⊢
  split at h
  · rename_i text
    split at h <;> rename_i hmem
    · cases text with
      | nil => exact absurd (List.contains_iff_mem.mp hmem) hset
      | cons c text =>
        rw [if_pos hmem]
        exact ⟨⟨text, rfl⟩, c, List.contains_iff_mem.mp hmem, rfl⟩
    · exact absurd rfl h
  · exact absurd rfl h

theorem charEscape_append {set : List Char} {c : Char} (ahead : Text) (h : c ∈ set) :
    charEscape set ('\\' :: c :: ahead) = ['\\', c] := by
  simp [charEscape, h]

theorem hexEscape_sound {marker : Char} {count : Nat} {text : Text}
    (h : hexEscape marker count text ≠ []) (hmarker : marker ≠ Lexeme.pastEnd ∨ count ≠ 0) :
    hexEscape marker count text <+: text ∧
      ∃ digits, hexEscape marker count text = '\\' :: marker :: digits ∧ digits.length = count ∧
        ∀ c ∈ digits, Text.isHexDigit c = true := by
  unfold hexEscape at h ⊢
  split at h
  · rename_i text
    split at h <;> rename_i hhead
    · dsimp only at h ⊢
      split at h <;> rename_i hdigits
      · obtain ⟨hcount, hall⟩ := hdigits
        simp only [hhead, ↓reduceIte, hcount, hall, and_self]
        cases text with
        | nil =>
          simp only [List.headD_nil] at hhead
          simp only [List.drop_nil, List.take_nil, List.length_nil] at hcount
          exact absurd hmarker (by simp [hhead, hcount])
        | cons c text =>
          obtain rfl : c = marker := hhead
          refine ⟨?_, _, rfl, hcount, List.all_eq_true.mp hall⟩
          simp only [List.drop_succ_cons, List.drop_zero, List.prefix_cons_inj]
          exact List.take_prefix _ _
      · exact absurd rfl h
    · exact absurd rfl h
  · exact absurd rfl h

theorem hexEscape_append {marker : Char} {digits : Text} (ahead : Text)
    (h : ∀ c ∈ digits, Text.isHexDigit c = true) :
    hexEscape marker digits.length ('\\' :: marker :: (digits ++ ahead)) =
      '\\' :: marker :: digits := by
  simpa [hexEscape] using h

end WrenDocs.Lexeme
