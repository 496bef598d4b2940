import WrenDocs.Proofs.Toml.Multiline

/-! Quoted text read back. Every quoted form is undone by the string that reads
it, as long as no quote follows. -/
namespace WrenDocs.Toml
open Reader Setting

/-- Fewer than three quotes open no string on several lines. -/
theorem multilineString_of_leadingQuotes {quote : Char} {read : Reader Text} {text : Text}
    (h : leadingQuotes quote text < 3) : multilineString quote read text = none := by
  have hliteral : Reader.literal (List.replicate 3 quote) text = none := by
    rw [Reader.literal, if_neg]
    intro hprefix
    obtain ⟨rest, rfl⟩ := List.isPrefixOf_iff_prefix.mp hprefix
    simp [List.replicate_succ, leadingQuotes_cons] at h
    omega
  simp only [multilineString, hliteral, Option.bind_none]

theorem leadingQuotes_quoteIn_basic (text : Text) {rest : Text} (hrest : rest.head? ≠ some '"') :
    leadingQuotes '"' (quoteIn .basic text ++ rest) < 3 := by
  have hquoteIn : quoteIn .basic text ++ rest = '"' :: (escapeText false 0 0 text ++ '"' :: rest) := by
    simp [quoteIn]
  rw [hquoteIn, leadingQuotes_cons]
  cases text with
  | nil =>
    rw [escapeText, List.nil_append, leadingQuotes_cons, leadingQuotes_of_head? hrest]
    omega
  | cons c text =>
    have hhead : leadingQuotes '"' (escapeText false 0 0 (c :: text) ++ '"' :: rest) = 0 := by
      by_cases hquote : c = '"'
      · subst hquote
        rfl
      · by_cases hnewline : c = '\n'
        · subst hnewline
          rfl
        · obtain ⟨first, tail, heq, hfirst, -⟩ := exists_escapeChar hquote hnewline
          rw [escapeText_other hquote hnewline, heq]
          exact leadingQuotes_of_ne hfirst _
    omega

theorem leadingQuotes_quoteIn_literal {text : Text} (h : ∀ c ∈ text, c ≠ '\'' ∧ isControl c = false)
    {rest : Text} (hrest : rest.head? ≠ some '\'') :
    leadingQuotes '\'' (quoteIn .literal text ++ rest) < 3 := by
  rw [quoteIn, List.cons_append, List.cons_append, List.append_assoc, leadingQuotes_cons]
  cases text with
  | nil =>
    rw [List.nil_append, List.singleton_append, leadingQuotes_cons, leadingQuotes_of_head? hrest]
    omega
  | cons c text =>
    rw [List.cons_append, leadingQuotes_of_ne (h c List.mem_cons_self).1]
    omega

theorem formOf_eq_literal {text : Text} (h : formOf text = .literal) :
    ∀ c ∈ text, c ≠ '\'' ∧ isControl c = false := by
  simp only [formOf] at h
  split at h
  · simp at h
  · split at h
    · rename_i hform
      simp only [Bool.and_eq_true, Bool.not_eq_true'] at hform
      obtain ⟨⟨hcontrol, hlines⟩, hquote⟩ := hform
      intro c hc
      have hplain := plain_of_any_needsEscape hcontrol c hc
      have hnewline : c ≠ '\n' := by
        rintro rfl
        simp [hc] at hlines
      refine ⟨?_, hplain.resolve_left hnewline⟩
      rintro rfl
      simp [hc] at hquote
    · repeat' split at h
      all_goals simp at h

theorem formOf_eq_multilineLiteral {text : Text} (h : formOf text = .multilineLiteral) :
    text.any needsEscape = false ∧ longestRun '\'' text ≤ 2 := by
  simp only [formOf] at h
  split at h
  · simp at h
  · split at h
    · simp at h
    · split at h
      · simp at h
      · split at h
        · rename_i hform
          simpa using hform
        · split at h <;> simp at h

/-- **Quoting.** A text in the form chosen for it is read as the text, whatever it
holds, up to something that is no quote. -/
theorem string_quote (text : Text) {rest : Text} (hdouble : rest.head? ≠ some '"')
    (hsingle : rest.head? ≠ some '\'') : string (quote text ++ rest) = some (text, rest) := by
  rw [quote]
  cases hform : formOf text with
  | basic =>
    have hlines := @multilineString_of_leadingQuotes _ multilineBasicChar _
      (leadingQuotes_quoteIn_basic text hdouble)
    rw [string, orElse_of_none hlines]
    exact orElse_of_some (basicString_quoteIn text rest)
  | literal =>
    have hplain := formOf_eq_literal hform
    have hlines := @multilineString_of_leadingQuotes _ (multilineChar '\'') _
      (leadingQuotes_quoteIn_literal hplain hsingle)
    rw [string, orElse_of_none (multilineString_of_leadingQuotes (by simp [quoteIn, leadingQuotes])),
      orElse_of_none (by rfl), orElse_of_none hlines]
    exact literalString_quoteIn hplain rest
  | multilineBasic => exact orElse_of_some (multilineString_quoteIn_basic text hdouble)
  | multilineLiteral =>
    obtain ⟨hcontrol, hrun⟩ := formOf_eq_multilineLiteral hform
    have hread := multilineString_quoteIn_literal hcontrol hrun hsingle
    rw [string, orElse_of_none (multilineString_of_leadingQuotes
      (by simp [quoteIn, fence, List.replicate_succ, leadingQuotes])), orElse_of_none (by rfl)]
    exact orElse_of_some hread

end WrenDocs.Toml
