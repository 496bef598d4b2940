import WrenDocs.Proofs.Grammar

/-! Numbers: every part that is taken belongs to the number, and a number at the
front of a text is taken whole, whatever follows it. -/
namespace WrenDocs.Lexeme
open Grammar

theorem hexNumber_sound {text : Text} (h : hexNumber text ≠ []) :
    ∃ ahead, text = hexNumber text ++ ahead ∧ IsHexNumber (hexNumber text) ahead := by
  unfold hexNumber at h ⊢
  split at h
  · rename_i text
    split at h
    · exact absurd rfl h
    · rename_i hne
      have hne' : text.takeWhile Text.isHexDigit ≠ [] := fun h => hne h
      refine ⟨text.dropWhile Text.isHexDigit, ?_, text.takeWhile Text.isHexDigit, rfl, hne',
        runs_takeWhile _ _⟩
      simp only [List.cons_append, List.nil_append, List.takeWhile_append_dropWhile]
  · exact absurd rfl h

theorem drop_length_of_append {text front back : Text} (h : front ++ back = text) :
    text.drop front.length = back := by
  rw [← h, List.drop_left]

theorem isDigits_takeWhile {text : Text} (h : text.takeWhile Char.isDigit ≠ []) :
    IsDigits (text.takeWhile Char.isDigit) :=
  ⟨h, (runs_takeWhile Char.isDigit text).all⟩

theorem fraction_sound (text : Text) :
    fraction text <+: text ∧ (fraction text = [] ∨ IsFraction (fraction text)) := by
  unfold fraction
  split
  · rename_i text
    split
    · exact ⟨List.nil_prefix, .inl rfl⟩
    · rename_i hne
      refine ⟨?_, .inr ⟨_, rfl, isDigits_takeWhile fun h => hne h⟩⟩
      exact (List.prefix_cons_inj _).mpr (List.takeWhile_prefix _)
  · exact ⟨List.nil_prefix, .inl rfl⟩

theorem sign_prefix (text : Text) :
    sign text <+: text ∧ (sign text = [] ∨ sign text = ['-'] ∨ sign text = ['+']) := by
  unfold sign
  split <;> simp

theorem exponent_sound (text : Text) :
    exponent text <+: text ∧ (exponent text = [] ∨ IsExponent (exponent text)) := by
  unfold exponent
  split
  · rename_i c text
    split <;> rename_i hc
    · obtain ⟨⟨ahead, hahead⟩, hsign⟩ := sign_prefix text
      split
      · exact ⟨List.nil_prefix, .inl rfl⟩
      · rename_i hne
        refine ⟨?_, .inr ⟨c, _, _, rfl, hc, hsign, isDigits_takeWhile fun h => hne h⟩⟩
        have hdigits := List.takeWhile_prefix (l := ahead) Char.isDigit
        rw [drop_length_of_append hahead, List.cons_append, List.prefix_cons_inj]
        simpa only [hahead] using (List.prefix_append_right_inj (sign text)).mpr hdigits
    · exact ⟨List.nil_prefix, .inl rfl⟩
  · exact ⟨List.nil_prefix, .inl rfl⟩

theorem decimal_sound {text : Text} (h : decimal text ≠ []) :
    decimal text <+: text ∧ IsDecimal (decimal text) := by
  unfold decimal at h ⊢
  split at h
  · exact absurd rfl h
  · rename_i hne
    have hwhole : text.takeWhile Char.isDigit ≠ [] := fun h => hne h
    obtain ⟨rest, hrest⟩ := List.takeWhile_prefix (l := text) Char.isDigit
    simp only [drop_length_of_append hrest]
    obtain ⟨⟨after, hafter⟩, hfraction⟩ := fraction_sound rest
    simp only [drop_length_of_append hafter]
    obtain ⟨⟨ahead, hahead⟩, hexponent⟩ := exponent_sound after
    refine ⟨⟨ahead, ?_⟩, _, _, _, rfl, isDigits_takeWhile hwhole, hfraction, hexponent⟩
    simp only [List.append_assoc, hahead, hafter, hrest]

/-! ## Nothing is left over -/

/-- What passes the test all along is part of the longest run that does. -/
theorem prefix_takeWhile {test : Char → Bool} {text word : Text} (h : word <+: text)
    (hword : ∀ c ∈ word, test c = true) : word <+: text.takeWhile test := by
  obtain ⟨ahead, rfl⟩ := h
  rw [List.takeWhile_append_of_pos hword]
  exact List.prefix_append _ _

theorem takeWhile_ne_nil {test : Char → Bool} {text word : Text} (h : word <+: text)
    (hne : word ≠ []) (hword : ∀ c ∈ word, test c = true) : text.takeWhile test ≠ [] :=
  (prefix_takeWhile h hword).ne_nil hne

theorem prefix_hexNumber {digits text : Text} (h : '0' :: 'x' :: digits <+: text)
    (hne : digits ≠ []) (hdigits : ∀ c ∈ digits, Text.isHexDigit c = true) :
    '0' :: 'x' :: digits <+: hexNumber text := by
  obtain ⟨ahead, rfl⟩ := h
  have hrun := prefix_takeWhile (List.prefix_append digits ahead) hdigits
  rw [List.cons_append, List.cons_append, hexNumber]
  split
  · rename_i hnil
    exact absurd hnil (hrun.ne_nil hne)
  · simpa using hrun

theorem prefix_fraction {text word : Text} (h : word <+: text)
    (hword : word = [] ∨ IsFraction word) : word <+: fraction text := by
  rcases hword with rfl | ⟨digits, rfl, hne, hdigits⟩
  · exact List.nil_prefix
  · obtain ⟨ahead, rfl⟩ := h
    have hrun := prefix_takeWhile (List.prefix_append digits ahead) hdigits
    rw [List.cons_append, fraction]
    split
    · rename_i hnil
      exact absurd hnil (hrun.ne_nil hne)
    · exact (List.prefix_cons_inj _).mpr hrun

/-- Digits with a sign before them or without one tell what the sign is. -/
theorem sign_append {mark digits : Text} (ahead : Text)
    (hmark : mark = [] ∨ mark = ['-'] ∨ mark = ['+']) (hdigits : IsDigits digits) :
    sign (mark ++ digits ++ ahead) = mark := by
  rcases hmark with rfl | rfl | rfl
  · obtain ⟨hne, hall⟩ := hdigits
    obtain ⟨first, digits, rfl⟩ := List.exists_cons_of_ne_nil hne
    have hfirst := hall first List.mem_cons_self
    have hsign (c : Char) (text : Text) (hc : c.isDigit = false)
        (h : first :: (digits ++ ahead) = c :: text) : False := by
      rw [(List.cons.inj h).1] at hfirst
      exact Bool.false_ne_true (hc.symm.trans hfirst)
    rw [List.nil_append, List.cons_append]
    exact sign.eq_3 _ (hsign '-' · rfl) (hsign '+' · rfl)
  · rfl
  · rfl

theorem prefix_exponent {text word : Text} (h : word <+: text)
    (hword : word = [] ∨ IsExponent word) : word <+: exponent text := by
  rcases hword with rfl | ⟨mark, signs, digits, rfl, hmark, hsigns, hdigits⟩
  · exact List.nil_prefix
  · obtain ⟨ahead, rfl⟩ := h
    have hrun := prefix_takeWhile (List.prefix_append digits ahead) hdigits.2
    have hsign : sign (signs ++ (digits ++ ahead)) = signs := by
      rw [← List.append_assoc]
      exact sign_append ahead hsigns hdigits
    rw [List.cons_append, List.cons_append, List.append_assoc, exponent, if_pos hmark, hsign,
      List.drop_left]
    split
    · rename_i hnil
      exact absurd hnil (hrun.ne_nil hdigits.1)
    · rw [List.cons_append, List.prefix_cons_inj, List.prefix_append_right_inj]
      exact hrun

/-- Two parts, each taken as far as it goes, are taken together as far as they go,
if nothing that stands in the first could begin the second. -/
theorem append_prefix_append (first : Text → Prop) {second : Text → Prop}
    {found rest more front back : Text}
    (hfirst : ∀ word, word <+: found ++ rest → first word → word <+: found)
    (hsecond : ∀ word, word <+: rest → second word → word <+: more)
    (hopens : ∀ c ∈ found, ∀ tail, ¬ second (c :: tail))
    (hfront : first front) (hback : second back) (h : front ++ back <+: found ++ rest) :
    front ++ back <+: found ++ more := by
  obtain ⟨extra, rfl⟩ := hfirst front ((List.prefix_append front back).trans h) hfront
  rw [List.append_assoc, List.prefix_append_right_inj] at h ⊢
  cases extra with
  | nil => exact hsecond back h hback
  | cons c extra =>
    cases back with
    | nil => exact List.nil_prefix
    | cons d back =>
      obtain ⟨rfl, -⟩ := List.cons_prefix_cons.mp h
      exact absurd hback (hopens d (by simp) back)

theorem not_fraction_of_ne {c : Char} {tail : Text} (h : c ≠ '.') :
    ¬ (c :: tail = [] ∨ IsFraction (c :: tail)) := by
  rintro (hnil | ⟨digits, heq, -⟩)
  · exact List.cons_ne_nil c tail hnil
  · exact h (List.cons.inj heq).1

theorem not_exponent_of_ne {c : Char} {tail : Text} (h : ¬ (c = 'e' ∨ c = 'E')) :
    ¬ (c :: tail = [] ∨ IsExponent (c :: tail)) := by
  rintro (hnil | ⟨mark, signs, digits, heq, hmark, -⟩)
  · exact List.cons_ne_nil c tail hnil
  · exact h ((List.cons.inj heq).1 ▸ hmark)

theorem mem_fraction {c : Char} {text : Text} (h : c ∈ fraction text) :
    c = '.' ∨ c.isDigit = true := by
  rcases (fraction_sound text).2 with hnil | ⟨digits, heq, -, hdigits⟩
  · simp [hnil] at h
  · rw [heq, List.mem_cons] at h
    exact h.imp_right (hdigits c)

theorem prefix_digits_fraction {whole rest digits part : Text} (hruns : Runs Char.isDigit whole rest)
    (hdigits : IsDigits digits) (hpart : part = [] ∨ IsFraction part)
    (h : digits ++ part <+: whole ++ rest) : digits ++ part <+: whole ++ fraction rest := by
  refine append_prefix_append IsDigits ?_ (fun word => prefix_fraction) ?_ hdigits hpart h
  · intro word hword hdigits
    rw [← hruns.takeWhile_append]
    exact prefix_takeWhile hword hdigits.2
  · intro c hc tail
    refine not_fraction_of_ne ?_
    rintro rfl
    exact absurd (hruns.all _ hc) (by decide)

theorem prefix_decimal {text word : Text} (h : word <+: text) (hword : IsDecimal word) :
    word <+: decimal text := by
  obtain ⟨digits, part, scale, rfl, hdigits, hpart, hscale⟩ := hword
  unfold decimal
  split
  · rename_i hnil
    rw [List.append_assoc] at h
    have hfront : digits <+: text := (List.prefix_append _ _).trans h
    exact absurd hnil (takeWhile_ne_nil hfront hdigits.1 hdigits.2)
  · have hruns := runs_takeWhile Char.isDigit text
    have hrest := List.takeWhile_append_dropWhile (p := Char.isDigit) (l := text)
    generalize text.takeWhile Char.isDigit = whole at *
    generalize text.dropWhile Char.isDigit = rest at *
    obtain ⟨⟨after, hafter⟩, -⟩ := fraction_sound rest
    simp only [drop_length_of_append hrest, drop_length_of_append hafter]
    rw [← hrest, ← hafter, ← List.append_assoc] at h
    refine append_prefix_append (fun word => ∃ digits part, word = digits ++ part ∧
      IsDigits digits ∧ (part = [] ∨ IsFraction part)) ?_ (fun word => prefix_exponent) ?_
      ⟨digits, part, rfl, hdigits, hpart⟩ hscale h
    · rintro _ hfront ⟨digits, part, rfl, hdigits, hpart⟩
      rw [List.append_assoc, hafter] at hfront
      exact prefix_digits_fraction hruns hdigits hpart hfront
    · intro c hc tail
      refine not_exponent_of_ne ?_
      have hchar : c = '.' ∨ c.isDigit = true := by
        rcases List.mem_append.mp hc with hc | hc
        · exact .inr (hruns.all c hc)
        · exact mem_fraction hc
      rintro (rfl | rfl) <;> exact absurd hchar (by decide)

end WrenDocs.Lexeme
