import WrenDocs.Proofs.Grammar

/-! Tags, raw strings and queries: what is taken is a word of the grammar at the
front of the text. -/
namespace WrenDocs.Lexeme
open Grammar

theorem through?_eq_some_iff {stop : Char} {text found : Text} :
    through? stop text = some found ↔
      ∃ body ahead, text = body ++ stop :: ahead ∧ stop ∉ body ∧ found = body ++ [stop] := by
  induction text generalizing found with
  | nil => simp [through?]
  | cons c text ih =>
    by_cases hc : c = stop
    · subst hc
      simp only [through?, ↓reduceIte, Option.some.injEq]
      constructor
      · rintro rfl
        exact ⟨[], text, rfl, List.not_mem_nil, rfl⟩
      · rintro ⟨body, ahead, htext, hbody, rfl⟩
        cases body with
        | nil => rfl
        | cons first body => simp [(List.cons.inj htext).1] at hbody
    · simp only [through?, hc, ↓reduceIte, Option.map_eq_some_iff, ih]
      constructor
      · rintro ⟨_, ⟨body, ahead, rfl, hbody, rfl⟩, rfl⟩
        exact ⟨c :: body, ahead, rfl, by simp [hbody, Ne.symm hc], rfl⟩
      · rintro ⟨body, ahead, htext, hbody, rfl⟩
        cases body with
        | nil => exact absurd (List.cons.inj htext).1 hc
        | cons first body =>
          obtain ⟨rfl, rfl⟩ := List.cons.inj htext
          exact ⟨_, ⟨body, ahead, rfl, fun h => hbody (List.mem_cons_of_mem _ h), rfl⟩, rfl⟩

/-- Where the stop occurs it is found. -/
theorem through?_append {stop : Char} {body : Text} (ahead : Text) (h : stop ∉ body) :
    through? stop (body ++ stop :: ahead) = some (body ++ [stop]) :=
  through?_eq_some_iff.mpr ⟨body, ahead, rfl, h, rfl⟩

/-- A lexeme made of an opening and a text with a closer, if the closer is found. -/
theorem of_map_through? {stop : Char} {opening text : Text}
    (h : ((through? stop text).map (opening ++ ·)).getD [] ≠ []) :
    ∃ body ahead, text = body ++ stop :: ahead ∧ stop ∉ body ∧
      ((through? stop text).map (opening ++ ·)).getD [] = opening ++ body ++ [stop] := by
  cases hfound : through? stop text with
  | none => simp [hfound] at h
  | some found =>
    obtain ⟨body, ahead, htext, hbody, rfl⟩ := through?_eq_some_iff.mp hfound
    exact ⟨body, ahead, htext, hbody, by simp⟩

theorem htmlTag_sound {text : Text} (h : htmlTag text ≠ []) :
    htmlTag text <+: text ∧ IsHtmlTag (htmlTag text) := by
  unfold htmlTag at h ⊢
  split at h
  · rename_i c text
    split at h <;> rename_i hc
    · obtain ⟨body, ahead, rfl, hbody, htag⟩ := of_map_through? h
      simp only [hc, ↓reduceIte, htag]
      exact ⟨⟨ahead, by simp⟩, ['/'], c, body, by simp, .inr rfl, hc, hbody⟩
    · exact absurd rfl h
  · rename_i c text _
    split at h <;> rename_i hc
    · obtain ⟨body, ahead, rfl, hbody, htag⟩ := of_map_through? h
      simp only [hc, ↓reduceIte, htag]
      exact ⟨⟨ahead, by simp⟩, [], c, body, by simp, .inl rfl, hc, hbody⟩
    · exact absurd rfl h
  · exact absurd rfl h

/-- A tag at the front of a text is found. -/
theorem htmlTag_append {tag : Text} (ahead : Text) (h : IsHtmlTag tag) :
    htmlTag (tag ++ ahead) = tag := by
  obtain ⟨slash, letter, body, rfl, hslash | hslash, hletter, hbody⟩ := h
  · subst hslash
    have hne : letter ≠ '/' := by rintro rfl; simp at hletter
    have hthrough := through?_append ahead hbody
    simp only [List.append_assoc, List.cons_append, List.nil_append] at hthrough ⊢
    unfold htmlTag
    split
    · rename_i heq
      simp_all
    · rename_i heq
      obtain ⟨-, heq⟩ := List.cons.inj heq
      obtain ⟨rfl, rfl⟩ := List.cons.inj heq
      simp [hletter, hthrough]
    · rename_i hno
      exact absurd rfl (hno _ _)
  · subst hslash
    have hthrough := through?_append ahead hbody
    simp only [List.append_assoc, List.cons_append, List.nil_append] at hthrough ⊢
    simp [htmlTag, hletter, hthrough]

theorem markupTag_sound {text : Text} (h : markupTag text ≠ []) :
    markupTag text <+: text ∧ IsMarkupTag (markupTag text) := by
  unfold markupTag at h ⊢
  split at h
  · exact absurd rfl h
  · rename_i text hopen
    obtain ⟨body, ahead, rfl, hbody, htag⟩ := @of_map_through? '>' ['<'] text h
    have hne : body ≠ [] := by
      rintro rfl
      exact hopen _ rfl
    rw [List.singleton_append] at htag
    simp only [List.singleton_append] at htag
    rw [htag]
    exact ⟨⟨ahead, by simp⟩, body, rfl, hne, hbody⟩
  · exact absurd rfl h

theorem markupTag_append {tag : Text} (ahead : Text) (h : IsMarkupTag tag) :
    markupTag (tag ++ ahead) = tag := by
  obtain ⟨body, rfl, hne, hbody⟩ := h
  have hthrough := through?_append ahead hbody
  simp only [List.append_assoc, List.cons_append, List.nil_append]
  unfold markupTag
  split
  · rename_i heq
    cases body with
    | nil => exact absurd rfl hne
    | cons c body =>
      obtain ⟨rfl, -⟩ := List.cons.inj (List.cons.inj heq).2
      simp at hbody
  · rename_i heq
    obtain ⟨-, rfl⟩ := List.cons.inj heq
    simp [hthrough]
  · rename_i hno
    exact absurd rfl (hno _)

theorem throughTripleQuote?_cons {c : Char} {text : Text} (h : ¬ tripleQuote <+: c :: text) :
    throughTripleQuote? (c :: text) = (throughTripleQuote? text).map (c :: ·) := by
  rw [throughTripleQuote?]
  rintro ahead rfl rfl
  exact h ⟨ahead, rfl⟩

theorem throughTripleQuote?_sound {text found : Text} (h : throughTripleQuote? text = some found) :
    ∃ body ahead, text = body ++ tripleQuote ++ ahead ∧ found = body ++ tripleQuote ∧
      StopsAt (tripleQuote <+: ·) body tripleQuote := by
  induction text generalizing found with
  | nil => simp [throughTripleQuote?] at h
  | cons c text ih =>
    by_cases hquote : tripleQuote <+: c :: text
    · obtain ⟨ahead, hahead⟩ := hquote
      rw [← hahead] at h
      have hfound : tripleQuote = found := by
        simpa [throughTripleQuote?, tripleQuote] using h
      exact ⟨[], ahead, hahead.symm, hfound.symm, .nil (.inr (List.prefix_refl _))⟩
    · rw [throughTripleQuote?_cons hquote] at h
      obtain ⟨inner, hinner, rfl⟩ := Option.map_eq_some_iff.mp h
      obtain ⟨body, ahead, rfl, rfl, hstops⟩ := ih hinner
      refine ⟨c :: body, ahead, rfl, rfl, hstops.cons fun hc => hquote ?_⟩
      exact hc.trans ⟨ahead, by simp⟩

/-- Where three quotes in a row occur, such are found, and none that begin later. -/
theorem throughTripleQuote?_append (body ahead : Text) :
    ∃ found, throughTripleQuote? (body ++ tripleQuote ++ ahead) = some found ∧
      found <+: body ++ tripleQuote := by
  induction body with
  | nil => exact ⟨tripleQuote, rfl, List.prefix_refl _⟩
  | cons c body ih =>
    have hwhole : c :: body ++ tripleQuote <+: c :: (body ++ tripleQuote ++ ahead) := ⟨ahead, rfl⟩
    by_cases hquote : tripleQuote <+: c :: (body ++ tripleQuote ++ ahead)
    · refine ⟨tripleQuote, ?_, List.prefix_of_prefix_length_le hquote hwhole (by simp; omega)⟩
      obtain ⟨after, hafter⟩ := hquote
      rw [List.cons_append, List.cons_append, ← hafter]
      rfl
    · obtain ⟨found, hfound, hshort⟩ := ih
      refine ⟨c :: found, ?_, (List.prefix_cons_inj c).mpr hshort⟩
      rw [List.cons_append, List.cons_append, throughTripleQuote?_cons hquote, hfound]
      rfl

theorem rawString_sound {text : Text} (h : rawString text ≠ []) :
    rawString text <+: text ∧ IsRawString (rawString text) := by
  unfold rawString at h ⊢
  split at h
  · rename_i text
    cases hfound : throughTripleQuote? text with
    | none => simp [hfound] at h
    | some found =>
      obtain ⟨body, ahead, rfl, rfl, hstops⟩ := throughTripleQuote?_sound hfound
      refine ⟨⟨ahead, ?_⟩, body, ?_, hstops⟩ <;> simp [tripleQuote]
  · exact absurd rfl h

/-- A raw string that begins and is closed is found, and goes no further. -/
theorem rawString_append (body ahead : Text) :
    rawString (tripleQuote ++ body ++ tripleQuote ++ ahead) ≠ [] ∧
      rawString (tripleQuote ++ body ++ tripleQuote ++ ahead) <+:
        tripleQuote ++ body ++ tripleQuote := by
  obtain ⟨found, hfound, hshort⟩ := throughTripleQuote?_append body ahead
  have hlexeme : rawString (tripleQuote ++ body ++ tripleQuote ++ ahead) = tripleQuote ++ found := by
    have hopen : rawString (tripleQuote ++ (body ++ tripleQuote ++ ahead)) =
        ((throughTripleQuote? (body ++ tripleQuote ++ ahead)).map (tripleQuote ++ ·)).getD [] := rfl
    rw [List.append_assoc tripleQuote, List.append_assoc tripleQuote, hopen, hfound]
    rfl
  rw [hlexeme, List.append_assoc]
  exact ⟨by simp [tripleQuote], (List.prefix_append_right_inj _).mpr hshort⟩

theorem rawString_eq_nil {text : Text} (h : ¬ tripleQuote <+: text) : rawString text = [] := by
  by_cases hnil : rawString text = []
  · exact hnil
  · obtain ⟨hfront, body, heq, -⟩ := rawString_sound hnil
    have hquote : tripleQuote <+: rawString text := by
      rw [heq, List.append_assoc]
      exact List.prefix_append _ _
    exact absurd (hquote.trans hfront) h

theorem throughBacktick?_sound {text found : Text} (h : throughBacktick? text = some found) :
    ∃ body, found <+: text ∧ found = body ++ ['`'] ∧ QueryBody body := by
  fun_induction throughBacktick? text generalizing found with
  | case1 text =>
    obtain rfl := Option.some.inj h
    exact ⟨[], ⟨text, rfl⟩, rfl, .nil⟩
  | case2 c text ih =>
    obtain ⟨inner, hinner, rfl⟩ := Option.map_eq_some_iff.mp h
    obtain ⟨body, hprefix, rfl, hbody⟩ := ih hinner
    exact ⟨'\\' :: c :: body, by simpa using hprefix, rfl, .escaped hbody⟩
  | case3 => simp at h
  | case4 c text hquote hpair hlone ih =>
    obtain ⟨inner, hinner, rfl⟩ := Option.map_eq_some_iff.mp h
    obtain ⟨body, hprefix, rfl, hbody⟩ := ih hinner
    have hescape : c ≠ '\\' := by
      rintro rfl
      cases text with
      | nil => exact hlone rfl rfl
      | cons c text => exact hpair c text rfl rfl
    exact ⟨c :: body, by simpa using hprefix, rfl, .plain hquote hescape hbody⟩
  | case5 => simp at h

theorem throughBacktick?_append {body : Text} (ahead : Text) (h : QueryBody body) :
    throughBacktick? (body ++ '`' :: ahead) = some (body ++ ['`']) := by
  induction h with
  | nil => rfl
  | @plain c body hquote hescape _ ih =>
    rw [List.cons_append, throughBacktick?.eq_def]
    split
    · rename_i heq
      exact absurd (List.cons.inj heq).1 hquote
    · rename_i heq
      exact absurd (List.cons.inj heq).1 hescape
    · rename_i heq
      exact absurd (List.cons.inj heq).1 hescape
    · rename_i heq
      obtain ⟨rfl, rfl⟩ := List.cons.inj heq
      rw [ih]
      rfl
    · rename_i heq
      cases heq
  | escaped _ ih =>
    rw [List.cons_append, List.cons_append, throughBacktick?, ih]
    rfl

theorem query_sound {text : Text} (h : query text ≠ []) :
    query text <+: text ∧ IsQuery (query text) := by
  unfold query at h ⊢
  split at h
  · rename_i text
    cases hfound : throughBacktick? text with
    | none => simp [hfound] at h
    | some found =>
      obtain ⟨body, hprefix, rfl, hbody⟩ := throughBacktick?_sound hfound
      exact ⟨by simpa using hprefix, body, rfl, hbody⟩
  · exact absurd rfl h

/-- A query at the front of a text is found. -/
theorem query_append {text : Text} (ahead : Text) (h : IsQuery text) :
    query (text ++ ahead) = text := by
  obtain ⟨body, rfl, hbody⟩ := h
  have hthrough := throughBacktick?_append ahead hbody
  simp only [List.append_assoc, List.cons_append, List.nil_append]
  simp [query, hthrough]

end WrenDocs.Lexeme
