import WrenDocs.Proofs.Grammar

/-! Names, line comments, and the text between delimiters: what is taken runs
right up to what stands ahead of it. -/
namespace WrenDocs.Lexeme
open Grammar

theorem name_sound {head : Char → Bool} {text : Text} (h : name head text ≠ []) :
    ∃ ahead, text = name head text ++ ahead ∧ IsName head (name head text) ahead := by
  unfold name at h ⊢
  split at h
  · rename_i c text
    split at h <;> rename_i hc
    · simp only [hc, ↓reduceIte]
      refine ⟨text.dropWhile Text.isNameChar, ?_, c, _, rfl, hc, runs_takeWhile _ _⟩
      rw [List.cons_append, List.takeWhile_append_dropWhile]
    · exact absurd rfl h
  · exact absurd rfl h

theorem classVariable_sound {text : Text} (h : classVariable text ≠ []) :
    ∃ tail ahead, text = classVariable text ++ ahead ∧ classVariable text = '_' :: '_' :: tail ∧
      Runs Text.isNameChar tail ahead := by
  unfold classVariable at h ⊢
  split at h
  · rename_i text
    refine ⟨_, text.dropWhile Text.isNameChar, ?_, rfl, runs_takeWhile _ _⟩
    simp only [List.cons_append, List.takeWhile_append_dropWhile]
  · exact absurd rfl h

theorem lineComment_sound {text : Text} (h : lineComment text ≠ []) :
    ∃ body ahead, text = lineComment text ++ ahead ∧ lineComment text = '/' :: '/' :: body ∧
      Runs (· != '\n') body ahead := by
  unfold lineComment at h ⊢
  split at h
  · rename_i text
    refine ⟨_, text.dropWhile (· != '\n'), ?_, rfl, runs_takeWhile _ _⟩
    simp only [List.cons_append, List.takeWhile_append_dropWhile]
  · exact absurd rfl h

theorem commentText_stops (text : Text) :
    ∃ ahead, text = commentText text ++ ahead ∧
      StopsAt CommentDelimiter (commentText text) ahead := by
  fun_induction commentText text with
  | case1 text => exact ⟨_, rfl, .nil (.inr (.inl ⟨text, rfl⟩))⟩
  | case2 text => exact ⟨_, rfl, .nil (.inr (.inr ⟨text, rfl⟩))⟩
  | case3 c text hopen hclose ih =>
    obtain ⟨ahead, hahead, hstops⟩ := ih
    refine ⟨ahead, by rw [List.cons_append, ← hahead], hstops.cons ?_⟩
    rw [← hahead]
    rintro (⟨ahead, heq⟩ | ⟨ahead, heq⟩) <;> obtain ⟨rfl, rfl⟩ := List.cons.inj heq
    · exact hopen ahead rfl rfl
    · exact hclose ahead rfl rfl
  | case4 => exact ⟨[], rfl, .nil (.inl rfl)⟩

/-- Comment text is empty only where a comment opens or closes. -/
theorem commentDelimiter_of_nil {text : Text} (hne : text ≠ []) (h : commentText text = []) :
    CommentDelimiter text := by
  obtain ⟨ahead, hahead, hstops⟩ := commentText_stops text
  rw [h, List.nil_append] at hahead
  exact (hahead ▸ hstops.stops).resolve_left hne

theorem markupText_stops (text : Text) :
    ∃ ahead, text = markupText text ++ ahead ∧ StopsAt MarkupDelimiter (markupText text) ahead := by
  fun_induction markupText text with
  | case1 text => exact ⟨_, rfl, .nil (.inr (.inl ⟨text, rfl⟩))⟩
  | case2 text => exact ⟨_, rfl, .nil (.inr (.inr (.inl ⟨text, rfl⟩)))⟩
  | case3 text => exact ⟨_, rfl, .nil (.inr (.inr (.inr ⟨text, rfl⟩)))⟩
  | case4 c text hescape htag hbrace ih =>
    obtain ⟨ahead, hahead, hstops⟩ := ih
    refine ⟨ahead, by rw [List.cons_append, ← hahead], hstops.cons ?_⟩
    rw [← hahead]
    rintro (⟨ahead, heq⟩ | ⟨ahead, heq⟩ | ⟨ahead, heq⟩) <;> obtain ⟨rfl, rfl⟩ := List.cons.inj heq
    · exact hescape rfl
    · exact htag rfl
    · exact hbrace ahead rfl rfl
  | case5 => exact ⟨[], rfl, .nil (.inl rfl)⟩

/-- Markup text is empty only where markup is interrupted. -/
theorem markupDelimiter_of_nil {text : Text} (hne : text ≠ []) (h : markupText text = []) :
    MarkupDelimiter text := by
  obtain ⟨ahead, hahead, hstops⟩ := markupText_stops text
  rw [h, List.nil_append] at hahead
  exact (hahead ▸ hstops.stops).resolve_left hne

end WrenDocs.Lexeme
