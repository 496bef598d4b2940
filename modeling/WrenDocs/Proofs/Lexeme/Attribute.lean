import WrenDocs.Proofs.Grammar

/-! Attributes: the line, or the list that some later line ends with. -/
namespace WrenDocs.Lexeme
open Grammar

theorem atLineEnd_iff {text : Text} : atLineEnd text = true ↔ LineEnd text := by
  cases text with
  | nil => simp [atLineEnd, LineEnd]
  | cons c text => simp [atLineEnd, LineEnd]

theorem closesLine_cons {c : Char} {text : Text} :
    ClosesLine (c :: text) ↔ c = ')' ∧ atLineEnd text = true := by
  rw [atLineEnd_iff]
  constructor
  · rintro ⟨ahead, heq, hend⟩
    obtain ⟨rfl, rfl⟩ := List.cons.inj heq
    exact ⟨rfl, hend⟩
  · rintro ⟨rfl, hend⟩
    exact ⟨text, rfl, hend⟩

theorem throughClosingLine?_sound {text found : Text} (h : throughClosingLine? text = some found) :
    ∃ arguments ahead, text = found ++ ahead ∧ found = arguments ++ [')'] ∧ LineEnd ahead ∧
      StopsAt ClosesLine arguments (')' :: ahead) := by
  induction text generalizing found with
  | nil => simp [throughClosingLine?] at h
  | cons c text ih =>
    rw [throughClosingLine?] at h
    split at h <;> rename_i hcloses
    · obtain rfl := Option.some.inj h
      obtain ⟨rfl, hend⟩ := hcloses
      refine ⟨[], text, rfl, rfl, atLineEnd_iff.mp hend, .nil (.inr ?_)⟩
      exact closesLine_cons.mpr ⟨rfl, hend⟩
    · obtain ⟨inner, hinner, rfl⟩ := Option.map_eq_some_iff.mp h
      obtain ⟨arguments, ahead, rfl, rfl, hend, hstops⟩ := ih hinner
      refine ⟨c :: arguments, ahead, rfl, rfl, hend, hstops.cons fun hc => hcloses ?_⟩
      simpa using closesLine_cons.mp hc

theorem throughClosingLine?_complete {text : Text} (h : throughClosingLine? text = none) :
    ∀ place, place <:+ text → ¬ ClosesLine place := by
  induction text with
  | nil =>
    rintro place hplace ⟨ahead, rfl, -⟩
    simp at hplace
  | cons c text ih =>
    rw [throughClosingLine?] at h
    split at h <;> rename_i hcloses
    · simp at h
    · intro place hplace
      rcases List.suffix_cons_iff.mp hplace with rfl | hplace
      · exact fun hc => hcloses (closesLine_cons.mp hc)
      · exact ih (Option.map_eq_none_iff.mp h) place hplace

/-- A list closes a line that lies ahead of where its text begins. -/
theorem closesLine_of_endsWithList {body ahead : Text} (h : EndsWithList body ahead) :
    ∃ place, place <:+ body ++ ahead ∧ ClosesLine place := by
  obtain ⟨opening, arguments, rfl, -, -, hend, -⟩ := h
  exact ⟨')' :: ahead, ⟨opening ++ '(' :: arguments, by simp⟩, ahead, rfl, hend⟩

theorem endsWithLine_nil {ahead : Text} (h : LineEnd ahead) : EndsWithLine [] ahead :=
  ⟨List.not_mem_nil, h, by simp⟩

theorem endsWithLine_cons {c : Char} {body ahead : Text} (hline : c ≠ '\n')
    (hlist : c = '(' → ∀ place, place <:+ body ++ ahead → ¬ ClosesLine place)
    (h : EndsWithLine body ahead) : EndsWithLine (c :: body) ahead where
  oneLine := by
    have hone := h.oneLine
    simp [Ne.symm hline, hone]
  lineEnd := h.lineEnd
  noList := by
    intro front back hsplit
    cases front with
    | nil =>
      obtain ⟨hc, rfl⟩ := List.cons.inj hsplit
      exact hlist hc
    | cons first front => exact h.noList front back (List.cons.inj hsplit).2

theorem endsWithList_cons {c : Char} {body ahead : Text} (hline : c ≠ '\n') (hopen : c ≠ '(')
    (h : EndsWithList body ahead) : EndsWithList (c :: body) ahead := by
  obtain ⟨opening, arguments, rfl, hone, hopening, hend, hstops⟩ := h
  refine ⟨c :: opening, arguments, rfl, ?_, ?_, hend, hstops⟩
  · simp [Ne.symm hline, hone]
  · simp [Ne.symm hopen, hopening]

/-- A flag that is down says that no line is closed further on; then the search
for a list is rightly spared. -/
theorem attributeBody_sound (listPossible : Bool) (text : Text)
    (hflag : listPossible = true ∨ ∀ place, place <:+ text → ¬ ClosesLine place) :
    ∃ ahead, text = attributeBody listPossible text ++ ahead ∧
      (EndsWithLine (attributeBody listPossible text) ahead ∨
        EndsWithList (attributeBody listPossible text) ahead) := by
  fun_induction attributeBody listPossible text with
  | case1 => exact ⟨[], rfl, .inl (endsWithLine_nil (by simp [LineEnd]))⟩
  | case2 _ text => exact ⟨'\n' :: text, rfl, .inl (endsWithLine_nil (by simp [LineEnd]))⟩
  | case3 _ c text hline hopen found hfound =>
    obtain ⟨arguments, ahead, htext, rfl, hend, hstops⟩ := throughClosingLine?_sound hfound
    obtain ⟨rfl, -⟩ := hopen
    exact ⟨ahead, by rw [htext, List.cons_append], .inr
      ⟨[], arguments, rfl, by simp, by simp, hend, hstops⟩⟩
  | case4 _ c text hline hopen hnone ih =>
    have hno := throughClosingLine?_complete hnone
    obtain ⟨ahead, htext, hbody⟩ := ih (.inr hno)
    refine ⟨ahead, by rw [List.cons_append, ← htext], ?_⟩
    rw [htext] at hno
    rcases hbody with hbody | hbody
    · exact .inl (endsWithLine_cons hline (fun _ => hno) hbody)
    · obtain ⟨place, hplace, hcloses⟩ := closesLine_of_endsWithList hbody
      exact absurd hcloses (hno place hplace)
  | case5 listPossible c text hline hopen ih =>
    have hflag' : listPossible = true ∨ ∀ place, place <:+ text → ¬ ClosesLine place :=
      hflag.imp_right fun h place hplace => h place (hplace.trans (List.suffix_cons c text))
    obtain ⟨ahead, htext, hbody⟩ := ih hflag'
    refine ⟨ahead, by rw [List.cons_append, ← htext], ?_⟩
    have hno (hc : c = '(') : ∀ place, place <:+ text → ¬ ClosesLine place :=
      hflag'.resolve_left fun h => hopen ⟨hc, h⟩
    rw [htext] at hno
    rcases hbody with hbody | hbody
    · exact .inl (endsWithLine_cons hline hno hbody)
    · have hc : c ≠ '(' := by
        intro hc
        obtain ⟨place, hplace, hcloses⟩ := closesLine_of_endsWithList hbody
        exact hno hc place hplace hcloses
      exact .inr (endsWithList_cons hline hc hbody)

theorem attributeLine_sound {text : Text} (h : attributeLine text ≠ []) :
    ∃ ahead, text = attributeLine text ++ ahead ∧ IsAttribute (attributeLine text) ahead := by
  unfold attributeLine at h ⊢
  split at h
  · rename_i text
    obtain ⟨ahead, htext, hbody⟩ := attributeBody_sound true text (.inl rfl)
    exact ⟨ahead, by rw [List.cons_append, ← htext], _, rfl, hbody⟩
  · exact absurd rfl h

end WrenDocs.Lexeme
