import WrenDocs.Proofs.Lexeme.Attribute
import WrenDocs.Proofs.Lexeme.Delimited
import WrenDocs.Proofs.Lexeme.Escape
import WrenDocs.Proofs.Lexeme.Number
import WrenDocs.Proofs.Lexeme.Run

/-! Every pattern takes one of its words off the front of a text, and leaves the
rest. The exception is an escape that has NUL for a character of its own, and no
rule has such an escape. -/
namespace WrenDocs.Pattern
open Grammar

/-- Whether a pattern may take the end of a text for a NUL. -/
def readsPastEnd : Pattern → Bool
  | charEscape set => set.contains Lexeme.pastEnd
  | hexEscape marker count => marker == Lexeme.pastEnd && count == 0
  | _ => false

theorem readsPastEnd_of_mem_rules {mode : Mode} {rule : Rule} (h : rule ∈ mode.rules) :
    rule.pattern.readsPastEnd = false := by
  revert rule
  revert mode
  decide

theorem wordOf_sound {words : List Text} {before : Option Char} {text : Text}
    (h : wordOf words before text ≠ []) :
    ∃ ahead, text = wordOf words before text ++ ahead ∧
      IsWord words before (wordOf words before text) ahead := by
  unfold wordOf at h ⊢
  dsimp only at h ⊢
  split at h <;> rename_i hword
  · rw [if_pos hword]
    refine ⟨_, List.takeWhile_append_dropWhile.symm, ?_, hword.1, runs_takeWhile _ _⟩
    exact List.contains_iff_mem.mp hword.2
  · exact absurd rfl h

theorem take_one_sound {set : List Char} {text : Text}
    (h : (text.take 1).takeWhile set.contains ≠ []) :
    ∃ c ahead, text = c :: ahead ∧ c ∈ set ∧ (text.take 1).takeWhile set.contains = [c] := by
  cases text with
  | nil => exact absurd rfl h
  | cons c ahead =>
    by_cases hc : c ∈ set
    · exact ⟨c, ahead, rfl, hc, by simp [hc]⟩
    · simp [hc] at h

/-- What a pattern takes is one of its words at the front of the text. -/
theorem lexeme?_sound {pattern : Pattern} {before : Option Char} {text lexeme : Text}
    (h : pattern.lexeme? before text = some lexeme) (hend : pattern.readsPastEnd = false) :
    ∃ ahead, text = lexeme ++ ahead ∧ Fits before lexeme ahead pattern := by
  obtain ⟨rfl, hne⟩ := lexeme?_eq_some_iff.mp h
  cases pattern with
  | space =>
    exact ⟨_, List.takeWhile_append_dropWhile.symm, runs_takeWhile _ _⟩
  | literal expected =>
    simp only [Pattern.lexeme] at hne ⊢
    split at hne <;> rename_i hprefix
    · obtain ⟨ahead, rfl⟩ := List.isPrefixOf_iff_prefix.mp hprefix
      rw [if_pos hprefix]
      exact ⟨ahead, rfl, rfl⟩
    · exact absurd rfl hne
  | oneOf set =>
    obtain ⟨c, ahead, htext, hc, hlexeme⟩ := take_one_sound hne
    exact ⟨ahead, by rw [Pattern.lexeme, hlexeme, htext]; rfl, c, hc, hlexeme⟩
  | word words => exact wordOf_sound hne
  | htmlTag =>
    obtain ⟨⟨ahead, htext⟩, htag⟩ := Lexeme.htmlTag_sound hne
    exact ⟨ahead, htext.symm, htag⟩
  | lineComment =>
    obtain ⟨body, ahead, htext, hbody⟩ := Lexeme.lineComment_sound hne
    exact ⟨ahead, htext, body, hbody⟩
  | attributeLine => exact Lexeme.attributeLine_sound hne
  | operatorRun =>
    exact ⟨_, List.takeWhile_append_dropWhile.symm, runs_takeWhile _ _⟩
  | lowerName | upperName | instanceVariable => exact Lexeme.name_sound hne
  | classVariable =>
    obtain ⟨tail, ahead, htext, htail⟩ := Lexeme.classVariable_sound hne
    exact ⟨ahead, htext, tail, htail⟩
  | hexNumber => exact Lexeme.hexNumber_sound hne
  | decimal =>
    obtain ⟨⟨ahead, htext⟩, hnumber⟩ := Lexeme.decimal_sound hne
    exact ⟨ahead, htext.symm, hnumber⟩
  | rawString =>
    obtain ⟨⟨ahead, htext⟩, hstring⟩ := Lexeme.rawString_sound hne
    exact ⟨ahead, htext.symm, hstring⟩
  | query =>
    obtain ⟨⟨ahead, htext⟩, hquery⟩ := Lexeme.query_sound hne
    exact ⟨ahead, htext.symm, hquery⟩
  | commentText => exact Lexeme.commentText_stops text
  | charEscape set =>
    obtain ⟨⟨ahead, htext⟩, hescape⟩ :=
      Lexeme.charEscape_sound hne (by simpa [readsPastEnd] using hend)
    exact ⟨ahead, htext.symm, hescape⟩
  | hexEscape marker count =>
    have hmarker : marker ≠ Lexeme.pastEnd ∨ count ≠ 0 := by
      rcases Bool.and_eq_false_iff.mp hend with hmarker | hcount
      · exact .inl (by simpa using hmarker)
      · exact .inr (by simpa using hcount)
    obtain ⟨⟨ahead, htext⟩, hescape⟩ := Lexeme.hexEscape_sound hne hmarker
    exact ⟨ahead, htext.symm, hescape⟩
  | stringText quote =>
    exact ⟨_, List.takeWhile_append_dropWhile.symm, runs_takeWhile _ _⟩
  | markupTag =>
    obtain ⟨⟨ahead, htext⟩, htag⟩ := Lexeme.markupTag_sound hne
    exact ⟨ahead, htext.symm, htag⟩
  | markupText => exact Lexeme.markupText_stops text

end WrenDocs.Pattern
