import WrenDocs.Proofs.Coverage
import WrenDocs.Proofs.RuleOrder

/-! Every category is a truthful label: the text of a token, with what stands
around it, is a word of its category. -/
namespace WrenDocs

namespace Classifier
open Grammar

/-- The rules that an operator run has to come after. -/
theorem isOperator_of_predecessors {before : Option Char} {text ahead : Text} (hne : text ≠ [])
    (hruns : Runs Lexeme.isOperatorChar text ahead)
    (hfail : ∀ earlier ∈ (Rule.stay .operatorRun .operator).predecessors codeRules,
      earlier.pattern.lexeme before (text ++ ahead) = []) :
    IsOperator text ahead where
  nonempty := hne
  runs := hruns
  not_backslash := by
    rintro ⟨rest, rfl⟩
    have hset := hfail (.stay (.oneOf [',', '\\', '[', ']', '{', '}']) .punctuation)
      (by decide)
    simp [Rule.stay, Pattern.lexeme] at hset
  not_lineComment := by
    rintro ⟨rest, rfl⟩
    have hcomment := hfail (.stay .lineComment .commentSingle) (by decide)
    simp [Rule.stay, Pattern.lexeme, Lexeme.lineComment] at hcomment
  not_blockComment := by
    rintro ⟨rest, rfl⟩
    have hcomment := hfail (.push (.literal ['/', '*']) .commentMultiline .comment)
      (by decide)
    simp [Rule.push, Pattern.lexeme] at hcomment
  not_doctype := by
    rintro ⟨rest, hrest⟩
    have hdoctype := hfail (.stay (.literal doctype) .other) (by decide)
    rw [← hrest] at hdoctype
    have hprefix : doctype.isPrefixOf (doctype ++ rest) = true :=
      List.isPrefixOf_iff_prefix.mpr (List.prefix_append _ _)
    simp only [Rule.stay, Pattern.lexeme, hprefix, ↓reduceIte] at hdoctype
    exact absurd hdoctype (by decide)
  not_htmlTag := by
    rintro tag htag ⟨rest, hrest⟩
    have hnil := hfail (.push .htmlTag .other .html) (by decide)
    rw [← hrest] at hnil
    have hfound : Lexeme.htmlTag (tag ++ rest) = tag := Lexeme.htmlTag_append rest htag
    have htagnil : tag = [] := hfound.symm.trans hnil
    obtain ⟨_, _, _, rfl, -⟩ := htag
    simp at htagnil

/-- A name variable comes after a class variable, so a second underscore is none of its. -/
theorem instanceVariable_of_predecessors {before : Option Char} {text ahead : Text}
    (hname : IsName (· == '_') text ahead)
    (hfail : ∀ earlier ∈ (Rule.stay .instanceVariable .nameVariableInstance).predecessors codeRules,
      earlier.pattern.lexeme before (text ++ ahead) = []) :
    IsName (· == '_') text ahead ∧ ¬ ['_', '_'] <+: text ++ ahead := by
  refine ⟨hname, ?_⟩
  rintro ⟨rest, hrest⟩
  have hclass := hfail (.stay .classVariable .nameVariableClass) (by decide)
  rw [← hrest] at hclass
  simp [Rule.stay, Pattern.lexeme, Lexeme.classVariable] at hclass

/-- Rule by rule in the order in which they are tried: white space, markup and punctuation,
then words, comments and attributes, operators and names, numbers and strings. Only an
operator and an instance variable depend on what the rules before them refused. -/
theorem labels_of_mem_codeRules {before : Option Char} {text ahead : Text} {rule : Rule}
    (hmem : rule ∈ codeRules) (hne : text ≠ []) (hfits : Fits before text ahead rule.pattern)
    (hfail : ∀ earlier ∈ rule.predecessors codeRules,
      earlier.pattern.lexeme before (text ++ ahead) = []) :
    Labels before text ahead rule.category := by
  simp only [codeRules, List.mem_cons, List.not_mem_nil, or_false] at hmem
  rcases hmem with rfl | rfl | rfl | rfl | rfl | rfl | rfl | rfl | rfl | rfl | rfl | rfl | rfl |
    rfl | rfl | rfl | rfl | rfl | rfl | rfl | rfl | rfl | rfl | rfl
  · exact ⟨hne, hfits⟩
  · exact .inr (.inr (.inl hfits))
  · exact .inl hfits
  · exact .inr (.inl hfits)
  · obtain ⟨c, hc, rfl⟩ := hfits
    exact ⟨c, List.mem_append_left ['(', ')'] hc, rfl⟩
  · exact ⟨'(', List.mem_of_elem_eq_true rfl, hfits⟩
  · exact ⟨')', List.mem_of_elem_eq_true rfl, hfits⟩
  · exact hfits
  · exact hfits
  · exact hfits
  · exact .inl hfits
  · exact hfits
  · exact hfits
  · exact isOperator_of_predecessors hne hfits hfail
  · exact hfits
  · exact hfits
  · exact hfits
  · exact instanceVariable_of_predecessors hfits hfail
  · exact hfits
  · exact hfits
  · exact hfits
  · exact .inl hfits
  · exact .inl hfits
  · exact hfits

theorem labels_of_mem_stringRules {quote : Char} {category : Category} {before : Option Char}
    {text ahead : Text} {rule : Rule} (hmem : rule ∈ stringRules quote category)
    (hcategory : IsStringPart quote text ahead → Labels before text ahead category)
    (hne : text ≠ []) (hfits : Fits before text ahead rule.pattern) :
    Labels before text ahead rule.category := by
  simp only [stringRules, List.mem_cons, List.not_mem_nil, or_false] at hmem
  rcases hmem with rfl | rfl | rfl | rfl | rfl | rfl | rfl
  · exact hcategory (.inl hfits)
  · exact .inl hfits
  · obtain ⟨digits, rfl, hcount, hdigits⟩ := hfits
    exact .inr ⟨'x', digits, rfl, by simp [hcount], hdigits⟩
  · obtain ⟨digits, rfl, hcount, hdigits⟩ := hfits
    exact .inr ⟨'u', digits, rfl, by simp [hcount], hdigits⟩
  · obtain ⟨digits, rfl, hcount, hdigits⟩ := hfits
    exact .inr ⟨'U', digits, rfl, by simp [hcount], hdigits⟩
  · exact .inl hfits
  · exact hcategory (.inr ⟨hne, hfits⟩)

/-- The rules of the modes that read no code label by their own pattern alone. -/
theorem labels_of_mem_ownRules {mode : Mode} {before : Option Char} {text ahead : Text}
    {rule : Rule} (hmode : mode.readsCode = false) (hmem : rule ∈ mode.ownRules) (hne : text ≠ [])
    (hfits : Fits before text ahead rule.pattern) : Labels before text ahead rule.category := by
  cases mode with
  | root | interpolation | htmlInterpolation => simp [Mode.readsCode] at hmode
  | comment =>
    simp only [Mode.ownRules, commentRules, List.mem_cons, List.not_mem_nil, or_false] at hmem
    rcases hmem with rfl | rfl | rfl
    · exact .inl hfits
    · exact .inr (.inl hfits)
    · exact .inr (.inr ⟨hne, hfits⟩)
  | stringDouble => exact labels_of_mem_stringRules hmem id hne hfits
  | stringSingle => exact labels_of_mem_stringRules hmem id hne hfits
  | html =>
    simp only [Mode.ownRules, htmlRules, List.mem_cons, List.not_mem_nil, or_false] at hmem
    rcases hmem with rfl | rfl | rfl
    · exact .inr (.inr (.inl hfits))
    · exact .inr (.inr (.inl hfits))
    · exact .inr (.inr (.inr ⟨hne, hfits⟩))

/-- A token is a word of its category. -/
theorem step_labels {state after : Classifier} {token : Token}
    (h : state.next? = some (token, after)) :
    Labels state.before token.text after.rest token.category := by
  obtain ⟨hne, hrest⟩ := step_text h
  rcases step_fits h with
    ⟨rule, hmem, hmatch, hcategory, hfits, -⟩ | ⟨-, hcategory, ⟨c, htext, -⟩, -⟩
  · rw [hcategory]
    rcases Mode.mem_rules hmem with ⟨hmode, hown⟩ | ⟨hmode, hcode⟩ | ⟨-, rfl⟩ | ⟨-, rfl⟩
    · exact labels_of_mem_ownRules hmode hown hne hfits
    · apply labels_of_mem_codeRules hcode hne hfits
      intro earlier hearlier
      rw [← hrest]
      exact lexeme_eq_nil_of_mem_predecessors hmatch hmode hcode hearlier
    · exact .inr (.inl hfits)
    · exact .inr (.inr (.inr hfits))
  · rw [hcategory]
    exact ⟨c, htext⟩

end Classifier

open Classifier in
/-- **Truthful labels.** What a span covers is a word of the span's category, by
the character before it and the text ahead of it in the source. -/
theorem classify_labels (source : Text) (span : Span) (hspan : span ∈ classify source) :
    ∃ behind ahead, source = behind ++ (span.text source ++ ahead) ∧
      span.start = Text.byteCount behind ∧
      Grammar.Labels behind.getLast? (span.text source) ahead span.category := by
  obtain ⟨first, token, rest, htokens, rfl, hsource⟩ := exists_of_mem_classify hspan
  obtain ⟨state, hsteps, hrun⟩ := steps_of_run_eq htokens
  cases hnext : state.next? with
  | none => simp [run_of_next?_eq_none hnext] at hrun
  | some taken =>
    obtain ⟨token', after⟩ := taken
    rw [run_of_next?_eq_some hnext] at hrun
    obtain ⟨rfl, hafter⟩ := List.cons.inj (congrArg Prod.fst hrun)
    have hlabels := step_labels hnext
    have hbefore : state.before = (textOf first).getLast? := by
      rw [hsteps.before]
      exact Option.or_none
    rw [hbefore, ← textOf_run after, hafter] at hlabels
    have htext : (spanAt (Text.byteCount (textOf first)) token').text source = token'.text := by
      rw [hsource, text_spanAt]
    rw [htext]
    exact ⟨textOf first, textOf rest, hsource, rfl, hlabels⟩

/-- After a dot a keyword is the name of a member. -/
theorem classify_labels_after_dot :
    let source := "x.if".toList
    let span : Span := ⟨2, 4, .name⟩
    span ∈ classify source ∧ ∃ behind ahead, source = behind ++ (span.text source ++ ahead) ∧
      span.start = Text.byteCount behind ∧
      Grammar.Labels behind.getLast? (span.text source) ahead span.category :=
  have hspan : (⟨2, 4, .name⟩ : Span) ∈ classify "x.if".toList := by decide +kernel
  ⟨hspan, classify_labels _ _ hspan⟩

end WrenDocs
