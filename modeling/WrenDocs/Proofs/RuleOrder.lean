import WrenDocs.Proofs.Steps

/-! The order of the rules. The rule that decides is one of the mode's own or one
of the rules of code, and no rule that stands before it matches. -/
namespace WrenDocs

/-- The modes that read code: those that have the rules of code, own or included. -/
def Mode.readsCode : Mode → Bool
  | .root | .interpolation | .htmlInterpolation => true
  | _ => false

/-- The rules that are tried before a rule. -/
def Rule.predecessors (rule : Rule) (rules : List Rule) : List Rule :=
  rules.takeWhile (· != rule)

theorem Pattern.lexeme?_eq_none_iff {pattern : Pattern} {before : Option Char} {text : Text} :
    pattern.lexeme? before text = none ↔ pattern.lexeme before text = [] := by
  unfold lexeme?
  split <;> rename_i h
  · simp [h]
  · simpa using fun hnil => h hnil

/-- A rule of a mode is its own or, where the mode reads code, a rule of code. -/
theorem Mode.mem_rules {mode : Mode} {rule : Rule} (h : rule ∈ mode.rules) :
    (mode.readsCode = false ∧ rule ∈ mode.ownRules) ∨
    (mode.readsCode = true ∧ rule ∈ codeRules) ∨
    (mode = .interpolation ∧ rule = .pop (.literal [')']) .stringInterpol) ∨
    (mode = .htmlInterpolation ∧ rule = .pop (.literal ['}', '}']) .stringInterpol) := by
  cases mode with
  | root => exact .inr (.inl ⟨rfl, by simpa [rules, ownRules, included?] using h⟩)
  | comment | stringDouble | stringSingle | html =>
    exact .inl ⟨rfl, by simpa [rules, included?] using h⟩
  | interpolation =>
    rcases List.mem_cons.mp h with rfl | h
    · exact .inr (.inr (.inl ⟨rfl, rfl⟩))
    · exact .inr (.inl ⟨rfl, h⟩)
  | htmlInterpolation =>
    rcases List.mem_cons.mp h with rfl | h
    · exact .inr (.inr (.inr ⟨rfl, rfl⟩))
    · exact .inr (.inl ⟨rfl, h⟩)

theorem Mode.mem_rules_of_readsCode {mode : Mode} {rule : Rule} (hmode : mode.readsCode = true)
    (h : rule ∈ codeRules) : rule ∈ mode.rules := by
  cases mode with
  | root | interpolation | htmlInterpolation => simp [rules, ownRules, included?, h]
  | comment | stringDouble | stringSingle | html => simp [readsCode] at hmode

/-- Among the rules of code the order is the same in every mode that reads code: the two
interpolations try one rule before those of code, and it is none of them. -/
theorem mem_predecessors_of_readsCode {mode : Mode} {rule earlier : Rule}
    (hmode : mode.readsCode = true) (hrule : rule ∈ codeRules)
    (h : earlier ∈ rule.predecessors codeRules) : earlier ∈ rule.predecessors mode.rules := by
  have hown : ∀ own : Rule, own ∉ codeRules → earlier ∈ rule.predecessors (own :: codeRules) := by
    intro own hnot
    have hne : own ≠ rule := by
      rintro rfl
      exact hnot hrule
    have hpassed : (own != rule) = true := bne_iff_ne.mpr hne
    rw [Rule.predecessors, List.takeWhile_cons, if_pos hpassed]
    exact List.mem_cons_of_mem own h
  cases mode with
  | root =>
    have hrules : Mode.root.rules = codeRules := List.append_nil codeRules
    rwa [hrules]
  | interpolation => exact hown _ (by decide)
  | htmlInterpolation => exact hown _ (by decide)
  | comment | stringDouble | stringSingle | html => simp [Mode.readsCode] at hmode

namespace Classifier

/-- No rule matches where every pattern of the mode takes nothing. -/
theorem firstMatch?_eq_none_iff {state : Classifier} :
    state.firstMatch? = none ↔
      ∀ rule ∈ state.mode.rules, rule.pattern.lexeme state.before state.rest = [] := by
  simp only [firstMatch?, List.findSome?_eq_none_iff, Option.map_eq_none_iff,
    Pattern.lexeme?_eq_none_iff]

theorem lexeme?_eq_none_of_mem_predecessors {state : Classifier} {rule earlier : Rule}
    {lexeme : Text} (h : state.firstMatch? = some (rule, lexeme))
    (hearlier : earlier ∈ rule.predecessors state.mode.rules) :
    earlier.pattern.lexeme? state.before state.rest = none := by
  obtain ⟨first, tried, rest, hsplit, htried, hfail⟩ := List.findSome?_eq_some_iff.mp h
  obtain ⟨_, -, heq⟩ := Option.map_eq_some_iff.mp htried
  obtain ⟨rfl, -⟩ := Prod.mk.inj heq
  rw [hsplit, Rule.predecessors] at hearlier
  have hfirst : earlier ∈ first := by
    rw [List.takeWhile_append] at hearlier
    split at hearlier
    · simpa using hearlier
    · exact List.takeWhile_subset _ hearlier
  exact Option.map_eq_none_iff.mp (hfail earlier hfirst)

/-- Where a rule of code decides, the rules of code before it take nothing. -/
theorem lexeme_eq_nil_of_mem_predecessors {state : Classifier} {rule earlier : Rule} {lexeme : Text}
    (h : state.firstMatch? = some (rule, lexeme)) (hmode : state.mode.readsCode = true)
    (hrule : rule ∈ codeRules) (hearlier : earlier ∈ rule.predecessors codeRules) :
    earlier.pattern.lexeme state.before state.rest = [] :=
  Pattern.lexeme?_eq_none_iff.mp
    (lexeme?_eq_none_of_mem_predecessors h (mem_predecessors_of_readsCode hmode hrule hearlier))

end Classifier

end WrenDocs
