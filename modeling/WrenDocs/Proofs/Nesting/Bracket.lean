import WrenDocs.Proofs.Nesting.Leads
import WrenDocs.Proofs.Nesting.Syntax

/-! The delimiters of a bracket: the first opens its mode, wherever the bracket
may stand, and the second goes back to what is around it. -/
namespace WrenDocs
open Classifier Grammar

/-- The kind of body that a mode reads. -/
def Mode.kind : Mode → Nesting.Kind
  | .root | .interpolation | .htmlInterpolation => .code
  | .stringDouble | .stringSingle => .string
  | .comment => .comment
  | .html => .markup

namespace Nesting.Bracket

/-- The mode that a bracket opens. -/
def mode : Bracket → Mode
  | parenthesis => .root
  | double => .stringDouble
  | single => .stringSingle
  | braces => .htmlInterpolation
  | comment => .comment
  | paragraph => .html
  | interpolation => .interpolation

theorem kind_mode (bracket : Bracket) : bracket.mode.kind = bracket.inner := by
  cases bracket <;> rfl

def openingRule (bracket : Bracket) : Rule :=
  let pattern := if bracket = paragraph then .htmlTag else .literal bracket.opening
  .push pattern bracket.category bracket.mode

def closingRule (bracket : Bracket) : Rule :=
  let pattern := if bracket = paragraph then .markupTag else .literal bracket.closing
  .pop pattern bracket.category

/-- The rules that are tried before the opening rule and can match there. -/
def earlierRules : Bracket → List Rule
  | double => [.stay .rawString .string]
  | _ => []

theorem openingRule_at {bracket : Bracket} {mode : Mode} {c : Char}
    (h : bracket.standsIn mode.kind = true) (hc : c ∈ bracket.opening.head?) :
    bracket.earlierRules ++ [bracket.openingRule] <+: rulesAt mode c := by
  have hall : ∀ bracket ∈ all, ∀ mode ∈ Mode.all, bracket.standsIn mode.kind = true →
      ∀ rules ∈ bracket.opening.head?.map (rulesAt mode),
        bracket.earlierRules ++ [bracket.openingRule] <+: rules := by
    decide
  exact hall bracket bracket.mem_all mode mode.mem_all h _ (Option.mem_map_of_mem _ hc)

theorem closingRule_at {bracket : Bracket} {c : Char} (hc : c ∈ bracket.closing.head?) :
    [bracket.closingRule] <+: rulesAt bracket.mode c := by
  have hall : ∀ bracket ∈ all, ∀ rules ∈ bracket.closing.head?.map (rulesAt bracket.mode),
      [bracket.closingRule] <+: rules := by
    decide
  exact hall bracket bracket.mem_all _ (Option.mem_map_of_mem _ hc)

theorem lexeme?_openingRule (bracket : Bracket) (before : Option Char) (ahead : Text) :
    bracket.openingRule.pattern.lexeme? before (bracket.opening ++ ahead) =
      some bracket.opening := by
  by_cases h : bracket = paragraph
  · subst h
    have htag : IsHtmlTag paragraph.opening :=
      ⟨[], 'p', [], rfl, .inl rfl, by decide, List.not_mem_nil⟩
    exact Pattern.lexeme?_eq_some_iff.mpr ⟨Lexeme.htmlTag_append ahead htag, by decide⟩
  · rw [openingRule, if_neg h]
    exact Pattern.lexeme?_literal (by cases bracket <;> decide) before ahead

theorem lexeme?_closingRule (bracket : Bracket) (before : Option Char) (ahead : Text) :
    bracket.closingRule.pattern.lexeme? before (bracket.closing ++ ahead) =
      some bracket.closing := by
  by_cases h : bracket = paragraph
  · subst h
    have htag : IsMarkupTag paragraph.closing := ⟨['/', 'p'], rfl, by decide, by decide⟩
    exact Pattern.lexeme?_eq_some_iff.mpr ⟨Lexeme.markupTag_append ahead htag, by decide⟩
  · rw [closingRule, if_neg h]
    exact Pattern.lexeme?_literal (by cases bracket <;> decide) before ahead

/-- The opening delimiter opens the mode, unless its quote begins a raw string. -/
theorem leads_opening {bracket : Bracket} {mode : Mode} (h : bracket.standsIn mode.kind = true)
    (around : List Mode) {ahead : Text} (hraw : ¬ tripleQuote <+: bracket.opening ++ ahead) :
    Leads (mode, around) bracket.opening ahead (bracket.mode, mode :: around) fun offset =>
      [spanAt offset ⟨bracket.category, bracket.opening⟩] := by
  obtain ⟨c, tail, hopening⟩ : ∃ c tail, bracket.opening = c :: tail := by
    cases bracket <;> exact ⟨_, _, rfl⟩
  have hrules : bracket.earlierRules ++ [bracket.openingRule] <+: rulesAt mode c :=
    openingRule_at h (by rw [hopening]; rfl)
  have hearlier : ∀ earlier ∈ bracket.earlierRules, ∀ before,
      earlier.pattern.lexeme? before (bracket.opening ++ ahead) = none := by
    intro earlier hearlier before
    rw [Pattern.lexeme?_eq_none_iff]
    cases bracket with
    | double =>
      obtain rfl := List.mem_singleton.mp hearlier
      exact Lexeme.rawString_eq_nil hraw
    | parenthesis | single | braces | comment | paragraph | interpolation =>
      simp [earlierRules] at hearlier
  have hlexeme := fun before => bracket.lexeme?_openingRule before ahead
  have hclean : bracket.openingRule.category ≠ .error := by cases bracket <;> decide
  rw [hopening] at hearlier hlexeme ⊢
  exact Leads.token hrules hearlier hlexeme hclean

/-- The closing delimiter goes back to what is around the mode. -/
theorem leads_closing (bracket : Bracket) (mode : Mode) (around : List Mode) (ahead : Text) :
    Leads (bracket.mode, mode :: around) bracket.closing ahead (mode, around) fun offset =>
      [spanAt offset ⟨bracket.category, bracket.closing⟩] := by
  obtain ⟨c, tail, hclosing⟩ : ∃ c tail, bracket.closing = c :: tail := by
    cases bracket <;> exact ⟨_, _, rfl⟩
  have hrules : [] ++ [bracket.closingRule] <+: rulesAt bracket.mode c :=
    closingRule_at (by rw [hclosing]; rfl)
  have hlexeme := fun before => bracket.lexeme?_closingRule before ahead
  have hclean : bracket.closingRule.category ≠ .error := by cases bracket <;> decide
  rw [hclosing] at hlexeme ⊢
  exact Leads.token hrules (by simp) hlexeme hclean

/-- A bracket leads back to the stack that it began on if what it encloses leads
back to the one inside it. -/
theorem leads {bracket : Bracket} {mode : Mode} (h : bracket.standsIn mode.kind = true)
    {around : List Mode} {text ahead : Text} {spans : Nat → List Span}
    (hraw : ¬ tripleQuote <+: bracket.opening ++ (text ++ (bracket.closing ++ ahead)))
    (hinner : Leads (bracket.mode, mode :: around) text (bracket.closing ++ ahead)
      (bracket.mode, mode :: around) spans) :
    Leads (mode, around) (bracket.opening ++ text ++ bracket.closing) ahead (mode, around)
      fun offset =>
        let start := offset + Text.byteCount bracket.opening
        spanAt offset ⟨bracket.category, bracket.opening⟩ :: spans start ++
          [spanAt (start + Text.byteCount text) ⟨bracket.category, bracket.closing⟩] := by
  have hopening := leads_opening h around hraw
  have hclosing := bracket.leads_closing mode around ahead
  apply ((hopening.append hinner).append hclosing).mono
  intro offset
  rw [Text.byteCount_append, ← Nat.add_assoc]
  exact List.Subset.refl _

theorem closing_unquoted {bracket : Bracket} (h : bracket.inner = .code) (rest : Text) :
    (bracket.closing ++ rest).head? ≠ some '"' := by
  cases bracket with
  | parenthesis | braces | interpolation => simp [closing]
  | double | single | comment | paragraph => simp [inner] at h

end Nesting.Bracket

end WrenDocs
