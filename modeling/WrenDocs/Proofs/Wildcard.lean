import Mathlib.Data.List.Infix
import WrenDocs.Wildcard

/-! What a pattern means. A text matches if it can be cut into parts, one for each
character of the pattern and in that order, such that every character stands for
its part. The search remembers only the last star, and accepts exactly these
texts; so it finds what a search finds that takes back every choice. -/
namespace WrenDocs.Wildcard

/-- The parts that a character of a pattern stands for. -/
def StandsFor (p : Char) (part : Text) : Prop :=
  if p = '*' then True else if p = '?' then ∃ c, part = [c] else part = [p]

/-- A text that can be cut into parts for the characters of a pattern. -/
def Matches (pattern text : Text) : Prop :=
  ∃ parts, text = parts.flatten ∧ List.Forall₂ StandsFor pattern parts

/-- The search that takes back every choice: a star is given every part that it
can take, and each of them a search of its own for what comes after. -/
def matchesSomehow : Text → Text → Bool
  | [], text => text.isEmpty
  | p :: pattern, text =>
    if p = '*' then text.tails.any (matchesSomehow pattern)
    else text.head?.any (fun c => p = '?' ∨ p = c) && matchesSomehow pattern text.tail

/-! ## One character of a pattern at a time -/

theorem matches_nil_iff {text : Text} : Matches [] text ↔ text = [] := by
  constructor
  · rintro ⟨parts, rfl, hparts⟩
    cases hparts
    rfl
  · rintro rfl
    exact ⟨[], rfl, .nil⟩

theorem matches_star_iff {pattern text : Text} :
    Matches ('*' :: pattern) text ↔ ∃ rest, rest <:+ text ∧ Matches pattern rest := by
  constructor
  · rintro ⟨_, rfl, hparts⟩
    cases hparts with
    | cons _ hparts => exact ⟨_, ⟨_, rfl⟩, _, rfl, hparts⟩
  · rintro ⟨_, ⟨part, rfl⟩, parts, rfl, hparts⟩
    exact ⟨part :: parts, rfl, .cons trivial hparts⟩

theorem standsFor_iff {p : Char} {part : Text} (hp : p ≠ '*') :
    StandsFor p part ↔ ∃ c, part = [c] ∧ (p = '?' ∨ p = c) := by
  rw [StandsFor, if_neg hp]
  by_cases hmark : p = '?'
  · simp [hmark]
  · simp [hmark]

theorem matches_cons_iff {p : Char} {pattern text : Text} (hp : p ≠ '*') :
    Matches (p :: pattern) text ↔
      ∃ c rest, text = c :: rest ∧ (p = '?' ∨ p = c) ∧ Matches pattern rest := by
  constructor
  · rintro ⟨_, rfl, hparts⟩
    cases hparts with
    | cons hpart hparts =>
      obtain ⟨c, rfl, hc⟩ := (standsFor_iff hp).mp hpart
      exact ⟨c, _, rfl, hc, _, rfl, hparts⟩
  · rintro ⟨c, _, rfl, hc, parts, rfl, hparts⟩
    exact ⟨[c] :: parts, rfl, .cons ((standsFor_iff hp).mpr ⟨c, rfl, hc⟩) hparts⟩

/-- Only stars stand for nothing. -/
theorem matches_empty_iff {pattern : Text} :
    Matches pattern [] ↔ pattern.all (· == '*') = true := by
  induction pattern with
  | nil => simp [matches_nil_iff]
  | cons p pattern ih =>
    by_cases hp : p = '*'
    · subst hp
      simp [matches_star_iff, ih]
    · simp [matches_cons_iff hp, hp]

theorem matchesSomehow_iff {pattern text : Text} :
    matchesSomehow pattern text = true ↔ Matches pattern text := by
  induction pattern generalizing text with
  | nil => rw [matchesSomehow, List.isEmpty_iff, matches_nil_iff]
  | cons p pattern ih =>
    rw [matchesSomehow]
    by_cases hp : p = '*'
    · subst hp
      simp only [↓reduceIte, List.any_eq_true, List.mem_tails, ih, matches_star_iff]
    · rw [if_neg hp, matches_cons_iff hp]
      cases text with
      | nil => simp
      | cons c text => simp [ih]

/-! ## Up to the next star -/

/-- What is still to be said of a text where a pattern has got so far. -/
def Progress.Accepts : Progress → Prop
  | .ended accepted => accepted = true
  | .star pattern text => Matches ('*' :: pattern) text
  | .mismatch => False

theorem matches_iff_walk {pattern text : Text} :
    Matches pattern text ↔ (walk pattern text).Accepts := by
  fun_induction walk pattern text with
  | case1 pattern => exact matches_empty_iff
  | case2 c text => simp [matches_nil_iff, Progress.Accepts]
  | case3 c text pattern => exact Iff.rfl
  | case4 c text p pattern hp hc ih =>
    rw [matches_cons_iff hp, ← ih]
    simp [hc]
  | case5 c text p pattern hp hc =>
    rw [matches_cons_iff hp]
    simp [hc, Progress.Accepts]

/-- Up to its next star a pattern takes one character for each of its own. So where
a text gets that far, one that begins further on is through no earlier, and what
it leaves after the star the first one can leave too. -/
theorem accepts_walk_of_suffix {pattern text rest : Text} (hrest : rest <:+ text)
    (hm : Matches pattern rest) (hwalk : walk pattern text ≠ .mismatch) :
    (walk pattern text).Accepts := by
  fun_induction walk pattern text generalizing rest with
  | case1 pattern =>
    obtain rfl := List.suffix_nil.mp hrest
    exact matches_empty_iff.mp hm
  | case2 => exact absurd rfl hwalk
  | case3 c text pattern =>
    obtain ⟨last, hlast, hm⟩ := matches_star_iff.mp hm
    exact matches_star_iff.mpr ⟨last, hlast.trans hrest, hm⟩
  | case4 c text p pattern hp _ ih =>
    obtain ⟨first, rest, rfl, -, hm⟩ := (matches_cons_iff hp).mp hm
    have hrest' : rest <:+ text := by
      rcases List.suffix_cons_iff.mp hrest with heq | hrest
      · rw [(List.cons.inj heq).2]
      · exact (List.suffix_cons first rest).trans hrest
    exact ih hrest' hm hwalk
  | case5 => exact absurd rfl hwalk

/-! ## The search with one remembered star -/

theorem matches_star_iff_walk {pattern text : Text} (hwalk : walk pattern text ≠ .mismatch) :
    Matches ('*' :: pattern) text ↔ (walk pattern text).Accepts := by
  rw [matches_star_iff]
  constructor
  · rintro ⟨rest, hrest, hm⟩
    exact accepts_walk_of_suffix hrest hm hwalk
  · intro h
    exact ⟨text, List.suffix_refl text, matches_iff_walk.mpr h⟩

/-- Where the pattern fails after a star, the star has to take one character more. -/
theorem matches_star_cons_iff {pattern text : Text} {c : Char}
    (hwalk : walk pattern (c :: text) = .mismatch) :
    Matches ('*' :: pattern) (c :: text) ↔ Matches ('*' :: pattern) text := by
  have hfail : ¬ Matches pattern (c :: text) := by
    rw [matches_iff_walk, hwalk]
    exact id
  simp only [matches_star_iff, List.suffix_cons_iff]
  constructor
  · rintro ⟨rest, rfl | hrest, hm⟩
    · exact absurd hm hfail
    · exact ⟨rest, hrest, hm⟩
  · rintro ⟨rest, hrest, hm⟩
    exact ⟨rest, .inr hrest, hm⟩

theorem acceptsAfterStar_iff {pattern text : Text} :
    acceptsAfterStar pattern text = true ↔ Matches ('*' :: pattern) text := by
  fun_induction acceptsAfterStar pattern text with
  | case1 pattern text accepted hwalk =>
    rw [matches_star_iff_walk (by simp [hwalk]), hwalk]
    exact Iff.rfl
  | case2 pattern text pattern' text' hwalk ih =>
    rw [matches_star_iff_walk (by simp [hwalk]), hwalk, ih]
    exact Iff.rfl
  | case3 pattern hwalk => simp [walk] at hwalk
  | case4 pattern c text hwalk ih => rw [matches_star_cons_iff hwalk, ih]

theorem accepts_iff_matches {pattern text : Text} :
    accepts pattern text = true ↔ Matches pattern text := by
  rw [matches_iff_walk, accepts]
  cases walk pattern text with
  | ended accepted => exact Iff.rfl
  | star pattern text => exact acceptsAfterStar_iff
  | mismatch => exact iff_of_false Bool.false_ne_true id

/-- **Wildcards.** A text is accepted exactly if it can be cut into consecutive
parts, one for each character of the pattern, where a star stands for any part,
a question mark for one character and any other character for itself. A search
that takes back every choice accepts no other texts. -/
theorem accepts_iff_cut (pattern text : Text) :
    (accepts pattern text = true ↔
      ∃ parts, text = parts.flatten ∧ List.Forall₂ StandsFor pattern parts) ∧
    accepts pattern text = matchesSomehow pattern text := by
  refine ⟨accepts_iff_matches, ?_⟩
  rw [Bool.eq_iff_iff, accepts_iff_matches, matchesSomehow_iff]

/-- Two stars, the first of which has to take more than it first does. -/
example : accepts ['*', 'a', '?', '*', 'b'] ['a', 'a', 'c', 'b', 'b'] = true := by decide +kernel

/-! ## Patterns that name one text, or the end of one -/

/-- A pattern whose characters all stand for themselves. -/
structure IsLiteral (pattern : Text) : Prop where
  no_star : '*' ∉ pattern
  no_mark : '?' ∉ pattern

theorem IsLiteral.tail {c : Char} {pattern : Text} (h : IsLiteral (c :: pattern)) :
    IsLiteral pattern where
  no_star hstar := h.no_star (List.mem_cons_of_mem c hstar)
  no_mark hmark := h.no_mark (List.mem_cons_of_mem c hmark)

theorem matches_iff_of_isLiteral {pattern text : Text} (h : IsLiteral pattern) :
    Matches pattern text ↔ pattern = text := by
  induction pattern generalizing text with
  | nil => rw [matches_nil_iff, eq_comm]
  | cons p pattern ih =>
    have hstar : p ≠ '*' := fun hstar => h.no_star (by simp [hstar])
    have hmark : p ≠ '?' := fun hmark => h.no_mark (by simp [hmark])
    rw [matches_cons_iff hstar]
    constructor
    · rintro ⟨c, rest, rfl, hc, hm⟩
      rw [hc.resolve_left hmark, (ih h.tail).mp hm]
    · rintro rfl
      exact ⟨p, pattern, rfl, .inr rfl, (ih h.tail).mpr rfl⟩

/-- Such a pattern names one text. -/
theorem accepts_iff_of_isLiteral {pattern text : Text} (h : IsLiteral pattern) :
    accepts pattern text = true ↔ pattern = text := by
  rw [accepts_iff_matches, matches_iff_of_isLiteral h]

/-- With a star before it, it names an end. -/
theorem accepts_star_iff_of_isLiteral {pattern text : Text} (h : IsLiteral pattern) :
    accepts ('*' :: pattern) text = true ↔ pattern <:+ text := by
  rw [accepts_iff_matches, matches_star_iff]
  constructor
  · rintro ⟨rest, hrest, hm⟩
    rwa [(matches_iff_of_isLiteral h).mp hm]
  · intro hsuffix
    exact ⟨pattern, hsuffix, (matches_iff_of_isLiteral h).mpr rfl⟩

end WrenDocs.Wildcard
