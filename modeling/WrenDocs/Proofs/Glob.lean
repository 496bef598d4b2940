import WrenDocs.Config
import WrenDocs.Proofs.Language
import WrenDocs.Proofs.Wildcard

/-! Globs beside patterns. The glob of a language and the pattern of a setting are the
same text read in two ways: to a language a star stands at the front only and for
something, to the settings it stands anywhere and for any part. -/
namespace WrenDocs

namespace Wildcard

/-- Every character of a pattern stands for itself, also a star and a question mark. -/
theorem matches_self (pattern : Text) : Matches pattern pattern := by
  induction pattern with
  | nil => exact matches_nil_iff.mpr rfl
  | cons p pattern ih =>
    by_cases hp : p = '*'
    · subst hp
      exact matches_star_iff.mpr ⟨pattern, List.suffix_cons '*' pattern, ih⟩
    · exact (matches_cons_iff hp).mpr ⟨p, pattern, rfl, .inr rfl, ih⟩

end Wildcard

namespace Language

/-- What is found by a glob is found by the same text as a pattern. -/
theorem accepts_of_globFor {glob name : Text} (h : GlobFor glob name) :
    Wildcard.accepts glob name = true := by
  rw [Wildcard.accepts_iff_matches]
  cases h with
  | @star stem suffix _ =>
    exact Wildcard.matches_star_iff.mpr
      ⟨suffix, List.suffix_append stem suffix, Wildcard.matches_self suffix⟩
  | exact _ => exact Wildcard.matches_self glob

theorem globFor_star_iff {suffix name : Text} :
    GlobFor ('*' :: suffix) name ↔ suffix <:+ name ∧ name ≠ suffix := by
  constructor
  · intro h
    cases h with
    | @star stem _ hstem =>
      refine ⟨List.suffix_append stem suffix, ?_⟩
      intro heq
      exact hstem (List.append_left_eq_self.mp heq)
    | exact hstar => exact absurd rfl hstar
  · rintro ⟨⟨stem, rfl⟩, hne⟩
    apply GlobFor.star
    rintro rfl
    exact hne rfl

theorem globFor_iff_of_isLiteral {glob name : Text} (h : Wildcard.IsLiteral glob) :
    GlobFor glob name ↔ glob = name := by
  constructor
  · intro hglob
    cases hglob with
    | star _ => exact absurd List.mem_cons_self h.no_star
    | exact _ => rfl
  · rintro rfl
    apply GlobFor.exact
    intro hhead
    exact h.no_star (List.mem_of_mem_head? hhead)

/-- With a star in front the two readings part over the bare end of a name. -/
theorem globAccepts_star_iff {suffix name : Text} (h : Wildcard.IsLiteral suffix) :
    globAccepts ('*' :: suffix) name = true ↔
      Wildcard.accepts ('*' :: suffix) name = true ∧ name ≠ suffix := by
  rw [globAccepts_iff, globFor_star_iff, Wildcard.accepts_star_iff_of_isLiteral h]

theorem globAccepts_iff_of_isLiteral {glob name : Text} (h : Wildcard.IsLiteral glob) :
    globAccepts glob name = true ↔ Wildcard.accepts glob name = true := by
  rw [globAccepts_iff, globFor_iff_of_isLiteral h, Wildcard.accepts_iff_of_isLiteral h]

end Language

theorem Config.isExcluded_of_accepts {config : Config} {path name : Text} {pattern : String}
    (hpattern : pattern ∈ config.excludePatterns) (hname : Path.fileName? path = some name)
    (h : Wildcard.accepts pattern.toList name = true) : config.isExcluded path = true := by
  apply List.any_eq_true.mpr
  refine ⟨pattern, hpattern, ?_⟩
  rw [hname, Option.any_some, h, Bool.true_or]

namespace Language

/-- **The two readings of a glob agree.** With a text in it that has neither a star nor a
question mark, a glob is for the same file names as a language reads it and as the settings
read it, but for one: the text itself, if a star stands before it. And whatever the glob,
a file that a language claims by it is left out where the settings have it. -/
theorem globs_read_alike {suffix : Text} (h : Wildcard.IsLiteral suffix) (name : Text) :
    (globAccepts ('*' :: suffix) name = true ↔
      Wildcard.accepts ('*' :: suffix) name = true ∧ name ≠ suffix) ∧
    (globAccepts suffix name = true ↔ Wildcard.accepts suffix name = true) ∧
    (globAccepts ('*' :: suffix) name ≠ Wildcard.accepts ('*' :: suffix) name ↔ name = suffix) ∧
    ∀ (config : Config) (glob : String) (path : Text), glob ∈ config.excludePatterns →
      Path.fileName? path = some name → globAccepts glob.toList name = true →
      config.isExcluded path = true := by
  refine ⟨globAccepts_star_iff h, globAccepts_iff_of_isLiteral h, ?_, ?_⟩
  · constructor
    · intro hdiffer
      by_contra hname
      apply hdiffer
      rw [Bool.eq_iff_iff, globAccepts_star_iff h, and_iff_left hname]
    · rintro rfl
      have haccepts := (Wildcard.accepts_star_iff_of_isLiteral h).mpr (List.suffix_refl name)
      intro hsame
      exact ((globAccepts_star_iff h).mp (hsame.trans haccepts)).2 rfl
  · intro config glob path hglob hname hclaims
    apply Config.isExcluded_of_accepts hglob hname
    exact accepts_of_globFor (globAccepts_iff.mp hclaims)

/-- A suffix that overlaps itself in the name, the suffix as a name, and a glob of a
language under the patterns of the settings. -/
theorem globs_read_alike_of_overlap :
    let config := { Config.published with excludePatterns := ["*.wren"] }
    Wildcard.IsLiteral ['a', 'a'] ∧
    Wildcard.accepts ['*', 'a', 'a'] ['a', 'a', 'a'] = true ∧
    globAccepts ['*', 'a', 'a'] ['a', 'a'] ≠ Wildcard.accepts ['*', 'a', 'a'] ['a', 'a'] ∧
    "*.wren" ∈ config.excludePatterns ∧
    Path.fileName? "src/é.wren".toList = some "é.wren".toList ∧
    globAccepts "*.wren".toList "é.wren".toList = true ∧
    config.isExcluded "src/é.wren".toList = true := by
  intro config
  have hliteral : Wildcard.IsLiteral ['a', 'a'] := ⟨by decide, by decide⟩
  have hpattern : "*.wren" ∈ config.excludePatterns := List.mem_singleton.mpr rfl
  have hname : Path.fileName? "src/é.wren".toList = some "é.wren".toList := by decide
  have hclaims : globAccepts "*.wren".toList "é.wren".toList = true := by decide
  refine ⟨hliteral, ?_, ?_, hpattern, hname, hclaims, ?_⟩
  · exact ((globs_read_alike hliteral ['a', 'a', 'a']).1.mp (by decide)).1
  · exact (globs_read_alike hliteral ['a', 'a']).2.2.1.mpr rfl
  · exact (globs_read_alike hliteral "é.wren".toList).2.2.2 config _ _ hpattern hname hclaims

end Language

end WrenDocs
