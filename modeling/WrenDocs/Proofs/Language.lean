import WrenDocs.Proofs.Query

/-! What a language is found by: globs for the names of its files, and names of its own,
each of them in every spelling. -/
namespace WrenDocs.Language

/-- A glob is for the names that have something in place of its star, or for itself. -/
inductive GlobFor : Text → Text → Prop
  | star {stem suffix : Text} : stem ≠ [] → GlobFor ('*' :: suffix) (stem ++ suffix)
  | exact {name : Text} : name.head? ≠ some '*' → GlobFor name name

theorem globAccepts_iff {glob name : Text} : globAccepts glob name = true ↔ GlobFor glob name := by
  unfold globAccepts
  split
  · rename_i suffix
    rw [Bool.and_eq_true, decide_eq_true_eq, List.isSuffixOf_iff_suffix]
    constructor
    · rintro ⟨hlength, stem, rfl⟩
      apply GlobFor.star
      rintro rfl
      exact Nat.lt_irrefl _ hlength
    · intro h
      cases h with
      | star hstem =>
        have hpos := List.length_pos_iff.mpr hstem
        refine ⟨?_, List.suffix_append ..⟩
        rw [List.length_append]
        omega
      | exact hstar => exact absurd rfl hstar
  · rename_i hstar
    rw [beq_iff_eq]
    constructor
    · rintro rfl
      apply GlobFor.exact
      intro hhead
      obtain ⟨suffix, hsuffix⟩ := List.head?_eq_some_iff.mp hhead
      exact hstar suffix hsuffix
    · intro h
      cases h with
      | star _ => exact absurd rfl (hstar _)
      | exact _ => rfl

/-- Whether one of the globs of a language is for a file name. -/
def Claims (language : Language) (name : Text) : Prop :=
  ∃ glob ∈ language.filenames, GlobFor glob.toList name

theorem claims_iff {language : Language} {name : Text} :
    language.claims name = true ↔ language.Claims name := by
  simp only [claims, List.any_eq_true, globAccepts_iff, Claims]

/-- The end of the name of a source. -/
def wrenSuffix : Text := ".wren".toList

theorem wren_claims_iff {name : Text} :
    wren.Claims name ↔ ∃ stem, stem ≠ [] ∧ name = stem ++ wrenSuffix := by
  have hglob : "*.wren".toList = '*' :: wrenSuffix := rfl
  simp only [Claims, wren, List.mem_singleton, exists_eq_left, hglob]
  constructor
  · intro h
    cases h with
    | star hstem => exact ⟨_, hstem, rfl⟩
    | exact hstar => exact absurd rfl hstar
  · rintro ⟨stem, hstem, rfl⟩
    exact .star hstem

/-- Whether a language has what is asked for among its names. -/
def Answers (language : Language) (query : Text) : Prop :=
  ∃ key ∈ language.name :: language.aliases, ∃ core, Text.Surrounds query core ∧
    Text.IsTrimmed core ∧ List.Forall₂ Text.SameLetter key.toList core

theorem mem_keys_iff {language : Language} {query : Text} :
    foldCase (Text.trim query) ∈ language.keys ↔ language.Answers query := by
  rw [keys, List.mem_map]
  apply exists_congr
  intro key
  apply and_congr_right
  intro _
  rw [Text.foldCase_eq_iff]
  simp only [← and_assoc, ← Text.trim_eq_iff, exists_eq_left']

instance (language : Language) (query : Text) : Decidable (language.Answers query) :=
  decidable_of_iff _ mem_keys_iff

theorem answers_iff_of_sameQuery {language : Language} {query other : Text}
    (h : Text.SameQuery query other) : language.Answers query ↔ language.Answers other := by
  rw [← mem_keys_iff, ← mem_keys_iff, Text.foldCase_trim_of_sameQuery h]

end WrenDocs.Language
