import WrenDocs.Proofs.FileName
import WrenDocs.Proofs.Language
import WrenDocs.Proofs.Lookup
import Mathlib.Data.List.Induction

/-! Registered languages, whatever was registered in which order. By name the latest
language is found that has the name, by path the earliest that claims the file. -/
namespace WrenDocs.Registry

/-! ## One registration -/

theorem lookup_keys (keys : List Text) (language : Language) (key : Text) :
    (keys.map (·, language)).lookup key = if key ∈ keys then some language else none := by
  induction keys with
  | nil => rfl
  | cons first keys ih =>
    rw [List.map_cons, List.lookup_cons, ih]
    by_cases h : key = first
    · rw [beq_iff_eq.mpr h, if_pos (List.mem_cons.mpr (.inl h))]
    · rw [beq_false_of_ne h]
      simp only [List.mem_cons, h, false_or]

/-- A language that is registered takes over the names it has, and no others. -/
theorem find?_register (registry : Registry) (language : Language) (query : Text) :
    (registry.register language).find? query =
      if language.Answers query then some language else registry.find? query := by
  simp only [find?, register, List.lookup_append, lookup_keys, Language.mem_keys_iff]
  split
  · rfl
  · rfl

/-! ## All registrations -/

theorem ofList_concat (history : List Language) (language : Language) :
    ofList (history ++ [language]) = (ofList history).register language :=
  List.foldl_concat ..

theorem languages_ofList (history : List Language) : (ofList history).languages = history := by
  induction history using List.reverseRecOn with
  | nil => rfl
  | append_singleton history language ih =>
    rw [ofList_concat, register, ih]

theorem find?_ofList (history : List Language) (query : Text) : (ofList history).find? query =
    history.reverse.find? fun language => decide (language.Answers query) := by
  induction history using List.reverseRecOn with
  | nil => rfl
  | append_singleton history language ih =>
    rw [ofList_concat, find?_register, ih, List.reverse_concat, List.find?_cons]
    by_cases h : language.Answers query
    · rw [if_pos h, decide_eq_true h]
    · rw [if_neg h, decide_eq_false h]

theorem forPath?_eq_some_iff {registry : Registry} {path : Text} {language : Language} :
    registry.forPath? path = some language ↔
      ∃ name earlier later, Path.HasFileName path name ∧
        registry.languages = earlier ++ language :: later ∧ language.Claims name ∧
        ∀ other ∈ earlier, ¬ other.Claims name := by
  simp only [forPath?, Option.bind_eq_some_iff, Path.fileName?_eq_some_iff,
    List.find?_eq_some_iff_append, Language.claims_iff, Bool.not_eq_true', ← Bool.not_eq_true]
  constructor
  · rintro ⟨name, hname, hclaims, earlier, later, hlanguages, hearlier⟩
    exact ⟨name, earlier, later, hname, hlanguages, hclaims, hearlier⟩
  · rintro ⟨name, earlier, later, hname, hlanguages, hclaims, hearlier⟩
    exact ⟨name, hname, hclaims, earlier, later, hlanguages, hearlier⟩

/-- The only language there is claims the names that end in its suffix. -/
theorem forPath?_builtin_isSome_iff {path name : Text} (h : Path.fileName? path = some name) :
    (builtin.forPath? path).isSome = true ↔
      ∃ stem, stem ≠ [] ∧ name = stem ++ Language.wrenSuffix := by
  rw [← Language.wren_claims_iff, ← Language.claims_iff, forPath?, h, Option.bind_some, builtin,
    languages_ofList, List.find?_isSome]
  simp only [List.mem_singleton, exists_eq_left]

/-- **Look-ups after any registrations.** By name the language is found that was
registered last of those that have the name, in any case and with any white space
around it; by path the one that was registered first of those that claim the file
name. So one more registration changes what is found by its own names only, and
nothing that a path already leads to. -/
theorem lookups_follow_registrations (history : List Language) (query path : Text) :
    let registry := ofList history
    registry.languages = history ∧
    (∀ language, registry.find? query = some language ↔
      ∃ earlier later, history = earlier ++ language :: later ∧ language.Answers query ∧
        ∀ other ∈ later, ¬ other.Answers query) ∧
    (registry.find? query = none ↔ ∀ language ∈ history, ¬ language.Answers query) ∧
    (∀ language, registry.forPath? path = some language ↔
      ∃ name earlier later, Path.HasFileName path name ∧
        history = earlier ++ language :: later ∧ language.Claims name ∧
        ∀ other ∈ earlier, ¬ other.Claims name) ∧
    (∀ added, (ofList (history ++ [added])).find? query =
      if added.Answers query then some added else registry.find? query) ∧
    (∀ added found, registry.forPath? path = some found →
      (ofList (history ++ [added])).forPath? path = some found) ∧
    ∀ other, Text.SameQuery query other → registry.find? query = registry.find? other := by
  intro registry
  refine ⟨languages_ofList history, ?_, ?_, ?_, ?_, ?_, ?_⟩
  · intro language
    rw [find?_ofList, find?_reverse_eq_some_iff]
    simp only [decide_eq_true_eq, decide_eq_false_iff_not]
  · rw [find?_ofList, List.find?_eq_none]
    simp only [List.mem_reverse, decide_eq_true_eq]
  · intro language
    rw [forPath?_eq_some_iff, languages_ofList]
  · intro added
    rw [ofList_concat, find?_register]
  · intro added found hfound
    rw [forPath?_eq_some_iff, languages_ofList] at hfound ⊢
    obtain ⟨name, earlier, later, hname, hhistory, hclaims, hearlier⟩ := hfound
    refine ⟨name, earlier, later ++ [added], hname, ?_, hclaims, hearlier⟩
    rw [hhistory, List.append_assoc, List.cons_append]
  · intro other hother
    rw [find?_ofList, find?_ofList]
    congr 1
    funext language
    rw [decide_eq_decide]
    exact Language.answers_iff_of_sameQuery hother

/-- A second language with the same files, and two spellings of a name of the first. -/
theorem lookups_follow_registrations_of_two :
    let added : Language := ⟨"Other", ["WREN"], ["*.wren"], ""⟩
    let path := "app/index.wren".toList
    (ofList [.wren]).forPath? path = some .wren ∧
    Text.SameQuery " Bialet".toList "bIALET\u00a0".toList ∧
    (ofList [.wren, added]).forPath? path = some .wren ∧
    (ofList [.wren, added]).find? " Bialet".toList =
      (ofList [.wren, added]).find? "bIALET\u00a0".toList := by
  intro added path
  have hfound : (ofList [.wren]).forPath? path = some .wren := by decide
  have hsame : Text.SameQuery " Bialet".toList "bIALET\u00a0".toList :=
    ⟨"Bialet".toList, "bIALET".toList,
      ⟨[' '], [], rfl, List.forall_mem_singleton.mpr rfl, List.forall_mem_nil _⟩,
      ⟨[], ['\u00a0'], rfl, List.forall_mem_nil _, List.forall_mem_singleton.mpr rfl⟩,
      by decide⟩
  obtain ⟨-, -, -, -, -, hpath, -⟩ := lookups_follow_registrations [.wren] [] path
  obtain ⟨-, -, -, -, -, -, hquery⟩ :=
    lookups_follow_registrations [.wren, added] " Bialet".toList path
  exact ⟨hfound, hsame, hpath added .wren hfound, hquery _ hsame⟩

end WrenDocs.Registry
