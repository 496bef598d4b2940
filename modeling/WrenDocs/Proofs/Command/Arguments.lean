import WrenDocs.Command.Arguments

/-! How arguments are taken in. What begins with a dash is an option and adds no
path; anything else is a path, and it adds nothing but itself. -/
namespace WrenDocs.HighlightArguments

theorem after?_eq_some_iff {lead text rest : Text} :
    after? lead text = some rest ↔ text = lead ++ rest := by
  unfold after?
  constructor
  · intro h
    split at h
    · rename_i hlead
      obtain ⟨back, rfl⟩ := List.isPrefixOf_iff_prefix.mp hlead
      rw [List.drop_left, Option.some.injEq] at h
      rw [h]
    · cases h
  · rintro rfl
    rw [if_pos (List.isPrefixOf_iff_prefix.mpr (List.prefix_append lead rest)), List.drop_left]

theorem after?_of_head? {lead text : Text} (hlead : lead.head? = some '-')
    (h : text.head? ≠ some '-') : after? lead text = none := by
  rw [Option.eq_none_iff_forall_not_mem]
  intro rest hrest
  rw [after?_eq_some_iff.mp hrest, List.head?_append, hlead] at h
  exact h rfl

theorem add_path (parsed : HighlightArguments) {path : Text} (h : path.head? ≠ some '-') :
    parsed.add path = .ok { parsed with paths := parsed.paths ++ [path] } := by
  have hformat : after? "--format=".toList path = none := after?_of_head? (by decide) h
  have hconfig : after? "--config=".toList path = none := after?_of_head? (by decide) h
  have hlang : after? "--lang=".toList path = none := after?_of_head? (by decide) h
  simp only [add, hformat, hconfig, hlang, if_neg h]

theorem paths_of_add_option {parsed parsed' : HighlightArguments} {option : Text}
    (h : option.head? = some '-') (hadd : parsed.add option = .ok parsed') :
    parsed'.paths = parsed.paths := by
  unfold add at hadd
  split at hadd
  · split at hadd
    · cases hadd
      rfl
    · cases hadd
  · split at hadd
    · cases hadd
      rfl
    · split at hadd
      · cases hadd
        rfl
      · rw [if_pos h] at hadd
        cases hadd

/-- What asks for help is no option of the command. -/
theorem add_help {parsed parsed' : HighlightArguments} {argument : Text}
    (h : parsed.add argument = .ok parsed') :
    argument ≠ "--help".toList ∧ argument ≠ "-h".toList := by
  constructor
  · rintro rfl
    cases h
  · rintro rfl
    cases h

/-! ## Lists of arguments -/

theorem addAll_paths (parsed : HighlightArguments) {paths : List Text}
    (h : ∀ path ∈ paths, path.head? ≠ some '-') :
    paths.foldlM add parsed = .ok { parsed with paths := parsed.paths ++ paths } := by
  induction paths generalizing parsed with
  | nil => simp [pure, Except.pure]
  | cons path paths ih =>
    obtain ⟨hpath, hpaths⟩ := List.forall_mem_cons.mp h
    rw [List.foldlM_cons, add_path parsed hpath]
    change paths.foldlM add { parsed with paths := parsed.paths ++ [path] } = _
    rw [ih _ hpaths, List.append_assoc, List.singleton_append]

theorem paths_of_addAll_options {parsed parsed' : HighlightArguments} {options : List Text}
    (h : ∀ option ∈ options, option.head? = some '-')
    (hadd : options.foldlM add parsed = .ok parsed') : parsed'.paths = parsed.paths := by
  induction options generalizing parsed with
  | nil =>
    cases hadd
    rfl
  | cons option options ih =>
    obtain ⟨hoption, hoptions⟩ := List.forall_mem_cons.mp h
    rw [List.foldlM_cons] at hadd
    cases hfirst : parsed.add option with
    | error cause =>
      rw [hfirst] at hadd
      cases hadd
    | ok middle =>
      rw [hfirst] at hadd
      rw [ih hoptions hadd, paths_of_add_option hoption hfirst]

/-- Options first and then paths: the paths come to the options as they are. -/
theorem parse_append {options paths : List Text} {parsed : HighlightArguments}
    (hoptions : ∀ option ∈ options, option.head? = some '-')
    (hparsed : options.foldlM add initial = .ok parsed) (hne : paths ≠ [])
    (hpaths : ∀ path ∈ paths, path.head? ≠ some '-') :
    parse (options ++ paths) = .ok { parsed with paths } := by
  have hnone : parsed.paths = [] := paths_of_addAll_options hoptions hparsed
  have hall : (options ++ paths).foldlM add initial = .ok { parsed with paths } := by
    rw [List.foldlM_append, hparsed]
    change paths.foldlM add parsed = _
    rw [addAll_paths parsed hpaths, hnone, List.nil_append]
  rw [parse, hall]
  change (if paths.isEmpty = true then _ else _) = _
  rw [if_neg (by simpa using hne)]
  rfl

end WrenDocs.HighlightArguments
