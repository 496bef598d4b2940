import WrenDocs.Proofs.Command.Options

/-! Arguments as a whole. Options and paths can be parted and mean what they did; what is
taken in is what the last option of each kind chooses, with all paths, and an error is
that of the first option that is refused. -/
namespace WrenDocs.HighlightArguments

/-! ## Whatever the order -/

def optionsIn (arguments : List Text) : List Text :=
  arguments.filter fun argument => decide (IsOption argument)

def pathsIn (arguments : List Text) : List Text :=
  arguments.filter fun argument => decide (¬ IsOption argument)

/-- A path may be taken in before an option or after it. -/
theorem add_comm (parsed : HighlightArguments) {path option : Text} (hpath : ¬ IsOption path)
    (hoption : IsOption option) :
    (parsed.add path >>= fun parsed => parsed.add option) =
      (parsed.add option >>= fun parsed => parsed.add path) := by
  rw [add_path parsed hpath]
  obtain ⟨choice, rfl⟩ | hnot | hoffending := written_or_path_or_offending option
  · rw [add_written]
    change HighlightArguments.add _ _ = HighlightArguments.add _ _
    rw [add_written, add_path _ hpath]
    cases choice <;> rfl
  · exact absurd hoption hnot
  · obtain ⟨cause, hnames, hadd⟩ := add_offending parsed hoffending
    rw [hadd]
    exact add_eq_error_iff.mpr ⟨hoffending, hnames⟩

theorem foldlM_comm (parsed : HighlightArguments) {path : Text} {options : List Text}
    (hpath : ¬ IsOption path) (hoptions : ∀ option ∈ options, IsOption option) :
    (path :: options).foldlM add parsed = (options ++ [path]).foldlM add parsed := by
  induction options generalizing parsed with
  | nil => rfl
  | cons option options ih =>
    obtain ⟨hoption, hrest⟩ := List.forall_mem_cons.mp hoptions
    calc (path :: option :: options).foldlM add parsed
        = (parsed.add path >>= fun parsed => parsed.add option) >>= options.foldlM add := by
          simp only [List.foldlM_cons, bind_assoc]
      _ = parsed.add option >>= (path :: options).foldlM add := by
          rw [add_comm parsed hpath hoption, bind_assoc]
          rfl
      _ = parsed.add option >>= (options ++ [path]).foldlM add := by
          congr 1
          funext parsed
          exact ih parsed hrest
      _ = (option :: options ++ [path]).foldlM add parsed := rfl

/-- Arguments mean the same with the options put first. -/
theorem foldlM_parted (parsed : HighlightArguments) (arguments : List Text) :
    arguments.foldlM add parsed = (optionsIn arguments ++ pathsIn arguments).foldlM add parsed := by
  induction arguments generalizing parsed with
  | nil => rfl
  | cons argument arguments ih =>
    have hrest : (argument :: arguments).foldlM add parsed =
        (argument :: optionsIn arguments ++ pathsIn arguments).foldlM add parsed := by
      rw [List.cons_append, List.foldlM_cons, List.foldlM_cons]
      congr 1
      funext parsed
      exact ih parsed
    by_cases hoption : IsOption argument
    · have hoptions : optionsIn (argument :: arguments) = argument :: optionsIn arguments :=
        List.filter_cons_of_pos (by simpa using hoption)
      have hpaths : pathsIn (argument :: arguments) = pathsIn arguments :=
        List.filter_cons_of_neg (by simpa using hoption)
      rw [hrest, hoptions, hpaths]
    · have hoptions : optionsIn (argument :: arguments) = optionsIn arguments :=
        List.filter_cons_of_neg (by simpa using hoption)
      have hpaths : pathsIn (argument :: arguments) = argument :: pathsIn arguments :=
        List.filter_cons_of_pos (by simpa using hoption)
      have hall : ∀ option ∈ optionsIn arguments, IsOption option := by
        intro option hmem
        exact of_decide_eq_true (List.mem_filter.mp hmem).2
      rw [hrest, hoptions, hpaths, List.append_cons, List.foldlM_append,
        foldlM_comm parsed hoption hall, ← List.foldlM_append]

theorem parse_parted (arguments : List Text) :
    parse arguments = parse (optionsIn arguments ++ pathsIn arguments) := by
  rw [parse, foldlM_parted]
  rfl

/-! ## What is chosen -/

/-- The value that the last option of a kind chooses, or nothing if there is none. -/
def LastGiven {α : Type} (kind : α → Choice) (arguments : List Text) : Option α → Prop
  | some value => ∃ earlier later, arguments = earlier ++ (kind value).written :: later ∧
      ∀ other, (kind other).written ∉ later
  | none => ∀ other, (kind other).written ∉ arguments

/-- The last option of each kind counts, and all paths do. -/
structure Resolves (arguments : List Text) (parsed : HighlightArguments) : Prop where
  format : ∃ given, LastGiven .format arguments given ∧ parsed.format = given.getD .html
  config : LastGiven .config arguments parsed.config?
  language : LastGiven .language arguments parsed.language?
  paths : parsed.paths = pathsIn arguments

section

variable {α : Type} {kind : α → Choice} {arguments : List Text}

theorem lastGiven_concat (value : α) :
    LastGiven kind (arguments ++ [(kind value).written]) (some value) :=
  ⟨arguments, [], rfl, fun _ => List.not_mem_nil⟩

/-- An argument of another kind changes nothing. -/
theorem LastGiven.concat {given : Option α} (h : LastGiven kind arguments given) {argument : Text}
    (hother : ∀ value, (kind value).written ≠ argument) :
    LastGiven kind (arguments ++ [argument]) given := by
  cases given with
  | none =>
    intro value hmem
    rw [List.mem_append, List.mem_singleton] at hmem
    exact hmem.elim (h value) (hother value)
  | some value =>
    obtain ⟨earlier, later, rfl, hlater⟩ := h
    refine ⟨earlier, later ++ [argument], by simp, ?_⟩
    intro value hmem
    rw [List.mem_append, List.mem_singleton] at hmem
    exact hmem.elim (hlater value) (hother value)

end

theorem pathsIn_concat (arguments : List Text) (argument : Text) :
    pathsIn (arguments ++ [argument]) =
      pathsIn arguments ++ if IsOption argument then [] else [argument] := by
  rw [pathsIn, List.filter_append]
  congr 1
  by_cases hoption : IsOption argument
  · simp [hoption]
  · simp [hoption]

theorem Resolves.concat_option {arguments : List Text} {parsed : HighlightArguments}
    (h : Resolves arguments parsed) (choice : Choice) :
    Resolves (arguments ++ [choice.written]) (choice.apply parsed) := by
  have hpaths : parsed.paths = pathsIn (arguments ++ [choice.written]) := by
    rw [pathsIn_concat, if_pos (isOption_written choice), List.append_nil, h.paths]
  obtain ⟨given, hgiven, hformat⟩ := h.format
  have hkeeps {α : Type} {kind : α → Choice} {given : Option α}
      (hgiven : LastGiven kind arguments given) (hother : ∀ value, kind value ≠ choice) :
      LastGiven kind (arguments ++ [choice.written]) given :=
    hgiven.concat fun value heq => hother value (written_inj heq)
  cases choice with
  | format chosen =>
    exact ⟨⟨some chosen, lastGiven_concat chosen, rfl⟩, hkeeps h.config (by simp),
      hkeeps h.language (by simp), hpaths⟩
  | config path =>
    exact ⟨⟨given, hkeeps hgiven (by simp), hformat⟩, lastGiven_concat path,
      hkeeps h.language (by simp), hpaths⟩
  | language name =>
    exact ⟨⟨given, hkeeps hgiven (by simp), hformat⟩, hkeeps h.config (by simp),
      lastGiven_concat name, hpaths⟩

theorem Resolves.concat_path {arguments : List Text} {parsed : HighlightArguments}
    (h : Resolves arguments parsed) {path : Text} (hpath : ¬ IsOption path) :
    Resolves (arguments ++ [path]) { parsed with paths := parsed.paths ++ [path] } := by
  have hother (choice : Choice) : choice.written ≠ path := by
    rintro rfl
    exact hpath (isOption_written choice)
  obtain ⟨given, hgiven, hformat⟩ := h.format
  refine ⟨⟨given, hgiven.concat fun _ => hother _, hformat⟩, h.config.concat fun _ => hother _,
    h.language.concat fun _ => hother _, ?_⟩
  rw [pathsIn_concat, if_neg hpath, h.paths]

/-- One more argument: what is taken in stays what the arguments say. -/
theorem Resolves.step {arguments : List Text} {parsed parsed' : HighlightArguments}
    {argument : Text} (h : Resolves arguments parsed) (hadd : parsed.add argument = .ok parsed') :
    Resolves (arguments ++ [argument]) parsed' := by
  obtain ⟨choice, rfl⟩ | hpath | hoffending := written_or_path_or_offending argument
  · rw [add_written] at hadd
    cases hadd
    exact h.concat_option choice
  · rw [add_path parsed hpath] at hadd
    cases hadd
    exact h.concat_path hpath
  · obtain ⟨cause, -, herror⟩ := add_offending parsed hoffending
    cases hadd.symm.trans herror

theorem resolves_initial : Resolves [] initial :=
  ⟨⟨none, fun _ => List.not_mem_nil, rfl⟩, fun _ => List.not_mem_nil, fun _ => List.not_mem_nil, rfl⟩

theorem Resolves.run {seen arguments : List Text} {parsed parsed' : HighlightArguments}
    (h : Resolves seen parsed) (hadd : arguments.foldlM add parsed = .ok parsed') :
    Resolves (seen ++ arguments) parsed' := by
  induction arguments generalizing seen parsed with
  | nil =>
    cases hadd
    rwa [List.append_nil]
  | cons argument arguments ih =>
    rw [List.foldlM_cons] at hadd
    cases hfirst : parsed.add argument with
    | error cause =>
      rw [hfirst] at hadd
      cases hadd
    | ok middle =>
      rw [hfirst] at hadd
      rw [List.append_cons]
      exact ih (h.step hfirst) hadd

/-! ## What is refused -/

/-- The first offending option of all, and the error that names it. -/
def FirstOffence (arguments : List Text) (cause : UsageError) : Prop :=
  ∃ earlier argument later, arguments = earlier ++ argument :: later ∧
    (IsOffending argument ∧ Names cause argument) ∧ ∀ other ∈ earlier, ¬ IsOffending other

theorem findSome?_offence_iff {arguments : List Text} {cause : UsageError} :
    arguments.findSome? offence? = some cause ↔ FirstOffence arguments cause := by
  rw [List.findSome?_eq_some_iff]
  simp only [offence?_eq_some_iff, offence?_eq_none_iff, FirstOffence]

theorem foldlM_eq_error_iff {parsed : HighlightArguments} {arguments : List Text}
    {cause : UsageError} : arguments.foldlM add parsed = .error cause ↔
      arguments.findSome? offence? = some cause := by
  induction arguments generalizing parsed with
  | nil =>
    constructor
    · intro h
      cases h
    · intro h
      cases h
  | cons argument arguments ih =>
    rw [List.foldlM_cons, List.findSome?_cons]
    cases hadd : parsed.add argument with
    | error other =>
      rw [offence?_eq_some_iff.mpr (add_eq_error_iff.mp hadd), Option.some.injEq]
      exact ⟨Except.error.inj, congrArg Except.error⟩
    | ok middle =>
      have hnone : offence? argument = none := by
        rw [offence?_eq_none_iff]
        intro hoffending
        obtain ⟨cause, -, herror⟩ := add_offending parsed hoffending
        cases hadd.symm.trans herror
      rw [hnone]
      exact ih

theorem isOk_foldlM_iff {parsed : HighlightArguments} {arguments : List Text} :
    (∃ parsed', arguments.foldlM add parsed = .ok parsed') ↔
      ∀ argument ∈ arguments, ¬ IsOffending argument := by
  simp only [← offence?_eq_none_iff, ← List.findSome?_eq_none_iff]
  cases h : arguments.foldlM add parsed with
  | error cause =>
    rw [foldlM_eq_error_iff.mp h]
    simp
  | ok parsed' =>
    have hnone : arguments.findSome? offence? = none := by
      rw [Option.eq_none_iff_forall_ne_some]
      intro cause hcause
      cases (foldlM_eq_error_iff.mpr hcause).symm.trans h
    simp [hnone]

theorem parse_of_error {arguments : List Text} {cause : UsageError}
    (h : arguments.foldlM add initial = .error cause) : parse arguments = .error cause := by
  rw [parse, h]
  rfl

theorem parse_of_ok {arguments : List Text} {parsed : HighlightArguments}
    (h : arguments.foldlM add initial = .ok parsed) :
    parse arguments = if parsed.paths = [] then .error .noPaths else .ok parsed := by
  rw [parse, h]
  change (if parsed.paths.isEmpty = true then _ else _) = _
  simp only [List.isEmpty_iff]
  rfl

theorem resolves_of_parse {arguments : List Text} {parsed : HighlightArguments}
    (h : parse arguments = .ok parsed) : Resolves arguments parsed := by
  cases hall : arguments.foldlM add initial with
  | error cause => cases (parse_of_error hall).symm.trans h
  | ok found =>
    rw [parse_of_ok hall] at h
    split at h
    · cases h
    · cases h
      exact resolves_initial.run hall

theorem paths_eq_nil_iff {arguments : List Text} {parsed : HighlightArguments}
    (h : arguments.foldlM add initial = .ok parsed) :
    parsed.paths = [] ↔ ∀ argument ∈ arguments, IsOption argument := by
  have hpaths : parsed.paths = pathsIn arguments := (resolves_initial.run h).paths
  rw [hpaths]
  simp [pathsIn]

theorem isOk_parse_iff {arguments : List Text} :
    (∃ parsed, parse arguments = .ok parsed) ↔
      (∀ argument ∈ arguments, ¬ IsOffending argument) ∧
        ∃ argument ∈ arguments, ¬ IsOption argument := by
  rw [← @isOk_foldlM_iff initial]
  cases hall : arguments.foldlM add initial with
  | error cause =>
    rw [parse_of_error hall]
    simp
  | ok parsed =>
    rw [parse_of_ok hall]
    by_cases hnil : parsed.paths = []
    · rw [if_pos hnil]
      constructor
      · rintro ⟨found, h⟩
        cases h
      · rintro ⟨-, argument, hmem, hpath⟩
        exact absurd ((paths_eq_nil_iff hall).mp hnil argument hmem) hpath
    · rw [if_neg hnil]
      constructor
      · intro _
        rw [paths_eq_nil_iff hall] at hnil
        exact ⟨⟨parsed, rfl⟩, by simpa using hnil⟩
      · intro _
        exact ⟨parsed, rfl⟩

theorem parse_eq_error_iff {arguments : List Text} {cause : UsageError} :
    parse arguments = .error cause ↔ FirstOffence arguments cause ∨
      (∀ argument ∈ arguments, IsOption argument ∧ ¬ IsOffending argument) ∧
        cause = .noPaths := by
  rw [← findSome?_offence_iff, ← @foldlM_eq_error_iff initial]
  cases hall : arguments.foldlM add initial with
  | error other =>
    have hsome : ¬ ∀ argument ∈ arguments, IsOption argument ∧ ¬ IsOffending argument := by
      intro hnone
      obtain ⟨parsed, hparsed⟩ :=
        (@isOk_foldlM_iff initial arguments).mpr fun argument hmem => (hnone argument hmem).2
      cases hall.symm.trans hparsed
    rw [parse_of_error hall]
    simp only [hsome, false_and, or_false]
  | ok parsed =>
    have hnone : ∀ argument ∈ arguments, ¬ IsOffending argument :=
      isOk_foldlM_iff.mp ⟨parsed, hall⟩
    have hnil : parsed.paths = [] ↔
        ∀ argument ∈ arguments, IsOption argument ∧ ¬ IsOffending argument := by
      rw [paths_eq_nil_iff hall]
      constructor
      · intro h argument hmem
        exact ⟨h argument hmem, hnone argument hmem⟩
      · intro h argument hmem
        exact (h argument hmem).1
    rw [parse_of_ok hall, ← hnil]
    split
    · rename_i h
      simp [h, eq_comm]
    · rename_i h
      simp [h]

/-- **Options and paths in any order.** Arguments are accepted if and only if every
option among them chooses something and there is a path. Then the last option of each
kind counts, and the paths are all the arguments that are no options, in their order.
Otherwise the error names the first offending option, and only without one it is that
there is no path. So arguments with the same options and the same paths, however these
are put among each other, are read alike. -/
theorem parse_options_and_paths (arguments : List Text) :
    ((∃ parsed, parse arguments = .ok parsed) ↔
      (∀ argument ∈ arguments, IsOption argument →
        ∃ choice : Choice, argument = choice.written) ∧
      ∃ argument ∈ arguments, ¬ IsOption argument) ∧
    (∀ parsed, parse arguments = .ok parsed → Resolves arguments parsed) ∧
    (∀ cause, parse arguments = .error cause ↔ FirstOffence arguments cause ∨
      (∀ argument ∈ arguments, IsOption argument ∧ ¬ IsOffending argument) ∧
        cause = .noPaths) ∧
    (∀ name, (UsageError.unknownFormat name).message =
      "unknown format '".toList ++ name ++ "' (expected html, json or spans)".toList) ∧
    (∀ argument, (UsageError.unknownOption argument).message =
      "unknown option: ".toList ++ argument) ∧
    UsageError.noPaths.message = "no input paths given".toList ∧
    ∀ others, optionsIn others = optionsIn arguments → pathsIn others = pathsIn arguments →
      parse others = parse arguments := by
  have hchoices : (∀ argument ∈ arguments, ¬ IsOffending argument) ↔
      ∀ argument ∈ arguments, IsOption argument →
        ∃ choice : Choice, argument = choice.written := by
    simp [IsOffending]
  refine ⟨?_, fun parsed => resolves_of_parse, fun cause => parse_eq_error_iff,
    fun _ => rfl, fun _ => rfl, rfl, ?_⟩
  · rw [isOk_parse_iff, hchoices]
  · intro others hoptions hpaths
    rw [parse_parted, hoptions, hpaths, ← parse_parted]

/-- Two options of one kind among paths, of which one is empty and one stands twice. -/
theorem parse_options_and_paths_of_mixed :
    let arguments := ["a".toList, "--format=json".toList, [], "--format=spans".toList, "a".toList]
    let others := ["--format=json".toList, "a".toList, "--format=spans".toList, [], "a".toList]
    let parsed : HighlightArguments := ⟨.spans, none, none, ["a".toList, [], "a".toList]⟩
    parse arguments = .ok parsed ∧ Resolves arguments parsed ∧
    optionsIn others = optionsIn arguments ∧ pathsIn others = pathsIn arguments ∧
    parse others = .ok parsed := by
  intro arguments others parsed
  have hparse : parse arguments = .ok parsed := rfl
  have hoptions : optionsIn others = optionsIn arguments := by decide
  have hpaths : pathsIn others = pathsIn arguments := by decide
  obtain ⟨-, hresolves, -, -, -, -, hparted⟩ := parse_options_and_paths arguments
  have hothers : parse others = .ok parsed := (hparted others hoptions hpaths).trans hparse
  exact ⟨hparse, hresolves parsed hparse, hoptions, hpaths, hothers⟩

end WrenDocs.HighlightArguments
