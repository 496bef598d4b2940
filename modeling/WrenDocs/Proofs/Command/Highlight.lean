import WrenDocs.Command.Run
import WrenDocs.Proofs.Command.Arguments

/-! What a highlight run leaves behind. Each file is rendered for itself and adds to
one report, and the run ends with the report of all files; so a run over more paths
is the runs over its parts put together, and a file that fails takes nothing from
the others. -/
namespace WrenDocs.Command

/-- What there is to tell about files: what they print, what is said about them, and
how many of how many failed. -/
structure Report where
  printed : Text
  said : Text
  failed : Nat
  total : Nat
  deriving DecidableEq, Repr, Inhabited

namespace Report

instance : Append Report where
  append report other :=
    { printed := report.printed ++ other.printed
      said := report.said ++ other.said
      failed := report.failed + other.failed
      total := report.total + other.total }

@[simp] theorem printed_append (report other : Report) :
    (report ++ other).printed = report.printed ++ other.printed := rfl

@[simp] theorem said_append (report other : Report) :
    (report ++ other).said = report.said ++ other.said := rfl

@[simp] theorem failed_append (report other : Report) :
    (report ++ other).failed = report.failed + other.failed := rfl

@[simp] theorem total_append (report other : Report) :
    (report ++ other).total = report.total + other.total := rfl

/-- The report of results, in their order. -/
def ofResults (results : List (Except RenderError RenderedFile)) : Report :=
  { printed := results.flatMap fileOutput
    said := results.flatMap fileMessages
    failed := results.countP isFailure
    total := results.length }

theorem ofResults_append (results others : List (Except RenderError RenderedFile)) :
    ofResults (results ++ others) = ofResults results ++ ofResults others := by
  change Report.mk _ _ _ _ = Report.mk _ _ _ _
  rw [List.flatMap_append, List.flatMap_append, List.countP_append, List.length_append]
  rfl

/-- The report of files. Which other paths the arguments name does not matter to it. -/
def ofFiles (files : FileSystem) (arguments : HighlightArguments) (config : Config)
    (collected : List Text) : Report :=
  ofResults (collected.map (RenderedFile.ofPath files arguments config))

/-- The last line of a run, if any file failed. -/
def closing (report : Report) : Text :=
  if report.failed = 0 then [] else errorLines (.failed report.failed report.total)

/-- What a run leaves behind when it ends with a report. -/
def outcome (report : Report) : Outcome :=
  { stdout := report.printed
    stderr := report.said ++ report.closing
    exitCode := if report.failed = 0 then 0 else 1 }

theorem outcome_eq_ite (report : Report) :
    report.outcome =
      if report.failed = 0 then ⟨report.printed, report.said, 0⟩
      else failing report.printed report.said (.failed report.failed report.total) := by
  unfold outcome closing failing
  by_cases hnone : report.failed = 0
  · rw [if_pos hnone, if_pos hnone, if_pos hnone, List.append_nil]
  · rw [if_neg hnone, if_neg hnone, if_neg hnone]

theorem exitCode_outcome (report : Report) :
    report.outcome.exitCode = 0 ↔ report.failed = 0 := by
  unfold outcome
  by_cases hnone : report.failed = 0
  · simp [hnone]
  · simp [hnone]

end Report

section

variable (files : FileSystem) (arguments : HighlightArguments) (config : Config)

theorem ofFiles_append (collected others : List Text) :
    Report.ofFiles files arguments config (collected ++ others) =
      Report.ofFiles files arguments config collected ++
        Report.ofFiles files arguments config others := by
  unfold Report.ofFiles
  rw [List.map_append, Report.ofResults_append]

theorem highlightAll_eq_outcome :
    highlightAll files arguments config =
      (Report.ofFiles files arguments config
        (Collect.collect files config arguments.paths)).outcome := by
  rw [Report.outcome_eq_ite]
  rfl

/-- What one file adds: its whole output if it can be read and a highlighter is found
for it. -/
theorem ofPath_of_readText {path source : Text} {highlighter : Highlighter}
    (hsource : files.readText path = .ok source)
    (hhighlighter : RenderedFile.highlighterFor arguments config path = .ok highlighter) :
    RenderedFile.ofPath files arguments config path =
      .ok (RenderedFile.ofSource arguments config path source highlighter) := by
  rw [RenderedFile.ofPath, hsource, hhighlighter]
  rfl

/-- That a file cannot be read is said whether or not its language is known. -/
theorem ofPath_of_unreadable {path : Text} {cause : ReadError}
    (hsource : files.readText path = .error cause) :
    RenderedFile.ofPath files arguments config path = .error (.unreadable path cause) := by
  rw [RenderedFile.ofPath, hsource]
  rfl

theorem ofPath_of_unknown {path source : Text} {cause : UnknownLanguage}
    (hsource : files.readText path = .ok source)
    (hunknown : RenderedFile.highlighterFor arguments config path = .error cause) :
    RenderedFile.ofPath files arguments config path = .error (.unknownLanguage cause) := by
  rw [RenderedFile.ofPath, hsource, hunknown]
  rfl

end

/-! ## In which order files are rendered -/

section

variable {α β : Type} (render : α → β) (items : List α)

/-- One item is rendered, into the place that is kept for it. The program itself maps
over the files in their order; this is a step of rendering them in parallel, where each
result is kept at the index of its item. -/
def fill (places : List (Option β)) (i : Nat) : List (Option β) :=
  places.set i (items[i]?.map render)

theorem getElem?_fill (places : List (Option β)) (i j : Nat) :
    (fill render items places i)[j]? =
      if i = j then places[j]?.map fun _ => items[j]?.map render else places[j]? := by
  unfold fill
  by_cases hij : i = j
  · rw [if_pos hij, hij, List.getElem?_set_self']
    rfl
  · rw [if_neg hij, List.getElem?_set_ne hij]

/-- After any number of steps the places of the items that had their turn are filled,
in whatever order they had it. -/
theorem getElem?_foldl_fill (order : List Nat) (places : List (Option β)) (j : Nat) :
    (order.foldl (fill render items) places)[j]? =
      if j ∈ order then places[j]?.map fun _ => items[j]?.map render else places[j]? := by
  induction order generalizing places with
  | nil => simp
  | cons i order ih =>
    rw [List.foldl_cons, ih, getElem?_fill]
    by_cases hj : j ∈ order
    · by_cases hij : i = j
      · simp [hj, hij, Function.comp_def]
      · simp [hj, hij]
    · by_cases hij : i = j
      · simp [hj, hij]
      · simp [hj, hij, Ne.symm hij]

/-- What the items give that are rendered in such an order, taken from the places in
the order of the items: the parallel run, whose workers may have the items in any order. -/
def renderInOrder (order : List Nat) : List β :=
  (order.foldl (fill render items) (List.replicate items.length none)).filterMap id

/-- Once every item had its turn, it does not matter when. -/
theorem renderInOrder_eq_map {order : List Nat} (h : ∀ i, i < items.length → i ∈ order) :
    renderInOrder render items order = items.map render := by
  have hplaces : order.foldl (fill render items) (List.replicate items.length none) =
      (items.map render).map some := by
    apply List.ext_getElem?
    intro j
    rw [getElem?_foldl_fill]
    by_cases hj : j < items.length
    · simp [h j hj, hj]
    · simp [hj]
  rw [renderInOrder, hplaces, List.filterMap_map]
  exact List.filterMap_some

end

/-! ## Runs of the program -/

/-- Arguments that can be taken in ask for no help, so the files are highlighted. -/
theorem run_of_parse (files : FileSystem) {arguments : List Text} {parsed : HighlightArguments}
    (h : HighlightArguments.parse arguments = .ok parsed) :
    run files ("highlight".toList :: arguments) = highlight files arguments := by
  cases arguments with
  | nil => cases h
  | cons first arguments =>
    have hfirst : first ≠ "--help".toList ∧ first ≠ "-h".toList := by
      rw [HighlightArguments.parse, List.foldlM_cons] at h
      cases hadd : HighlightArguments.initial.add first with
      | error cause =>
        rw [hadd] at h
        cases h
      | ok middle => exact HighlightArguments.add_help hadd
    exact if_neg (not_or.mpr hfirst)

/-- Options that are taken in and whose settings can be loaded. -/
structure OptionsLoad (files : FileSystem) (options : List Text) (parsed : HighlightArguments)
    (config : Config) : Prop where
  dashed : ∀ option ∈ options, option.head? = some '-'
  accepted : options.foldlM HighlightArguments.add .initial = .ok parsed
  loaded : settingsFor files parsed.config? = .ok config

/-- Arguments that name paths, at least one and no option among them. -/
structure NamePaths (paths : List Text) : Prop where
  ne_nil : paths ≠ []
  undashed : ∀ path ∈ paths, path.head? ≠ some '-'

theorem NamePaths.append {paths others : List Text} (h : NamePaths paths)
    (hothers : NamePaths others) : NamePaths (paths ++ others) where
  ne_nil := List.append_ne_nil_of_left_ne_nil h.ne_nil others
  undashed := List.forall_mem_append.mpr ⟨h.undashed, hothers.undashed⟩

variable {files : FileSystem} {options : List Text} {parsed : HighlightArguments}
  {config : Config}

/-- A run leaves behind the report of the files that are collected. -/
theorem run_eq_outcome (h : OptionsLoad files options parsed config) {paths : List Text}
    (hpaths : NamePaths paths) :
    run files ("highlight".toList :: (options ++ paths)) =
      (Report.ofFiles files parsed config (Collect.collect files config paths)).outcome := by
  have hparse := HighlightArguments.parse_append h.dashed h.accepted hpaths.ne_nil hpaths.undashed
  rw [run_of_parse files hparse, highlight, hparse]
  dsimp only
  rw [h.loaded]
  exact highlightAll_eq_outcome files _ config

theorem report_append (paths others : List Text) :
    Report.ofFiles files parsed config (Collect.collect files config (paths ++ others)) =
      Report.ofFiles files parsed config (Collect.collect files config paths) ++
        Report.ofFiles files parsed config (Collect.collect files config others) := by
  rw [Collect.collect, List.flatMap_append, ofFiles_append]
  rfl

/-- A file that can be read prints its whole output between that of the files before
it and that of the files after it. -/
theorem printed_of_readText {front back : List Text} {path source : Text}
    {highlighter : Highlighter} (hsource : files.readText path = .ok source)
    (hhighlighter : RenderedFile.highlighterFor parsed config path = .ok highlighter) :
    (Report.ofFiles files parsed config (front ++ path :: back)).printed =
      (Report.ofFiles files parsed config front).printed ++
        (RenderedFile.ofSource parsed config path source highlighter).text ++
        (Report.ofFiles files parsed config back).printed := by
  have hfile : (Report.ofFiles files parsed config [path]).printed =
      (RenderedFile.ofSource parsed config path source highlighter).text := by
    change List.flatMap fileOutput [RenderedFile.ofPath files parsed config path] = _
    rw [ofPath_of_readText files parsed config hsource hhighlighter]
    exact List.flatMap_singleton ..
  rw [List.append_cons, ofFiles_append, ofFiles_append, Report.printed_append,
    Report.printed_append, hfile]

/-- **A highlight run is its parts put together.** What it prints and what it says
about the files is that of the one part and then that of the other, it succeeds if
both do, and the counts with which it fails are the sums. Every file that can be read
is printed in its place, whatever becomes of the others and in whatever order the
files are rendered. -/
theorem highlight_concatenates (h : OptionsLoad files options parsed config) :
    let highlight paths := run files ("highlight".toList :: (options ++ paths))
    let report paths := Report.ofFiles files parsed config (Collect.collect files config paths)
    (∀ paths others, NamePaths paths → NamePaths others →
      (highlight (paths ++ others)).stdout =
        (highlight paths).stdout ++ (highlight others).stdout ∧
      (report (paths ++ others)).said = (report paths).said ++ (report others).said ∧
      (report (paths ++ others)).failed = (report paths).failed + (report others).failed ∧
      (report (paths ++ others)).total = (report paths).total + (report others).total ∧
      ((highlight (paths ++ others)).exitCode = 0 ↔
        (highlight paths).exitCode = 0 ∧ (highlight others).exitCode = 0)) ∧
    ∀ paths, NamePaths paths →
      highlight paths = (report paths).outcome ∧
      (∀ front path back source highlighter,
        Collect.collect files config paths = front ++ path :: back →
        files.readText path = .ok source →
        RenderedFile.highlighterFor parsed config path = .ok highlighter →
        (highlight paths).stdout =
          (Report.ofFiles files parsed config front).printed ++
            (RenderedFile.ofSource parsed config path source highlighter).text ++
            (Report.ofFiles files parsed config back).printed) ∧
      ∀ order : List Nat, (∀ i, i < (Collect.collect files config paths).length → i ∈ order) →
        highlight paths = (Report.ofResults (renderInOrder
          (RenderedFile.ofPath files parsed config) (Collect.collect files config paths)
          order)).outcome := by
  intro highlight report
  have hrun (paths : List Text) (hpaths : NamePaths paths) :
      highlight paths = (report paths).outcome := run_eq_outcome h hpaths
  constructor
  · intro paths others hpaths hothers
    have hreport : report (paths ++ others) = report paths ++ report others :=
      report_append paths others
    rw [hrun _ (hpaths.append hothers), hrun paths hpaths, hrun others hothers, hreport]
    refine ⟨rfl, Report.said_append .., Report.failed_append .., Report.total_append .., ?_⟩
    rw [Report.exitCode_outcome, Report.exitCode_outcome, Report.exitCode_outcome,
      Report.failed_append]
    exact Nat.add_eq_zero_iff
  · intro paths hpaths
    refine ⟨hrun paths hpaths, ?_, ?_⟩
    · intro front path back source highlighter hcollected hsource hhighlighter
      rw [hrun paths hpaths]
      change (Report.ofFiles files parsed config (Collect.collect files config paths)).printed = _
      rw [hcollected]
      exact printed_of_readText hsource hhighlighter
    · intro order horder
      rw [hrun paths hpaths, renderInOrder_eq_map _ _ horder]
      rfl

/-- One file that is there and one that is missing, as a listing. -/
theorem highlight_concatenates_of_missing :
    let files := FileSystem.ofTree (.directory [("page.wren", .file "x".toUTF8)])
    let options := ["--format=spans".toList]
    let parsed := { HighlightArguments.initial with format := .spans }
    let highlight paths := run files ("highlight".toList :: (options ++ paths))
    OptionsLoad files options parsed Config.published ∧
      NamePaths ["page.wren".toList] ∧ NamePaths ["missing.wren".toList] ∧
      (highlight ["page.wren".toList, "missing.wren".toList]).stdout =
        (highlight ["page.wren".toList]).stdout ++ (highlight ["missing.wren".toList]).stdout ∧
      ((highlight ["page.wren".toList, "missing.wren".toList]).exitCode = 0 ↔
        (highlight ["page.wren".toList]).exitCode = 0 ∧
          (highlight ["missing.wren".toList]).exitCode = 0) := by
  intro files options parsed highlight
  have hnone : files.isFile (Path.join ['.'] Config.fileName) = false := by decide +kernel
  have hloaded : settingsFor files parsed.config? = .ok Config.published := by
    change Config.loadOrPublished files ['.'] = _
    rw [Config.loadOrPublished, hnone]
    rfl
  have hoptions : OptionsLoad files options parsed Config.published :=
    ⟨by decide, rfl, hloaded⟩
  have hpage : NamePaths ["page.wren".toList] := ⟨by decide, by decide⟩
  have hmissing : NamePaths ["missing.wren".toList] := ⟨by decide, by decide⟩
  obtain ⟨hstdout, -, -, -, hexit⟩ := (highlight_concatenates hoptions).1 _ _ hpage hmissing
  exact ⟨hoptions, hpage, hmissing, hstdout, hexit⟩

end WrenDocs.Command
