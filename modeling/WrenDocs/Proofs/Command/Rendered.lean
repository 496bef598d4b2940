import WrenDocs.Proofs.Coalescing
import WrenDocs.Proofs.Command.Highlight
import WrenDocs.Proofs.FileTree

/-! When a file is rendered, and what is said of it then. It is not rendered if it
cannot be read or if it has no language that is known; and what is said of it hangs
on its tokens and on the modes that they leave open, not on the output format. -/
namespace WrenDocs.RenderedFile

/-! ## The language of a file -/

/-- The language named for all files, or else the one that claims the name of the
file, or else that of the settings. -/
def languageFor? (arguments : HighlightArguments) (config : Config) (path : Text) : Option Language :=
  match arguments.language? with
  | some name => Registry.builtin.find? name
  | none =>
    (Registry.builtin.forPath? path).or (Registry.builtin.find? config.highlightLanguage.toList)

/-- The name of the language that is asked for last. -/
def languageAsked (arguments : HighlightArguments) (config : Config) : Text :=
  arguments.language?.getD config.highlightLanguage.toList

theorem highlighterFor_eq (arguments : HighlightArguments) (config : Config) (path : Text) :
    highlighterFor arguments config path =
      match languageFor? arguments config path with
      | some language => .ok ⟨some language⟩
      | none =>
        if config.highlightOptions.guessLang then .ok ⟨none⟩
        else .error ⟨languageAsked arguments config⟩ := by
  unfold highlighterFor languageFor? languageAsked
  cases arguments.language? with
  | some name => rfl
  | none =>
    dsimp only [Highlighter.forPath]
    cases Registry.builtin.forPath? path <;> rfl

/-! ## What is said of a file -/

/-- What silences the warnings about sources: their name, or the name above it. -/
theorem isSuppressed_failureName_iff (config : Config) :
    config.isSuppressed failureName = true ↔
      "misc" ∈ config.suppressWarnings ∨ "misc.highlighting_failure" ∈ config.suppressWarnings := by
  have hdot : ∀ count < failureName.length + 1, (failureName.take count).getLast? = some '.' →
      failureName.take count = "misc".toList ++ ['.'] := by
    decide
  have hunder (entry : String) : Config.isUnder entry.toList failureName = true ↔
      entry = "misc" ∨ entry = "misc.highlighting_failure" := by
    simp only [Config.isUnder, Bool.or_eq_true, beq_iff_eq, List.isPrefixOf_iff_prefix]
    constructor
    · rintro (heq | hunder)
      · exact .inr (String.toList_inj.mp heq.symm)
      · have hfront := hdot (entry.toList ++ ['.']).length (Nat.lt_succ_of_le hunder.length_le)
        rw [← List.prefix_iff_eq_take.mp hunder] at hfront
        exact .inl (String.toList_inj.mp (List.append_cancel_right (hfront (by simp))))
    · rintro (rfl | rfl)
      · exact .inr (by decide)
      · exact .inl rfl
  rw [Config.isSuppressed, List.any_eq_true]
  simp only [hunder, and_or_left, exists_or, exists_eq_right]

theorem unterminated?_highlight (source : Text) :
    (highlight source).unterminated? =
      let last := (Classifier.ofText source).afterRequests (classify source).length
      if 1 < last.depth then some last.mode else none := by
  dsimp only
  rw [Classifier.afterRequests_length_classify]
  rfl

theorem hasErrors_highlight (source : Text) :
    (highlight source).hasErrors = true ↔ ∃ span ∈ classify source, span.category = .error := by
  rw [← Highlighted.exists_category_coalesce, Highlighted.hasErrors, highlight_spans]
  simp

theorem warningsFor_plain (config : Config) (path source : Text) :
    warningsFor config path (Highlighted.plain source) = [] := by
  have hopen : (Highlighted.plain source).unterminated? = none := by cases source <;> rfl
  have herrors : (Highlighted.plain source).hasErrors = false := by cases source <;> rfl
  simp only [warningsFor, hopen, herrors]
  split <;> rfl

theorem openName_eq (mode : Mode) :
    openName mode = if mode = .root then "an unclosed `(`".toList else mode.name.toList := by
  cases mode <;> rfl

theorem warningsFor_highlight (config : Config) (path source : Text) :
    warningsFor config path (highlight source) =
      let last := (Classifier.ofText source).afterRequests (classify source).length
      if config.isSuppressed failureName then []
      else
        (if 1 < last.depth then
          [warning path ("input ends inside ".toList ++
            if last.mode = .root then "an unclosed `(`".toList else last.mode.name.toList)]
        else []) ++
        if ∃ span ∈ classify source, span.category = .error then
          [warning path "could not classify some characters".toList] else [] := by
  simp only [warningsFor, unterminated?_highlight, hasErrors_highlight, ← openName_eq]
  split
  · rfl
  · congr 1
    split <;> rfl

/-! ## Files -/

section

variable {files : FileSystem} {arguments : HighlightArguments} {config : Config} {path source : Text}

theorem highlighterFor_of_language {language : Language}
    (h : languageFor? arguments config path = some language) :
    highlighterFor arguments config path = .ok ⟨some language⟩ := by
  rw [highlighterFor_eq, h]

theorem highlighterFor_of_guess (h : languageFor? arguments config path = none)
    (hguess : config.highlightOptions.guessLang = true) :
    highlighterFor arguments config path = .ok ⟨none⟩ := by
  rw [highlighterFor_eq, h]
  exact if_pos hguess

theorem highlighterFor_of_none (h : languageFor? arguments config path = none)
    (hguess : config.highlightOptions.guessLang = false) :
    highlighterFor arguments config path = .error ⟨languageAsked arguments config⟩ := by
  rw [highlighterFor_eq, h]
  exact if_neg (by simp [hguess])

/-- The output format decides what is printed of a file, not what is said of it. -/
theorem exists_ofPath_eq {highlighter : Highlighter} (hsource : files.readText path = .ok source)
    (hhighlighter : highlighterFor arguments config path = .ok highlighter) (format : OutputFormat) :
    ∃ text, ofPath files { arguments with format } config path =
      .ok ⟨text, warningsFor config path (highlighter.highlight source)⟩ :=
  ⟨_, Command.ofPath_of_readText files { arguments with format } config hsource hhighlighter⟩

/-- A file that can be read is rendered if it has a language or is let pass without one. -/
theorem isOk_highlighterFor (h : ¬ (languageFor? arguments config path = none ∧
    config.highlightOptions.guessLang = false)) :
    ∃ highlighter, highlighterFor arguments config path = .ok highlighter := by
  cases hlanguage : languageFor? arguments config path with
  | some language => exact ⟨_, highlighterFor_of_language hlanguage⟩
  | none =>
    have hguess : config.highlightOptions.guessLang = true := by simpa [hlanguage] using h
    exact ⟨_, highlighterFor_of_guess hlanguage hguess⟩

end

/-- **Failures and warnings.** A file fails to be rendered if and only if it cannot be
read, which is said first, or has no language that is known and is not let pass as
plain text. A file that is rendered has the same warnings in all output formats: that
its source ends inside a mode, if more than one is open after all tokens, and that
some token could not be classified; and none if these warnings are silenced, by name
or with all above them, or if the file is plain text. -/
theorem render_fails_or_warns (files : FileSystem) (arguments : HighlightArguments)
    (config : Config) (path : Text) :
    let render (format : OutputFormat) := ofPath files { arguments with format } config path
    let language? := languageFor? arguments config path
    let guess := config.highlightOptions.guessLang
    (∀ format, (∃ cause, render format = .error cause) ↔
      (∃ cause, files.readText path = .error cause) ∨ language? = none ∧ guess = false) ∧
    (∀ cause, files.readText path = .error cause →
      ∀ format, render format = .error (.unreadable path cause)) ∧
    (config.isSuppressed failureName = true ↔
      "misc" ∈ config.suppressWarnings ∨ "misc.highlighting_failure" ∈ config.suppressWarnings) ∧
    ∀ source, files.readText path = .ok source →
      let last := (Classifier.ofText source).afterRequests (classify source).length
      (language? = none → guess = false →
        ∀ format, render format = .error (.unknownLanguage ⟨languageAsked arguments config⟩)) ∧
      (¬ (language? = none ∧ guess = false) → ∃ warnings,
        (∀ format, ∃ text, render format = .ok ⟨text, warnings⟩) ∧
        warnings =
          if config.isSuppressed failureName = true ∨ language? = none then []
          else
            (if 1 < last.depth then
              [warning path ("input ends inside ".toList ++
                if last.mode = .root then "an unclosed `(`".toList else last.mode.name.toList)]
            else []) ++
            if ∃ span ∈ classify source, span.category = .error then
              [warning path "could not classify some characters".toList]
            else []) := by
  intro render language? guess
  have hunreadable (cause : ReadError) (hsource : files.readText path = .error cause)
      (format : OutputFormat) : render format = .error (.unreadable path cause) :=
    Command.ofPath_of_unreadable files { arguments with format } config hsource
  have hunknown (source : Text) (hsource : files.readText path = .ok source)
      (hnone : language? = none) (hguess : guess = false) (format : OutputFormat) :
      render format = .error (.unknownLanguage ⟨languageAsked arguments config⟩) :=
    Command.ofPath_of_unknown files { arguments with format } config hsource
      (highlighterFor_of_none hnone hguess)
  refine ⟨fun format => ⟨?_, ?_⟩, hunreadable, isSuppressed_failureName_iff config,
    fun source hsource => ⟨hunknown source hsource, ?_⟩⟩
  · rintro ⟨cause, herror⟩
    cases hsource : files.readText path with
    | error cause => exact .inl ⟨cause, rfl⟩
    | ok source =>
      by_contra hneither
      obtain ⟨highlighter, hhighlighter⟩ := isOk_highlighterFor (not_or.mp hneither).2
      obtain ⟨text, htext⟩ := exists_ofPath_eq hsource hhighlighter format
      cases herror.symm.trans htext
  · rintro (⟨cause, hcause⟩ | ⟨hnone, hguess⟩)
    · exact ⟨_, hunreadable cause hcause format⟩
    · cases hsource : files.readText path with
      | error cause => exact ⟨_, hunreadable cause hsource format⟩
      | ok source => exact ⟨_, hunknown source hsource hnone hguess format⟩
  · intro hknown
    cases hlanguage : languageFor? arguments config path with
    | some language =>
      refine ⟨_, exists_ofPath_eq hsource (highlighterFor_of_language hlanguage), ?_⟩
      have hnone : language? ≠ none := by simp [language?, hlanguage]
      simp only [or_iff_left hnone]
      exact warningsFor_highlight config path source
    | none =>
      have hguess : guess = true := by simpa [language?, hlanguage] using hknown
      refine ⟨_, exists_ofPath_eq hsource (highlighterFor_of_guess hlanguage hguess), ?_⟩
      rw [if_pos (.inr hlanguage)]
      exact warningsFor_plain config path source

/-- A parenthesis that is left open, and a character with which no token begins. -/
theorem render_fails_or_warns_of_open_paren :
    let files : FileSystem := ⟨fun _ => .ok (.file "f(@".toUTF8)⟩
    let config := { Config.published with suppressWarnings := [] }
    let path := "page.wren".toList
    files.readText path = .ok "f(@".toList ∧
    ¬ (languageFor? .initial config path = none ∧ config.highlightOptions.guessLang = false) ∧
    ∀ format, ∃ text, ofPath files { HighlightArguments.initial with format } config path =
      .ok ⟨text,
        ["page.wren: input ends inside an unclosed `(` [misc.highlighting_failure]".toList,
          "page.wren: could not classify some characters [misc.highlighting_failure]".toList]⟩ := by
  intro files config path
  have hsource : files.readText path = .ok "f(@".toList := Entry.readText_toUTF8 "f(@"
  have hlanguage : languageFor? .initial config path = some .wren := by decide +kernel
  have hknown : ¬ (languageFor? .initial config path = none ∧
      config.highlightOptions.guessLang = false) := by simp [hlanguage]
  obtain ⟨warnings, hrender, hwarnings⟩ :=
    ((render_fails_or_warns files .initial config path).2.2.2 _ hsource).2 hknown
  refine ⟨hsource, hknown, fun format => ?_⟩
  obtain ⟨text, htext⟩ := hrender format
  refine ⟨text, htext.trans ?_⟩
  rw [hwarnings]
  congr 2
  decide +kernel

end WrenDocs.RenderedFile
