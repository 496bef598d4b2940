import WrenDocs.Proofs.Coalescing
import WrenDocs.Proofs.Command.Highlight
import WrenDocs.Proofs.FileTree
import WrenDocs.Proofs.Json

/-! Files as JSON. Each file is one line, and the line tells its path, its language,
its spans and what it leaves open; so the files of a run are told apart again. -/
namespace WrenDocs

/-! ## What highlighting covers -/

namespace Highlighter

theorem tiles_highlight (highlighter : Highlighter) (source : Text) :
    Tiles 0 (highlighter.highlight source).spans (Text.byteCount source) := by
  rw [highlight]
  split
  · exact Highlighted.tiles_coalesce (Classifier.tiles_classify source)
  · cases source with
    | nil => rfl
    | cons c source => exact ⟨rfl, Text.byteCount_pos (List.cons_ne_nil c source), rfl⟩

theorem boundaries_of_mem_highlight {highlighter : Highlighter} {source : Text} {span : Span}
    (h : span ∈ (highlighter.highlight source).spans) :
    source.IsBoundary span.start ∧ source.IsBoundary span.stop := by
  rw [highlight] at h
  split at h
  · exact Classifier.boundaries_of_mem_highlight h
  · cases source with
    | nil => cases h
    | cons c source =>
      obtain rfl := List.mem_singleton.mp h
      exact ⟨⟨[], c :: source, rfl, rfl⟩, ⟨c :: source, [], (List.append_nil _).symm, rfl⟩⟩

end Highlighter

/-! ## Reading objects -/

namespace Json

/-- What a key of an object stands for. -/
def member? (key : String) : Json → Option Json
  | object members => members.lookup key
  | _ => none

def text? : Json → Option Text
  | string value => some value
  | _ => none

def number? : Json → Option Nat
  | number value => some value
  | _ => none

def items? : Json → Option (List Json)
  | array items => some items
  | _ => none

/-- A value that is read as nothing if it is null. -/
def orNull {α : Type} (read : Json → Option α) : Json → Option (Option α)
  | null => some none
  | json => (read json).map some

theorem orNull_elim {α β : Type} {read : Json → Option β} {write : α → Text} {value : α → β}
    (h : ∀ item, read (string (write item)) = some (value item)) (item? : Option α) :
    orNull read (item?.elim null fun item => string (write item)) = some (item?.map value) := by
  cases item? with
  | none => rfl
  | some item => exact congrArg (Option.map some) (h item)

end Json

/-- What the object of a file tells. -/
structure Document where
  path : Text
  /-- The name of the language; plain text has none. -/
  language? : Option Text
  spans : List Span
  /-- The innermost mode that the source leaves open. -/
  unterminated? : Option Mode
  deriving DecidableEq, Repr

namespace Document

def spanOf? (json : Json) : Option Span := do
  let start ← (← json.member? "start").number?
  let stop ← (← json.member? "end").number?
  let name ← (← json.member? "category").text?
  let category ← Category.ofDottedName? (String.ofList name)
  return ⟨start, stop, category⟩

def modeOf? (json : Json) : Option Mode := do
  Mode.ofName? (String.ofList (← json.text?))

def ofJson? (json : Json) : Option Document := do
  let path ← (← json.member? "path").text?
  let language? ← (← json.member? "language").orNull Json.text?
  let spans ← (← (← json.member? "spans").items?).mapM spanOf?
  let unterminated? ← (← json.member? "unterminated").orNull modeOf?
  return { path, language?, spans, unterminated? }

/-- The document that a line is, if it is one. -/
def ofText? (line : Text) : Option Document :=
  (Json.ofText? line).bind ofJson?

/-- What is to be told of a source. -/
def of (path source : Text) (highlighter : Highlighter) : Document :=
  { path
    language? := highlighter.language?.map (·.name.toList)
    spans := (highlighter.highlight source).spans
    unterminated? := (highlighter.highlight source).unterminated? }

/-- What is to be told of the file at a path, if it can be read and a highlighter is
found for it. -/
def ofPath? (files : FileSystem) (arguments : HighlightArguments) (config : Config) (path : Text) :
    Option Document :=
  match files.readText path, RenderedFile.highlighterFor arguments config path with
  | .ok source, .ok highlighter => some (.of path source highlighter)
  | _, _ => none

theorem spanOf?_spanToJson (span : Span) : spanOf? (RenderedFile.spanToJson span) = some span := by
  have hstart : (RenderedFile.spanToJson span).member? "start" = some (.number span.start) := rfl
  have hstop : (RenderedFile.spanToJson span).member? "end" = some (.number span.stop) := rfl
  have hcategory : (RenderedFile.spanToJson span).member? "category" =
    some (.string span.category.dottedName.toList) := rfl
  simp only [spanOf?, hstart, hstop, hcategory, Json.number?, Json.text?, Option.bind_eq_bind,
    Option.bind_some, String.ofList_toList, Category.ofDottedName?_dottedName, pure]

theorem modeOf?_name (mode : Mode) : modeOf? (.string mode.name.toList) = some mode := by
  simp only [modeOf?, Json.text?, Option.bind_eq_bind, Option.bind_some, String.ofList_toList,
    Mode.ofName?_name]

theorem ofJson?_toJson (path source : Text) (highlighter : Highlighter) :
    ofJson? (RenderedFile.toJson path highlighter.language? (highlighter.highlight source)) =
      some (.of path source highlighter) := by
  let highlighted := highlighter.highlight source
  let json := RenderedFile.toJson path highlighter.language? highlighted
  have hpath : json.member? "path" = some (.string path) := rfl
  have hlanguage : json.member? "language" =
    some (highlighter.language?.elim .null fun language => .string language.name.toList) := rfl
  have hspans : json.member? "spans" =
    some (.array (highlighted.spans.map RenderedFile.spanToJson)) := rfl
  have hmode : json.member? "unterminated" =
    some (highlighted.unterminated?.elim .null fun mode => .string mode.name.toList) := rfl
  have hname := Json.orNull_elim (fun language : Language =>
    show Json.text? (.string language.name.toList) = some language.name.toList from rfl)
    highlighter.language?
  have hopen := Json.orNull_elim modeOf?_name highlighted.unterminated?
  have hread := Reading.mapM_map fun span (_ : span ∈ highlighted.spans) => spanOf?_spanToJson span
  rw [Option.map_id'] at hopen
  rw [List.map_id'] at hread
  change ofJson? json = some ⟨path, highlighter.language?.map (·.name.toList), highlighted.spans,
    highlighted.unterminated?⟩
  simp only [ofJson?, hpath, hlanguage, hspans, hmode, hname, hopen, hread, Json.text?, Json.items?,
    Option.bind_eq_bind, Option.bind_some, pure]

/-- The line of a file, without its newline. -/
def line (path source : Text) (highlighter : Highlighter) : Text :=
  (RenderedFile.toJson path highlighter.language? (highlighter.highlight source)).compact

theorem newline_not_mem_line (path source : Text) (highlighter : Highlighter) :
    '\n' ∉ line path source highlighter :=
  Json.newline_not_mem_compact _

theorem ofText?_line (path source : Text) (highlighter : Highlighter) :
    ofText? (line path source highlighter) = some (.of path source highlighter) := by
  rw [ofText?, line, Json.ofText?_compact, Option.bind_some, ofJson?_toJson]

section

variable (files : FileSystem) (arguments : HighlightArguments) (config : Config)

/-- What a file prints is the line of its document, or nothing if it has none. -/
theorem fileOutput_cases (path : Text) :
    (∃ text document, Command.fileOutput
        (RenderedFile.ofPath files { arguments with format := .json } config path) = text ++ ['\n'] ∧
      '\n' ∉ text ∧ ofText? text = some document ∧
      ofPath? files arguments config path = some document) ∨
    (Command.fileOutput
        (RenderedFile.ofPath files { arguments with format := .json } config path) = [] ∧
      ofPath? files arguments config path = none) := by
  cases hsource : files.readText path with
  | error cause =>
    right
    rw [Command.ofPath_of_unreadable _ _ _ hsource, ofPath?, hsource]
    exact ⟨rfl, rfl⟩
  | ok source =>
    cases hhighlighter : RenderedFile.highlighterFor arguments config path with
    | error cause =>
      right
      rw [Command.ofPath_of_unknown _ { arguments with format := .json } _ hsource hhighlighter,
        ofPath?, hsource, hhighlighter]
      exact ⟨rfl, rfl⟩
    | ok highlighter =>
      left
      rw [Command.ofPath_of_readText _ { arguments with format := .json } _ hsource hhighlighter,
        ofPath?, hsource, hhighlighter]
      exact ⟨line path source highlighter, .of path source highlighter, rfl,
        newline_not_mem_line path source highlighter, ofText?_line path source highlighter, rfl⟩

/-- What files print is the lines of their documents, in their order. -/
theorem exists_lines (paths : List Text) : ∃ lines : List Text,
    paths.flatMap (fun path => Command.fileOutput
      (RenderedFile.ofPath files { arguments with format := .json } config path)) =
      lines.flatMap (· ++ ['\n']) ∧
    (∀ text ∈ lines, '\n' ∉ text) ∧
    lines.mapM ofText? = some (paths.filterMap (ofPath? files arguments config)) := by
  induction paths with
  | nil => exact ⟨[], rfl, by simp, rfl⟩
  | cons path paths ih =>
    obtain ⟨lines, hprinted, hlines, hread⟩ := ih
    rw [List.flatMap_cons, hprinted]
    rcases fileOutput_cases files arguments config path with
      ⟨text, document, heq, htext, hdocument, hpath⟩ | ⟨heq, hpath⟩
    · refine ⟨text :: lines, by rw [heq, List.flatMap_cons],
        List.forall_mem_cons.mpr ⟨htext, hlines⟩, ?_⟩
      rw [List.mapM_cons, hdocument, hread, List.filterMap_cons_some hpath]
      rfl
    · refine ⟨lines, by rw [heq, List.nil_append], hlines, ?_⟩
      rw [hread, List.filterMap_cons_none hpath]

end

end Document

/-- **JSON lines read back.** A file that can be read and highlighted is printed as
one line, with no newline but the one at its end, whatever its path and its source
hold. The line is read as an object that tells the path, the name of the language if
it has one, the highlighted spans in order, which cover the source, and the innermost
mode left open if there is one. What files print one after the other is cut at its
newlines into the documents of the files that can be rendered, in their order. -/
theorem json_lines_read_back (files : FileSystem) (arguments : HighlightArguments)
    (config : Config) :
    let render := RenderedFile.ofPath files { arguments with format := .json } config
    (∀ path source highlighter, files.readText path = .ok source →
      RenderedFile.highlighterFor arguments config path = .ok highlighter →
      ∃ rendered line, render path = .ok rendered ∧ rendered.text = line ++ ['\n'] ∧ '\n' ∉ line ∧
        Document.ofText? line = some
          { path
            language? := highlighter.language?.map (·.name.toList)
            spans := (highlighter.highlight source).spans
            unterminated? := (highlighter.highlight source).unterminated? } ∧
        Tiles 0 (highlighter.highlight source).spans (Text.byteCount source) ∧
        ∀ span ∈ (highlighter.highlight source).spans,
          source.IsBoundary span.start ∧ source.IsBoundary span.stop) ∧
    ∀ paths : List Text, ∃ lines : List Text,
      Text.splitOn '\n' (paths.flatMap fun path => Command.fileOutput (render path)) =
        lines ++ [[]] ∧
      lines.mapM Document.ofText? = some (paths.filterMap (Document.ofPath? files arguments config)) := by
  intro render
  constructor
  · intro path source highlighter hsource hhighlighter
    refine ⟨_, Document.line path source highlighter,
      Command.ofPath_of_readText _ { arguments with format := .json } _ hsource hhighlighter, rfl,
      Document.newline_not_mem_line path source highlighter,
      Document.ofText?_line path source highlighter, highlighter.tiles_highlight source,
      fun span => Highlighter.boundaries_of_mem_highlight⟩
  · intro paths
    obtain ⟨lines, hprinted, hlines, hread⟩ := Document.exists_lines files arguments config paths
    exact ⟨lines, by rw [hprinted, Text.splitOn_lines hlines], hread⟩

/-- A path on two lines, and a string that is left open after its first line. -/
theorem json_lines_read_back_of_open_string :
    let files : FileSystem := ⟨fun _ => .ok (.file "'\n".toUTF8)⟩
    let arguments := { HighlightArguments.initial with language? := some "wren".toList }
    let path := "a\n\"b".toList
    files.readText path = .ok ['\'', '\n'] ∧
    RenderedFile.highlighterFor arguments .published path = .ok ⟨some .wren⟩ ∧
    ∃ rendered line,
      RenderedFile.ofPath files { arguments with format := .json } .published path = .ok rendered ∧
      rendered.text = line ++ ['\n'] ∧ '\n' ∉ line ∧
      Document.ofText? line = some
        ⟨path, some "Wren".toList, [⟨0, 2, .stringSingle⟩], some .stringSingle⟩ := by
  intro files arguments path
  have hsource : files.readText path = .ok ['\'', '\n'] := Entry.readText_toUTF8 "'\n"
  have hhighlighter : RenderedFile.highlighterFor arguments .published path = .ok ⟨some .wren⟩ := rfl
  obtain ⟨rendered, line, hrendered, htext, hline, hdocument, -⟩ :=
    (json_lines_read_back files arguments .published).1 path _ _ hsource hhighlighter
  have hhighlighted : highlight ['\'', '\n'] = ⟨[⟨0, 2, .stringSingle⟩], some .stringSingle⟩ := by
    decide +kernel
  rw [Highlighter.highlight] at hdocument
  dsimp only at hdocument
  rw [hhighlighted] at hdocument
  exact ⟨hsource, hhighlighter, rendered, line, hrendered, htext, hline, hdocument⟩

end WrenDocs
