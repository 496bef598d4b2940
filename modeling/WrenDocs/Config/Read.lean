import WrenDocs.Config
import WrenDocs.Toml.Document

/-! Settings from a TOML document. Keys that nobody knows are passed over, types
are strict, and a key that is left out takes the value its own table starts
from. -/
namespace WrenDocs.Config

open Toml (Value Table)

/-! ## Records -/

/-- Whether a value can stand for a record: a table by its keys, an array by the
order of its items. A date has no field that any record knows, so it stands for
a record with every field left out. -/
def isRecord : Value → Bool
  | .table _ | .array _ | .dateTime _ => true
  | _ => false

/-- The field of a record, by key or by place. -/
def field? (place : Nat) (key : String) : Value → Option Value
  | .table entries => entries.lookup key
  | .array items => items[place]?
  | _ => none

variable {α : Type}

/-- What a field holds, or where it starts from if it is left out. -/
def readField (record : Value) (place : Nat) (key : String) (read : Value → Option α)
    (start : α) : Option α :=
  match field? place key record with
  | none => some start
  | some value => read value

/-! ## Values -/

def readString : Value → Option String
  | .string value => some value
  | _ => none

def readFlag : Value → Option Bool
  | .boolean value => some value
  | _ => none

def readStrings : Value → Option (List String)
  | .array items => items.mapM readString
  | _ => none

/-- Whether a value is an array or a table with nothing in it. -/
def isEmpty : Value → Bool
  | .array items => items.isEmpty
  | .table entries => entries.isEmpty
  | _ => false

/-- A source format, by its name. A table with that name as its only key, set to
something empty, is the name written out. -/
def readFormat : Value → Option SourceFormat
  | .string name => SourceFormat.ofName? name
  | .table [(name, value)] => if isEmpty value then SourceFormat.ofName? name else none
  | _ => none

/-- Source formats by suffix. Any key may be a suffix, so nothing but a table
will do. -/
def readSuffixes : Value → Option SuffixTable
  | .table entries =>
    (entries.mapM fun entry => (readFormat entry.2).map (entry.1, ·)).map SuffixTable.ofList
  | _ => none

/-! ## Tables -/

def readHighlight (record : Value) : Option HighlightSettings := do
  guard (isRecord record)
  return { guessLang := ← readField record 0 "guess_lang" readFlag noGuess.guessLang }

def readLogo (record : Value) : Option Logo := do
  guard (isRecord record)
  return {
    text := ← readField record 0 "text" readString noLogo.text
    imageLight := ← readField record 1 "image_light" readString noLogo.imageLight
    imageDark := ← readField record 2 "image_dark" readString noLogo.imageDark }

def readTheme (record : Value) : Option ThemeSettings := do
  guard (isRecord record)
  let start := publishedTheme
  return {
    repositoryUrl := ← readField record 0 "repository_url" readString start.repositoryUrl
    pathToDocs := ← readField record 1 "path_to_docs" readString start.pathToDocs
    useEditPageButton := ← readField record 2 "use_edit_page_button" readFlag
      start.useEditPageButton
    useRepositoryButton := ← readField record 3 "use_repository_button" readFlag
      start.useRepositoryButton
    useIssuesButton := ← readField record 4 "use_issues_button" readFlag start.useIssuesButton
    logo := ← readField record 5 "logo" readLogo start.logo }

def readHtml (record : Value) : Option HtmlSettings := do
  guard (isRecord record)
  let start := publishedHtml
  return {
    theme := ← readField record 0 "theme" readString start.theme
    staticPath := ← readField record 1 "static_path" readStrings start.staticPath
    favicon := ← readField record 2 "favicon" readString start.favicon
    showCopyright := ← readField record 3 "show_copyright" readFlag start.showCopyright
    showSphinx := ← readField record 4 "show_sphinx" readFlag start.showSphinx
    themeOptions := ← readField record 5 "theme_options" readTheme start.themeOptions }

def readPreview (record : Value) : Option LinkPreview := do
  guard (isRecord record)
  return {
    siteUrl := ← readField record 0 "site_url" readString noPreview.siteUrl
    image := ← readField record 1 "image" readString noPreview.image }

/-- The settings in a table, if every key they know holds what it should. -/
def ofTable? (table : Table) : Option Config := do
  let record := Value.table table
  let start := published
  return {
    project := ← readField record 0 "project" readString start.project
    copyright := ← readField record 1 "copyright" readString start.copyright
    author := ← readField record 2 "author" readString start.author
    version := ← readField record 3 "version" readString start.version
    extensions := ← readField record 4 "extensions" readStrings start.extensions
    templatesPath := ← readField record 5 "templates_path" readStrings start.templatesPath
    excludePatterns := ← readField record 6 "exclude_patterns" readStrings start.excludePatterns
    highlightLanguage := ← readField record 7 "highlight_language" readString
      start.highlightLanguage
    suppressWarnings := ← readField record 8 "suppress_warnings" readStrings
      start.suppressWarnings
    highlightOptions := ← readField record 9 "highlight_options" readHighlight
      start.highlightOptions
    html := ← readField record 10 "html" readHtml start.html
    ogp := ← readField record 11 "ogp" readPreview start.ogp
    sourceSuffix := ← readField record 12 "source_suffix" readSuffixes start.sourceSuffix }

/-- The settings in a document, if it is valid and they fit. -/
def ofText? (document : Text) : Option Config :=
  (Table.ofText? document).bind ofTable?

end WrenDocs.Config
