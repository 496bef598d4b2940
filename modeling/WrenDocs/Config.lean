import WrenDocs.Path
import WrenDocs.Wildcard

/-! The settings of a documentation build, with the values that the published
documentation is built with, and the questions that the other parts ask. -/
namespace WrenDocs

/-- The markup language of a documentation source. -/
inductive SourceFormat where
  | reStructuredText
  | markdown
  deriving DecidableEq, Repr, Inhabited

namespace SourceFormat

def name : SourceFormat → String
  | reStructuredText => "restructuredtext"
  | markdown => "markdown"

def ofName? (name : String) : Option SourceFormat :=
  [reStructuredText, markdown].find? fun format => format.name == name

theorem ofName?_name (format : SourceFormat) : ofName? format.name = some format := by
  cases format <;> decide

end SourceFormat

/-- Source formats by file suffix, each suffix once, in ascending order. The
order is part of the type, so equal tables are equal values. -/
structure SuffixTable where
  entries : List (String × SourceFormat)
  ascending : entries.Pairwise fun a b => a.1 < b.1
  deriving DecidableEq, Repr

namespace SuffixTable

def empty : SuffixTable :=
  ⟨[], .nil⟩

instance : Inhabited SuffixTable := ⟨empty⟩

/-- Puts a suffix in its place among others, or gives it a new format. -/
def place (suffix : String) (format : SourceFormat) :
    List (String × SourceFormat) → List (String × SourceFormat)
  | [] => [(suffix, format)]
  | (other, known) :: entries =>
    if suffix < other then (suffix, format) :: (other, known) :: entries
    else if other < suffix then (other, known) :: place suffix format entries
    else (suffix, format) :: entries

theorem mem_place {suffix : String} {format : SourceFormat}
    {entries : List (String × SourceFormat)} {entry : String × SourceFormat}
    (h : entry ∈ place suffix format entries) : entry = (suffix, format) ∨ entry ∈ entries := by
  induction entries with
  | nil => simpa [place] using h
  | cons first entries ih =>
    simp only [place] at h
    split at h
    · simpa using h
    · split at h
      · rcases List.mem_cons.mp h with rfl | h
        · simp
        · rcases ih h with rfl | h <;> simp_all
      · rcases List.mem_cons.mp h with rfl | h <;> simp_all

theorem pairwise_place {suffix : String} {format : SourceFormat}
    {entries : List (String × SourceFormat)} (h : entries.Pairwise fun a b => a.1 < b.1) :
    (place suffix format entries).Pairwise fun a b => a.1 < b.1 := by
  induction entries with
  | nil => simp [place]
  | cons first entries ih =>
    obtain ⟨hfirst, hrest⟩ := List.pairwise_cons.mp h
    simp only [place]
    split
    · rename_i hlt
      refine List.pairwise_cons.mpr ⟨fun entry hentry => ?_, h⟩
      rcases List.mem_cons.mp hentry with rfl | hentry
      · exact hlt
      · exact String.lt_trans hlt (hfirst entry hentry)
    · rename_i hnlt
      split
      · rename_i hgt
        refine List.pairwise_cons.mpr ⟨fun entry hentry => ?_, ih hrest⟩
        rcases mem_place hentry with rfl | hentry
        · exact hgt
        · exact hfirst entry hentry
      · rename_i hngt
        have heq : suffix = first.1 :=
          String.le_antisymm (String.not_lt.mp hngt) (String.not_lt.mp hnlt)
        exact List.pairwise_cons.mpr ⟨fun entry hentry => heq ▸ hfirst entry hentry, hrest⟩

def insert (table : SuffixTable) (suffix : String) (format : SourceFormat) : SuffixTable :=
  ⟨place suffix format table.entries, pairwise_place table.ascending⟩

def ofList (entries : List (String × SourceFormat)) : SuffixTable :=
  entries.foldl (fun table entry => table.insert entry.1 entry.2) empty

def find? (table : SuffixTable) (suffix : String) : Option SourceFormat :=
  table.entries.lookup suffix

end SuffixTable

/-- How code blocks are highlighted. -/
structure HighlightSettings where
  /-- Whether a block in an unknown language is shown as plain text. -/
  guessLang : Bool
  deriving DecidableEq, Repr, Inhabited

/-- The logo at the top of a page. -/
structure Logo where
  text : String
  imageLight : String
  imageDark : String
  deriving DecidableEq, Repr, Inhabited

/-- What the theme of the pages is told. -/
structure ThemeSettings where
  repositoryUrl : String
  pathToDocs : String
  useEditPageButton : Bool
  useRepositoryButton : Bool
  useIssuesButton : Bool
  logo : Logo
  deriving DecidableEq, Repr, Inhabited

/-- The pages. A path or address that is empty is not set. -/
structure HtmlSettings where
  theme : String
  staticPath : List String
  favicon : String
  showCopyright : Bool
  showSphinx : Bool
  themeOptions : ThemeSettings
  deriving DecidableEq, Repr, Inhabited

/-- The previews that other sites show of a page. -/
structure LinkPreview where
  siteUrl : String
  image : String
  deriving DecidableEq, Repr, Inhabited

/-- All settings of a documentation build. -/
structure Config where
  project : String
  copyright : String
  author : String
  version : String
  /-- The build extensions, by module name. -/
  extensions : List String
  templatesPath : List String
  /-- Wildcards for paths that are left out when sources are collected. -/
  excludePatterns : List String
  /-- The language of code that names none. -/
  highlightLanguage : String
  /-- Warnings to silence; a name silences everything under it. -/
  suppressWarnings : List String
  highlightOptions : HighlightSettings
  html : HtmlSettings
  ogp : LinkPreview
  sourceSuffix : SuffixTable
  deriving DecidableEq, Repr, Inhabited

namespace Config

/-! ## Where settings start from -/

def noGuess : HighlightSettings :=
  ⟨false⟩

def noLogo : Logo :=
  ⟨"", "", ""⟩

def noPreview : LinkPreview :=
  ⟨"", ""⟩

def publishedLogo : Logo :=
  { text := "Bialet Documentation"
    imageLight := "_static/logo.png"
    imageDark := "_static/logo.png" }

def publishedTheme : ThemeSettings :=
  { repositoryUrl := "https://github.com/bialet/bialet"
    pathToDocs := "docs"
    useEditPageButton := true
    useRepositoryButton := true
    useIssuesButton := true
    logo := publishedLogo }

def publishedHtml : HtmlSettings :=
  { theme := "sphinx_book_theme"
    staticPath := ["_static"]
    favicon := "../src/favicon.ico"
    showCopyright := false
    showSphinx := false
    themeOptions := publishedTheme }

def publishedPreview : LinkPreview :=
  { siteUrl := "https://bialet.dev/"
    image := "https://bialet.dev/_static/og-image.png" }

/-- The settings of the published documentation. -/
def published : Config :=
  { project := "Bialet"
    copyright := "2024, Rodrigo Arce"
    author := "Rodrigo Arce"
    version := "0.4"
    extensions := ["myst_parser", "sphinx_design", "sphinxext.opengraph"]
    templatesPath := ["_templates"]
    excludePatterns := ["requirements.txt"]
    highlightLanguage := "wren"
    suppressWarnings := ["misc.highlighting_failure"]
    highlightOptions := noGuess
    html := publishedHtml
    ogp := publishedPreview
    sourceSuffix := .ofList
      [(".rst", .reStructuredText), (".txt", .markdown), (".md", .markdown)] }

/-! ## Questions -/

/-- The source format of a path, by the extension of its file name. -/
def sourceFormat? (config : Config) (path : Text) : Option SourceFormat :=
  (Path.extension? path).bind fun extension =>
    config.sourceSuffix.find? (String.ofList ('.' :: extension))

/-- Whether a path is left out: a pattern matches its file name, or all of it
with `/` for every backslash. -/
def isExcluded (config : Config) (path : Text) : Bool :=
  config.excludePatterns.any fun pattern =>
    (Path.fileName? path).any (Wildcard.accepts pattern.toList) ||
      Wildcard.accepts pattern.toList (Path.withSlashes path)

/-- Whether a name is another one, or stands under it in the dotted hierarchy. -/
def isUnder (entry name : Text) : Bool :=
  name == entry || (entry ++ ['.']).isPrefixOf name

/-- Whether the warnings of a name are silenced. -/
def isSuppressed (config : Config) (warning : Text) : Bool :=
  config.suppressWarnings.any fun entry => isUnder entry.toList warning

end Config

end WrenDocs
