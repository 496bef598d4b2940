import WrenDocs.Config
import WrenDocs.Json
import WrenDocs.Toml.Setting

/-! Settings as a TOML document and as a JSON object, with the same keys in the
same order. -/
namespace WrenDocs

open Toml (Setting Section)

/-! ## Keys -/

def HighlightSettings.settings (options : HighlightSettings) : List (String × Setting) :=
  [("guess_lang", .flag options.guessLang)]

def Logo.settings (logo : Logo) : List (String × Setting) :=
  [ ("text", .string logo.text),
    ("image_light", .string logo.imageLight),
    ("image_dark", .string logo.imageDark) ]

def ThemeSettings.settings (theme : ThemeSettings) : List (String × Setting) :=
  [ ("repository_url", .string theme.repositoryUrl),
    ("path_to_docs", .string theme.pathToDocs),
    ("use_edit_page_button", .flag theme.useEditPageButton),
    ("use_repository_button", .flag theme.useRepositoryButton),
    ("use_issues_button", .flag theme.useIssuesButton) ]

def HtmlSettings.settings (html : HtmlSettings) : List (String × Setting) :=
  [ ("theme", .string html.theme),
    ("static_path", .list html.staticPath),
    ("favicon", .string html.favicon),
    ("show_copyright", .flag html.showCopyright),
    ("show_sphinx", .flag html.showSphinx) ]

def LinkPreview.settings (preview : LinkPreview) : List (String × Setting) :=
  [("site_url", .string preview.siteUrl), ("image", .string preview.image)]

def SuffixTable.settings (suffixes : SuffixTable) : List (String × Setting) :=
  suffixes.entries.map fun (suffix, format) => (suffix, .string format.name)

namespace Config

/-- The settings that are in no table of their own. -/
def settings (config : Config) : List (String × Setting) :=
  [ ("project", .string config.project),
    ("copyright", .string config.copyright),
    ("author", .string config.author),
    ("version", .string config.version),
    ("extensions", .list config.extensions),
    ("templates_path", .list config.templatesPath),
    ("exclude_patterns", .list config.excludePatterns),
    ("highlight_language", .string config.highlightLanguage),
    ("suppress_warnings", .list config.suppressWarnings) ]

/-! ## TOML -/

/-- All tables, each after the one around it. -/
def sections (config : Config) : List Section :=
  [ ⟨[], config.settings⟩,
    ⟨["highlight_options"], config.highlightOptions.settings⟩,
    ⟨["html"], config.html.settings⟩,
    ⟨["html", "theme_options"], config.html.themeOptions.settings⟩,
    ⟨["html", "theme_options", "logo"], config.html.themeOptions.logo.settings⟩,
    ⟨["ogp"], config.ogp.settings⟩,
    ⟨["source_suffix"], config.sourceSuffix.settings⟩ ]

/-- The settings as a TOML document. -/
def toToml (config : Config) : Text :=
  Section.writeAll config.sections

/-! ## JSON -/

def settingToJson : Setting → Json
  | .string value => .string value.toList
  | .flag value => .bool value
  | .list items => .array (items.map fun item => .string item.toList)

/-- An object of settings, with further members after them. -/
def settingsToJson (settings : List (String × Setting)) (members : List (String × Json)) : Json :=
  .object (settings.map (fun (key, setting) => (key, settingToJson setting)) ++ members)

/-- The settings as a JSON object. -/
def toJson (config : Config) : Json :=
  let theme := config.html.themeOptions
  settingsToJson config.settings
    [ ("highlight_options", settingsToJson config.highlightOptions.settings []),
      ("html", settingsToJson config.html.settings
        [("theme_options", settingsToJson theme.settings
          [("logo", settingsToJson theme.logo.settings [])])]),
      ("ogp", settingsToJson config.ogp.settings []),
      ("source_suffix", settingsToJson config.sourceSuffix.settings []) ]

end Config

end WrenDocs
