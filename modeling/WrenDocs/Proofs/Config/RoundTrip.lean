import WrenDocs.Proofs.Config.Read
import WrenDocs.Proofs.Config.Suffixes
import WrenDocs.Proofs.Toml.Tables

/-! Saved settings load back: their document describes one table for each record,
and each record's reader finds in its table the settings that were written. -/
namespace WrenDocs
open Toml

/-! ## The tables that are written -/

/-- The tables inside that of the theme. -/
def ThemeSettings.tables (theme : ThemeSettings) : Tables :=
  .cons "logo" theme.logo.settings .nil .nil

/-- The tables inside that of the pages. -/
def HtmlSettings.tables (html : HtmlSettings) : Tables :=
  .cons "theme_options" html.themeOptions.settings html.themeOptions.tables .nil

/-- All tables of a configuration. -/
def Config.tables (config : Config) : Tables :=
  .cons "highlight_options" config.highlightOptions.settings .nil <|
  .cons "html" config.html.settings config.html.tables <|
  .cons "ogp" config.ogp.settings .nil <|
  .cons "source_suffix" config.sourceSuffix.settings .nil .nil

theorem Config.sections_eq (config : Config) :
    config.sections = ⟨[], config.settings⟩ :: config.tables.sections [] := rfl

theorem HighlightSettings.nodup_keys (options : HighlightSettings) :
    (options.settings.map Prod.fst ++ Tables.nil.keys).Nodup := by
  show ["guess_lang"].Nodup
  decide

theorem Logo.nodup_keys (logo : Logo) :
    (logo.settings.map Prod.fst ++ Tables.nil.keys).Nodup := by
  show ["text", "image_light", "image_dark"].Nodup
  decide

theorem LinkPreview.nodup_keys (preview : LinkPreview) :
    (preview.settings.map Prod.fst ++ Tables.nil.keys).Nodup := by
  show ["site_url", "image"].Nodup
  decide

theorem ThemeSettings.nodup_keys (theme : ThemeSettings) :
    (theme.settings.map Prod.fst ++ theme.tables.keys).Nodup := by
  show ["repository_url", "path_to_docs", "use_edit_page_button", "use_repository_button",
    "use_issues_button", "logo"].Nodup
  decide

theorem HtmlSettings.nodup_keys (html : HtmlSettings) :
    (html.settings.map Prod.fst ++ html.tables.keys).Nodup := by
  show ["theme", "static_path", "favicon", "show_copyright", "show_sphinx", "theme_options"].Nodup
  decide

theorem Config.nodup_keys (config : Config) :
    (config.settings.map Prod.fst ++ config.tables.keys).Nodup := by
  show ["project", "copyright", "author", "version", "extensions", "templates_path",
    "exclude_patterns", "highlight_language", "suppress_warnings", "highlight_options", "html",
    "ogp", "source_suffix"].Nodup
  decide

theorem SuffixTable.nodup_settings (suffixes : SuffixTable) :
    (suffixes.settings.map Prod.fst ++ Tables.nil.keys).Nodup := by
  rw [SuffixTable.settings, List.map_map, Tables.keys, List.append_nil]
  exact suffixes.nodup_keys

theorem Config.distinct_tables (config : Config) : config.tables.Distinct := by
  have htheme : config.html.themeOptions.tables.Distinct :=
    ⟨config.html.themeOptions.logo.nodup_keys, trivial, trivial⟩
  have hhtml : config.html.tables.Distinct :=
    ⟨config.html.themeOptions.nodup_keys, htheme, trivial⟩
  exact ⟨config.highlightOptions.nodup_keys, trivial, config.html.nodup_keys, hhtml,
    config.ogp.nodup_keys, trivial, config.sourceSuffix.nodup_settings, trivial, trivial⟩

namespace Config

/-- The table that a configuration is written as. -/
def toTable (config : Config) : Table :=
  settingsTable config.settings ++ config.tables.toTable

theorem ofText?_toToml (config : Config) : Table.ofText? config.toToml = some config.toTable := by
  rw [toToml, sections_eq]
  apply ofText?_sections config.nodup_keys config.distinct_tables
  simp [tables, HtmlSettings.tables, ThemeSettings.tables, Tables.sections, depthLimit]

/-! ## Settings in a table -/

theorem lookup_settingsTable {settings : List (String × Setting)}
    (h : (settings.map Prod.fst).Nodup) {entry : String × Setting} (hentry : entry ∈ settings)
    (rest : Table) : (settingsTable settings ++ rest).lookup entry.1 = some entry.2.toValue := by
  induction settings with
  | nil => simp at hentry
  | cons first settings ih =>
    obtain ⟨hfirst, hsettings⟩ := List.nodup_cons.mp h
    rw [settingsTable, List.map_cons, List.cons_append, lookup_cons_ite]
    rcases List.mem_cons.mp hentry with rfl | hentry
    · rw [if_pos rfl]
    · have hne : entry.1 ≠ first.1 := fun heq => hfirst (heq ▸ List.mem_map_of_mem hentry)
      rw [if_neg hne]
      exact ih hsettings hentry

theorem keepsAll_of_lookup {entries : Table} {start settings : List (String × Setting)}
    (hkeys : start.map Prod.fst = settings.map Prod.fst)
    (h : ∀ entry ∈ settings, entries.lookup entry.1 = some entry.2.toValue) :
    KeepsAll entries start settings := by
  induction settings generalizing start with
  | nil =>
    rw [List.map_eq_nil_iff.mp hkeys]
    trivial
  | cons entry settings ih =>
    obtain ⟨first, start, rfl, hfirst, hstart⟩ := List.map_eq_cons_iff.mp hkeys
    obtain ⟨hentry, hsettings⟩ := List.forall_mem_cons.mp h
    refine ⟨hfirst.symm, ?_, ih hstart hsettings⟩
    rw [hfirst, Keeps, hentry]

/-- Settings that a table has are kept, whatever else it has. -/
theorem keepsAll_settingsTable {start settings : List (String × Setting)} {others : List String}
    (hkeys : start.map Prod.fst = settings.map Prod.fst)
    (h : (settings.map Prod.fst ++ others).Nodup) (rest : Table) :
    KeepsAll (settingsTable settings ++ rest) start settings :=
  keepsAll_of_lookup hkeys fun _ hentry =>
    lookup_settingsTable (List.nodup_append.mp h).1 hentry rest

/-! ## Records -/

theorem readHighlight_settings (options : HighlightSettings) :
    readHighlight (.table (settingsTable options.settings ++ [])) = some options :=
  readHighlight_eq_some_iff.mpr (keepsAll_settingsTable rfl options.nodup_keys [])

theorem readLogo_settings (logo : Logo) :
    readLogo (.table (settingsTable logo.settings ++ [])) = some logo :=
  readLogo_eq_some_iff.mpr (keepsAll_settingsTable rfl logo.nodup_keys [])

theorem readPreview_settings (preview : LinkPreview) :
    readPreview (.table (settingsTable preview.settings ++ [])) = some preview :=
  readPreview_eq_some_iff.mpr (keepsAll_settingsTable rfl preview.nodup_keys [])

theorem readTheme_settings (theme : ThemeSettings) :
    readTheme (.table (settingsTable theme.settings ++ theme.tables.toTable)) = some theme := by
  apply readTheme_eq_some_iff.mpr
  constructor
  · exact keepsAll_settingsTable rfl theme.nodup_keys _
  · exact (readField_of_lookup rfl).trans (readLogo_settings theme.logo)

theorem readHtml_settings (html : HtmlSettings) :
    readHtml (.table (settingsTable html.settings ++ html.tables.toTable)) = some html := by
  apply readHtml_eq_some_iff.mpr
  constructor
  · exact keepsAll_settingsTable rfl html.nodup_keys _
  · exact (readField_of_lookup rfl).trans (readTheme_settings html.themeOptions)

theorem mapM_readFormat (entries : List (String × SourceFormat)) :
    (entries.map fun entry => (entry.1, Value.string entry.2.name)).mapM
      (fun entry => (readFormat entry.2).map (entry.1, ·)) = some entries := by
  induction entries with
  | nil => rfl
  | cons entry entries ih =>
    rw [List.map_cons, List.mapM_cons, readFormat, SourceFormat.ofName?_name, ih]
    rfl

theorem readSuffixes_settings (suffixes : SuffixTable) :
    readSuffixes (.table (settingsTable suffixes.settings ++ [])) = some suffixes := by
  have hentries : settingsTable suffixes.settings =
      suffixes.entries.map fun entry => (entry.1, .string entry.2.name) := by
    rw [settingsTable, SuffixTable.settings, List.map_map]
    rfl
  rw [List.append_nil, hentries, readSuffixes, mapM_readFormat, Option.map_some,
    SuffixTable.ofList_entries]

theorem ofTable?_toTable (config : Config) : ofTable? config.toTable = some config := by
  apply ofTable?_eq_some_iff.mpr
  refine ⟨keepsAll_settingsTable rfl config.nodup_keys _, ?_, ?_, ?_, ?_⟩
  · exact (readField_of_lookup rfl).trans (readHighlight_settings config.highlightOptions)
  · exact (readField_of_lookup rfl).trans (readHtml_settings config.html)
  · exact (readField_of_lookup rfl).trans (readPreview_settings config.ogp)
  · exact (readField_of_lookup rfl).trans (readSuffixes_settings config.sourceSuffix)

/-- Saved settings load back. -/
theorem parse_toToml (config : Config) (origin : Text) :
    parse config.toToml origin = .ok config := by
  rw [parse, ofText?, ofText?_toToml, Option.bind_some, ofTable?_toTable]

end Config

end WrenDocs
