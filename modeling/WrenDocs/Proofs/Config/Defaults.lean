import WrenDocs.Proofs.Config.Read
import WrenDocs.Proofs.Config.Suffixes

/-! Which settings a document leaves alone. Every setting that it has is the
document's; every other one is the published one, but for the logo and the link
preview, whose tables start empty once a document has them. -/
namespace WrenDocs
open Toml

/-! ## Paths -/

/-- What a path of keys leads to. -/
def Toml.Value.at? : List String → Value → Option Value
  | [], value => some value
  | key :: path, .table entries => (entries.lookup key).bind (Value.at? path)
  | _ :: _, _ => none

theorem Toml.Value.at?_append (path : List String) (key : String) (value : Value) :
    value.at? (path ++ [key]) = (value.at? path).bind (Value.at? [key]) := by
  induction path generalizing value with
  | nil => rfl
  | cons first path ih =>
    cases value with
    | table entries =>
      rw [List.cons_append, Value.at?, Value.at?, Option.bind_assoc]
      congr 1
      funext found
      exact ih found
    | string | boolean | integer | float | dateTime | array => rfl

theorem Toml.Value.at?_of_table {path : List String} {value : Value} {entries : Table}
    (h : value.at? path = some (.table entries)) (key : String) :
    value.at? (path ++ [key]) = entries.lookup key := by
  have hkey : (Value.table entries).at? [key] = entries.lookup key := by
    rw [Value.at?]
    exact Option.bind_fun_some _
  rw [at?_append, h, Option.bind_some, hkey]

theorem Toml.Value.at?_of_none {path : List String} {value : Value} (h : value.at? path = none)
    (key : String) : value.at? (path ++ [key]) = none := by
  rw [at?_append, h, Option.bind_none]

namespace Config

/-! ## Settings by their paths -/

/-- The settings of a section, by the keys that lead to them. -/
def sectionLeaves (part : Section) : List (List String × Setting) :=
  part.settings.map fun entry => (part.header ++ [entry.1], entry.2)

/-- All settings by the keys that lead to them, the suffixes aside. -/
def leaves (config : Config) : List (List String × Setting) :=
  (config.sections.filter fun part => part.header != ["source_suffix"]).flatMap sectionLeaves

example : ["html", "theme_options", "logo", "text"] ∈ published.leaves.map Prod.fst := by decide

def isTable : Value → Bool
  | .table _ => true
  | _ => false

/-- What stands where a table of settings may stand is a table. -/
def HasTables (table : Table) : Prop :=
  ∀ header ∈ published.sections.map Section.header, ((Value.table table).at? header).all isTable

instance (table : Table) : Decidable (HasTables table) :=
  inferInstanceAs (Decidable (∀ header ∈ published.sections.map Section.header, _))

/-- The settings that a document's own are put in the place of. -/
def startFor (table : Table) : Config :=
  let logo := ((Value.table table).at? ["html", "theme_options", "logo"]).elim publishedLogo
    fun _ => noLogo
  { published with
    html := { publishedHtml with themeOptions := { publishedTheme with logo } }
    ogp := ((Value.table table).at? ["ogp"]).elim publishedPreview fun _ => noPreview }

/-- Every setting is what the document has, and where it starts if the document
leaves it out. -/
def Settles (table : Table) (config : Config) : Prop :=
  (∀ leaf ∈ config.leaves,
    match (Value.table table).at? leaf.1 with
    | some value => value = leaf.2.toValue
    | none => leaf ∈ (startFor table).leaves) ∧
  match table.lookup "source_suffix" with
  | some value => ∃ entries, value = .table entries ∧
      ∀ suffix, Option.Rel Names (entries.lookup suffix) (config.sourceSuffix.find? suffix)
  | none => config.sourceSuffix = published.sourceSuffix

/-! ## One table -/

/-- Settings that are kept by the table that a path leads to. -/
def Follows (table : Table) (path : List String) (start settings : List (String × Setting)) :
    Prop :=
  match (Value.table table).at? path with
  | some (.table entries) => KeepsAll entries start settings
  | some _ => False
  | none => settings = start

theorem mem_of_keepsAll {entries : Table} {start settings : List (String × Setting)}
    (h : KeepsAll entries start settings) {entry : String × Setting} (hentry : entry ∈ settings) :
    match entries.lookup entry.1 with
    | some value => value = entry.2.toValue
    | none => entry ∈ start := by
  induction settings generalizing start with
  | nil => simp at hentry
  | cons first settings ih =>
    cases start with
    | nil => cases h
    | cons known start =>
      obtain ⟨hkey, hkeeps, hrest⟩ := h
      rcases List.mem_cons.mp hentry with rfl | hentry
      · rw [Keeps, ← hkey] at hkeeps
        cases hlookup : entries.lookup entry.1 with
        | some value => simpa [hlookup] using hkeeps
        | none =>
          have hsame : entry = known := Prod.ext hkey (by simpa [hlookup] using hkeeps)
          exact hsame ▸ List.mem_cons_self
      · have hfound := ih hrest hentry
        cases hlookup : entries.lookup entry.1 with
        | some value => simpa [hlookup] using hfound
        | none => simpa [hlookup] using .inr (by simpa [hlookup] using hfound)

theorem mem_of_follows {table : Table} {path : List String} {start settings : List (String × Setting)}
    (h : Follows table path start settings) {leaf : List String × Setting}
    (hleaf : leaf ∈ sectionLeaves ⟨path, settings⟩) :
    match (Value.table table).at? leaf.1 with
    | some value => value = leaf.2.toValue
    | none => leaf ∈ sectionLeaves ⟨path, start⟩ := by
  obtain ⟨entry, hentry, rfl⟩ := List.mem_map.mp hleaf
  unfold Follows at h
  split at h
  · rename_i entries hentries
    have hkept := mem_of_keepsAll h hentry
    rw [Value.at?_of_table hentries]
    cases hlookup : entries.lookup entry.1 with
    | some value => simpa [hlookup] using hkept
    | none =>
      have hstart : entry ∈ start := by simpa [hlookup] using hkept
      exact List.mem_map_of_mem (f := fun entry => (path ++ [entry.1], entry.2)) hstart
  · cases h
  · rename_i hnone
    rw [Value.at?_of_none hnone]
    exact h ▸ hleaf

theorem record_cases {table entries : Table} {path : List String} {key : String} {α : Type}
    {place : Nat} {read : Value → Option α} {start record : α} (htables : HasTables table)
    (hheader : path ++ [key] ∈ published.sections.map Section.header)
    (hentries : (Value.table table).at? path = some (.table entries))
    (h : readField (.table entries) place key read start = some record) :
    ((Value.table table).at? (path ++ [key]) = none ∧ record = start) ∨
      ∃ inside, (Value.table table).at? (path ++ [key]) = some (.table inside) ∧
        read (.table inside) = some record := by
  have hat := Value.at?_of_table hentries key
  rw [readField, field?] at h
  cases hlookup : entries.lookup key with
  | none =>
    rw [hlookup] at hat h
    exact .inl ⟨hat, (Option.some.inj h).symm⟩
  | some value =>
    rw [hlookup] at hat h
    have hvalue : isTable value = true := by simpa [hat] using htables _ hheader
    cases value with
    | table inside => exact .inr ⟨inside, hat, h⟩
    | string | boolean | integer | float | dateTime | array => cases hvalue

theorem follows_of_keepsAll {table entries : Table} {path : List String}
    {start settings : List (String × Setting)}
    (hentries : (Value.table table).at? path = some (.table entries))
    (h : KeepsAll entries start settings) : Follows table path start settings := by
  rw [Follows, hentries]
  exact h

theorem follows_of_none {table : Table} {path : List String} (h : (Value.table table).at? path = none)
    (start : List (String × Setting)) : Follows table path start start := by
  rw [Follows, h]

/-! ## All tables -/

variable {table : Table} {config : Config}

theorem follows_highlight (htables : HasTables table) (h : ofTable? table = some config) :
    Follows table ["highlight_options"] (startFor table).highlightOptions.settings
      config.highlightOptions.settings := by
  obtain ⟨-, hhighlight, -⟩ := ofTable?_eq_some_iff.mp h
  rcases @record_cases _ _ [] _ _ _ _ _ _ htables (by decide) rfl hhighlight with
    ⟨hnone, heq⟩ | ⟨inside, hinside, hread⟩
  · rw [heq]
    exact follows_of_none hnone _
  · exact follows_of_keepsAll hinside (readHighlight_eq_some_iff.mp hread)

theorem follows_ogp (htables : HasTables table) (h : ofTable? table = some config) :
    Follows table ["ogp"] (startFor table).ogp.settings config.ogp.settings := by
  obtain ⟨-, -, -, hogp, -⟩ := ofTable?_eq_some_iff.mp h
  rcases @record_cases _ _ [] _ _ _ _ _ _ htables (by decide) rfl hogp with
    ⟨hnone, heq⟩ | ⟨inside, hinside, hread⟩
  · rw [List.nil_append] at hnone
    have hstart : (startFor table).ogp = publishedPreview := by
      rw [startFor, hnone]
      rfl
    rw [heq, hstart]
    exact follows_of_none hnone _
  · rw [List.nil_append] at hinside
    have hstart : (startFor table).ogp = noPreview := by
      rw [startFor, hinside]
      rfl
    rw [hstart]
    exact follows_of_keepsAll hinside (readPreview_eq_some_iff.mp hread)

theorem logo_startFor_of_none (h : (Value.table table).at? ["html", "theme_options", "logo"] = none) :
    (startFor table).html.themeOptions.logo = publishedLogo := by
  rw [startFor, h]
  rfl

/-- Without a table for the theme or the pages, there is none for the logo. -/
theorem follows_logo_of_none (h : (Value.table table).at? ["html", "theme_options"] = none) :
    Follows table ["html", "theme_options", "logo"]
      (startFor table).html.themeOptions.logo.settings publishedLogo.settings := by
  have hnone := Value.at?_of_none h "logo"
  rw [logo_startFor_of_none hnone]
  exact follows_of_none hnone _

theorem follows_logo (htables : HasTables table) {entries : Table} {logo : Logo}
    (hentries : (Value.table table).at? ["html", "theme_options"] = some (.table entries))
    (h : readField (.table entries) 5 "logo" readLogo publishedLogo = some logo) :
    Follows table ["html", "theme_options", "logo"]
      (startFor table).html.themeOptions.logo.settings logo.settings := by
  rcases record_cases htables (by decide) hentries h with
    ⟨hnone, heq⟩ | ⟨inside, hinside, hread⟩
  · rw [heq, logo_startFor_of_none hnone]
    exact follows_of_none hnone _
  · have hstart : (startFor table).html.themeOptions.logo = noLogo := by
      have hlogo : (Value.table table).at? ["html", "theme_options", "logo"] =
          some (.table inside) := hinside
      rw [startFor, hlogo]
      rfl
    rw [hstart]
    exact follows_of_keepsAll hinside (readLogo_eq_some_iff.mp hread)

theorem follows_theme (htables : HasTables table) {entries : Table} {theme : ThemeSettings}
    (hentries : (Value.table table).at? ["html"] = some (.table entries))
    (h : readField (.table entries) 5 "theme_options" readTheme publishedTheme = some theme) :
    Follows table ["html", "theme_options"] (startFor table).html.themeOptions.settings
        theme.settings ∧
      Follows table ["html", "theme_options", "logo"]
        (startFor table).html.themeOptions.logo.settings theme.logo.settings := by
  rcases record_cases htables (by decide) hentries h with
    ⟨hnone, rfl⟩ | ⟨inside, hinside, hread⟩
  · exact ⟨follows_of_none hnone _, follows_logo_of_none hnone⟩
  · obtain ⟨hkeeps, hlogo⟩ := readTheme_eq_some_iff.mp hread
    exact ⟨follows_of_keepsAll hinside hkeeps, follows_logo htables hinside hlogo⟩

theorem follows_html (htables : HasTables table) (h : ofTable? table = some config) :
    Follows table ["html"] (startFor table).html.settings config.html.settings ∧
      Follows table ["html", "theme_options"] (startFor table).html.themeOptions.settings
        config.html.themeOptions.settings ∧
      Follows table ["html", "theme_options", "logo"]
        (startFor table).html.themeOptions.logo.settings config.html.themeOptions.logo.settings := by
  obtain ⟨-, -, hhtml, -⟩ := ofTable?_eq_some_iff.mp h
  rcases @record_cases _ _ [] _ _ _ _ _ _ htables (by decide) rfl hhtml with
    ⟨hnone, heq⟩ | ⟨inside, hinside, hread⟩
  · have htheme := Value.at?_of_none hnone "theme_options"
    rw [heq]
    exact ⟨follows_of_none hnone _, follows_of_none htheme _, follows_logo_of_none htheme⟩
  · obtain ⟨hkeeps, htheme⟩ := readHtml_eq_some_iff.mp hread
    exact ⟨follows_of_keepsAll hinside hkeeps, follows_theme htables hinside htheme⟩

theorem mem_leaves {leaf : List String × Setting} :
    leaf ∈ config.leaves ↔ ∃ part ∈ config.sections,
      part.header ≠ ["source_suffix"] ∧ leaf ∈ sectionLeaves part := by
  simp [leaves, and_assoc]

theorem leaf_of_follows {path : List String} {start settings : List (String × Setting)}
    (h : Follows table path start settings) (hpath : path ≠ ["source_suffix"])
    (hstart : ⟨path, start⟩ ∈ (startFor table).sections) {leaf : List String × Setting}
    (hleaf : leaf ∈ sectionLeaves ⟨path, settings⟩) :
    match (Value.table table).at? leaf.1 with
    | some value => value = leaf.2.toValue
    | none => leaf ∈ (startFor table).leaves := by
  have hfound := mem_of_follows h hleaf
  cases hat : (Value.table table).at? leaf.1 with
  | some value => simpa [hat] using hfound
  | none => exact mem_leaves.mpr ⟨_, hstart, hpath, by simpa [hat] using hfound⟩

theorem leaf_of_ofTable? (htables : HasTables table) (h : ofTable? table = some config)
    {leaf : List String × Setting} (hleaf : leaf ∈ config.leaves) :
    match (Value.table table).at? leaf.1 with
    | some value => value = leaf.2.toValue
    | none => leaf ∈ (startFor table).leaves := by
  obtain ⟨part, hpart, hheader, hleaf⟩ := mem_leaves.mp hleaf
  obtain ⟨hroot, -⟩ := ofTable?_eq_some_iff.mp h
  obtain ⟨hhtml, htheme, hlogo⟩ := follows_html htables h
  have hfollows : ∃ start, ⟨part.header, start⟩ ∈ (startFor table).sections ∧
      Follows table part.header start part.settings := by
    simp only [sections, List.mem_cons, List.not_mem_nil, or_false] at hpart
    rcases hpart with rfl | rfl | rfl | rfl | rfl | rfl | rfl
    · exact ⟨(startFor table).settings, by simp [sections], follows_of_keepsAll rfl hroot⟩
    · exact ⟨_, by simp [sections], follows_highlight htables h⟩
    · exact ⟨_, by simp [sections], hhtml⟩
    · exact ⟨_, by simp [sections], htheme⟩
    · exact ⟨_, by simp [sections], hlogo⟩
    · exact ⟨_, by simp [sections], follows_ogp htables h⟩
    · exact absurd rfl hheader
  obtain ⟨start, hstart, hfollows⟩ := hfollows
  exact leaf_of_follows hfollows hheader hstart hleaf

theorem suffixes_of_ofTable? (hdistinct : (Value.table table).Distinct)
    (h : ofTable? table = some config) :
    match table.lookup "source_suffix" with
    | some value => ∃ entries, value = .table entries ∧
        ∀ suffix, Option.Rel Names (entries.lookup suffix) (config.sourceSuffix.find? suffix)
    | none => config.sourceSuffix = published.sourceSuffix := by
  obtain ⟨-, -, -, -, hsuffixes⟩ := ofTable?_eq_some_iff.mp h
  rw [readField, field?] at hsuffixes
  cases hlookup : table.lookup "source_suffix" with
  | none => simpa [hlookup, eq_comm] using hsuffixes
  | some value =>
    have hread : readSuffixes value = some config.sourceSuffix := by
      simpa [hlookup] using hsuffixes
    have hvalue : value.Distinct := by
      obtain ⟨before, after, rfl, -⟩ := List.lookup_eq_some_iff.mp hlookup
      cases hdistinct with
      | table _ hentries => exact hentries ("source_suffix", value) (by simp)
    exact names_of_readSuffixes hvalue hread

/-- Every setting of a document that is read is the document's own or, if the
document leaves it out, the one that its table starts from. -/
theorem settles_of_document {document : Text} (htable : Table.ofText? document = some table)
    (h : ofText? document = some config) (htables : HasTables table) : Settles table config := by
  rw [ofText?, htable, Option.bind_some] at h
  exact ⟨fun _ hleaf => leaf_of_ofTable? htables h hleaf,
    suffixes_of_ofTable? (distinct_ofText? htable) h⟩

/-! ## A document with part of a table -/

/-- A document that has one of the two keys of the link preview. -/
def partialDocument : Text :=
  "project = \"Guide\"\n\n[ogp]\nsite_url = \"x\"\n\n[source_suffix]\n\".md\" = \"markdown\"\n".toList

def partialTables : Tables :=
  .cons "ogp" [("site_url", .string "x")] .nil <|
  .cons "source_suffix" [(".md", .string "markdown")] .nil .nil

def partialTable : Table :=
  settingsTable [("project", .string "Guide")] ++ partialTables.toTable

def partialConfig : Config :=
  { published with
    project := "Guide"
    ogp := { siteUrl := "x", image := "" }
    sourceSuffix := .ofList [(".md", .markdown)] }

theorem ofText?_partialDocument : Table.ofText? partialDocument = some partialTable := by
  have hdocument : partialDocument =
      Section.writeAll (⟨[], [("project", .string "Guide")]⟩ :: partialTables.sections []) := by
    decide
  rw [hdocument]
  exact ofText?_sections (by decide) (by simp [partialTables, Tables.Distinct, Tables.keys])
    (by decide)

theorem config_ofText?_partialDocument : ofText? partialDocument = some partialConfig := by
  rw [ofText?, ofText?_partialDocument]
  rfl

theorem settles_partialDocument :
    Table.ofText? partialDocument = some partialTable ∧ ofText? partialDocument = some partialConfig ∧
      HasTables partialTable ∧ Settles partialTable partialConfig :=
  ⟨ofText?_partialDocument, config_ofText?_partialDocument, by decide,
    settles_of_document ofText?_partialDocument config_ofText?_partialDocument (by decide)⟩

/-- The key that it leaves out has not the published value. -/
theorem image_of_partialDocument :
    Table.ofText? partialDocument = some partialTable ∧ ofText? partialDocument = some partialConfig ∧
      HasTables partialTable ∧ (Value.table partialTable).at? ["ogp", "image"] = none ∧
      (["ogp", "image"], Setting.string "") ∈ partialConfig.leaves ∧
      partialConfig.ogp.image ≠ published.ogp.image :=
  ⟨ofText?_partialDocument, config_ofText?_partialDocument, by decide, rfl, by decide, by decide⟩

end Config

end WrenDocs
