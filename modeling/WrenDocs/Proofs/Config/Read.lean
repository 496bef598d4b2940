import WrenDocs.Config.Load
import WrenDocs.Config.Write
import WrenDocs.Proofs.Toml.Setting

/-! What it takes that settings are read from a table: every key that the table
has holds its setting, and every other setting is the one the reader starts from. -/
namespace WrenDocs.Config
open Toml

/-! ## One setting -/

/-- A setting is what a table holds under its key, or else where it starts from. -/
def Keeps (entries : Table) (key : String) (start setting : Setting) : Prop :=
  match entries.lookup key with
  | none => setting = start
  | some value => value = setting.toValue

theorem readString_eq_some_iff {value : Value} {text : String} :
    readString value = some text ↔ value = .string text := by
  cases value <;> simp [readString]

theorem readFlag_eq_some_iff {value : Value} {flag : Bool} :
    readFlag value = some flag ↔ value = .boolean flag := by
  cases value <;> simp [readFlag]

theorem mapM_readString_eq_some_iff {values : List Value} {items : List String} :
    values.mapM readString = some items ↔ values = items.map .string := by
  induction values generalizing items with
  | nil => cases items <;> simp
  | cons value values ih =>
    cases items with
    | nil => simp [Option.bind_eq_some_iff]
    | cons item items => simp [Option.bind_eq_some_iff, readString_eq_some_iff, ih]

theorem readStrings_eq_some_iff {value : Value} {items : List String} :
    readStrings value = some items ↔ value = .array (items.map .string) := by
  cases value <;> simp [readStrings, mapM_readString_eq_some_iff]

variable {entries : Table} {place : Nat} {key : String}

/-- A field is a setting where its reader takes exactly the values of settings. -/
theorem readField_eq_some_iff {α : Type} {read : Value → Option α} {setting : α → Setting}
    (hread : ∀ value found, read value = some found ↔ value = (setting found).toValue)
    (hsetting : ∀ first second, setting first = setting second → first = second)
    {start found : α} :
    readField (.table entries) place key read start = some found ↔
      Keeps entries key (setting start) (setting found) := by
  rw [readField, field?, Keeps]
  cases entries.lookup key with
  | some value => exact hread value found
  | none =>
    constructor
    · intro h
      rw [Option.some.inj h]
    · intro h
      rw [hsetting found start h]

theorem readField_string {start text : String} :
    readField (.table entries) place key readString start = some text ↔
      Keeps entries key (.string start) (.string text) :=
  readField_eq_some_iff (fun _ _ => readString_eq_some_iff) (fun _ _ => Setting.string.inj)

theorem readField_flag {start flag : Bool} :
    readField (.table entries) place key readFlag start = some flag ↔
      Keeps entries key (.flag start) (.flag flag) :=
  readField_eq_some_iff (fun _ _ => readFlag_eq_some_iff) (fun _ _ => Setting.flag.inj)

theorem readField_strings {start items : List String} :
    readField (.table entries) place key readStrings start = some items ↔
      Keeps entries key (.list start) (.list items) :=
  readField_eq_some_iff (fun _ _ => readStrings_eq_some_iff) (fun _ _ => Setting.list.inj)

theorem readField_of_lookup {α : Type} {read : Value → Option α} {start : α} {value : Value}
    (h : entries.lookup key = some value) :
    readField (.table entries) place key read start = read value := by
  rw [readField, field?, h]

/-! ## Records -/

/-- Settings with the same keys as others, each kept by a table or else where the
other one starts. -/
def KeepsAll (entries : Table) : List (String × Setting) → List (String × Setting) → Prop
  | [], [] => True
  | (key, start) :: starts, (other, setting) :: settings =>
    other = key ∧ Keeps entries key start setting ∧ KeepsAll entries starts settings
  | _, _ => False

theorem readHighlight_eq_some_iff {options : HighlightSettings} :
    readHighlight (.table entries) = some options ↔
      KeepsAll entries noGuess.settings options.settings := by
  simp only [HighlightSettings.settings, KeepsAll, true_and, and_true]
  constructor
  · intro h
    obtain ⟨_, hguess, h⟩ := Option.bind_eq_some_iff.mp h
    cases h
    exact readField_flag.mp hguess
  · intro hguess
    refine Option.bind_eq_some_iff.mpr ⟨_, readField_flag.mpr hguess, ?_⟩
    rfl

theorem readLogo_eq_some_iff {logo : Logo} :
    readLogo (.table entries) = some logo ↔ KeepsAll entries noLogo.settings logo.settings := by
  simp only [Logo.settings, KeepsAll, true_and, and_true]
  constructor
  · intro h
    obtain ⟨_, htext, h⟩ := Option.bind_eq_some_iff.mp h
    obtain ⟨_, hlight, h⟩ := Option.bind_eq_some_iff.mp h
    obtain ⟨_, hdark, h⟩ := Option.bind_eq_some_iff.mp h
    cases h
    exact ⟨readField_string.mp htext, readField_string.mp hlight, readField_string.mp hdark⟩
  · rintro ⟨htext, hlight, hdark⟩
    refine Option.bind_eq_some_iff.mpr ⟨_, readField_string.mpr htext, ?_⟩
    refine Option.bind_eq_some_iff.mpr ⟨_, readField_string.mpr hlight, ?_⟩
    refine Option.bind_eq_some_iff.mpr ⟨_, readField_string.mpr hdark, ?_⟩
    rfl

theorem readPreview_eq_some_iff {preview : LinkPreview} :
    readPreview (.table entries) = some preview ↔
      KeepsAll entries noPreview.settings preview.settings := by
  simp only [LinkPreview.settings, KeepsAll, true_and, and_true]
  constructor
  · intro h
    obtain ⟨_, hsite, h⟩ := Option.bind_eq_some_iff.mp h
    obtain ⟨_, himage, h⟩ := Option.bind_eq_some_iff.mp h
    cases h
    exact ⟨readField_string.mp hsite, readField_string.mp himage⟩
  · rintro ⟨hsite, himage⟩
    refine Option.bind_eq_some_iff.mpr ⟨_, readField_string.mpr hsite, ?_⟩
    refine Option.bind_eq_some_iff.mpr ⟨_, readField_string.mpr himage, ?_⟩
    rfl

theorem readTheme_eq_some_iff {theme : ThemeSettings} :
    readTheme (.table entries) = some theme ↔
      KeepsAll entries publishedTheme.settings theme.settings ∧
        readField (.table entries) 5 "logo" readLogo publishedLogo = some theme.logo := by
  simp only [ThemeSettings.settings, KeepsAll, true_and, and_assoc]
  constructor
  · intro h
    obtain ⟨_, hurl, h⟩ := Option.bind_eq_some_iff.mp h
    obtain ⟨_, hpath, h⟩ := Option.bind_eq_some_iff.mp h
    obtain ⟨_, hedit, h⟩ := Option.bind_eq_some_iff.mp h
    obtain ⟨_, hrepository, h⟩ := Option.bind_eq_some_iff.mp h
    obtain ⟨_, hissues, h⟩ := Option.bind_eq_some_iff.mp h
    obtain ⟨_, hlogo, h⟩ := Option.bind_eq_some_iff.mp h
    cases h
    exact ⟨readField_string.mp hurl, readField_string.mp hpath, readField_flag.mp hedit,
      readField_flag.mp hrepository, readField_flag.mp hissues, hlogo⟩
  · rintro ⟨hurl, hpath, hedit, hrepository, hissues, hlogo⟩
    refine Option.bind_eq_some_iff.mpr ⟨_, readField_string.mpr hurl, ?_⟩
    refine Option.bind_eq_some_iff.mpr ⟨_, readField_string.mpr hpath, ?_⟩
    refine Option.bind_eq_some_iff.mpr ⟨_, readField_flag.mpr hedit, ?_⟩
    refine Option.bind_eq_some_iff.mpr ⟨_, readField_flag.mpr hrepository, ?_⟩
    refine Option.bind_eq_some_iff.mpr ⟨_, readField_flag.mpr hissues, ?_⟩
    refine Option.bind_eq_some_iff.mpr ⟨_, hlogo, ?_⟩
    rfl

theorem readHtml_eq_some_iff {html : HtmlSettings} :
    readHtml (.table entries) = some html ↔
      KeepsAll entries publishedHtml.settings html.settings ∧
        readField (.table entries) 5 "theme_options" readTheme publishedTheme =
          some html.themeOptions := by
  simp only [HtmlSettings.settings, KeepsAll, true_and, and_assoc]
  constructor
  · intro h
    obtain ⟨_, htheme, h⟩ := Option.bind_eq_some_iff.mp h
    obtain ⟨_, hstatic, h⟩ := Option.bind_eq_some_iff.mp h
    obtain ⟨_, hfavicon, h⟩ := Option.bind_eq_some_iff.mp h
    obtain ⟨_, hcopyright, h⟩ := Option.bind_eq_some_iff.mp h
    obtain ⟨_, hsphinx, h⟩ := Option.bind_eq_some_iff.mp h
    obtain ⟨_, hoptions, h⟩ := Option.bind_eq_some_iff.mp h
    cases h
    exact ⟨readField_string.mp htheme, readField_strings.mp hstatic, readField_string.mp hfavicon,
      readField_flag.mp hcopyright, readField_flag.mp hsphinx, hoptions⟩
  · rintro ⟨htheme, hstatic, hfavicon, hcopyright, hsphinx, hoptions⟩
    refine Option.bind_eq_some_iff.mpr ⟨_, readField_string.mpr htheme, ?_⟩
    refine Option.bind_eq_some_iff.mpr ⟨_, readField_strings.mpr hstatic, ?_⟩
    refine Option.bind_eq_some_iff.mpr ⟨_, readField_string.mpr hfavicon, ?_⟩
    refine Option.bind_eq_some_iff.mpr ⟨_, readField_flag.mpr hcopyright, ?_⟩
    refine Option.bind_eq_some_iff.mpr ⟨_, readField_flag.mpr hsphinx, ?_⟩
    refine Option.bind_eq_some_iff.mpr ⟨_, hoptions, ?_⟩
    rfl

theorem ofTable?_eq_some_iff {config : Config} :
    ofTable? entries = some config ↔
      KeepsAll entries published.settings config.settings ∧
        readField (.table entries) 9 "highlight_options" readHighlight noGuess =
          some config.highlightOptions ∧
        readField (.table entries) 10 "html" readHtml publishedHtml = some config.html ∧
        readField (.table entries) 11 "ogp" readPreview publishedPreview = some config.ogp ∧
        readField (.table entries) 12 "source_suffix" readSuffixes published.sourceSuffix =
          some config.sourceSuffix := by
  simp only [settings, KeepsAll, true_and, and_assoc]
  constructor
  · intro h
    obtain ⟨_, hproject, h⟩ := Option.bind_eq_some_iff.mp h
    obtain ⟨_, hcopyright, h⟩ := Option.bind_eq_some_iff.mp h
    obtain ⟨_, hauthor, h⟩ := Option.bind_eq_some_iff.mp h
    obtain ⟨_, hversion, h⟩ := Option.bind_eq_some_iff.mp h
    obtain ⟨_, hextensions, h⟩ := Option.bind_eq_some_iff.mp h
    obtain ⟨_, htemplates, h⟩ := Option.bind_eq_some_iff.mp h
    obtain ⟨_, hexclude, h⟩ := Option.bind_eq_some_iff.mp h
    obtain ⟨_, hlanguage, h⟩ := Option.bind_eq_some_iff.mp h
    obtain ⟨_, hwarnings, h⟩ := Option.bind_eq_some_iff.mp h
    obtain ⟨_, hhighlight, h⟩ := Option.bind_eq_some_iff.mp h
    obtain ⟨_, hhtml, h⟩ := Option.bind_eq_some_iff.mp h
    obtain ⟨_, hogp, h⟩ := Option.bind_eq_some_iff.mp h
    obtain ⟨_, hsuffixes, h⟩ := Option.bind_eq_some_iff.mp h
    cases h
    exact ⟨readField_string.mp hproject, readField_string.mp hcopyright,
      readField_string.mp hauthor, readField_string.mp hversion,
      readField_strings.mp hextensions, readField_strings.mp htemplates,
      readField_strings.mp hexclude, readField_string.mp hlanguage,
      readField_strings.mp hwarnings, hhighlight, hhtml, hogp, hsuffixes⟩
  · rintro ⟨hproject, hcopyright, hauthor, hversion, hextensions, htemplates, hexclude, hlanguage,
      hwarnings, hhighlight, hhtml, hogp, hsuffixes⟩
    refine Option.bind_eq_some_iff.mpr ⟨_, readField_string.mpr hproject, ?_⟩
    refine Option.bind_eq_some_iff.mpr ⟨_, readField_string.mpr hcopyright, ?_⟩
    refine Option.bind_eq_some_iff.mpr ⟨_, readField_string.mpr hauthor, ?_⟩
    refine Option.bind_eq_some_iff.mpr ⟨_, readField_string.mpr hversion, ?_⟩
    refine Option.bind_eq_some_iff.mpr ⟨_, readField_strings.mpr hextensions, ?_⟩
    refine Option.bind_eq_some_iff.mpr ⟨_, readField_strings.mpr htemplates, ?_⟩
    refine Option.bind_eq_some_iff.mpr ⟨_, readField_strings.mpr hexclude, ?_⟩
    refine Option.bind_eq_some_iff.mpr ⟨_, readField_string.mpr hlanguage, ?_⟩
    refine Option.bind_eq_some_iff.mpr ⟨_, readField_strings.mpr hwarnings, ?_⟩
    refine Option.bind_eq_some_iff.mpr ⟨_, hhighlight, ?_⟩
    refine Option.bind_eq_some_iff.mpr ⟨_, hhtml, ?_⟩
    refine Option.bind_eq_some_iff.mpr ⟨_, hogp, ?_⟩
    refine Option.bind_eq_some_iff.mpr ⟨_, hsuffixes, ?_⟩
    rfl

end WrenDocs.Config
