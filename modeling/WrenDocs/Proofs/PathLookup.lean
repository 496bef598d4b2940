import WrenDocs.Proofs.Config.Suffixes
import WrenDocs.Proofs.Registry

/-! What is looked up by path: the format of a documentation source, and the language
of a file. Both go by the end of the file name alone. -/
namespace WrenDocs

/-- A dot that is followed by no other. -/
def Path.IsExtension (key : Text) : Prop :=
  ∃ extension, key = '.' :: extension ∧ '.' ∉ extension

/-- One path has the same file name as another, or none as it has none. -/
def Path.SameFileName (path other : Text) : Prop :=
  ∀ name, HasFileName path name ↔ HasFileName other name

theorem Path.fileName?_eq_of_sameFileName {path other : Text} (h : SameFileName path other) :
    fileName? path = fileName? other := by
  apply Option.ext
  intro name
  rw [fileName?_eq_some_iff, fileName?_eq_some_iff, h name]

/-- The file name stays what it is if the path ends in a slash or a dot after it, and
wherever the path is put. -/
theorem Path.sameFileName_of_respelled {path name : Text} (h : HasFileName path name)
    (directory : Text) {other : Text}
    (hother : other ∈ [path ++ ['/'], path ++ ['/', '.'], directory ++ '/' :: path]) :
    SameFileName other path := by
  have hfileName : fileName? other = fileName? path := by
    simp only [List.mem_cons, List.not_mem_nil, or_false] at hother
    rcases hother with rfl | rfl | rfl
    · exact fileName?_append_idle (.slash .nil) path
    · exact fileName?_append_idle (.dot .nil) path
    · rw [fileName?_of_hasFileName h]
      exact fileName?_of_hasFileName (.under directory h)
  intro found
  rw [← fileName?_eq_some_iff, ← fileName?_eq_some_iff, hfileName]

theorem SuffixTable.find?_eq_some_iff {table : SuffixTable} {suffix : String}
    {format : SourceFormat} :
    table.find? suffix = some format ↔ (suffix, format) ∈ table.entries :=
  lookup_eq_some_iff_mem table.nodup_keys

namespace Config

/-- The key of a format is the last dot of the file name with what follows it, and
something stands before the dot. -/
theorem sourceFormat?_eq_some_iff {config : Config} {path : Text} {format : SourceFormat} :
    config.sourceFormat? path = some format ↔
      ∃ stem key, stem ≠ [] ∧ Path.HasFileName path (stem ++ key.toList) ∧
        Path.IsExtension key.toList ∧ (key, format) ∈ config.sourceSuffix.entries := by
  simp only [sourceFormat?, Option.bind_eq_some_iff, Path.extension?_eq_some_iff,
    Path.fileName?_eq_some_iff, SuffixTable.find?_eq_some_iff]
  constructor
  · rintro ⟨extension, ⟨stem, hstem, hdot, hname⟩, hentry⟩
    refine ⟨stem, _, hstem, ?_, ?_, hentry⟩
    · rwa [String.toList_ofList]
    · exact ⟨extension, String.toList_ofList, hdot⟩
  · rintro ⟨stem, key, hstem, hname, ⟨extension, hkey, hdot⟩, hentry⟩
    refine ⟨extension, ⟨stem, hstem, hdot, ?_⟩, ?_⟩
    · rwa [← hkey]
    · rwa [← hkey, String.ofList_toList]

theorem sourceFormat?_of_fileName? {config : Config} {path other : Text}
    (h : Path.fileName? path = Path.fileName? other) :
    config.sourceFormat? path = config.sourceFormat? other := by
  rw [sourceFormat?, Path.extension?, h]
  rfl

/-- A file name that is nothing but a key has no format. -/
theorem sourceFormat?_of_isExtension {config : Config} {path name : Text}
    (hname : Path.IsExtension name) (hpath : Path.HasFileName path name) :
    config.sourceFormat? path = none := by
  rw [Option.eq_none_iff_forall_ne_some]
  intro format hformat
  obtain ⟨stem, key, hstem, hpath', ⟨rest, hkey, -⟩, -⟩ := sourceFormat?_eq_some_iff.mp hformat
  obtain ⟨extension, rfl, hdot⟩ := hname
  have heq : '.' :: extension = stem ++ '.' :: rest := by
    rw [← hkey]
    exact Path.hasFileName_unique hpath hpath'
  cases stem with
  | nil => exact hstem rfl
  | cons c stem =>
    apply hdot
    rw [(List.cons.inj heq).2]
    simp

end Config

theorem Registry.forPath?_builtin_isSome_iff_hasFileName {path : Text} :
    (builtin.forPath? path).isSome = true ↔
      ∃ stem, stem ≠ [] ∧ Path.HasFileName path (stem ++ ".wren".toList) := by
  cases hname : Path.fileName? path with
  | none =>
    simp only [forPath?, hname, Option.bind_none, Option.isSome_none, ← Path.fileName?_eq_some_iff]
    simp
  | some name =>
    simp only [forPath?_builtin_isSome_iff hname, ← Path.fileName?_eq_some_iff, hname,
      Option.some.injEq]
    rfl

/-- **Look-ups by path.** A path has a format if and only if its file name is
something with the key of the format after it, a dot without another: so no other key
of the settings counts, and a name that is nothing but a key has no format. It has a
language if and only if its file name is something with `.wren` after it. Nothing else
of the path counts, neither what stands before the file name nor a slash or a dot
after it. -/
theorem path_lookups_by_fileName (config : Config) (path : Text) :
    let formatOf := config.sourceFormat?
    let languageOf := Registry.builtin.forPath?
    (∀ format, formatOf path = some format ↔
      ∃ stem key, stem ≠ [] ∧ Path.HasFileName path (stem ++ key.toList) ∧
        Path.IsExtension key.toList ∧ (key, format) ∈ config.sourceSuffix.entries) ∧
    (∀ other : Config, (∀ key format, Path.IsExtension key.toList →
      ((key, format) ∈ config.sourceSuffix.entries ↔
        (key, format) ∈ other.sourceSuffix.entries)) →
      formatOf path = other.sourceFormat? path) ∧
    (∀ name, Path.IsExtension name → Path.HasFileName path name → formatOf path = none) ∧
    ((languageOf path).isSome = true ↔
      ∃ stem, stem ≠ [] ∧ Path.HasFileName path (stem ++ ".wren".toList)) ∧
    (∀ other, Path.SameFileName other path →
      formatOf other = formatOf path ∧ languageOf other = languageOf path) ∧
    ∀ name, Path.HasFileName path name → ∀ directory,
      ∀ other ∈ [path ++ ['/'], path ++ ['/', '.'], directory ++ '/' :: path],
        formatOf other = formatOf path ∧ languageOf other = languageOf path := by
  intro formatOf languageOf
  have hsame (other : Text) (h : Path.SameFileName other path) :
      formatOf other = formatOf path ∧ languageOf other = languageOf path := by
    have hfileName := Path.fileName?_eq_of_sameFileName h
    exact ⟨Config.sourceFormat?_of_fileName? hfileName, by
      simp only [languageOf, Registry.forPath?, hfileName]⟩
  refine ⟨fun format => Config.sourceFormat?_eq_some_iff, ?_,
    fun name => Config.sourceFormat?_of_isExtension,
    Registry.forPath?_builtin_isSome_iff_hasFileName, hsame, ?_⟩
  · intro other hentries
    apply Option.ext
    intro format
    rw [Config.sourceFormat?_eq_some_iff, Config.sourceFormat?_eq_some_iff]
    apply exists_congr
    intro stem
    apply exists_congr
    intro key
    apply and_congr_right
    intro _
    apply and_congr_right
    intro _
    apply and_congr_right
    exact hentries key format
  · intro name hname directory other hother
    exact hsame other (Path.sameFileName_of_respelled hname directory hother)

/-- A page in Markdown beside a name that is nothing but a key, with settings that
have one more suffix, which has no dot. -/
theorem path_lookups_by_fileName_of_page :
    let config := Config.published
    let added := { config with
      sourceSuffix := config.sourceSuffix.insert "md" .reStructuredText }
    let path := "docs/page.md".toList
    let bare := "docs/.md".toList
    (∀ key format, Path.IsExtension key.toList →
      ((key, format) ∈ config.sourceSuffix.entries ↔
        (key, format) ∈ added.sourceSuffix.entries)) ∧
    Path.IsExtension ".md".toList ∧ Path.HasFileName bare ".md".toList ∧
    Path.SameFileName "page.md".toList path ∧ Path.HasFileName path "page.md".toList ∧
    config.sourceFormat? path = added.sourceFormat? path ∧
    config.sourceFormat? bare = none ∧
    config.sourceFormat? "page.md".toList = config.sourceFormat? path ∧
    config.sourceFormat? (path ++ ['/', '.']) = config.sourceFormat? path := by
  intro config added path bare
  have hadded : added.sourceSuffix.entries =
      config.sourceSuffix.entries ++ [("md", .reStructuredText)] := by
    decide
  have hentries (key : String) (format : SourceFormat) (hkey : Path.IsExtension key.toList) :
      (key, format) ∈ config.sourceSuffix.entries ↔
        (key, format) ∈ added.sourceSuffix.entries := by
    rw [hadded, List.mem_append, List.mem_singleton, or_iff_left]
    intro hmd
    obtain ⟨extension, hdot, -⟩ := hkey
    rw [(Prod.mk.inj hmd).1] at hdot
    cases hdot
  have hkey : Path.IsExtension ".md".toList := ⟨"md".toList, rfl, by decide⟩
  have hbare : Path.HasFileName bare ".md".toList :=
    Path.fileName?_eq_some_iff.mp (by decide)
  have hname : Path.HasFileName "page.md".toList "page.md".toList :=
    Path.fileName?_eq_some_iff.mp (by decide)
  have hpath : Path.HasFileName path "page.md".toList := .under "docs".toList hname
  have hsame : Path.SameFileName "page.md".toList path := by
    intro name
    rw [← Path.fileName?_eq_some_iff, ← Path.fileName?_eq_some_iff,
      Path.fileName?_of_hasFileName hname, Path.fileName?_of_hasFileName hpath]
  obtain ⟨-, hother, -, -, hspelled, hrespelled⟩ := path_lookups_by_fileName config path
  obtain ⟨-, -, hnone, -, -, -⟩ := path_lookups_by_fileName config bare
  exact ⟨hentries, hkey, hbare, hsame, hpath, hother added hentries, hnone _ hkey hbare,
    (hspelled _ hsame).1, (hrespelled _ hpath [] _ (by simp)).1⟩

end WrenDocs
