import Mathlib.Data.List.Sort
import WrenDocs.Proofs.Collect.Sources
import WrenDocs.Proofs.Relisted

/-! What is found when paths are named: a directory stands for the sources below it
in strict order, any other path for itself. Nothing else about the tree counts, so
directories may list their entries in any order; and the more is excluded, the
less is found. -/
namespace WrenDocs

namespace Path

/-- Paths in order, component by component. -/
def Precedes (path other : Text) : Prop :=
  components path < components other

theorem not_precedes_self (path : Text) : ¬ Precedes path path :=
  List.lt_irrefl (components path)

instance : Std.Antisymm Precedes where
  antisymm path _ h h' := absurd (List.lt_trans h h') (not_precedes_self path)

/-- A list in strict order is part of another one as soon as its members are. -/
theorem sublist_of_subset {paths others : List Text} (h : paths.Pairwise Precedes)
    (hothers : others.Pairwise Precedes) (hsubset : paths ⊆ others) : paths.Sublist others := by
  have hnodup : paths.Nodup := by
    apply h.imp
    rintro path _ hlt rfl
    exact not_precedes_self path hlt
  exact List.sublist_of_subperm_of_pairwise (List.subperm_of_subset hnodup hsubset) h hothers

end Path

namespace Collect

/-- Names that lead from a directory to a source: a file that is called as sources
are, with nothing hidden, built or excluded on the way. -/
structure IsSource (files : FileSystem) (config : Config) (directory : Text)
    (names : List Text) : Prop where
  ne_nil : names ≠ []
  isName : ∀ name ∈ names, Path.IsName name
  shown : ∀ name ∈ names, name.head? ≠ some '.' ∧ name ≠ "target".toList
  kept : ∀ front, front <+: names → front ≠ [] →
    config.isExcluded (Path.below directory front) = false
  isFile : files.isFile (Path.below directory names) = true
  suffix : ∃ stem, stem ≠ [] ∧ names.getLast? = some (stem ++ Language.wrenSuffix)

theorem expand_of_lookup {files : FileSystem} {config : Config} {path : Text}
    {entries : List (String × Entry)} (h : files.lookup path = .ok (.directory entries)) :
    expand files config path = sourcesBelow config path (.directory entries) := by
  rw [expand, h]

theorem collect_singleton (files : FileSystem) (config : Config) (path : Text) :
    collect files config [path] = expand files config path :=
  List.flatMap_singleton ..

variable {root : Entry} {config : Config} {directory : Text}

/-- Below a directory the lists of names that are sorted are those of its sources. -/
theorem mem_sourcesAt_iff_isSource {entries : List (String × Entry)} {names : List Text}
    (h : root.WellFormed)
    (hlookup : (FileSystem.ofTree root).lookup directory = .ok (.directory entries)) :
    names ∈ sourcesAt config directory (.directory entries) ↔
      IsSource (FileSystem.ofTree root) config directory names := by
  have hne := FileSystem.ne_nil_of_lookup hlookup
  have hwellFormed := h.lookup hlookup
  rw [mem_sourcesAt_iff hwellFormed]
  constructor
  · rintro ⟨⟨source, hdescend, hfile⟩, hpasses, hlanguage⟩
    have hnames := hwellFormed.isName_of_descend? hdescend
    obtain ⟨hshown, hkept⟩ := passes_iff.mp hpasses
    have hnil : names ≠ [] := by
      rintro rfl
      cases hdescend
      simp [Entry.isDirectory] at hfile
    obtain ⟨name, hlast⟩ := Option.isSome_iff_exists.mp (List.getLast?_isSome.mpr hnil)
    obtain ⟨stem, hstem, rfl⟩ := (Registry.forPath?_builtin_isSome_iff
      (Path.fileName?_below directory hnames hlast)).mp hlanguage
    refine ⟨hnil, hnames, hshown, hkept, ?_, stem, hstem, hlast⟩
    rw [FileSystem.isFile_iff]
    exact ⟨source, (FileSystem.lookup_below_iff hne hnames).mpr ⟨_, hlookup, hdescend⟩, hfile⟩
  · intro hsource
    obtain ⟨source, hlookupSource, hfile⟩ := FileSystem.isFile_iff.mp hsource.isFile
    obtain ⟨entry, hentry, hdescend⟩ :=
      (FileSystem.lookup_below_iff hne hsource.isName).mp hlookupSource
    obtain ⟨stem, hstem, hlast⟩ := hsource.suffix
    rw [hlookup] at hentry
    cases hentry
    refine ⟨⟨source, hdescend, hfile⟩, passes_iff.mpr ⟨hsource.shown, hsource.kept⟩, ?_⟩
    rw [Registry.forPath?_builtin_isSome_iff (Path.fileName?_below directory hsource.isName hlast)]
    exact ⟨stem, hstem, rfl⟩

/-- A directory stands for its sources. -/
theorem mem_expand_iff (h : root.WellFormed)
    (hdirectory : (FileSystem.ofTree root).isDirectory directory = true) {path : Text} :
    path ∈ expand (FileSystem.ofTree root) config directory ↔
      ∃ names, IsSource (FileSystem.ofTree root) config directory names ∧
        path = Path.below directory names := by
  obtain ⟨entries, hlookup⟩ := FileSystem.isDirectory_iff.mp hdirectory
  rw [expand_of_lookup hlookup, sourcesBelow, List.mem_map]
  apply exists_congr
  intro names
  rw [List.mem_mergeSort, mem_sourcesAt_iff_isSource h hlookup]
  exact and_congr_right fun _ => eq_comm

/-- The files that a directory stands for are in strict order. -/
theorem pairwise_expand (h : root.WellFormed)
    (hdirectory : (FileSystem.ofTree root).isDirectory directory = true) :
    (expand (FileSystem.ofTree root) config directory).Pairwise Path.Precedes := by
  obtain ⟨entries, hlookup⟩ := FileSystem.isDirectory_iff.mp hdirectory
  rw [expand_of_lookup hlookup, sourcesBelow, List.pairwise_map]
  have hnodup : (sourcesAt config directory (.directory entries)).Nodup :=
    nodup_sourcesAt (h.lookup hlookup)
  have hsorted := pairwise_mergeSort_sources hnodup
  apply List.Pairwise.imp_of_mem _ hsorted
  intro names others hnames hothers hlt
  rw [List.mem_mergeSort, mem_sourcesAt_iff_isSource h hlookup] at hnames hothers
  change Path.Precedes (Path.below directory names) (Path.below directory others)
  rw [Path.Precedes, Path.components_below directory hnames.isName,
    Path.components_below directory hothers.isName]
  exact List.append_left_lt hlt

/-! ## What it depends on -/

theorem IsSource.mono {files files' : FileSystem} {config config' : Config} {names : List Text}
    (h : IsSource files config directory names)
    (hfiles : ∀ path, files.isFile path = true → files'.isFile path = true)
    (hexcluded : ∀ path, config.isExcluded path = false → config'.isExcluded path = false) :
    IsSource files' config' directory names where
  ne_nil := h.ne_nil
  isName := h.isName
  shown := h.shown
  kept front hfront hne := hexcluded _ (h.kept front hfront hne)
  isFile := hfiles _ h.isFile
  suffix := h.suffix

end Collect

end WrenDocs
