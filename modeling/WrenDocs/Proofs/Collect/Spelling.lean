import WrenDocs.Proofs.Collect.Found
import WrenDocs.Proofs.Wildcard

/-! Two spellings of one directory, as it stands and from the working directory on.
They lead to the same entries, so only exclusion can tell them apart, for a pattern
is tried on the whole path as it is spelled. -/
namespace WrenDocs

/-! ## Where the two spellings lead -/

namespace FileSystem

theorem lookup_fromHere (root : Entry) {path : Text} (hne : path ≠ [])
    (hrelative : path.head? ≠ some '/') :
    (ofTree root).lookup (Path.fromHere path) = (ofTree root).lookup path := by
  have hfromHere : Path.fromHere path ≠ [] := by simp [Path.fromHere]
  have htop : topOf root (Path.fromHere path) = root := if_neg (by simp [Path.fromHere])
  rw [lookup_ofTree hfromHere, lookup_ofTree hne, htop, topOf, if_neg hrelative,
    Path.splitOn_fromHere]
  cases root with
  | file | unreadable =>
    obtain ⟨part, parts, hsplit⟩ := List.exists_cons_of_ne_nil (Text.splitOn_ne_nil '/' path)
    rw [hsplit]
    rfl
  | directory entries =>
    rw [Entry.follow_cons]
    exact if_pos (.inr rfl)

theorem isDirectory_fromHere (root : Entry) {path : Text} (hne : path ≠ [])
    (hrelative : path.head? ≠ some '/') :
    (ofTree root).isDirectory (Path.fromHere path) = (ofTree root).isDirectory path := by
  rw [isDirectory, isDirectory, lookup_fromHere root hne hrelative]

theorem isFile_fromHere (root : Entry) {path : Text} (hne : path ≠ [])
    (hrelative : path.head? ≠ some '/') :
    (ofTree root).isFile (Path.fromHere path) = (ofTree root).isFile path := by
  rw [isFile, isFile, lookup_fromHere root hne hrelative]

end FileSystem

/-! ## What exclusion sees of them -/

namespace Wildcard

/-- A pattern for names: one name, or the end of one after a star. No wildcard in it
can reach over a slash to what stands before the name. -/
def IsNamePattern (pattern : Text) : Prop :=
  ∃ name, IsLiteral name ∧ '/' ∉ name ∧ (pattern = name ∨ pattern = '*' :: name)

/-- The spelling of what comes before a slash does not matter to it. -/
theorem IsNamePattern.accepts_fromHere {pattern path : Text} (h : IsNamePattern pattern)
    (hslash : '/' ∈ path) :
    accepts pattern (Path.fromHere path) = true ↔ accepts pattern path = true := by
  obtain ⟨name, hliteral, hname, rfl | rfl⟩ := h
  · rw [accepts_iff_of_isLiteral hliteral, accepts_iff_of_isLiteral hliteral]
    apply iff_of_false
    · rintro rfl
      exact hname (by simp [Path.fromHere])
    · rintro rfl
      exact hname hslash
  · rw [accepts_star_iff_of_isLiteral hliteral, accepts_star_iff_of_isLiteral hliteral,
      Path.fromHere, List.suffix_cons_iff, List.suffix_cons_iff]
    constructor
    · rintro (rfl | rfl | hsuffix)
      · exact absurd (by simp) hname
      · exact absurd (by simp) hname
      · exact hsuffix
    · intro hsuffix
      exact .inr (.inr hsuffix)

end Wildcard

theorem Path.withSlashes_fromHere (path : Text) :
    withSlashes (fromHere path) = fromHere (withSlashes path) :=
  rfl

theorem Path.slash_mem_withSlashes {path : Text} (h : '/' ∈ path) : '/' ∈ withSlashes path :=
  List.mem_map.mpr ⟨'/', h, rfl⟩

theorem Config.isExcluded_fromHere {config : Config} {path : Text}
    (h : ∀ pattern ∈ config.excludePatterns, Wildcard.IsNamePattern pattern.toList)
    (hslash : '/' ∈ path) :
    config.isExcluded (Path.fromHere path) = config.isExcluded path := by
  rw [Bool.eq_iff_iff, isExcluded, isExcluded, List.any_eq_true, List.any_eq_true]
  apply exists_congr
  intro pattern
  apply and_congr_right
  intro hpattern
  rw [Path.fileName?_fromHere, Path.withSlashes_fromHere, Bool.or_eq_true, Bool.or_eq_true,
    (h pattern hpattern).accepts_fromHere (Path.slash_mem_withSlashes hslash)]

/-! ## What is collected under them -/

namespace Collect

/-- The paths on the way from a directory to one below it, at each of which a search
asks whether to go on; the last of them is the path itself. -/
def OnTheWay (directory path between : Text) : Prop :=
  ∃ front back, front ≠ [] ∧ (∀ name ∈ front ++ back, Path.IsName name) ∧
    between = Path.below directory front ∧ path = Path.below directory (front ++ back)

/-- A source stays one under another spelling that leads to it and excludes nothing. -/
theorem IsSource.respelled {files : FileSystem} {config : Config} {directory other : Text}
    {names : List Text} (h : IsSource files config directory names)
    (hkept : ∀ front, front <+: names → front ≠ [] →
      config.isExcluded (Path.below other front) = config.isExcluded (Path.below directory front))
    (hfile : files.isFile (Path.below other names) = files.isFile (Path.below directory names)) :
    IsSource files config other names :=
  { h with
    kept := fun front hfront hne => (hkept front hfront hne).trans (h.kept front hfront hne)
    isFile := hfile.trans h.isFile }

variable {root : Entry} {config : Config} {directory : Text}

theorem isSource_fromHere_iff {names : List Text} (hne : directory ≠ [])
    (hrelative : directory.head? ≠ some '/') (hnames : ∀ name ∈ names, Path.IsName name)
    (hagree : ∀ between, OnTheWay directory (Path.below directory names) between →
      config.isExcluded (Path.fromHere between) = config.isExcluded between) :
    IsSource (FileSystem.ofTree root) config (Path.fromHere directory) names ↔
      IsSource (FileSystem.ofTree root) config directory names := by
  have hkept (front : List Text) (hfront : front <+: names) (hfrontNe : front ≠ []) :
      config.isExcluded (Path.below (Path.fromHere directory) front) =
        config.isExcluded (Path.below directory front) := by
    obtain ⟨back, rfl⟩ := hfront
    rw [Path.below_fromHere]
    exact hagree _ ⟨front, back, hfrontNe, hnames, rfl, rfl⟩
  have hfile : (FileSystem.ofTree root).isFile (Path.below (Path.fromHere directory) names) =
      (FileSystem.ofTree root).isFile (Path.below directory names) := by
    rw [Path.below_fromHere, FileSystem.isFile_fromHere root (Path.below_ne_nil hne names)]
    rwa [Path.head?_below hne]
  constructor
  · intro hsource
    exact hsource.respelled (fun front hfront h => (hkept front hfront h).symm) hfile.symm
  · intro hsource
    exact hsource.respelled hkept hfile

theorem mem_expand_fromHere_iff (h : root.WellFormed)
    (hdirectory : (FileSystem.ofTree root).isDirectory directory = true)
    (hrelative : directory.head? ≠ some '/') {path : Text}
    (hagree : ∀ between, OnTheWay directory path between →
      config.isExcluded (Path.fromHere between) = config.isExcluded between) :
    Path.fromHere path ∈ expand (FileSystem.ofTree root) config (Path.fromHere directory) ↔
      path ∈ expand (FileSystem.ofTree root) config directory := by
  have hne := FileSystem.ne_nil_of_isDirectory hdirectory
  rw [mem_expand_iff h ((FileSystem.isDirectory_fromHere root hne hrelative).trans hdirectory),
    mem_expand_iff h hdirectory]
  apply exists_congr
  intro names
  constructor
  · rintro ⟨hsource, hpath⟩
    rw [Path.below_fromHere] at hpath
    obtain rfl := Path.fromHere_inj hpath
    exact ⟨(isSource_fromHere_iff hne hrelative hsource.isName hagree).mp hsource, rfl⟩
  · rintro ⟨hsource, rfl⟩
    rw [Path.below_fromHere]
    exact ⟨(isSource_fromHere_iff hne hrelative hsource.isName hagree).mpr hsource, rfl⟩

/-- Patterns for names do not tell the spellings apart: file for file the same is
found, and in the same order. -/
theorem expand_fromHere (h : root.WellFormed)
    (hdirectory : (FileSystem.ofTree root).isDirectory directory = true)
    (hrelative : directory.head? ≠ some '/')
    (hpatterns : ∀ pattern ∈ config.excludePatterns, Wildcard.IsNamePattern pattern.toList) :
    expand (FileSystem.ofTree root) config (Path.fromHere directory) =
      (expand (FileSystem.ofTree root) config directory).map Path.fromHere := by
  have hne := FileSystem.ne_nil_of_isDirectory hdirectory
  have hdirectory' := (FileSystem.isDirectory_fromHere root hne hrelative).trans hdirectory
  have hagree (path between : Text) (hway : OnTheWay directory path between) :
      config.isExcluded (Path.fromHere between) = config.isExcluded between := by
    obtain ⟨front, back, hfront, -, rfl, -⟩ := hway
    exact Config.isExcluded_fromHere hpatterns (Path.slash_mem_below hne hfront)
  have hsorted : (expand (FileSystem.ofTree root) config (Path.fromHere directory)).Pairwise
      Path.Precedes := pairwise_expand h hdirectory'
  have hsorted' : ((expand (FileSystem.ofTree root) config directory).map
      Path.fromHere).Pairwise Path.Precedes := by
    rw [List.pairwise_map]
    apply (pairwise_expand h hdirectory).imp
    intro path other hlt
    rwa [Path.Precedes, Path.components_fromHere, Path.components_fromHere]
  apply List.Sublist.antisymm
  · apply Path.sublist_of_subset hsorted hsorted'
    intro found hfound
    obtain ⟨names, -, rfl⟩ := (mem_expand_iff h hdirectory').mp hfound
    rw [Path.below_fromHere] at hfound ⊢
    exact List.mem_map_of_mem
      ((mem_expand_fromHere_iff h hdirectory hrelative (hagree _)).mp hfound)
  · apply Path.sublist_of_subset hsorted' hsorted
    intro found hfound
    obtain ⟨path, hpath, rfl⟩ := List.mem_map.mp hfound
    exact (mem_expand_fromHere_iff h hdirectory hrelative (hagree _)).mpr hpath

/-- **Two spellings of a directory.** A path is found under one of them if and only if
it is found under the other, unless exclusion tells the two apart on the way to it;
patterns for names never do, and then the same files are found in the same order. -/
theorem collect_fromHere (h : root.WellFormed)
    (hdirectory : (FileSystem.ofTree root).isDirectory directory = true)
    (hrelative : directory.head? ≠ some '/') (config : Config) :
    let files := FileSystem.ofTree root
    (∀ path, (∀ between, OnTheWay directory path between →
        config.isExcluded (Path.fromHere between) = config.isExcluded between) →
      (path ∈ collect files config [directory] ↔
        Path.fromHere path ∈ collect files config [Path.fromHere directory])) ∧
    ((∀ pattern ∈ config.excludePatterns, Wildcard.IsNamePattern pattern.toList) →
      collect files config [Path.fromHere directory] =
        (collect files config [directory]).map Path.fromHere) := by
  intro files
  rw [collect_singleton, collect_singleton]
  constructor
  · intro path hagree
    exact (mem_expand_fromHere_iff h hdirectory hrelative hagree).symm
  · intro hpatterns
    exact expand_fromHere h hdirectory hrelative hpatterns

theorem collect_fromHere_of_docs :
    let root : Entry := .directory [("docs", .directory [("page.wren", .file .empty)])]
    let files := FileSystem.ofTree root
    let config := { Config.published with excludePatterns := ["skip.wren", "*.bak"] }
    root.WellFormed ∧ files.isDirectory "docs".toList = true ∧
      "docs".toList.head? ≠ some '/' ∧
      (∀ pattern ∈ config.excludePatterns, Wildcard.IsNamePattern pattern.toList) ∧
      collect files config ["./docs".toList] =
        (collect files config ["docs".toList]).map Path.fromHere := by
  intro root files config
  have hroot : root.WellFormed := .single (by decide) (.single (by decide) (.file _))
  have hdirectory : files.isDirectory "docs".toList = true := by decide +kernel
  have hpatterns : ∀ pattern ∈ config.excludePatterns, Wildcard.IsNamePattern pattern.toList := by
    simp only [config, List.forall_mem_cons]
    refine ⟨⟨"skip.wren".toList, ⟨by decide, by decide⟩, by decide, .inl rfl⟩, ?_⟩
    refine ⟨⟨".bak".toList, ⟨by decide, by decide⟩, by decide, .inr rfl⟩, ?_⟩
    exact List.forall_mem_nil _
  exact ⟨hroot, hdirectory, by decide, hpatterns,
    (collect_fromHere hroot hdirectory (by decide) config).2 hpatterns⟩

/-- A pattern with a slash in it tells the spellings apart: what it leaves out below
`_build` is found below `./_build`. -/
theorem collect_tells_spellings_apart :
    let root : Entry := .directory [("_build", .directory [("page.wren", .file .empty)])]
    let files := FileSystem.ofTree root
    let config := { Config.published with excludePatterns := ["_build/*"] }
    root.WellFormed ∧ files.isDirectory "_build".toList = true ∧
      ¬ ("_build/page.wren".toList ∈ collect files config ["_build".toList] ↔
        Path.fromHere "_build/page.wren".toList ∈
          collect files config [Path.fromHere "_build".toList]) := by
  intro root files config
  have hroot : root.WellFormed := .single (by decide) (.single (by decide) (.file _))
  have hdirectory : files.isDirectory "_build".toList = true := by decide +kernel
  have hdirectory' : files.isDirectory (Path.fromHere "_build".toList) = true := by
    decide +kernel
  have hleftOut : "_build/page.wren".toList ∉ collect files config ["_build".toList] := by
    rw [collect_singleton, mem_expand_iff hroot hdirectory]
    rintro ⟨names, hsource, hpath⟩
    have hnames : names = ["page.wren".toList] :=
      Path.below_inj hsource.isName (by decide) hpath.symm
    have hexcluded : config.isExcluded "_build/page.wren".toList = true := by decide +kernel
    have hkept := hsource.kept names List.prefix_rfl hsource.ne_nil
    rw [← hpath, hexcluded] at hkept
    cases hkept
  have hfound : Path.fromHere "_build/page.wren".toList ∈
      collect files config [Path.fromHere "_build".toList] := by
    have hpasses : Passes config (Path.fromHere "_build".toList) ["page.wren".toList] :=
      ⟨by decide +kernel, trivial⟩
    rw [collect_singleton, mem_expand_iff hroot hdirectory']
    exact ⟨["page.wren".toList], ⟨by decide, by decide, (passes_iff.mp hpasses).1,
      (passes_iff.mp hpasses).2, by decide +kernel, "page".toList, by decide, rfl⟩, rfl⟩
  exact ⟨hroot, hdirectory, fun hsame => hleftOut (hsame.mpr hfound)⟩

end Collect

end WrenDocs
