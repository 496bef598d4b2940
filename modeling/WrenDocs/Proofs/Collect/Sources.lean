import WrenDocs.Collect
import WrenDocs.Proofs.FileTree
import WrenDocs.Proofs.Registry

/-! The sources below a directory, as lists of names. A directory that is passed
over takes everything below it along, so a source is found exactly where nothing
on the way to it is passed over; sorting puts the lists into strict order. -/
namespace WrenDocs

namespace Collect

/-! ## What is passed over -/

/-- Names that a search does not pass over on the way down from a path. -/
def Passes (config : Config) (path : Text) : List Text → Prop
  | [] => True
  | name :: names =>
    isSkipped config name (Path.join path name) = false ∧ Passes config (Path.join path name) names

/-- No name on the way is hidden or that of build output, and nothing on the way
is excluded. -/
theorem passes_iff {config : Config} {path : Text} {names : List Text} :
    Passes config path names ↔
      (∀ name ∈ names, name.head? ≠ some '.' ∧ name ≠ "target".toList) ∧
      ∀ front, front <+: names → front ≠ [] → config.isExcluded (Path.below path front) = false := by
  induction names generalizing path with
  | nil => simp [Passes]
  | cons name names ih =>
    have hskipped : isSkipped config name (Path.join path name) = false ↔
        (name.head? ≠ some '.' ∧ name ≠ "target".toList) ∧
          config.isExcluded (Path.join path name) = false := by
      simp [isSkipped]
    rw [Passes, hskipped, ih]
    constructor
    · rintro ⟨⟨hshown, hkept⟩, hrest, hbelow⟩
      refine ⟨List.forall_mem_cons.mpr ⟨hshown, hrest⟩, ?_⟩
      intro front hfront hne
      obtain rfl | ⟨front, rfl, hprefix⟩ := List.prefix_cons_iff.mp hfront
      · exact absurd rfl hne
      · by_cases hnil : front = []
        · rw [hnil]
          exact hkept
        · exact hbelow front hprefix hnil
    · rintro ⟨hshown, hkept⟩
      obtain ⟨hfirst, hrest⟩ := List.forall_mem_cons.mp hshown
      refine ⟨⟨hfirst, hkept [name] (by simp) (by simp)⟩, hrest, ?_⟩
      intro front hfront _
      exact hkept (name :: front) (by simpa using hfront) (by simp)

/-! ## What is found -/

/-- The sources of a directory that begin with one of its entries. -/
def sourcesThrough (config : Config) (directory : Text) (found : String × Entry) :
    List (List Text) :=
  let path := Path.join directory found.1.toList
  if isSkipped config found.1.toList path then []
  else (sourcesAt config path found.2).map (found.1.toList :: ·)

theorem sourcesIn_eq_flatMap (config : Config) (directory : Text)
    (entries : List (String × Entry)) :
    sourcesIn config directory entries = entries.flatMap (sourcesThrough config directory) := by
  induction entries with
  | nil => simp [sourcesIn]
  | cons found entries ih =>
    obtain ⟨name, entry⟩ := found
    rw [sourcesIn, ih, List.flatMap_cons, sourcesThrough]

theorem mem_sourcesThrough_iff {config : Config} {directory : Text} {found : String × Entry}
    {names : List Text} :
    names ∈ sourcesThrough config directory found ↔ ∃ rest, names = found.1.toList :: rest ∧
      isSkipped config found.1.toList (Path.join directory found.1.toList) = false ∧
      rest ∈ sourcesAt config (Path.join directory found.1.toList) found.2 := by
  unfold sourcesThrough
  dsimp only
  constructor
  · intro hnames
    split at hnames
    · simp at hnames
    · rename_i hskipped
      obtain ⟨rest, hrest, rfl⟩ := List.mem_map.mp hnames
      exact ⟨rest, rfl, Bool.not_eq_true _ ▸ hskipped, hrest⟩
  · rintro ⟨rest, rfl, hskipped, hrest⟩
    rw [hskipped]
    exact List.mem_map_of_mem hrest

/-- The names that lead to a source: they lead to a file of a known language, which
need not be readable, and nothing on the way is passed over. -/
theorem mem_sourcesAt_iff {config : Config} {path : Text} {entry : Entry} {names : List Text}
    (h : entry.WellFormed) :
    names ∈ sourcesAt config path entry ↔
      (∃ found, entry.descend? names = some found ∧ found.isDirectory = false) ∧
        Passes config path names ∧
        (Registry.builtin.forPath? (Path.below path names)).isSome = true := by
  induction names generalizing path entry with
  | nil =>
    cases entry with
    | file | unreadable => simp [sourcesAt, Entry.descend?, Entry.isDirectory, Passes]
    | directory entries =>
      simp only [sourcesAt, sourcesIn_eq_flatMap, List.mem_flatMap, mem_sourcesThrough_iff,
        Entry.descend?]
      simp [Entry.isDirectory]
  | cons name names ih =>
    cases h with
    | file | unreadable =>
      simp only [sourcesAt, Entry.descend?, Entry.child?]
      split <;> simp
    | @directory entries hnodup hnames hentries =>
      simp only [sourcesAt, sourcesIn_eq_flatMap, List.mem_flatMap, mem_sourcesThrough_iff,
        Entry.descend?, Entry.child?, Passes, Path.below_cons]
      constructor
      · rintro ⟨found, hmem, rest, hcons, hskipped, hrest⟩
        obtain ⟨rfl, rfl⟩ := List.cons.inj hcons
        obtain ⟨⟨source, hdescend, hfile⟩, hpasses, hlanguage⟩ :=
          (ih (hentries _ hmem)).mp hrest
        refine ⟨⟨source, ?_, hfile⟩, ⟨hskipped, hpasses⟩, hlanguage⟩
        rw [String.ofList_toList, (lookup_eq_some_iff_mem hnodup).mpr hmem]
        exact hdescend
      · rintro ⟨⟨source, hdescend, hfile⟩, ⟨hskipped, hpasses⟩, hlanguage⟩
        obtain ⟨inner, hinner, hdescend⟩ := Option.bind_eq_some_iff.mp hdescend
        have hmem := (lookup_eq_some_iff_mem hnodup).mp hinner
        refine ⟨_, hmem, names, ?_, ?_, ?_⟩
        · rw [String.toList_ofList]
        · rwa [String.toList_ofList]
        · rw [String.toList_ofList]
          exact (ih (hentries _ hmem)).mpr ⟨⟨source, hdescend, hfile⟩, hpasses, hlanguage⟩

/-- No source is found twice, for the entries of a directory have different names. -/
theorem nodup_sourcesAt {config : Config} {path : Text} {entry : Entry} (h : entry.WellFormed) :
    (sourcesAt config path entry).Nodup := by
  induction h generalizing path with
  | file | unreadable =>
    rw [sourcesAt]
    split <;> simp
  | @directory entries hnodup _ _ ih =>
    rw [sourcesAt, sourcesIn_eq_flatMap, List.Nodup, List.pairwise_flatMap]
    constructor
    · intro found hfound
      unfold sourcesThrough
      dsimp only
      split
      · exact .nil
      · rw [List.pairwise_map]
        apply (ih found hfound).imp
        intro _ _ hne heq
        exact hne (List.cons.inj heq).2
    · rw [List.Nodup, List.pairwise_map] at hnodup
      apply hnodup.imp
      intro found other hne names hnames names' hnames' heq
      obtain ⟨rest, rfl, -⟩ := mem_sourcesThrough_iff.mp hnames
      obtain ⟨rest', rfl, -⟩ := mem_sourcesThrough_iff.mp hnames'
      exact hne (String.toList_inj.mp (List.cons.inj heq).1)

/-! ## In which order -/

theorem isBefore_iff {names others : List Text} : isBefore names others = true ↔ names < others := by
  have hname : (fun name other : Text => name.lex other (fun c d => decide (c < d)) = true) =
      (· < ·) := by
    funext name other
    rw [List.lex_eq_true_iff_lex]
    simp only [decide_eq_true_eq]
    rfl
  rw [isBefore, List.lex_eq_true_iff_lex, hname]
  rfl

/-- Sorted, the lists of names are in strict order. -/
theorem pairwise_mergeSort_sources {sources : List (List Text)} (h : sources.Nodup) :
    (sources.mergeSort fun a b => !isBefore b a).Pairwise (· < ·) := by
  have hnotBefore (a b : List Text) : (!isBefore b a) = true ↔ ¬ b < a := by
    rw [Bool.not_eq_true', ← Bool.not_eq_true, isBefore_iff]
  have hsorted : (sources.mergeSort fun a b => !isBefore b a).Pairwise
      fun a b => (!isBefore b a) = true := by
    apply List.pairwise_mergeSort
    · intro a b c hab hbc
      rw [hnotBefore, List.not_lt] at *
      exact List.le_trans hab hbc
    · intro a b
      rw [Bool.or_eq_true, hnotBefore, hnotBefore, List.not_lt, List.not_lt]
      exact List.le_total a b
  have hnodup : (sources.mergeSort fun a b => !isBefore b a).Nodup :=
    (List.mergeSort_perm ..).nodup_iff.mpr h
  apply hsorted.imp₂ _ hnodup
  intro a b hab hne
  rw [hnotBefore, List.not_lt] at hab
  apply Classical.byContradiction
  intro hnot
  exact hne (List.le_antisymm hab (List.not_lt.mp hnot))

end Collect

end WrenDocs
