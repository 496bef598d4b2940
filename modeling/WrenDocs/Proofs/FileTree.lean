import WrenDocs.FileSystem
import WrenDocs.Proofs.Lookup
import WrenDocs.Proofs.Path

/-! Trees of files, and where paths lead in them. A path that is built name by
name leads where the names lead, one directory inside the other. -/
namespace WrenDocs

namespace Entry

/-- A tree as a disk holds it: the entries of a directory have different names,
and each of them is a name. -/
inductive WellFormed : Entry → Prop where
  | file (contents : ByteArray) : WellFormed (.file contents)
  | unreadable (cause : ReadError) : WellFormed (.unreadable cause)
  | directory {entries : List (String × Entry)} :
      (entries.map Prod.fst).Nodup → (∀ found ∈ entries, Path.IsName found.1.toList) →
      (∀ found ∈ entries, WellFormed found.2) → WellFormed (.directory entries)

theorem WellFormed.empty : (Entry.directory []).WellFormed :=
  .directory .nil (List.forall_mem_nil _) (List.forall_mem_nil _)

theorem WellFormed.single {name : String} {entry : Entry} (hname : Path.IsName name.toList)
    (h : entry.WellFormed) : (Entry.directory [(name, entry)]).WellFormed :=
  .directory (List.pairwise_singleton _ name) (List.forall_mem_singleton.mpr hname)
    (List.forall_mem_singleton.mpr h)

/-- A file that a text was written to is read as that text. -/
theorem readText_toUTF8 (text : String) : (file text.toUTF8).readText = .ok text.toList := by
  have htext : String.fromUTF8? text.toUTF8 = some text := dif_pos text.isValidUTF8
  rw [readText, htext]

/-- The entry that a directory has under a name. -/
def child? (entry : Entry) (name : Text) : Option Entry :=
  match entry with
  | file _ | unreadable _ => none
  | directory entries => entries.lookup (String.ofList name)

/-- The entry to which names lead, one inside the other. -/
def descend? (entry : Entry) : List Text → Option Entry
  | [] => some entry
  | name :: names => (entry.child? name).bind (descend? · names)

theorem WellFormed.child {entry found : Entry} {name : Text} (h : entry.WellFormed)
    (hfound : entry.child? name = some found) : Path.IsName name ∧ found.WellFormed := by
  cases h with
  | file | unreadable => simp [child?] at hfound
  | directory hnodup hnames hentries =>
    have hmem := (lookup_eq_some_iff_mem hnodup).mp hfound
    have hname := hnames _ hmem
    rw [String.toList_ofList] at hname
    exact ⟨hname, hentries _ hmem⟩

/-! ## Where paths lead -/

theorem follow_cons (above : List Entry) (entries : List (String × Entry)) (part : Text)
    (parts : List Text) :
    follow above (directory entries) (part :: parts) =
      if part = [] ∨ part = ['.'] then follow above (directory entries) parts
      else if part = ['.', '.'] then
        match above with
        | [] => follow [] (directory []) parts
        | parent :: above => follow above parent parts
      else
        match entries.lookup (String.ofList part) with
        | none => .error .notFound
        | some entry => follow (directory entries :: above) entry parts := by
  cases above <;> rfl

/-- The last part of a path is looked for in what the parts before it lead to;
only the part that leads up asks for more. -/
theorem follow_concat {part : Text} (h : part ≠ ['.', '.']) (above : List Entry) (here : Entry)
    (parts : List Text) :
    follow above here (parts ++ [part]) =
      (follow above here parts).bind fun entry => follow [] entry [part] := by
  induction parts generalizing above here with
  | nil =>
    cases here with
    | file | unreadable => rfl
    | directory entries =>
      change follow above (directory entries) [part] = follow [] (directory entries) [part]
      rw [follow_cons, follow_cons, if_neg h, if_neg h]
      split
      · rfl
      · split <;> rfl
  | cons first parts ih =>
    cases here with
    | file | unreadable => rfl
    | directory entries =>
      rw [List.cons_append, follow_cons, follow_cons above entries first parts]
      split
      · exact ih above _
      · split
        · split
          · exact ih [] _
          · exact ih _ _
        · split
          · rfl
          · exact ih _ _

theorem follow_empty {entry found : Entry} :
    follow [] entry [[]] = .ok found ↔ entry = found ∧ entry.isDirectory = true := by
  cases entry with
  | file | unreadable => simp [follow, isDirectory]
  | directory entries => simp [follow, isDirectory]

theorem follow_name {entry found : Entry} {name : Text} (h : Path.IsName name) :
    follow [] entry [name] = .ok found ↔ entry.child? name = some found := by
  cases entry with
  | file | unreadable => simp [follow, child?]
  | directory entries =>
    rw [follow_cons, if_neg (by simp [h.ne_nil, h.ne_dot]), if_neg h.ne_dots, child?]
    split
    · rename_i hnone
      simp [hnone]
    · rename_i entry hsome
      simp [hsome, follow]

theorem isDirectory_of_child? {entry found : Entry} {name : Text}
    (h : entry.child? name = some found) : entry.isDirectory = true := by
  cases entry with
  | file | unreadable => simp [child?] at h
  | directory => rfl

end Entry

namespace FileSystem
open Entry

/-- Where a path begins: at the top if it begins with a slash. -/
def topOf (root : Entry) (path : Text) : Entry :=
  if path.head? = some '/' then .directory [] else root

theorem lookup_ofTree {path : Text} (h : path ≠ []) (root : Entry) :
    (ofTree root).lookup path = follow [] (topOf root path) (Text.splitOn '/' path) := by
  cases path with
  | nil => exact absurd rfl h
  | cons c path =>
    by_cases hslash : c = '/'
    · have hsplit : Text.splitOn '/' ('/' :: path) = [] :: Text.splitOn '/' path :=
        Text.splitOn_append_cons '/' [] path
      rw [hslash, hsplit]
      rfl
    · rw [topOf, if_neg (by simpa using hslash)]
      unfold ofTree
      dsimp only
      split
      · contradiction
      · rename_i heq
        cases heq
        exact absurd rfl hslash
      · rfl

theorem ne_nil_of_lookup {root entry : Entry} {path : Text}
    (h : (ofTree root).lookup path = .ok entry) : path ≠ [] := by
  rintro rfl
  simp [ofTree] at h

/-- A name inside a directory leads to its entry of that name. -/
theorem lookup_join_iff {root found : Entry} {directory name : Text} (hne : directory ≠ [])
    (hname : Path.IsName name) :
    (ofTree root).lookup (Path.join directory name) = .ok found ↔
      ∃ entry, (ofTree root).lookup directory = .ok entry ∧ entry.child? name = some found := by
  have htop : topOf root (Path.join directory name) = topOf root directory := by
    rw [topOf, topOf, Path.head?_join hne]
  rw [lookup_ofTree (Path.join_ne_nil hne name), lookup_ofTree hne, htop]
  obtain hsplit | ⟨parts, hdirectory, hsplit⟩ := Path.splitOn_join directory hname
  · rw [hsplit, follow_concat hname.ne_dots]
    cases hfollow : follow [] (topOf root directory) (Text.splitOn '/' directory) with
    | error cause => simp [Except.bind]
    | ok entry =>
      simp only [Except.bind, follow_name hname, Except.ok.injEq, exists_eq_left']
  · rw [hsplit, hdirectory, follow_concat hname.ne_dots, follow_concat (by simp)]
    cases hfollow : follow [] (topOf root directory) parts with
    | error cause => simp [Except.bind]
    | ok entry =>
      simp only [Except.bind, follow_name hname, follow_empty]
      constructor
      · intro hchild
        exact ⟨entry, ⟨rfl, isDirectory_of_child? hchild⟩, hchild⟩
      · rintro ⟨_, ⟨rfl, -⟩, hchild⟩
        exact hchild

theorem lookup_below_iff {root found : Entry} {directory : Text} {names : List Text}
    (hne : directory ≠ []) (hnames : ∀ name ∈ names, Path.IsName name) :
    (ofTree root).lookup (Path.below directory names) = .ok found ↔
      ∃ entry, (ofTree root).lookup directory = .ok entry ∧ entry.descend? names = some found := by
  induction names generalizing directory with
  | nil => simp [descend?]
  | cons name names ih =>
    obtain ⟨hname, hnames⟩ := List.forall_mem_cons.mp hnames
    rw [Path.below_cons, ih (Path.join_ne_nil hne name) hnames]
    simp only [lookup_join_iff hne hname, descend?, Option.bind_eq_some_iff]
    constructor
    · rintro ⟨inner, ⟨entry, hentry, hinner⟩, hfound⟩
      exact ⟨entry, hentry, inner, hinner, hfound⟩
    · rintro ⟨entry, hentry, inner, hinner, hfound⟩
      exact ⟨inner, ⟨entry, hentry, hinner⟩, hfound⟩

theorem isDirectory_iff {files : FileSystem} {path : Text} :
    files.isDirectory path = true ↔ ∃ entries, files.lookup path = .ok (.directory entries) := by
  unfold isDirectory
  split
  · rename_i entry hentry
    cases entry with
    | file | unreadable | directory => simp [hentry, Entry.isDirectory]
  · rename_i hentry
    simp [hentry]

theorem isFile_iff {files : FileSystem} {path : Text} :
    files.isFile path = true ↔
      ∃ entry, files.lookup path = .ok entry ∧ entry.isDirectory = false := by
  unfold isFile
  split
  · rename_i entry hentry
    simp [hentry]
  · rename_i hentry
    simp [hentry]

theorem ne_nil_of_isDirectory {root : Entry} {path : Text}
    (h : (ofTree root).isDirectory path = true) : path ≠ [] := by
  obtain ⟨entries, hlookup⟩ := isDirectory_iff.mp h
  exact ne_nil_of_lookup hlookup

end FileSystem

namespace Entry

theorem WellFormed.follow {above : List Entry} {here found : Entry} {parts : List Text}
    (habove : ∀ entry ∈ above, entry.WellFormed) (h : here.WellFormed)
    (hfound : follow above here parts = .ok found) : found.WellFormed := by
  induction parts generalizing above here with
  | nil =>
    cases hfound
    exact h
  | cons part parts ih =>
    cases here with
    | file | unreadable => simp [Entry.follow] at hfound
    | directory entries =>
      rw [follow_cons] at hfound
      split at hfound
      · exact ih habove h hfound
      · split at hfound
        · split at hfound
          · exact ih (by simp) .empty hfound
          · obtain ⟨hparent, habove⟩ := List.forall_mem_cons.mp habove
            exact ih habove hparent hfound
        · split at hfound
          · simp at hfound
          · rename_i entry hentry
            have hchild : (Entry.directory entries).child? part = some entry := hentry
            exact ih (List.forall_mem_cons.mpr ⟨h, habove⟩) (h.child hchild).2 hfound

theorem WellFormed.lookup {root found : Entry} {path : Text} (h : root.WellFormed)
    (hfound : (FileSystem.ofTree root).lookup path = .ok found) : found.WellFormed := by
  rw [FileSystem.lookup_ofTree (FileSystem.ne_nil_of_lookup hfound)] at hfound
  refine WellFormed.follow (by simp) ?_ hfound
  unfold FileSystem.topOf
  split
  · exact .empty
  · exact h

theorem WellFormed.isName_of_descend? {entry found : Entry} {names : List Text}
    (h : entry.WellFormed) (hfound : entry.descend? names = some found) :
    ∀ name ∈ names, Path.IsName name := by
  induction names generalizing entry with
  | nil => simp
  | cons name names ih =>
    obtain ⟨inner, hinner, hfound⟩ := Option.bind_eq_some_iff.mp hfound
    obtain ⟨hname, hwellFormed⟩ := h.child hinner
    exact List.forall_mem_cons.mpr ⟨hname, ih hwellFormed hfound⟩

end Entry

end WrenDocs
