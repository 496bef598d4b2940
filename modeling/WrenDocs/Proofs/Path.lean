import WrenDocs.Path
import WrenDocs.Proofs.Split

/-! Paths that are built name by name. A name inside a directory is the last
component of its path, whatever the spelling of the directory is. -/
namespace WrenDocs.Path

/-- What an entry of a directory can be called: the empty name and the two dotted
ones lead elsewhere, and a slash would make two names of it. -/
structure IsName (name : Text) : Prop where
  ne_nil : name ≠ []
  ne_dot : name ≠ ['.']
  ne_dots : name ≠ ['.', '.']
  no_slash : '/' ∉ name

instance (name : Text) : Decidable (IsName name) :=
  decidable_of_iff (name ≠ [] ∧ name ≠ ['.'] ∧ name ≠ ['.', '.'] ∧ '/' ∉ name)
    ⟨fun h => ⟨h.1, h.2.1, h.2.2.1, h.2.2.2⟩,
      fun h => ⟨h.ne_nil, h.ne_dot, h.ne_dots, h.no_slash⟩⟩

/-- The path that leads from a directory through one name after the other. -/
def below (directory : Text) (names : List Text) : Text :=
  names.foldl join directory

/-- The same path, spelled from the working directory on. -/
def fromHere (path : Text) : Text :=
  '.' :: '/' :: path

@[simp] theorem below_nil (directory : Text) : below directory [] = directory := rfl

@[simp] theorem below_cons (directory name : Text) (names : List Text) :
    below directory (name :: names) = below (join directory name) names := rfl

/-- A directory ends in a slash or is empty, or the name is set off by a slash. -/
theorem join_cases (directory name : Text) :
    (directory = [] ∧ join directory name = name) ∨
    (∃ front, directory = front ++ ['/'] ∧ join directory name = front ++ '/' :: name) ∨
    (directory ≠ [] ∧ join directory name = directory ++ '/' :: name) := by
  unfold join
  obtain rfl | ⟨front, c, rfl⟩ := List.eq_nil_or_concat directory
  · exact .inl ⟨rfl, rfl⟩
  · rw [List.concat_eq_append, List.getLast?_concat]
    by_cases hslash : c = '/'
    · rw [hslash]
      exact .inr (.inl ⟨front, rfl, by simp⟩)
    · refine .inr (.inr ⟨by simp, ?_⟩)
      split
      · rename_i hnone
        cases hnone
      · rename_i hsome
        cases hsome
        exact absurd rfl hslash
      · rfl

theorem head?_join {directory : Text} (h : directory ≠ []) (name : Text) :
    (join directory name).head? = directory.head? := by
  obtain ⟨rfl, -⟩ | ⟨front, rfl, hjoin⟩ | ⟨-, hjoin⟩ := join_cases directory name
  · exact absurd rfl h
  · rw [hjoin]
    cases front <;> rfl
  · obtain ⟨c, directory, rfl⟩ := List.exists_cons_of_ne_nil h
    rw [hjoin]
    rfl

theorem join_ne_nil {directory : Text} (h : directory ≠ []) (name : Text) :
    join directory name ≠ [] := by
  intro hnil
  have hhead := head?_join h name
  rw [hnil, List.head?_nil] at hhead
  exact h (List.head?_eq_none_iff.mp hhead.symm)

theorem below_ne_nil {directory : Text} (h : directory ≠ []) (names : List Text) :
    below directory names ≠ [] := by
  induction names generalizing directory with
  | nil => exact h
  | cons name names ih => exact ih (join_ne_nil h name)

theorem head?_below {directory : Text} (h : directory ≠ []) (names : List Text) :
    (below directory names).head? = directory.head? := by
  induction names generalizing directory with
  | nil => rfl
  | cons name names ih => rw [below_cons, ih (join_ne_nil h name), head?_join h]

/-- Below a directory there is always a slash between the two. -/
theorem slash_mem_join {directory : Text} (h : directory ≠ []) (name : Text) :
    '/' ∈ join directory name := by
  obtain ⟨rfl, -⟩ | ⟨front, rfl, hjoin⟩ | ⟨-, hjoin⟩ := join_cases directory name
  · exact absurd rfl h
  · simp [hjoin]
  · simp [hjoin]

theorem mem_join_of_mem {directory : Text} {c : Char} (h : c ∈ directory) (name : Text) :
    c ∈ join directory name := by
  obtain ⟨rfl, -⟩ | ⟨front, rfl, hjoin⟩ | ⟨-, hjoin⟩ := join_cases directory name
  · simp at h
  · rw [hjoin, List.append_cons]
    exact List.mem_append_left name h
  · rw [hjoin]
    exact List.mem_append_left _ h

theorem slash_mem_below {directory : Text} (h : directory ≠ []) {names : List Text}
    (hnames : names ≠ []) : '/' ∈ below directory names := by
  cases names with
  | nil => exact absurd rfl hnames
  | cons name names =>
    have hkeeps (names : List Text) : ∀ {path : Text}, '/' ∈ path → '/' ∈ below path names := by
      induction names with
      | nil => exact id
      | cons name names ih => exact fun hslash => ih (mem_join_of_mem hslash name)
    exact hkeeps names (slash_mem_join h name)

/-! ## Parts of a path -/

theorem splitOn_of_isName {name : Text} (h : IsName name) : Text.splitOn '/' name = [name] := by
  rw [Text.splitOn_eq, List.splitOn_eq_singleton h.no_slash]

/-- A name comes last among the parts of its path, in place of an empty part if
the directory ends with one. -/
theorem splitOn_join (directory : Text) {name : Text} (h : IsName name) :
    Text.splitOn '/' (join directory name) = Text.splitOn '/' directory ++ [name] ∨
    ∃ parts, Text.splitOn '/' directory = parts ++ [[]] ∧
      Text.splitOn '/' (join directory name) = parts ++ [name] := by
  obtain ⟨rfl, hjoin⟩ | ⟨front, rfl, hjoin⟩ | ⟨-, hjoin⟩ := join_cases directory name
  · exact .inr ⟨[], rfl, by rw [hjoin, splitOn_of_isName h, List.nil_append]⟩
  · refine .inr ⟨Text.splitOn '/' front, Text.splitOn_append_cons '/' front [], ?_⟩
    rw [hjoin, Text.splitOn_append_cons, splitOn_of_isName h]
  · rw [hjoin, Text.splitOn_append_cons, splitOn_of_isName h]
    exact .inl rfl

theorem components_join (directory : Text) {name : Text} (h : IsName name) :
    components (join directory name) = components directory ++ [name] := by
  have hname : [name].filter (fun part => part ≠ [] ∧ part ≠ ['.']) = [name] := by
    simp [h.ne_nil, h.ne_dot]
  unfold components
  obtain hsplit | ⟨parts, hdirectory, hsplit⟩ := splitOn_join directory h
  · rw [hsplit, List.filter_append, hname]
  · rw [hsplit, hdirectory, List.filter_append, List.filter_append, hname]
    simp

theorem components_below (directory : Text) {names : List Text} (h : ∀ name ∈ names, IsName name) :
    components (below directory names) = components directory ++ names := by
  induction names generalizing directory with
  | nil => simp
  | cons name names ih =>
    obtain ⟨hname, hnames⟩ := List.forall_mem_cons.mp h
    rw [below_cons, ih _ hnames, components_join directory hname, List.append_assoc,
      List.singleton_append]

theorem fileName?_below (directory : Text) {names : List Text} {name : Text}
    (h : ∀ name ∈ names, IsName name) (hlast : names.getLast? = some name) :
    fileName? (below directory names) = some name := by
  have hmem := List.mem_of_getLast? hlast
  rw [fileName?, components_below directory h, List.getLast?_append, hlast, Option.some_or]
  exact if_neg (h name hmem).ne_dots

/-- From one directory names lead to different paths. -/
theorem below_inj {directory : Text} {names others : List Text} (h : ∀ name ∈ names, IsName name)
    (hothers : ∀ name ∈ others, IsName name) (heq : below directory names = below directory others) :
    names = others := by
  have hcomponents := congrArg components heq
  rw [components_below directory h, components_below directory hothers] at hcomponents
  exact List.append_cancel_left hcomponents

/-! ## The spelling from the working directory on -/

theorem splitOn_fromHere (path : Text) :
    Text.splitOn '/' (fromHere path) = ['.'] :: Text.splitOn '/' path :=
  Text.splitOn_append_cons '/' ['.'] path

theorem components_fromHere (path : Text) : components (fromHere path) = components path := by
  rw [components, splitOn_fromHere, List.filter_cons_of_neg (by simp)]
  rfl

theorem fileName?_fromHere (path : Text) : fileName? (fromHere path) = fileName? path := by
  rw [fileName?, components_fromHere]
  rfl

theorem join_fromHere (directory name : Text) :
    join (fromHere directory) name = fromHere (join directory name) := by
  cases directory with
  | nil => rfl
  | cons c directory =>
    have hlast : (fromHere (c :: directory)).getLast? = (c :: directory).getLast? := by
      rw [fromHere, List.getLast?_cons_cons, List.getLast?_cons_cons]
    unfold join
    rw [hlast]
    split
    · rename_i hnone
      simp at hnone
    · rfl
    · rfl

theorem below_fromHere (directory : Text) (names : List Text) :
    below (fromHere directory) names = fromHere (below directory names) := by
  induction names generalizing directory with
  | nil => rfl
  | cons name names ih => rw [below_cons, join_fromHere, ih, below_cons]

theorem fromHere_inj {path other : Text} (h : fromHere path = fromHere other) : path = other := by
  simpa [fromHere] using h

end WrenDocs.Path
