import WrenDocs.Proofs.Lookup
import WrenDocs.Proofs.Path

/-! The file name of a path and its extension. Whatever leads to a name and whatever
follows it without leading on, the name is the same; the extension is what its last
dot sets off from something. -/
namespace WrenDocs.Path

/-- What may follow a name without leading anywhere: slashes, and dots that each
have a slash before them. -/
inductive IsIdle : Text → Prop
  | nil : IsIdle []
  | slash {back : Text} : IsIdle back → IsIdle ('/' :: back)
  | dot {back : Text} : IsIdle back → IsIdle ('/' :: '.' :: back)

/-- A path has a name as its file name: the name itself does, and so does every path
that leads to one that does. -/
inductive HasFileName : Text → Text → Prop
  | bare {name back : Text} : IsName name → IsIdle back → HasFileName (name ++ back) name
  | under {path name : Text} (directory : Text) :
      HasFileName path name → HasFileName (directory ++ '/' :: path) name

theorem components_append_slash (directory path : Text) :
    components (directory ++ '/' :: path) = components directory ++ components path := by
  rw [components, Text.splitOn_append_cons, List.filter_append]
  rfl

theorem components_append_idle {back : Text} (h : IsIdle back) (path : Text) :
    components (path ++ back) = components path := by
  induction h generalizing path with
  | nil => rw [List.append_nil]
  | @slash back _ ih =>
    have hslash : components (path ++ ['/']) = components path := by
      rw [components_append_slash]
      exact List.append_nil _
    rw [List.append_cons, ih, hslash]
  | @dot back _ ih =>
    have hdot : components (path ++ ['/', '.']) = components path := by
      rw [components_append_slash]
      exact List.append_nil _
    have hback : path ++ '/' :: '.' :: back = path ++ ['/', '.'] ++ back := by simp
    rw [hback, ih, hdot]

theorem fileName?_append_idle {back : Text} (h : IsIdle back) (path : Text) :
    fileName? (path ++ back) = fileName? path := by
  rw [fileName?, components_append_idle h]
  rfl

theorem fileName?_of_isName {name : Text} (h : IsName name) : fileName? name = some name := by
  have hcomponents : components name = [name] := by
    rw [components, splitOn_of_isName h]
    simp [h.ne_nil, h.ne_dot]
  rw [fileName?, hcomponents]
  exact if_neg h.ne_dots

theorem fileName?_of_hasFileName {path name : Text} (h : HasFileName path name) :
    fileName? path = some name := by
  induction h with
  | bare hname hback => rw [fileName?_append_idle hback, fileName?_of_isName hname]
  | @under path name directory _ ih =>
    have hlast : (components path).getLast? = some name ∧ name ≠ ['.', '.'] := by
      unfold fileName? at ih
      split at ih
      · cases ih
      · split at ih
        · cases ih
        · cases ih
          exact ⟨‹_›, ‹_›⟩
    rw [fileName?, components_append_slash, List.getLast?_append, hlast.1, Option.some_or]
    exact if_neg hlast.2

theorem isIdle_flatMap {parts : List Text} (h : ∀ part ∈ parts, part = [] ∨ part = ['.']) :
    IsIdle (parts.flatMap ('/' :: ·)) := by
  induction parts with
  | nil => exact .nil
  | cons part parts ih =>
    obtain ⟨hpart, hparts⟩ := List.forall_mem_cons.mp h
    rw [List.flatMap_cons]
    rcases hpart with rfl | rfl
    · exact .slash (ih hparts)
    · exact .dot (ih hparts)

/-- Among the parts of a path, what leads nowhere follows its file name. -/
theorem parts_of_fileName? {path name : Text} (h : fileName? path = some name) :
    IsName name ∧ ∃ before after, Text.splitOn '/' path = before ++ name :: after ∧
      ∀ part ∈ after, part = [] ∨ part = ['.'] := by
  unfold fileName? at h
  split at h
  · cases h
  · rename_i last hlast
    split at h
    · cases h
    · rename_i hdots
      cases h
      rw [components, List.getLast?_filter, find?_reverse_eq_some_iff] at hlast
      obtain ⟨before, after, hsplit, hname, hafter⟩ := hlast
      have hslash : '/' ∉ name := by
        apply Text.not_mem_of_mem_splitOn
        rw [← Text.splitOn_eq, hsplit]
        simp
      rw [decide_eq_true_eq] at hname
      refine ⟨⟨hname.1, hname.2, hdots, hslash⟩, before, after, hsplit, ?_⟩
      intro part hpart
      by_cases hnil : part = []
      · exact .inl hnil
      · have hidle := hafter part hpart
        simp only [ne_eq, hnil, not_false_eq_true, true_and, decide_not, Bool.not_eq_false',
          decide_eq_true_eq] at hidle
        exact .inr hidle

theorem hasFileName_of_fileName? {path name : Text} (h : fileName? path = some name) :
    HasFileName path name := by
  obtain ⟨hname, before, after, hsplit, hafter⟩ := parts_of_fileName? h
  have hbare : HasFileName (name ++ after.flatMap ('/' :: ·)) name :=
    .bare hname (isIdle_flatMap hafter)
  rw [← Text.joinWith_splitOn '/' path, hsplit]
  by_cases hbefore : before = []
  · rw [hbefore, List.nil_append, Text.joinWith_cons]
    exact hbare
  · rw [Text.joinWith_append '/' hbefore, List.flatMap_cons]
    exact .under _ hbare

theorem fileName?_eq_some_iff {path name : Text} :
    fileName? path = some name ↔ HasFileName path name :=
  ⟨hasFileName_of_fileName?, fileName?_of_hasFileName⟩

theorem hasFileName_unique {path name other : Text} (h : HasFileName path name)
    (hother : HasFileName path other) : name = other := by
  rw [← fileName?_eq_some_iff] at h hother
  exact Option.some.inj (h.symm.trans hother)

/-! ## Extensions -/

theorem afterDot_eq {stem extension : Text} (h : '.' ∉ extension) :
    ((stem ++ '.' :: extension).reverse.takeWhile (· != '.')).reverse = extension := by
  have hbefore : ∀ c ∈ extension.reverse, (c != '.') = true := by
    intro c hc
    apply bne_iff_ne.mpr
    rintro rfl
    exact h (List.mem_reverse.mp hc)
  rw [List.reverse_append, List.reverse_cons, List.append_assoc,
    List.takeWhile_append_of_pos hbefore]
  simp

/-- The last dot of a name sets off an extension, unless it is the first character. -/
theorem extension?_of_dot {path stem extension : Text} (hdot : '.' ∉ extension)
    (h : fileName? path = some (stem ++ '.' :: extension)) :
    extension? path = if stem = [] then none else some extension := by
  have hstem : (stem ++ '.' :: extension).take
      ((stem ++ '.' :: extension).length - extension.length - 1) = stem := by
    have hlength : (stem ++ '.' :: extension).length - extension.length - 1 = stem.length := by
      simp only [List.length_append, List.length_cons]
      omega
    rw [hlength, List.take_left]
  have hshorter : extension.length < (stem ++ '.' :: extension).length := by
    simp only [List.length_append, List.length_cons]
    omega
  rw [extension?, h, Option.bind_eq_bind, Option.bind_some]
  simp only [afterDot_eq hdot, hstem, hshorter, true_and, ne_eq, ite_not]

theorem extension?_of_no_dot {path name : Text} (hdot : '.' ∉ name)
    (h : fileName? path = some name) : extension? path = none := by
  have hall : name.reverse.takeWhile (· != '.') = name.reverse := by
    rw [← List.append_nil name.reverse, List.takeWhile_append_of_pos, List.takeWhile_nil]
    intro c hc
    apply bne_iff_ne.mpr
    rintro rfl
    exact hdot (List.mem_reverse.mp hc)
  rw [extension?, h, Option.bind_eq_bind, Option.bind_some]
  simp [hall]

theorem extension?_eq_some_iff {path extension : Text} : extension? path = some extension ↔
    ∃ stem, stem ≠ [] ∧ '.' ∉ extension ∧ fileName? path = some (stem ++ '.' :: extension) := by
  constructor
  · intro h
    cases hname : fileName? path with
    | none =>
      rw [extension?, hname] at h
      cases h
    | some name =>
      by_cases hdot : '.' ∈ name
      · obtain ⟨back, front, hback, hnot⟩ := List.eq_append_cons_of_mem (List.mem_reverse.mpr hdot)
        obtain rfl : name = front.reverse ++ '.' :: back.reverse := by
          rw [List.reverse_eq_iff.mp hback]
          simp
        have hnot' : '.' ∉ back.reverse := fun hmem => hnot (List.mem_reverse.mp hmem)
        rw [extension?_of_dot hnot' hname] at h
        split at h
        · cases h
        · cases h
          exact ⟨front.reverse, ‹_›, hnot', rfl⟩
      · rw [extension?_of_no_dot hdot hname] at h
        cases h
  · rintro ⟨stem, hstem, hdot, hname⟩
    rw [extension?_of_dot hdot hname, if_neg hstem]

end WrenDocs.Path
