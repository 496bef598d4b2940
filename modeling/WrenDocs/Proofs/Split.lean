import WrenDocs.Text.Split

/-! Cutting a text at a separator is the library's, and so is joining; the parts
between separators hold none. -/
namespace WrenDocs.Text

theorem splitOn_eq (separator : Char) (text : Text) :
    splitOn separator text = List.splitOn separator text := by
  induction text with
  | nil => simp [splitOn]
  | cons c text ih =>
    rw [List.splitOn_eq_splitOnP] at ih ⊢
    rw [splitOn, List.splitOnP_cons_eq_if_modifyHead, ← ih]
    split
    · rename_i hnil
      exact absurd hnil (splitOn_ne_nil separator text)
    · rename_i part parts hparts
      rw [hparts]
      simp

theorem joinWith_eq (separator : Char) (parts : List Text) :
    joinWith separator parts = [separator].intercalate parts := by
  induction parts with
  | nil => rfl
  | cons part parts ih =>
    cases parts with
    | nil => simp [joinWith]
    | cons next parts =>
      rw [joinWith, ih, List.intercalate_cons_cons]
      · simp
      · simp

theorem splitOn_append_cons (separator : Char) (front back : Text) :
    splitOn separator (front ++ separator :: back) =
      splitOn separator front ++ splitOn separator back := by
  simp only [splitOn_eq, List.splitOn_eq_splitOnP]
  exact List.splitOnP_append_cons front back (by simp)

theorem joinWith_cons (separator : Char) (part : Text) (parts : List Text) :
    joinWith separator (part :: parts) = part ++ parts.flatMap (separator :: ·) := by
  induction parts generalizing part with
  | nil => simp [joinWith]
  | cons next parts ih =>
    rw [joinWith, ih, List.flatMap_cons, List.cons_append]
    simp

/-- Each part that is added to others comes after a separator. -/
theorem joinWith_append (separator : Char) {parts : List Text} (h : parts ≠ [])
    (more : List Text) : joinWith separator (parts ++ more) =
      joinWith separator parts ++ more.flatMap (separator :: ·) := by
  obtain ⟨part, parts, rfl⟩ := List.exists_cons_of_ne_nil h
  rw [List.cons_append, joinWith_cons, joinWith_cons, List.flatMap_append, List.append_assoc]

/-- No part between separators holds one. -/
theorem not_mem_of_mem_splitOn {α : Type} [BEq α] [LawfulBEq α] {separator : α} {items part : List α}
    (h : part ∈ items.splitOn separator) : separator ∉ part := by
  induction items generalizing part with
  | nil => simp_all
  | cons item items ih =>
    rw [List.splitOn_eq_splitOnP] at h ih
    rw [List.splitOnP_cons_eq_if_modifyHead] at h
    split at h
    · rcases List.mem_cons.mp h with rfl | h
      · simp
      · exact ih h
    · rename_i hitem
      obtain ⟨first, parts, hparts⟩ := List.exists_cons_of_ne_nil
        (List.splitOnP_ne_nil (· == separator) items)
      rw [hparts, List.modifyHead_cons] at h
      rw [hparts] at ih
      rcases List.mem_cons.mp h with rfl | h
      · have hne : separator ≠ item := fun heq => hitem (by simp [heq])
        simp [hne, ih List.mem_cons_self]
      · exact ih (List.mem_cons_of_mem first h)

theorem mem_intercalate {α : Type} {item separator : α} {groups : List (List α)}
    (h : item ∈ [separator].intercalate groups) :
    item = separator ∨ ∃ group ∈ groups, item ∈ group := by
  induction groups with
  | nil => simp at h
  | cons group groups ih =>
    cases groups with
    | nil => exact .inr ⟨group, by simp, by simpa using h⟩
    | cons next groups =>
      rw [List.intercalate_cons_cons, List.append_assoc] at h
      rcases List.mem_append.mp h with h | h
      · exact .inr ⟨group, by simp, h⟩
      · rcases List.mem_cons.mp h with rfl | h
        · exact .inl rfl
        · rcases ih h with heq | ⟨found, hfound, hitem⟩
          · exact .inl heq
          · exact .inr ⟨found, List.mem_cons_of_mem group hfound, hitem⟩

theorem mem_intercalate_of_mem {α : Type} {item separator : α} {groups : List (List α)}
    {group : List α} (hgroup : group ∈ groups) (hitem : item ∈ group) :
    item ∈ [separator].intercalate groups := by
  induction groups with
  | nil => simp at hgroup
  | cons first groups ih =>
    cases groups with
    | nil =>
      obtain rfl := List.mem_singleton.mp hgroup
      simpa using hitem
    | cons next groups =>
      rw [List.intercalate_cons_cons]
      rcases List.mem_cons.mp hgroup with rfl | hgroup
      · simp [hitem]
      · exact List.mem_append_right _ (ih hgroup)

/-- Joining goes before or after a function that writes each item. -/
theorem flatMap_intercalate {α β : Type} (write : α → List β) (separator : α)
    (groups : List (List α)) : ([separator].intercalate groups).flatMap write =
      (write separator).intercalate (groups.map (·.flatMap write)) := by
  induction groups with
  | nil => rfl
  | cons group groups ih =>
    cases groups with
    | nil => simp
    | cons next groups =>
      simp only [List.intercalate_cons_cons, List.flatMap_append, ih, List.map_cons,
        List.flatMap_cons, List.flatMap_nil, List.append_nil]

/-- Lines that each end in a newline and hold no other are found again between the
newlines; only the empty text follows the last. -/
theorem splitOn_lines {lines : List Text} (h : ∀ line ∈ lines, '\n' ∉ line) :
    splitOn '\n' (lines.flatMap (· ++ ['\n'])) = lines ++ [[]] := by
  have hjoined : lines.flatMap (· ++ ['\n']) = ['\n'].intercalate (lines ++ [[]]) := by
    induction lines with
    | nil => rfl
    | cons line lines ih =>
      obtain ⟨next, rest, hrest⟩ := List.exists_cons_of_ne_nil
        (List.append_ne_nil_of_right_ne_nil lines (List.cons_ne_nil [] []))
      rw [List.flatMap_cons, ih fun line hline => h line (List.mem_cons_of_mem _ hline),
        List.cons_append, hrest, List.intercalate_cons_cons]
  rw [splitOn_eq, hjoined]
  refine List.splitOn_intercalate '\n' (fun line hline => ?_) (by simp)
  rcases List.mem_append.mp hline with hline | hline
  · exact h line hline
  · simp_all

end WrenDocs.Text
