import WrenDocs.Proofs.Grammar
import WrenDocs.Proofs.Html.Entity

/-! Entities undone one after the other. Each of them is replaced everywhere before the
next is looked for, so a replacement might make an entity that was not there. That of `&`
comes last, and then none does: what is replaced is what was escaped. -/
namespace WrenDocs

/-- A text in which another, which is not empty, is replaced wherever it occurs, from left
to right. -/
def Text.replaceAll (found replacement : Text) : Text → Text
  | [] => []
  | c :: text =>
    if found.isPrefixOf (c :: text) then
      replacement ++ replaceAll found replacement (text.drop (found.length - 1))
    else c :: replaceAll found replacement text
termination_by text => text.length
decreasing_by
  · simp only [List.length_drop, List.length_cons]
    omega
  · simp only [List.length_cons]
    omega

namespace Text

theorem replaceAll_found {found : Text} (hne : found ≠ []) (replacement rest : Text) :
    replaceAll found replacement (found ++ rest) =
      replacement ++ replaceAll found replacement rest := by
  obtain ⟨c, tail, rfl⟩ := List.exists_cons_of_ne_nil hne
  have hprefix : (c :: tail).isPrefixOf (c :: (tail ++ rest)) = true :=
    List.isPrefixOf_iff_prefix.mpr ⟨rest, rfl⟩
  rw [List.cons_append, replaceAll, if_pos hprefix, List.length_cons, Nat.add_sub_cancel,
    List.drop_left]

/-- What does not begin anywhere in a part of a text leaves the part as it is. -/
theorem replaceAll_passed {found part rest : Text}
    (h : ∀ back, back <:+ part → back ≠ [] → ¬ found <+: back ++ rest) (replacement : Text) :
    replaceAll found replacement (part ++ rest) = part ++ replaceAll found replacement rest := by
  induction part with
  | nil => rfl
  | cons c part ih =>
    have hhere : ¬ found.isPrefixOf (c :: (part ++ rest)) = true := fun hprefix =>
      h _ List.suffix_rfl (List.cons_ne_nil c part) (List.isPrefixOf_iff_prefix.mp hprefix)
    have hlater : ∀ back, back <:+ part → back ≠ [] → ¬ found <+: back ++ rest :=
      fun back hback => h back (hback.trans (List.suffix_cons c part))
    rw [List.cons_append, replaceAll, if_neg hhere, ih hlater, List.cons_append]

end Text

namespace Html

/-- The characters that have an entity, that of `&` last. -/
def escapedChars : List Char :=
  ['<', '>', '"', '\'', '&']

theorem escapeChar_of_not_mem {c : Char} (h : c ∉ escapedChars) : escapeChar c = [c] := by
  rw [escapeChar.eq_def]
  split
  case h_6 => rfl
  all_goals exact absurd (by decide) h

theorem escapeChar_mem_entities {c : Char} (h : c ∈ escapedChars) : escapeChar c ∈ entities := by
  have htable : escapedChars.all (fun c => entities.contains (escapeChar c)) = true := by decide
  exact List.contains_iff_mem.mp (List.all_eq_true.mp htable c h)

/-- An entity has its `&` in front and no other. -/
theorem exists_name {c : Char} (h : c ∈ escapedChars) :
    ∃ name, escapeChar c = '&' :: name ∧ '&' ∉ name := by
  have hall : escapedChars.all (fun c =>
      (escapeChar c).head? == some '&' && !(escapeChar c).tail.contains '&') = true := by decide
  obtain ⟨hhead, htail⟩ := Bool.and_eq_true_iff.mp (List.all_eq_true.mp hall c h)
  obtain ⟨name, hname⟩ := List.head?_eq_some_iff.mp (eq_of_beq hhead)
  refine ⟨name, hname, ?_⟩
  simpa [hname] using htail

/-- No entity begins with another. -/
theorem entity_unique {c d : Char} (hc : c ∈ escapedChars) (hd : d ∈ escapedChars)
    {rest : Text} (h : escapeChar c <+: escapeChar d ++ rest) : c = d := by
  have hall : escapedChars.all (fun c => escapedChars.all fun d =>
      !(escapeChar c).isPrefixOf (escapeChar d) || c == d) = true := by decide
  have hbegins {c d : Char} (hc : c ∈ escapedChars) (hd : d ∈ escapedChars)
      (h : escapeChar c <+: escapeChar d) : c = d := by
    have hpair := List.all_eq_true.mp (List.all_eq_true.mp hall c hc) d hd
    simpa [List.isPrefixOf_iff_prefix.mpr h] using hpair
  rcases List.prefix_or_prefix_of_prefix h (List.prefix_append _ rest) with h | h
  · exact hbegins hc hd h
  · exact (hbegins hd hc h).symm

/-- Where a `&` stands in what a character is escaped to, the whole of it stands. -/
theorem entity_of_ampersand {c : Char} {back : Text} (h : '&' :: back <:+ escapeChar c) :
    c ∈ escapedChars ∧ '&' :: back = escapeChar c := by
  by_cases hc : c ∈ escapedChars
  · refine ⟨hc, ?_⟩
    obtain ⟨name, hname, hfree⟩ := exists_name hc
    rw [hname] at h ⊢
    rcases List.suffix_cons_iff.mp h with heq | hinside
    · exact heq
    · exact absurd (hinside.subset List.mem_cons_self) hfree
  · rw [escapeChar_of_not_mem hc] at h
    obtain rfl : c = '&' := (List.mem_singleton.mp (h.subset List.mem_cons_self)).symm
    exact absurd (by decide) hc

/-- Every `&` in an escaped text begins an entity. -/
theorem exists_entity_of_ampersand {text front back : Text}
    (h : escape text = front ++ '&' :: back) : ∃ entity ∈ entities, entity <+: '&' :: back := by
  induction text generalizing front with
  | nil =>
    have hnil : ([] : Text) = front ++ '&' :: back := h
    simp at hnil
  | cons c text ih =>
    rw [escape, List.flatMap_cons, ← escape] at h
    rcases Grammar.append_eq_append_cons h with ⟨inner, hchar, rfl⟩ | ⟨inner, -, hrest⟩
    · obtain ⟨hc, hentity⟩ := entity_of_ampersand ⟨front, hchar.symm⟩
      refine ⟨escapeChar c, escapeChar_mem_entities hc, ?_⟩
      rw [← hentity]
      exact List.prefix_append ('&' :: inner) (escape text)
    · exact ih hrest

/-! ## One entity after the other -/

/-- A text with some of its characters escaped. -/
def escapeOnly (chars : List Char) (text : Text) : Text :=
  text.flatMap fun c => if c ∈ chars then escapeChar c else [c]

theorem escapeOnly_escapedChars (text : Text) : escapeOnly escapedChars text = escape text := by
  rw [escapeOnly, escape]
  congr 1
  funext c
  split
  · rfl
  · rename_i hc
    exact (escapeChar_of_not_mem hc).symm

/-- While `&` is escaped an entity stands only for its own character. -/
theorem not_entity_prefix {c d : Char} {chars : List Char} (hc : c ∈ escapedChars) (hne : d ≠ c)
    (hampersand : '&' ∈ c :: chars) {back rest : Text} (hback : back ≠ [])
    (h : back <:+ if d ∈ c :: chars then escapeChar d else [d]) :
    ¬ escapeChar c <+: back ++ rest := by
  intro hprefix
  obtain ⟨name, hname, -⟩ := exists_name hc
  obtain ⟨first, back, rfl⟩ := List.exists_cons_of_ne_nil hback
  obtain rfl : '&' = first := by
    rw [hname, List.cons_append, List.cons_prefix_cons] at hprefix
    exact hprefix.1
  split at h
  · obtain ⟨hd, heq⟩ := entity_of_ampersand h
    rw [heq] at hprefix
    exact hne (entity_unique hc hd hprefix).symm
  · rename_i hd
    rw [← List.mem_singleton.mp (h.subset List.mem_cons_self)] at hd
    exact hd hampersand

/-- Undoing one entity undoes the escaping of its character, and of no other. -/
theorem replaceAll_escapeOnly {c : Char} {chars : List Char} (hc : c ∈ escapedChars)
    (hnot : c ∉ chars) (hampersand : '&' ∈ c :: chars) (text : Text) :
    Text.replaceAll (escapeChar c) [c] (escapeOnly (c :: chars) text) = escapeOnly chars text := by
  induction text with
  | nil => simp [escapeOnly, Text.replaceAll]
  | cons d text ih =>
    simp only [escapeOnly, List.flatMap_cons] at ih ⊢
    by_cases hd : d = c
    · subst hd
      have hne : escapeChar d ≠ [] := by
        obtain ⟨name, hname, -⟩ := exists_name hc
        rw [hname]
        exact List.cons_ne_nil '&' name
      rw [if_pos List.mem_cons_self, if_neg hnot, Text.replaceAll_found hne, ih]
    · have hsame : d ∈ c :: chars ↔ d ∈ chars := by simp [hd]
      rw [Text.replaceAll_passed fun back hback hne =>
        not_entity_prefix hc hd hampersand hne hback, ih]
      simp only [hsame]

/-- A text with the entities of some characters undone, one after the other. -/
def undoInOrder (chars : List Char) (text : Text) : Text :=
  chars.foldl (fun text c => Text.replaceAll (escapeChar c) [c] text) text

/-- In whatever order the entities are undone, with that of `&` last they are. -/
theorem undoInOrder_escapeOnly {chars : List Char} (hchars : ∀ c ∈ chars, c ∈ escapedChars)
    (hdistinct : chars.Nodup) (hlast : chars = [] ∨ chars.getLast? = some '&') (text : Text) :
    undoInOrder chars (escapeOnly chars text) = text := by
  induction chars with
  | nil => simp [undoInOrder, escapeOnly]
  | cons c chars ih =>
    obtain ⟨hc, hchars⟩ := List.forall_mem_cons.mp hchars
    obtain ⟨hnot, hdistinct⟩ := List.nodup_cons.mp hdistinct
    have hampersand : '&' ∈ c :: chars :=
      List.mem_of_getLast? (hlast.resolve_left (List.cons_ne_nil c chars))
    have hlast' : chars = [] ∨ chars.getLast? = some '&' := by
      cases chars with
      | nil => exact .inl rfl
      | cons d chars =>
        refine .inr ?_
        rw [← List.getLast?_cons_cons (a := c)]
        exact hlast.resolve_left (List.cons_ne_nil _ _)
    rw [undoInOrder, List.foldl_cons, replaceAll_escapeOnly hc hnot hampersand]
    exact ih hchars hdistinct hlast'

/-- A text with every entity replaced by its character, `&amp;` last. -/
def replaceEntities (text : Text) : Text :=
  let text := Text.replaceAll "&lt;".toList ['<'] text
  let text := Text.replaceAll "&gt;".toList ['>'] text
  let text := Text.replaceAll "&quot;".toList ['"'] text
  let text := Text.replaceAll "&#39;".toList ['\''] text
  Text.replaceAll "&amp;".toList ['&'] text

theorem replaceEntities_escape (text : Text) : replaceEntities (escape text) = text := by
  have hall : replaceEntities (escape text) = undoInOrder escapedChars (escape text) := rfl
  rw [hall, ← escapeOnly_escapedChars]
  exact undoInOrder_escapeOnly (fun _ => id) (by decide) (.inr rfl) text

end Html

end WrenDocs
