import Mathlib.Data.List.Forall2
import WrenDocs.Proofs.FileTree

/-! The order in which directories list their entries. A tree with its entries listed
in another order is the same tree to whoever follows a path in it. -/
namespace WrenDocs

namespace Entry

/-- The same tree, with the entries of some directories listed in another order. -/
inductive Relisted : Entry → Entry → Prop where
  | refl (entry : Entry) : Relisted entry entry
  | trans {entry middle entry' : Entry} :
      Relisted entry middle → Relisted middle entry' → Relisted entry entry'
  | reorder {entries entries' : List (String × Entry)} :
      entries.Perm entries' → Relisted (.directory entries) (.directory entries')
  | inside {front back : List (String × Entry)} {name : String} {entry entry' : Entry} :
      Relisted entry entry' →
      Relisted (.directory (front ++ (name, entry) :: back))
        (.directory (front ++ (name, entry') :: back))

theorem Relisted.symm {entry entry' : Entry} (h : Relisted entry entry') :
    Relisted entry' entry := by
  induction h with
  | refl entry => exact .refl entry
  | trans _ _ ih ih' => exact .trans ih' ih
  | reorder hperm => exact .reorder hperm.symm
  | inside _ ih => exact .inside ih

theorem Relisted.isDirectory {entry entry' : Entry} (h : Relisted entry entry') :
    entry.isDirectory = entry'.isDirectory := by
  induction h with
  | refl => rfl
  | trans _ _ ih ih' => rw [ih, ih']
  | reorder => rfl
  | inside => rfl

theorem Relisted.wellFormed {entry entry' : Entry} (h : Relisted entry entry')
    (hentry : entry.WellFormed) : entry'.WellFormed := by
  induction h with
  | refl => exact hentry
  | trans _ _ ih ih' => exact ih' (ih hentry)
  | reorder hperm =>
    cases hentry with
    | directory hnodup hnames hentries =>
      refine .directory ((hperm.map Prod.fst).nodup_iff.mp hnodup) ?_ ?_
      · intro found hfound
        exact hnames found (hperm.mem_iff.mpr hfound)
      · intro found hfound
        exact hentries found (hperm.mem_iff.mpr hfound)
  | @inside front back name entry entry' _ ih =>
    cases hentry with
    | directory hnodup hnames hentries =>
      rw [List.map_append, List.map_cons] at hnodup
      simp only [List.forall_mem_append, List.forall_mem_cons] at hnames hentries
      refine .directory ?_ ?_ ?_
      · rwa [List.map_append, List.map_cons]
      · simpa only [List.forall_mem_append, List.forall_mem_cons] using hnames
      · simp only [List.forall_mem_append, List.forall_mem_cons]
        exact ⟨hentries.1, ih hentries.2.1, hentries.2.2⟩

/-- A name leads to the same entry, which may be relisted itself. -/
theorem Relisted.child? {entry entry' found : Entry} {name : Text} (h : Relisted entry entry')
    (hentry : entry.WellFormed) (hfound : entry.child? name = some found) :
    ∃ found', entry'.child? name = some found' ∧ Relisted found found' := by
  induction h generalizing found with
  | refl => exact ⟨found, hfound, .refl found⟩
  | trans h _ ih ih' =>
    obtain ⟨middle, hmiddle, hrelisted⟩ := ih hentry hfound
    obtain ⟨found', hfound', hrelisted'⟩ := ih' (h.wellFormed hentry) hmiddle
    exact ⟨found', hfound', hrelisted.trans hrelisted'⟩
  | reorder hperm =>
    cases hentry with
    | directory hnodup =>
      have hmem := hperm.mem_iff.mp ((lookup_eq_some_iff_mem hnodup).mp hfound)
      have hnodup' := (hperm.map Prod.fst).nodup_iff.mp hnodup
      exact ⟨found, (lookup_eq_some_iff_mem hnodup').mpr hmem, .refl found⟩
  | @inside front back other entry entry' hrelisted _ =>
    simp only [Entry.child?, List.lookup_append] at hfound ⊢
    cases hfront : front.lookup (String.ofList name) with
    | some known =>
      rw [hfront] at hfound
      exact ⟨found, hfound, .refl found⟩
    | none =>
      rw [hfront, Option.none_or, lookup_cons_ite] at hfound
      rw [Option.none_or, lookup_cons_ite]
      by_cases hname : String.ofList name = other
      · rw [if_pos hname] at hfound ⊢
        cases hfound
        exact ⟨entry', rfl, hrelisted⟩
      · rw [if_neg hname] at hfound ⊢
        exact ⟨found, hfound, .refl found⟩

/-- A path leads to the same entry. The directories above count too, for a path
may lead up again. -/
theorem Relisted.follow {above above' : List Entry} {here here' found : Entry} {parts : List Text}
    (habove : List.Forall₂ Relisted above above') (h : Relisted here here')
    (haboveWellFormed : ∀ entry ∈ above, entry.WellFormed) (hwellFormed : here.WellFormed)
    (hfound : follow above here parts = .ok found) :
    ∃ found', Entry.follow above' here' parts = .ok found' ∧ Relisted found found' := by
  induction parts generalizing above above' here here' with
  | nil =>
    cases hfound
    exact ⟨here', rfl, h⟩
  | cons part parts ih =>
    cases here with
    | file | unreadable => simp [Entry.follow] at hfound
    | directory entries =>
      have hdirectory := h.isDirectory
      cases here' with
      | file | unreadable => simp [Entry.isDirectory] at hdirectory
      | directory entries' =>
        rw [follow_cons] at hfound ⊢
        by_cases hstay : part = [] ∨ part = ['.']
        · rw [if_pos hstay] at hfound ⊢
          exact ih habove h haboveWellFormed hwellFormed hfound
        · rw [if_neg hstay] at hfound ⊢
          by_cases hup : part = ['.', '.']
          · rw [if_pos hup] at hfound ⊢
            cases habove with
            | nil =>
              exact ih .nil (.refl _) (by simp) .empty hfound
            | cons hparent habove =>
              obtain ⟨hparentWellFormed, haboveWellFormed⟩ :=
                List.forall_mem_cons.mp haboveWellFormed
              exact ih habove hparent haboveWellFormed hparentWellFormed hfound
          · rw [if_neg hup] at hfound ⊢
            cases hlookup : entries.lookup (String.ofList part) with
            | none =>
              rw [hlookup] at hfound
              cases hfound
            | some entry =>
              rw [hlookup] at hfound
              have hchild : (Entry.directory entries).child? part = some entry := hlookup
              obtain ⟨entry', hchild', hrelisted⟩ := h.child? hwellFormed hchild
              rw [show entries'.lookup (String.ofList part) = some entry' from hchild']
              exact ih (.cons h habove) hrelisted
                (List.forall_mem_cons.mpr ⟨hwellFormed, haboveWellFormed⟩)
                (hwellFormed.child hchild).2 hfound

theorem Relisted.lookup {root root' found : Entry} {path : Text} (h : Relisted root root')
    (hwellFormed : root.WellFormed) (hfound : (FileSystem.ofTree root).lookup path = .ok found) :
    ∃ found', (FileSystem.ofTree root').lookup path = .ok found' ∧ Relisted found found' := by
  have hne := FileSystem.ne_nil_of_lookup hfound
  rw [FileSystem.lookup_ofTree hne] at hfound ⊢
  unfold FileSystem.topOf at hfound ⊢
  split at hfound
  · rename_i hslash
    rw [if_pos hslash]
    exact Relisted.follow .nil (.refl _) (by simp) .empty hfound
  · rename_i hslash
    rw [if_neg hslash]
    exact Relisted.follow .nil h (by simp) hwellFormed hfound

end Entry

end WrenDocs
