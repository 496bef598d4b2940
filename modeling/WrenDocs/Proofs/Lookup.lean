/-! What is found in a list. Where every name stands once, looking a name up finds the
value that stands with it; a search from the end finds what nothing like it comes after. -/
namespace WrenDocs

theorem find?_reverse_eq_some_iff {α : Type} {p : α → Bool} {items : List α} {item : α} :
    items.reverse.find? p = some item ↔
      ∃ earlier later, items = earlier ++ item :: later ∧ p item = true ∧
        ∀ other ∈ later, p other = false := by
  rw [List.find?_eq_some_iff_append]
  constructor
  · rintro ⟨hitem, later, earlier, hitems, hlater⟩
    refine ⟨earlier.reverse, later.reverse, ?_, hitem, ?_⟩
    · rw [List.reverse_eq_iff.mp hitems]
      simp
    · intro other hother
      simpa using hlater other (List.mem_reverse.mp hother)
  · rintro ⟨earlier, later, rfl, hitem, hlater⟩
    refine ⟨hitem, later.reverse, earlier.reverse, by simp, ?_⟩
    intro other hother
    simpa using hlater other (List.mem_reverse.mp hother)

theorem lookup_cons_ite {α : Type} (key other : String) (value : α) (entries : List (String × α)) :
    ((key, value) :: entries).lookup other =
      if other = key then some value else entries.lookup other := by
  rw [List.lookup_cons]
  by_cases h : other = key
  · rw [if_pos h, beq_iff_eq.mpr h]
  · rw [if_neg h, beq_false_of_ne h]

theorem lookup_of_not_mem {α : Type} {key : String} {entries : List (String × α)}
    (h : key ∉ entries.map Prod.fst) : entries.lookup key = none := by
  rw [List.lookup_eq_none_iff]
  intro entry hentry
  rw [bne_iff_ne]
  rintro rfl
  exact h (List.mem_map_of_mem hentry)

theorem lookup_eq_some_iff_mem {α : Type} {entries : List (String × α)}
    (h : (entries.map Prod.fst).Nodup) {name : String} {value : α} :
    entries.lookup name = some value ↔ (name, value) ∈ entries := by
  induction entries with
  | nil => simp
  | cons entry entries ih =>
    obtain ⟨other, known⟩ := entry
    rw [List.map_cons, List.nodup_cons] at h
    rw [lookup_cons_ite]
    by_cases heq : name = other
    · rw [if_pos heq, heq]
      constructor
      · intro hknown
        cases hknown
        exact List.mem_cons_self
      · intro hmem
        rcases List.mem_cons.mp hmem with hfirst | hmem
        · cases hfirst
          rfl
        · exact absurd (List.mem_map_of_mem hmem) h.1
    · rw [if_neg heq, ih h.2, List.mem_cons]
      constructor
      · intro hmem
        exact .inr hmem
      · intro hmem
        rcases hmem with hfirst | hmem
        · cases hfirst
          exact absurd rfl heq
        · exact hmem

end WrenDocs
