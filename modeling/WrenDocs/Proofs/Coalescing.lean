import WrenDocs.Proofs.Merging

/-! What highlighting reports of a source: the longest runs of its spans, and the
mode left open at the end, which is there just when some opened mode was never
closed again. -/
namespace WrenDocs

namespace Classifier

/-! ## Modes from request to request -/

/-- A request leaves the modes alone, opens one on top, or closes the one on top. -/
theorem modes_request (state : Classifier) :
    state.request.2.modes = state.modes ∨ (∃ mode, state.request.2.modes = state.modes ++ [mode]) ∨
      state.request.2.modes = state.modes.dropLast := by
  cases hnext : state.next? with
  | none =>
    rw [request_of_next?_eq_none hnext]
    exact .inl rfl
  | some taken =>
    obtain ⟨token, after⟩ := taken
    rw [request_of_next?_eq_some hnext]
    rcases step_cases hnext with ⟨rule, -, -, rfl⟩ | ⟨-, -, -, rfl⟩
    · cases haction : rule.action with
      | stay => exact .inl rfl
      | push mode => exact .inr (.inl ⟨mode, modes_push state token.text mode⟩)
      | pop =>
        by_cases henclosing : state.enclosing = []
        · exact .inl (by simp [act, advance, modes, henclosing])
        · exact .inr (.inr (modes_pop token.text henclosing))
    · exact .inl rfl

/-- A request opens a mode. -/
def Opens (state : Classifier) (count : Nat) : Prop :=
  (state.afterRequests count).depth < (state.afterRequests (count + 1)).depth

/-- Some request further on finds the modes as they were before that one. -/
def ClosesAgain (state : Classifier) (count : Nat) : Prop :=
  ∃ later, count < later ∧ (state.afterRequests later).modes = (state.afterRequests count).modes

/-- As long as an opened mode has not been closed, it stands on the modes that it
was opened on. -/
theorem closesAgain_or_stands {state : Classifier} {count later : Nat} (hopens : state.Opens count)
    (hlater : count < later) : state.ClosesAgain count ∨
      ∃ mode inner, (state.afterRequests later).modes =
        (state.afterRequests count).modes ++ mode :: inner := by
  induction later, hlater using Nat.le_induction with
  | base =>
    simp only [Opens, depth_eq_length_modes, afterRequests] at hopens
    rcases modes_request (state.afterRequests count) with heq | ⟨mode, heq⟩ | heq
    · rw [heq] at hopens
      omega
    · exact .inr ⟨mode, [], heq⟩
    · rw [heq, List.length_dropLast] at hopens
      omega
  | succ later hle ih =>
    rcases ih with hcloses | ⟨mode, inner, hstands⟩
    · exact .inl hcloses
    · have hrequest := modes_request (state.afterRequests later)
      rw [hstands] at hrequest
      rcases hrequest with heq | ⟨top, heq⟩ | heq
      · exact .inr ⟨mode, inner, heq⟩
      · exact .inr ⟨mode, inner ++ [top], by rw [afterRequests, heq]; simp⟩
      · cases inner with
        | nil =>
          refine .inl ⟨later + 1, by omega, ?_⟩
          rw [afterRequests, heq]
          simp
        | cons next inner =>
          refine .inr ⟨mode, (next :: inner).dropLast, ?_⟩
          rw [afterRequests, heq, List.dropLast_append_of_ne_nil (by simp)]
          rfl

/-- With more than one mode open, there is a last time that only one was. -/
theorem exists_last_bottom {state : Classifier} (hstart : state.depth = 1) {count : Nat}
    (h : 1 < (state.afterRequests count).depth) :
    ∃ bottom, bottom < count ∧ (state.afterRequests bottom).depth = 1 ∧
      ∀ later, bottom < later → later ≤ count → 1 < (state.afterRequests later).depth := by
  induction count with
  | zero =>
    rw [afterRequests] at h
    omega
  | succ count ih =>
    by_cases hbefore : 1 < (state.afterRequests count).depth
    · obtain ⟨bottom, hlt, hdepth, habove⟩ := ih hbefore
      refine ⟨bottom, by omega, hdepth, fun later hlater hle => ?_⟩
      by_cases hlast : later = count + 1
      · exact hlast ▸ h
      · exact habove later hlater (by omega)
    · have hpos : 1 ≤ (state.afterRequests count).depth := by simp [depth]
      refine ⟨count, by omega, by omega, fun later hlater hle => ?_⟩
      obtain rfl : later = count + 1 := by omega
      exact h

/-- Just one mode is left at the end if and only if every opened mode was closed
again. -/
theorem depth_eq_one_iff {state : Classifier} (hstart : state.depth = 1) {total : Nat}
    (hend : (state.afterRequests total).request.1 = none) :
    (state.afterRequests total).depth = 1 ↔ ∀ count, state.Opens count → state.ClosesAgain count := by
  have hstays (further : Nat) : state.afterRequests (total + further) = state.afterRequests total := by
    induction further with
    | zero => rfl
    | succ further ih =>
      rw [← Nat.add_assoc, afterRequests, ih]
      exact request_at_end hend 1
  constructor
  · intro hone count hopens
    have hlater : count < total + (count + 1) := by omega
    rcases closesAgain_or_stands hopens hlater with hcloses | ⟨mode, inner, hstands⟩
    · exact hcloses
    · rw [hstays] at hstands
      rw [depth_eq_length_modes, hstands, List.length_append, List.length_cons,
        ← depth_eq_length_modes] at hone
      simp only [depth] at hone
      omega
  · intro hall
    by_contra hne
    have hpos : 1 ≤ (state.afterRequests total).depth := by simp [depth]
    obtain ⟨bottom, hlt, hdepth, habove⟩ := @exists_last_bottom _ hstart total (by omega)
    have hopens : state.Opens bottom := by
      have hnext := habove (bottom + 1) (by omega) (by omega)
      rw [Opens]
      omega
    obtain ⟨later, hlater, hsame⟩ := hall bottom hopens
    have hdeep : 1 < (state.afterRequests later).depth := by
      by_cases hle : later ≤ total
      · exact habove later hlater hle
      · obtain ⟨further, rfl⟩ := Nat.exists_eq_add_of_le (Nat.le_of_not_le hle)
        rw [hstays]
        omega
    rw [depth_eq_length_modes, hsame, ← depth_eq_length_modes] at hdeep
    omega

/-- The state after as many requests as there are spans is that at the end of the run. -/
theorem afterRequests_length_classify (source : Text) :
    (ofText source).afterRequests (classify source).length = (ofText source).run.2 := by
  obtain ⟨hsteps, hrun⟩ := afterRequests_spec (ofText source) (classify source).length
  rw [classify, length_spansFrom, tokens] at hrun hsteps ⊢
  rw [List.drop_length] at hrun
  have hnext : ((ofText source).afterRequests (ofText source).run.1.length).next? = none := by
    cases hnext : ((ofText source).afterRequests (ofText source).run.1.length).next? with
    | none => rfl
    | some taken => simp [run_of_next?_eq_some hnext] at hrun
  have hlast := congrArg Prod.snd hsteps.run_eq
  rw [run_of_next?_eq_none hnext] at hlast
  exact hlast.symm

theorem tiles_classify (source : Text) : Tiles 0 (classify source) (Text.byteCount source) := by
  obtain ⟨hsteps, -⟩ := steps_run (ofText source)
  have htokens := tiles_spansFrom 0 hsteps.text_ne_nil
  rwa [textOf_run, Nat.zero_add] at htokens

theorem boundaries_of_mem_highlight {source : Text} {span : Span}
    (h : span ∈ (highlight source).spans) :
    source.IsBoundary span.start ∧ source.IsBoundary span.stop := by
  obtain ⟨⟨first, hfirst, hstart⟩, last, hlast, hstop⟩ := Highlighted.ends_of_mem_coalesce h
  rw [← hstart, ← hstop]
  exact ⟨(boundaries_of_mem_classify hfirst).1, (boundaries_of_mem_classify hlast).2⟩

end Classifier

theorem highlight_spans (source : Text) :
    (highlight source).spans = Highlighted.coalesce (classify source) := rfl

open Classifier Highlighted in
/-- **Coalescing.** Highlighting gives the longest runs of the spans of one
category. They tile the source between characters, no neighbours are alike, and
every byte has the category it has in the spans; so merging again changes
nothing, and there are errors just where some span is one. What is left open is
the mode on top at the end if more than one is open, and nothing if every opened
mode was closed again. -/
theorem highlight_is_exact (source : Text) :
    let spans := (highlight source).spans
    let last := (ofText source).afterRequests (classify source).length
    Regroups (classify source) spans ∧ Alternates spans ∧
    Tiles 0 spans (Text.byteCount source) ∧
    (∀ span ∈ spans, source.IsBoundary span.start ∧ source.IsBoundary span.stop) ∧
    (∀ offset, categoryAt? spans offset = categoryAt? (classify source) offset ∧
      (offset < Text.byteCount source → (categoryAt? spans offset).isSome = true)) ∧
    coalesce spans = spans ∧
    ((highlight source).hasErrors = true ↔ ∃ span ∈ classify source, span.category = .error) ∧
    last.request.1 = none ∧
    (∀ mode, (highlight source).unterminated? = some mode ↔
      1 < last.depth ∧ last.modes.getLast? = some mode) ∧
    ((highlight source).unterminated? = none ↔
      ∀ count, (ofText source).Opens count → (ofText source).ClosesAgain count) := by
  have htiles := tiles_classify source
  have hmerged := tiles_coalesce htiles
  have hend : ((ofText source).afterRequests (classify source).length).request.1 = none := by
    rw [request_eq_getElem?, List.getElem?_eq_none_iff]
  have hlast := afterRequests_length_classify source
  have hunterminated : (highlight source).unterminated? =
      if 1 < (ofText source).run.2.depth then some (ofText source).run.2.mode else none := rfl
  refine ⟨regroups_coalesce htiles, alternates_coalesce htiles, hmerged,
    fun _ => boundaries_of_mem_highlight, fun offset => ⟨?_, ?_⟩,
    coalesce_of_alternates (alternates_coalesce htiles), ?_, hend, fun mode => ?_, ?_⟩
  · exact categoryAt?_coalesce htiles offset
  · exact hmerged.categoryAt?_isSome (Nat.zero_le offset)
  · rw [← exists_category_coalesce, hasErrors, highlight_spans]
    simp
  · rw [hunterminated, hlast, getLast?_modes]
    simp
  · rw [← depth_eq_one_iff rfl hend, hlast, hunterminated]
    have hpos : 1 ≤ (ofText source).run.2.depth := by simp [depth]
    split <;> simp <;> omega

end WrenDocs
