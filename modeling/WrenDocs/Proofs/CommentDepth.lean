import WrenDocs.Proofs.Errors
import WrenDocs.Proofs.Stretch

/-! Block comments nest like a counter. A scanner that knows nothing of modes and
only counts the delimiters, one up and one down, has at the end of every span the
count of the comments that are open there. -/
namespace WrenDocs

namespace Grammar

/-- What a scanner that counts open comments notes: how far it has read and its
count, at first and after each of its readings. It reads `/*` and `*/` whole and
anything else character by character, and stops where its count is zero. -/
def commentCounts : Nat → Nat → Text → List (Nat × Nat)
  | offset, 0, _ => [(offset, 0)]
  | offset, count + 1, '/' :: '*' :: text =>
    (offset, count + 1) :: commentCounts (offset + 2) (count + 2) text
  | offset, count + 1, '*' :: '/' :: text =>
    (offset, count + 1) :: commentCounts (offset + 2) count text
  | offset, count + 1, c :: text =>
    (offset, count + 1) :: commentCounts (offset + c.utf8Size) (count + 1) text
  | offset, count + 1, [] => [(offset, count + 1)]

theorem mem_commentCounts (offset count : Nat) (text : Text) :
    (offset, count) ∈ commentCounts offset count text := by
  fun_cases commentCounts offset count text <;> exact List.mem_cons_self

/-- The scanner makes no further note once its count is zero. -/
theorem getLast?_of_zero_mem {offset count stop : Nat} {text : Text}
    (h : (stop, 0) ∈ commentCounts offset count text) :
    (commentCounts offset count text).getLast? = some (stop, 0) := by
  fun_induction commentCounts offset count text with
  | case1 => simp_all
  | case2 offset count text ih | case3 offset count text ih | case4 offset count _ text _ _ ih =>
    have htail := ih (by simpa using h)
    rw [List.getLast?_cons, htail, Option.getD_some]
  | case5 => simp at h

/-- Text without a delimiter does not change the count. -/
theorem commentCounts_plain {text ahead : Text} (offset count : Nat)
    (h : StopsAt CommentDelimiter text ahead) :
    commentCounts (offset + Text.byteCount text) (count + 1) ahead <:+
      commentCounts offset (count + 1) (text ++ ahead) := by
  induction text generalizing offset with
  | nil => exact List.suffix_refl _
  | cons c text ih =>
    obtain ⟨hplain, htail⟩ := h.tail
    have hrest := ih (offset + c.utf8Size) htail
    rw [Nat.add_assoc] at hrest
    rw [List.cons_append, commentCounts]
    · exact hrest.trans (List.suffix_cons _ _)
    · rintro rest rfl heq
      exact hplain (.inl ⟨rest, by rw [heq]; rfl⟩)
    · rintro rest rfl heq
      exact hplain (.inr ⟨rest, by rw [heq]; rfl⟩)

end Grammar

namespace Classifier
open Grammar

/-- Everything a step inside a comment can do. -/
theorem step_in_comment {state after : Classifier} {token : Token} (hmode : state.mode = .comment)
    (h : state.next? = some (token, after)) :
    token.category = .commentMultiline ∧
      ((token.text = ['/', '*'] ∧ after = (state.advance token.text).act (.push .comment)) ∨
        (token.text = ['*', '/'] ∧ after = (state.advance token.text).act .pop) ∨
        (StopsAt CommentDelimiter token.text after.rest ∧ after = state.advance token.text)) := by
  rcases step_fits h with
    ⟨rule, hmem, -, hcategory, hfits, hafter⟩ | ⟨hnone, -, ⟨c, -, hrest⟩, -⟩
  · rw [hmode] at hmem
    simp only [Mode.rules, Mode.ownRules, Mode.included?, commentRules, Option.map_none,
      Option.getD_none, List.append_nil, List.mem_cons, List.not_mem_nil, or_false] at hmem
    rcases hmem with rfl | rfl | rfl
    · exact ⟨hcategory, .inl ⟨hfits, hafter⟩⟩
    · exact ⟨hcategory, .inr (.inl ⟨hfits, hafter⟩)⟩
    · exact ⟨hcategory, .inr (.inr ⟨hfits, hafter⟩)⟩
  · exact absurd hnone (firstMatch?_ne_none_of_comment hmode hrest)

/-- So many comments are open inside some other modes, and a scanner that began with
these notes goes on from here with the same count. -/
def Counted (outer : List Mode) (notes : List (Nat × Nat)) (count : Nat) (state : Classifier) :
    Prop :=
  state.modes = outer ++ List.replicate count .comment ∧
    commentCounts state.offset count state.rest <:+ notes

theorem mode_of_counted {outer : List Mode} {notes : List (Nat × Nat)} {count : Nat}
    {state : Classifier} (h : Counted outer notes (count + 1) state) : state.mode = .comment := by
  have hlast := getLast?_modes state
  rw [h.1, List.replicate_succ', ← List.append_assoc, List.getLast?_concat] at hlast
  exact (Option.some.inj hlast).symm

theorem enclosing_of_counted {outer : List Mode} {notes : List (Nat × Nat)} {count : Nat}
    {state : Classifier} (h : Counted outer notes (count + 1) state) (houter : outer ≠ []) :
    state.enclosing ≠ [] := by
  intro hbottom
  have hlength := congrArg List.length h.1
  have hpos := List.length_pos_iff.mpr houter
  simp only [modes, hbottom, List.reverse_singleton, List.length_singleton, List.length_append,
    List.length_replicate] at hlength
  omega

/-- A span inside a comment changes the count as it changes the modes. -/
theorem counted_step {outer : List Mode} {notes : List (Nat × Nat)} {count : Nat}
    {state after : Classifier} {token : Token} (houter : outer ≠ [])
    (h : Counted outer notes (count + 1) state) (hnext : state.next? = some (token, after)) :
    token.category = .commentMultiline ∧ ∃ count', Counted outer notes count' after := by
  obtain ⟨hcategory, hcases⟩ := step_in_comment (mode_of_counted h) hnext
  have henclosing : state.enclosing ≠ [] := enclosing_of_counted h houter
  obtain ⟨hmodes, hnotes⟩ := h
  rw [(step_text hnext).2] at hnotes
  have hoffset := step_offset hnext
  refine ⟨hcategory, ?_⟩
  rcases hcases with ⟨htext, hafter⟩ | ⟨htext, hafter⟩ | ⟨hplain, hafter⟩
  · refine ⟨count + 2, ?_, ?_⟩
    · rw [hafter, modes_push, hmodes, List.append_assoc, ← List.replicate_succ']
    · rw [htext] at hnotes hoffset
      rw [hoffset]
      exact (List.suffix_cons _ _).trans hnotes
  · refine ⟨count, ?_, ?_⟩
    · rw [hafter, modes_pop _ henclosing, hmodes, List.replicate_succ',
        ← List.append_assoc, List.dropLast_concat]
    · rw [htext] at hnotes hoffset
      rw [hoffset]
      exact (List.suffix_cons _ _).trans hnotes
  · refine ⟨count + 1, ?_, ?_⟩
    · rw [hafter, modes_advance, hmodes]
    · rw [hoffset]
      exact (commentCounts_plain state.offset count hplain).trans hnotes

/-- Open comments are read in one stretch, until none of them is open or to the end
of the source. -/
theorem exists_stretch_counted {outer : List Mode} {notes : List (Nat × Nat)} {count : Nat}
    {state : Classifier} (houter : outer ≠ []) (h : Counted outer notes count state) :
    ∃ steps last,
      Stretch [.commentMultiline] (fun passed => ∃ depth, Counted outer notes depth passed) state
        steps ∧
      Counted outer notes last (state.afterRequests steps) ∧
      (last = 0 ∨ (state.afterRequests steps).rest = []) := by
  let holds (passed : Classifier) : Prop := ∃ depth, Counted outer notes depth passed
  have hkeeps : ∀ passed, holds passed → ¬ (Counted outer notes 0 passed ∨ passed.rest = []) →
      ∃ token after, passed.next? = some (token, after) ∧ token.category ∈ [.commentMultiline] ∧
        holds after := by
    rintro passed ⟨depth, hcounted⟩ hgoal
    obtain ⟨hopen, hleft⟩ := not_or.mp hgoal
    obtain ⟨c, rest, hrest⟩ := List.exists_cons_of_ne_nil hleft
    obtain ⟨token, after, hnext⟩ := exists_step hrest
    cases depth with
    | zero => exact absurd hcounted hopen
    | succ depth =>
      obtain ⟨hcategory, hafter⟩ := counted_step houter hcounted hnext
      exact ⟨token, after, hnext, List.mem_singleton.mpr hcategory, hafter⟩
  obtain ⟨steps, hstretch, hclosed | hend⟩ := exists_stretch hkeeps ⟨count, h⟩
  · exact ⟨steps, 0, hstretch, hclosed, .inl rfl⟩
  · obtain ⟨last, hlast⟩ := hstretch.states steps (Nat.le_refl steps)
    exact ⟨steps, last, hstretch, hlast, .inr hend⟩

/-- The notes of the scanner end with what it has where the run has arrived. -/
theorem getLast?_notes {outer : List Mode} {notes : List (Nat × Nat)} {count : Nat}
    {state : Classifier} (h : Counted outer notes count state)
    (hend : count = 0 ∨ state.rest = []) : notes.getLast? = some (state.offset, count) := by
  obtain ⟨front, rfl⟩ := h.2
  have hlast : (commentCounts state.offset count state.rest).getLast? =
      some (state.offset, count) := by
    rcases hend with rfl | hrest
    · rw [commentCounts, List.getLast?_singleton]
    · rw [hrest]
      cases count <;> rfl
  rw [List.getLast?_append, hlast, Option.some_or]

end Classifier

open Classifier Grammar in
/-- **Comments nest like a counter.** Let so many comments be open, one or more. A
stretch of comment spans follows, and at each state of it the comments that are open
inside the other modes are as many as the scanner has counted there. If the scanner
comes to zero, the stretch ends there and all those comments are closed; if not, it
ends with the source and leaves as many open as the scanner has at the end. -/
theorem comments_nest_as_counted (source : Text) (requests : Nat) (outer : List Mode)
    (count : Nat) :
    let state := (ofText source).afterRequests requests
    let notes := commentCounts state.offset count state.rest
    0 < count → state.modes = outer ++ List.replicate count .comment →
      ∃ steps, let last := state.afterRequests steps
        Stretch [.commentMultiline] (fun passed => ∃ depth, (passed.offset, depth) ∈ notes ∧
          passed.modes = outer ++ List.replicate depth .comment) state steps ∧
        (∀ stop, (stop, 0) ∈ notes → last.offset = stop ∧ last.modes = outer ∧
          ∃ earlier < steps, ∃ span, (state.afterRequests earlier).request.1 = some span ∧
            span.stop = stop) ∧
        ((∀ stop, (stop, 0) ∉ notes) → last.request.1 = none ∧ last.mode = .comment ∧
          ∃ depth, notes.getLast? = some (last.offset, depth) ∧
            last.modes = outer ++ List.replicate depth .comment) := by
  intro state notes hcount hmodes
  have houter : outer ≠ [] := by
    rintro rfl
    have hnested := (afterRequests_spec (ofText source) requests).1.wellNested .bottom
    have hbottom := head?_modes_of_wellNested hnested
    rw [show ((ofText source).afterRequests requests).modes = _ from hmodes, List.nil_append,
      List.head?_replicate, if_neg (by omega)] at hbottom
    simp at hbottom
  have hstart : Counted outer notes count state := ⟨hmodes, List.suffix_refl _⟩
  obtain ⟨steps, depth, hstretch, hcounted, hend⟩ := exists_stretch_counted houter hstart
  have hlast := getLast?_notes hcounted hend
  refine ⟨steps, hstretch.mono ?_, ?_, ?_⟩
  · rintro passed ⟨depth, hmodes, hnotes⟩
    exact ⟨depth, hnotes.subset (mem_commentCounts ..), hmodes⟩
  · intro stop hstop
    rw [getLast?_of_zero_mem hstop, Option.some_inj, Prod.mk.injEq] at hlast
    obtain ⟨rfl, rfl⟩ := hlast
    have hclosed : (state.afterRequests steps).modes = outer := by
      rw [hcounted.1, List.replicate_zero, List.append_nil]
    refine ⟨rfl, hclosed, hstretch.exists_stop ?_⟩
    apply Nat.pos_of_ne_zero
    rintro rfl
    have hlength := congrArg List.length (hclosed.symm.trans hmodes)
    rw [List.length_append, List.length_replicate] at hlength
    omega
  · intro hnone
    cases depth with
    | zero => exact absurd (List.mem_of_getLast? hlast) (hnone _)
    | succ depth =>
      have hrest := hend.resolve_left (Nat.succ_ne_zero depth)
      rw [request_of_next?_eq_none (next?_eq_none_iff.mpr hrest)]
      exact ⟨rfl, mode_of_counted hcounted, depth + 1, hlast, hcounted.1⟩

open Classifier Grammar in
/-- A `/` that has closed a comment does not open one with the `*` behind it, so
`*/*/` closes two comments. -/
theorem comments_nest_as_counted_of_overlap :
    let state := (ofText "(/*/*a*/*//x".toList).afterRequests 2
    let notes := commentCounts state.offset 1 state.rest
    state.modes = [.root, .root] ++ List.replicate 1 .comment ∧
    notes = [(3, 1), (5, 2), (6, 2), (8, 1), (10, 0)] ∧
    ∃ steps, let last := state.afterRequests steps
      Stretch [.commentMultiline] (fun passed => ∃ depth, (passed.offset, depth) ∈ notes ∧
        passed.modes = [.root, .root] ++ List.replicate depth .comment) state steps ∧
      last.offset = 10 ∧ last.modes = [.root, .root] := by
  intro state notes
  have hmodes : state.modes = [.root, .root] ++ List.replicate 1 .comment := by decide
  have hnotes : notes = [(3, 1), (5, 2), (6, 2), (8, 1), (10, 0)] := by decide
  obtain ⟨steps, hstretch, hcloses, -⟩ :=
    comments_nest_as_counted "(/*/*a*/*//x".toList 2 [.root, .root] 1 Nat.one_pos hmodes
  have hzero : (10, 0) ∈ notes := by rw [hnotes]; decide
  obtain ⟨hoffset, hlast, -⟩ := hcloses 10 hzero
  exact ⟨hmodes, hnotes, steps, hstretch, hoffset, hlast⟩

end WrenDocs
