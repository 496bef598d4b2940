import WrenDocs.Proofs.Steps

/-! The spans of a source cover it: one after the other, none empty, cut between
characters, and their texts are the source again. A classifier that is asked on
and on gives exactly these spans, and then nothing for ever. -/
namespace WrenDocs

/-- A place between two characters of a text, or at one of its ends. -/
def Text.IsBoundary (text : Text) (offset : Nat) : Prop :=
  ∃ front back, text = front ++ back ∧ byteCount front = offset

/-- Spans without a gap from one offset to another, none of them empty. -/
def Tiles : Nat → List Span → Nat → Prop
  | start, [], stop => start = stop
  | start, span :: spans, stop =>
    span.start = start ∧ span.start < span.stop ∧ Tiles span.stop spans stop

theorem Text.byteCount_pos {text : Text} (h : text ≠ []) : 0 < byteCount text := by
  cases text with
  | nil => exact absurd rfl h
  | cons c text =>
    have hpos := c.utf8Size_pos
    rw [byteCount_cons]
    omega

theorem Text.slice?_byteCount (front middle back : Text) :
    slice? (byteCount front) (byteCount front + byteCount middle) (front ++ (middle ++ back)) =
      some middle := by
  rw [slice?, if_pos (Nat.le_add_right _ _), splitAtByte?_byteCount, Option.bind_some,
    Nat.add_sub_cancel_left, splitAtByte?_byteCount, Option.map_some]

namespace Classifier

/-- A token's span covers its text, wherever it stands. -/
theorem text_spanAt (front back : Text) (token : Token) :
    (spanAt (Text.byteCount front) token).text (front ++ (token.text ++ back)) = token.text := by
  rw [Span.text, spanAt, Text.slice?_byteCount, Option.getD_some]

theorem tiles_spansFrom {tokens : List Token} (offset : Nat)
    (h : ∀ token ∈ tokens, token.text ≠ []) :
    Tiles offset (spansFrom offset tokens) (offset + Text.byteCount (textOf tokens)) := by
  induction tokens generalizing offset with
  | nil => rfl
  | cons token tokens ih =>
    have hpos := Text.byteCount_pos (h token List.mem_cons_self)
    have htail := ih (offset + Text.byteCount token.text) fun next hnext =>
      h next (List.mem_cons_of_mem _ hnext)
    refine ⟨rfl, by simp only [spanAt]; omega, ?_⟩
    rwa [textOf_cons, Text.byteCount_append, ← Nat.add_assoc]

theorem length_spansFrom (offset : Nat) (tokens : List Token) :
    (spansFrom offset tokens).length = tokens.length := by
  induction tokens generalizing offset with
  | nil => rfl
  | cons token tokens ih => rw [spansFrom, List.length_cons, ih, List.length_cons]

theorem take_spansFrom (offset count : Nat) (tokens : List Token) :
    (spansFrom offset tokens).take count = spansFrom offset (tokens.take count) := by
  induction tokens generalizing offset count with
  | nil => simp [spansFrom]
  | cons token tokens ih =>
    cases count with
    | zero => rfl
    | succ count => rw [spansFrom, List.take_succ_cons, ih, List.take_succ_cons, spansFrom]

theorem drop_spansFrom (offset count : Nat) (tokens : List Token) :
    (spansFrom offset tokens).drop count =
      spansFrom (offset + Text.byteCount (textOf (tokens.take count))) (tokens.drop count) := by
  induction tokens generalizing offset count with
  | nil => simp [spansFrom]
  | cons token tokens ih =>
    cases count with
    | zero => rfl
    | succ count =>
      rw [spansFrom, List.drop_succ_cons, ih, List.take_succ_cons, List.drop_succ_cons, textOf_cons,
        Text.byteCount_append, Nat.add_assoc]

/-- The last span ends where all the text before it ends. -/
theorem stop_getLast?_spansFrom (offset : Nat) (tokens : List Token) :
    (((spansFrom offset tokens).getLast?).map Span.stop).getD offset =
      offset + Text.byteCount (textOf tokens) := by
  induction tokens generalizing offset with
  | nil => rfl
  | cons token tokens ih =>
    have htail := ih (offset + Text.byteCount token.text)
    rw [spansFrom, List.getLast?_cons, Option.map_some, Option.getD_some,
      ← Option.getD_map Span.stop, textOf_cons, Text.byteCount_append, ← Nat.add_assoc]
    exact htail

theorem Steps.text_ne_nil {state last : Classifier} {tokens : List Token}
    (h : Steps state tokens last) : ∀ token ∈ tokens, token.text ≠ [] := by
  induction h with
  | refl => simp
  | head hstep _ ih =>
    intro token htoken
    rcases List.mem_cons.mp htoken with rfl | htoken
    · exact (step_text hstep).1
    · exact ih token htoken

theorem depth_eq_length_modes (state : Classifier) : state.depth = state.modes.length := by
  simp [depth, modes]

theorem getLast?_modes (state : Classifier) : state.modes.getLast? = some state.mode := by
  simp [modes]

@[simp] theorem modes_advance (state : Classifier) (lexeme : Text) :
    (state.advance lexeme).modes = state.modes := rfl

theorem modes_push (state : Classifier) (lexeme : Text) (mode : Mode) :
    ((state.advance lexeme).act (.push mode)).modes = state.modes ++ [mode] := by
  simp [act, advance, modes]

/-- Above the bottom a mode is really closed. -/
theorem modes_pop {state : Classifier} (lexeme : Text) (h : state.enclosing ≠ []) :
    ((state.advance lexeme).act .pop).modes = state.modes.dropLast := by
  obtain ⟨outer, around, henclosing⟩ := List.exists_cons_of_ne_nil h
  simp [act, advance, modes, henclosing]

theorem textOf_run (state : Classifier) : textOf state.run.1 = state.rest := by
  obtain ⟨hsteps, hend⟩ := steps_run state
  rw [hsteps.text, hend, List.append_nil]

/-! ## Asking for one span after another -/

/-- One request: the next span, if there is one, and the state it leaves. -/
def request (state : Classifier) : Option Span × Classifier :=
  match state.next? with
  | some (token, after) => (some (spanAt state.offset token), after)
  | none => (none, state)

/-- The state after so many requests. -/
def afterRequests (state : Classifier) : Nat → Classifier
  | 0 => state
  | count + 1 => (state.afterRequests count).request.2

theorem request_of_next?_eq_none {state : Classifier} (h : state.next? = none) :
    state.request = (none, state) := by
  rw [request, h]

theorem request_of_next?_eq_some {state after : Classifier} {token : Token}
    (h : state.next? = some (token, after)) :
    state.request = (some (spanAt state.offset token), after) := by
  rw [request, h]

/-- An answer is the span of a step. -/
theorem next?_of_request {state : Classifier} {span : Span} (h : state.request.1 = some span) :
    ∃ token after, state.next? = some (token, after) ∧ span = spanAt state.offset token := by
  cases hnext : state.next? with
  | none => simp [request_of_next?_eq_none hnext] at h
  | some taken =>
    obtain ⟨token, after⟩ := taken
    rw [request_of_next?_eq_some hnext] at h
    exact ⟨token, after, rfl, (Option.some.inj h).symm⟩

/-- Requests pass through the states of the run, and stay at its end. -/
theorem afterRequests_spec (state : Classifier) (count : Nat) :
    Steps state (state.run.1.take count) (state.afterRequests count) ∧
      (state.afterRequests count).run.1 = state.run.1.drop count := by
  induction count with
  | zero => exact ⟨.refl state, rfl⟩
  | succ count ih =>
    obtain ⟨hsteps, hrun⟩ := ih
    rw [afterRequests]
    cases hnext : (state.afterRequests count).next? with
    | none =>
      rw [run_of_next?_eq_none hnext] at hrun
      have hlength : state.run.1.length ≤ count := List.drop_eq_nil_iff.mp hrun.symm
      have htake : state.run.1.take (count + 1) = state.run.1.take count := by
        rw [List.take_of_length_le hlength, List.take_of_length_le (by omega)]
      rw [request_of_next?_eq_none hnext, htake]
      refine ⟨hsteps, ?_⟩
      rw [run_of_next?_eq_none hnext, List.drop_eq_nil_of_le (by omega)]
    | some taken =>
      obtain ⟨token, after⟩ := taken
      rw [run_of_next?_eq_some hnext] at hrun
      have htoken : state.run.1[count]? = some token := by
        rw [← List.head?_drop, ← hrun, List.head?_cons]
      rw [request_of_next?_eq_some hnext, List.take_add_one, htoken]
      refine ⟨hsteps.append (.single hnext), ?_⟩
      rw [← List.tail_drop, ← hrun, List.tail_cons]

theorem request_at_end {state : Classifier} (h : state.request.1 = none) (further : Nat) :
    state.afterRequests further = state := by
  have hnext : state.next? = none := by
    cases hnext : state.next? with
    | none => rfl
    | some taken => simp [request_of_next?_eq_some hnext] at h
  induction further with
  | zero => rfl
  | succ further ih => rw [afterRequests, ih, request_of_next?_eq_none hnext]

/-- The spans that are still to come. -/
def remaining (state : Classifier) : List Span :=
  spansFrom state.offset state.run.1

/-- What is still to come after some requests are the spans not asked for yet. -/
theorem remaining_afterRequests (state : Classifier) (count : Nat) :
    (state.afterRequests count).remaining = state.remaining.drop count := by
  obtain ⟨hsteps, hrun⟩ := afterRequests_spec state count
  rw [remaining, remaining, drop_spansFrom, hrun, hsteps.offset]

theorem request_eq_head?_remaining (state : Classifier) :
    state.request.1 = state.remaining.head? := by
  rw [remaining]
  cases hnext : state.next? with
  | none =>
    rw [request_of_next?_eq_none hnext, run_of_next?_eq_none hnext]
    rfl
  | some taken =>
    rw [request_of_next?_eq_some hnext, run_of_next?_eq_some hnext]
    rfl

/-- The answers are the spans in their order. -/
theorem request_eq_getElem? (source : Text) (count : Nat) :
    ((ofText source).afterRequests count).request.1 = (classify source)[count]? := by
  rw [request_eq_head?_remaining, remaining_afterRequests, List.head?_drop]
  rfl

/-- A span is that of a token, and stands where the texts before it end. -/
theorem exists_of_mem_classify {source : Text} {span : Span} (h : span ∈ classify source) :
    ∃ first token rest, tokens source = first ++ token :: rest ∧
      span = spanAt (Text.byteCount (textOf first)) token ∧
      source = textOf first ++ (token.text ++ textOf rest) := by
  obtain ⟨first, token, rest, htokens, rfl⟩ := mem_spansFrom.mp h
  refine ⟨first, token, rest, htokens, by rw [Nat.zero_add], ?_⟩
  rw [← textOf_cons, ← textOf_append, ← htokens]
  exact (textOf_run (ofText source)).symm

theorem boundaries_of_mem_classify {source : Text} {span : Span} (h : span ∈ classify source) :
    source.IsBoundary span.start ∧ source.IsBoundary span.stop := by
  obtain ⟨first, token, rest, -, rfl, hsource⟩ := exists_of_mem_classify h
  refine ⟨⟨textOf first, _, hsource, rfl⟩, textOf first ++ token.text, textOf rest, ?_, ?_⟩
  · rw [hsource, List.append_assoc]
  · rw [Text.byteCount_append, spanAt]

/-- What the spans cover, read one after the other, is what the tokens hold. -/
theorem flatMap_text_spansFrom (front : Text) (tokens : List Token) (back : Text) :
    (spansFrom (Text.byteCount front) tokens).flatMap
      (Span.text · (front ++ (textOf tokens ++ back))) = textOf tokens := by
  induction tokens generalizing front with
  | nil => rfl
  | cons token tokens ih =>
    have htail := ih (front ++ token.text)
    rw [Text.byteCount_append, List.append_assoc, ← List.append_assoc token.text] at htail
    rw [spansFrom, List.flatMap_cons, textOf_cons, htail, List.append_assoc token.text,
      text_spanAt]

end Classifier

open Classifier in
/-- **Total coverage.** The spans of a source tile it, no more of them than it
has characters, from one boundary to another, and spell it out. They are what
one request after another answers; at each state on the way the offset is where
the last span ended and some mode is open. Once there is no answer, no request
finds another or changes the offset or the modes. -/
theorem classify_covers (source : Text) :
    Tiles 0 (classify source) (Text.byteCount source) ∧
    (classify source).length ≤ source.length ∧
    (∀ span ∈ classify source, source.IsBoundary span.start ∧ source.IsBoundary span.stop) ∧
    (classify source).flatMap (Span.text · source) = source ∧
    ∀ count, let state := (ofText source).afterRequests count
      state.request.1 = (classify source)[count]? ∧
      state.offset = ((((classify source).take count).getLast?).map Span.stop).getD 0 ∧
      state.depth = state.modes.length ∧ 1 ≤ state.depth ∧
      (state.request.1 = none → ∀ further, let later := state.afterRequests further
        later.request.1 = none ∧ later.offset = state.offset ∧ later.modes = state.modes) := by
  obtain ⟨hsteps, hend⟩ := steps_run (ofText source)
  have htext : textOf (tokens source) = source := textOf_run (ofText source)
  refine ⟨?_, ?_, fun _ => boundaries_of_mem_classify, ?_, ?_⟩
  · have htiles := tiles_spansFrom 0 hsteps.text_ne_nil
    rwa [Nat.zero_add, show textOf (ofText source).run.1 = source from htext] at htiles
  · have hlength := hsteps.length_le
    rw [hend] at hlength
    rw [classify, length_spansFrom]
    exact hlength
  · have hspell := flatMap_text_spansFrom [] (tokens source) []
    rw [htext, List.nil_append, List.append_nil] at hspell
    exact hspell
  · intro count
    refine ⟨request_eq_getElem? source count, ?_, by simp [depth, modes], by simp [depth], ?_⟩
    · obtain ⟨hpassed, -⟩ := afterRequests_spec (ofText source) count
      rw [hpassed.offset, classify, take_spansFrom, stop_getLast?_spansFrom]
      rfl
    · intro hnone further
      rw [request_at_end hnone]
      exact ⟨hnone, rfl, rfl⟩

end WrenDocs
