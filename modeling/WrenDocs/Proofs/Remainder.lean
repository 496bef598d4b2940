import WrenDocs.Proofs.Cursor

/-! What is left of a classification. It depends on the open modes, on the text
that is left and on whether a dot stands right before it; whatever else has been
read is forgotten. -/
namespace WrenDocs

/-- The same span, so many bytes further on. -/
def Span.shift (distance : Nat) (span : Span) : Span :=
  { span with start := span.start + distance, stop := span.stop + distance }

/-- What stands before a text counts for a pattern only by being a dot or not. -/
theorem Pattern.lexeme?_congr {before before' : Option Char}
    (h : before = some '.' ↔ before' = some '.') (pattern : Pattern) (text : Text) :
    pattern.lexeme? before text = pattern.lexeme? before' text := by
  have hlexeme : pattern.lexeme before text = pattern.lexeme before' text := by
    cases pattern with
    | word words => simp only [lexeme, wordOf, ne_eq, h]
    | _ => rfl
  rw [lexeme?, lexeme?, hlexeme]

namespace Classifier

/-- A classifier that stands in a source, between two of its characters. -/
structure StandsAt (state : Classifier) (cursor : Cursor) : Prop where
  boundary : cursor.source.IsBoundary cursor.position
  offset : state.offset = cursor.position
  rest : state.rest = cursor.rest
  before : state.before = cursor.before?

/-- Two classifiers that go on alike, wherever they stand. -/
structure Alike (here there : Classifier) : Prop where
  mode : here.mode = there.mode
  enclosing : here.enclosing = there.enclosing
  rest : here.rest = there.rest
  afterDot : here.before = some '.' ↔ there.before = some '.'

theorem Alike.modes {here there : Classifier} (h : Alike here there) :
    here.modes = there.modes := by
  rw [Classifier.modes, Classifier.modes, h.mode, h.enclosing]

theorem modes_inj {here there : Classifier} (h : here.modes = there.modes) :
    here.mode = there.mode ∧ here.enclosing = there.enclosing :=
  List.cons.inj (List.reverse_inj.mp h)

/-! ## Two classifications side by side -/

theorem Alike.firstMatch? {here there : Classifier} (h : Alike here there) :
    here.firstMatch? = there.firstMatch? := by
  unfold Classifier.firstMatch?
  rw [h.mode, h.rest]
  apply congrArg (List.findSome? · there.mode.rules)
  funext rule
  rw [rule.pattern.lexeme?_congr h.afterDot]

theorem Alike.act {here there : Classifier} (h : Alike here there) (action : Action) :
    Alike (here.act action) (there.act action) := by
  obtain ⟨hmode, henclosing, hrest, hdot⟩ := h
  cases action with
  | stay => exact ⟨hmode, henclosing, hrest, hdot⟩
  | push mode => exact ⟨rfl, by simp only [Classifier.act, hmode, henclosing], hrest, hdot⟩
  | pop =>
    unfold Classifier.act
    rw [henclosing]
    cases there.enclosing with
    | nil => exact ⟨hmode, henclosing, hrest, hdot⟩
    | cons mode enclosing => exact ⟨rfl, rfl, hrest, hdot⟩

/-- After a lexeme it no longer matters what stood before it. -/
theorem Alike.advance {here there : Classifier} (h : Alike here there) {lexeme : Text}
    (hne : lexeme ≠ []) : Alike (here.advance lexeme) (there.advance lexeme) := by
  refine ⟨h.mode, h.enclosing, ?_, ?_⟩
  · simp only [Classifier.advance, h.rest]
  · simp only [Classifier.advance, List.getLast?_eq_some_getLast hne, Option.some_or]

/-- One step: the same token, and the two go on alike. -/
theorem Alike.step {here there after : Classifier} {token : Token} (h : Alike here there)
    (hstep : here.next? = some (token, after)) :
    ∃ after', there.next? = some (token, after') ∧ Alike after after' := by
  unfold next? at hstep ⊢
  rw [h.rest] at hstep
  rw [← h.firstMatch?]
  cases hrest : there.rest with
  | nil => simp [hrest] at hstep
  | cons c rest =>
    rw [hrest] at hstep
    dsimp only at hstep ⊢
    cases hmatch : here.firstMatch? with
    | none =>
      rw [hmatch] at hstep
      obtain ⟨rfl, rfl⟩ := Prod.mk.inj (Option.some.inj hstep)
      exact ⟨_, rfl, h.advance (by simp)⟩
    | some found =>
      obtain ⟨rule, lexeme⟩ := found
      rw [hmatch] at hstep
      obtain ⟨rfl, rfl⟩ := Prod.mk.inj (Option.some.inj hstep)
      exact ⟨_, rfl, (h.advance (ne_nil_of_firstMatch? hmatch)).act rule.action⟩

/-- Any number of steps: the same tokens, and the two still go on alike. -/
theorem Alike.steps {here there last : Classifier} {tokens : List Token}
    (hsteps : Steps here tokens last) (h : Alike here there) :
    ∃ last', Steps there tokens last' ∧ Alike last last' := by
  induction hsteps generalizing there with
  | refl => exact ⟨there, .refl there, h⟩
  | head hstep _ ih =>
    obtain ⟨after', hstep', hafter⟩ := h.step hstep
    obtain ⟨last', hsteps', hlast⟩ := ih hafter
    exact ⟨last', .head hstep' hsteps', hlast⟩

/-- The whole run: the same tokens, and the same modes at the end. -/
theorem Alike.run {here there : Classifier} (h : Alike here there) :
    here.run.1 = there.run.1 ∧ here.run.2.modes = there.run.2.modes := by
  obtain ⟨hsteps, hend⟩ := steps_run here
  obtain ⟨last, hsteps', hlast⟩ := Alike.steps hsteps h
  have hstop : last.run = ([], last) :=
    run_of_next?_eq_none (next?_eq_none_iff.mpr (hlast.rest ▸ hend))
  have hrun := hsteps'.run_eq
  rw [hstop, List.append_nil] at hrun
  rw [hrun]
  exact ⟨rfl, hlast.modes⟩

/-! ## Where the spans stand -/

theorem spansFrom_shift (offset distance : Nat) (tokens : List Token) :
    spansFrom (offset + distance) tokens = (spansFrom offset tokens).map (Span.shift distance) := by
  induction tokens generalizing offset with
  | nil => rfl
  | cons token tokens ih =>
    have hnext : offset + distance + Text.byteCount token.text =
        offset + Text.byteCount token.text + distance := Nat.add_right_comm ..
    rw [spansFrom, spansFrom, List.map_cons, hnext, ih]
    simp only [spanAt, Span.shift, hnext]

theorem Alike.remaining {here there : Classifier} (h : Alike here there) :
    here.remaining.map (Span.shift there.offset) = there.remaining.map (Span.shift here.offset) := by
  rw [Classifier.remaining, Classifier.remaining, h.run.1, ← spansFrom_shift, ← spansFrom_shift,
    Nat.add_comm]

/-- What requests have read of a source stands right before what they have left. -/
theorem afterRequests_read {source consumed : Text} {count : Nat}
    (h : source = consumed ++ ((ofText source).afterRequests count).rest) :
    let state := (ofText source).afterRequests count
    state.offset = Text.byteCount consumed ∧ state.before = consumed.getLast? := by
  intro state
  obtain ⟨hsteps, -⟩ := afterRequests_spec (ofText source) count
  have hread : textOf ((tokens source).take count) = consumed :=
    List.append_cancel_right (hsteps.text.symm.trans h)
  have hoffset := hsteps.offset
  have hbefore := hsteps.before
  rw [show textOf ((ofText source).run.1.take count) = consumed from hread] at hoffset hbefore
  exact ⟨hoffset.trans (Nat.zero_add _), hbefore.trans Option.or_none⟩

/-- The span that a request answers covers the text of its token. -/
theorem text_request {source : Text} {count : Nat} {after : Classifier} {token : Token}
    (h : ((ofText source).afterRequests count).next? = some (token, after)) :
    (spanAt ((ofText source).afterRequests count).offset token).text source = token.text := by
  obtain ⟨hsteps, -⟩ := afterRequests_spec (ofText source) count
  have hread : source =
      textOf ((tokens source).take count) ++ ((ofText source).afterRequests count).rest :=
    hsteps.text
  obtain ⟨hoffset, -⟩ := afterRequests_read hread
  have htext := text_spanAt (textOf ((tokens source).take count)) after.rest token
  rwa [← (step_text h).2, ← hread, ← hoffset] at htext

/-- Requests leave the classifier of a source at the offset that they have reached. -/
theorem standsAt_afterRequests (source : Text) (count : Nat) :
    let state := (ofText source).afterRequests count
    state.StandsAt ⟨source, state.offset⟩ := by
  intro state
  obtain ⟨hsteps, -⟩ := afterRequests_spec (ofText source) count
  have hsource : source = textOf ((tokens source).take count) ++ state.rest := hsteps.text
  obtain ⟨hoffset, hbefore⟩ := afterRequests_read hsource
  have hcut : Text.splitAtByte? state.offset source =
      some (textOf ((tokens source).take count), state.rest) := by
    rw [hoffset]
    have hsplit := Text.splitAtByte?_byteCount (textOf ((tokens source).take count)) state.rest
    rwa [← hsource] at hsplit
  refine ⟨⟨_, _, hsource, hoffset.symm⟩, rfl, ?_, ?_⟩
  · simp only [Cursor.rest, hcut, Option.map_some, Option.getD_some]
  · simpa only [Cursor.before?, hcut, Option.bind_some] using hbefore

/-- Where two classifiers stand, the cursors tell whether they go on alike. -/
theorem alike_of_standsAt {state state' : Classifier} {here there : Cursor}
    (hhere : state.StandsAt here) (hthere : state'.StandsAt there)
    (hmodes : state.modes = state'.modes) (hrest : here.rest = there.rest)
    (hdot : here.previous? = some Text.dotByte ↔ there.previous? = some Text.dotByte) :
    Alike state state' := by
  obtain ⟨hmode, henclosing⟩ := modes_inj hmodes
  refine ⟨hmode, henclosing, ?_, ?_⟩
  · rw [hhere.rest, hthere.rest, hrest]
  · rw [hhere.before, hthere.before, ← Cursor.previous?_eq_dot_iff hhere.boundary,
      ← Cursor.previous?_eq_dot_iff hthere.boundary]
    exact hdot

/-- In code, and not right after a dot, a classification goes on as one that begins. -/
theorem alike_ofText {state : Classifier} (hmodes : state.modes = [.root])
    (hdot : state.before ≠ some '.') : Alike state (ofText state.rest) := by
  have hsame : state.modes = (ofText state.rest).modes := hmodes
  obtain ⟨hmode, henclosing⟩ := modes_inj hsame
  refine ⟨hmode, henclosing, rfl, ?_⟩
  simp [hdot, ofText]

end Classifier

open Classifier

/-- **What is left.** Two classifications in the same modes, with the same text
left and both or neither right after a dot, go on with the same spans up to where
they stand, and end in the same modes. So what comes after a place in code that
is not right after a dot is what a source makes that begins there. -/
theorem rest_determines_spans :
    (∀ (here there : Cursor) (state state' : Classifier),
      state.StandsAt here → state'.StandsAt there →
      state.modes = state'.modes → here.rest = there.rest →
      (here.previous? = some Text.dotByte ↔ there.previous? = some Text.dotByte) →
        state.remaining.map (Span.shift there.position) =
          state'.remaining.map (Span.shift here.position) ∧
        state.remaining.map Span.category = state'.remaining.map Span.category ∧
        state.run.2.modes = state'.run.2.modes) ∧
    ∀ (source consumed : Text) (count : Nat), let state := (ofText source).afterRequests count
      source = consumed ++ state.rest → state.modes = [.root] → consumed.getLast? ≠ some '.' →
        state.offset = Text.byteCount consumed ∧
        state.remaining = (classify source).drop count ∧
        state.remaining = (classify state.rest).map (Span.shift state.offset) := by
  constructor
  · intro here there state state' hhere hthere hmodes hrest hdot
    have halike := alike_of_standsAt hhere hthere hmodes hrest hdot
    have hspans := halike.remaining
    rw [hhere.offset, hthere.offset] at hspans
    refine ⟨hspans, ?_, halike.run.2⟩
    have hcategories := congrArg (List.map Span.category) hspans
    rwa [List.map_map, List.map_map] at hcategories
  · intro source consumed count state hsource hmodes hdot
    obtain ⟨hoffset, hbefore⟩ := afterRequests_read hsource
    have halike := alike_ofText hmodes (hbefore ▸ hdot)
    refine ⟨hoffset, remaining_afterRequests (ofText source) count, ?_⟩
    have hspans := spansFrom_shift 0 state.offset state.run.1
    rw [Nat.zero_add, halike.run.1] at hspans
    rw [remaining, halike.run.1, hspans]
    rfl

/-- A word that is left right after a dot is the name of a member in both
sources; one that is left after a string is classified as if nothing came before. -/
theorem rest_determines_spans_of_word :
    (let state := (ofText "a.is".toList).afterRequests 2
      let state' := (ofText "(1).is".toList).afterRequests 4
      state.remaining.map (Span.shift state'.offset) =
        state'.remaining.map (Span.shift state.offset)) ∧
    let state := (ofText "'x'is".toList).afterRequests 3
    state.remaining = (classify ['i', 's']).map (Span.shift 3) := by
  constructor
  · intro state state'
    have hmodes : state.modes = state'.modes := by decide +kernel
    have hrest : (Cursor.mk "a.is".toList state.offset).rest =
        (Cursor.mk "(1).is".toList state'.offset).rest := by decide +kernel
    exact (rest_determines_spans.1 _ _ _ _ (standsAt_afterRequests _ 2) (standsAt_afterRequests _ 4)
      hmodes hrest (by decide +kernel)).1
  · intro state
    have hrest : "'x'is".toList = "'x'".toList ++ state.rest := by decide +kernel
    have hmodes : state.modes = [.root] := by decide +kernel
    exact (rest_determines_spans.2 _ _ 3 hrest hmodes (by decide)).2.2

end WrenDocs
