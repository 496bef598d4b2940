import WrenDocs.Proofs.ModeStack
import WrenDocs.Proofs.Remainder

/-! Stretches of a classification: requests in a row whose answers are all of a
kind. What reads a body, such as that of a string, goes on in one stretch to the
first place where the body stops, and leaves the modes alone on the way. -/
namespace WrenDocs

namespace Classifier

theorem afterRequests_succ (state : Classifier) (count : Nat) :
    state.afterRequests (count + 1) = state.request.2.afterRequests count := by
  induction count with
  | zero => rfl
  | succ count ih => rw [afterRequests, ih, afterRequests]

/-- So many requests in a row are answered with spans of such categories, and
every state on the way is of such a kind, the first and the last included. -/
structure Stretch (categories : List Category) (holds : Classifier → Prop) (state : Classifier)
    (count : Nat) : Prop where
  answers : ∀ earlier < count, ∃ span, (state.afterRequests earlier).request.1 = some span ∧
    span.category ∈ categories
  states : ∀ passed ≤ count, holds (state.afterRequests passed)

theorem Stretch.nil {categories : List Category} {holds : Classifier → Prop} {state : Classifier}
    (h : holds state) : Stretch categories holds state 0 where
  answers := by
    intro earlier hearlier
    omega
  states := by
    intro passed hpassed
    obtain rfl : passed = 0 := by omega
    exact h

theorem Stretch.cons {categories : List Category} {holds : Classifier → Prop}
    {state after : Classifier} {token : Token} {count : Nat}
    (hnext : state.next? = some (token, after)) (hcategory : token.category ∈ categories)
    (h : holds state) (hrest : Stretch categories holds after count) :
    Stretch categories holds state (count + 1) where
  answers := by
    intro earlier hearlier
    cases earlier with
    | zero => exact ⟨_, by rw [afterRequests, request_of_next?_eq_some hnext], hcategory⟩
    | succ earlier =>
      rw [afterRequests_succ, request_of_next?_eq_some hnext]
      exact hrest.answers earlier (by omega)
  states := by
    intro passed hpassed
    cases passed with
    | zero => exact h
    | succ passed =>
      rw [afterRequests_succ, request_of_next?_eq_some hnext]
      exact hrest.states passed (by omega)

theorem Stretch.mono {categories : List Category} {holds holds' : Classifier → Prop}
    {state : Classifier} {count : Nat} (h : Stretch categories holds state count)
    (himp : ∀ passed, holds passed → holds' passed) : Stretch categories holds' state count where
  answers := h.answers
  states := by
    intro passed hpassed
    exact himp _ (h.states passed hpassed)

/-- The last answer of a stretch ends where the stretch has arrived. -/
theorem Stretch.exists_stop {categories : List Category} {holds : Classifier → Prop}
    {state : Classifier} {count : Nat} (h : Stretch categories holds state count)
    (hpos : 0 < count) :
    ∃ earlier < count, ∃ span, (state.afterRequests earlier).request.1 = some span ∧
      span.stop = (state.afterRequests count).offset := by
  obtain ⟨earlier, rfl⟩ := Nat.exists_eq_succ_of_ne_zero (Nat.ne_of_gt hpos)
  obtain ⟨span, hspan, -⟩ := h.answers earlier (Nat.lt_succ_self earlier)
  refine ⟨earlier, Nat.lt_succ_self earlier, span, hspan, ?_⟩
  obtain ⟨token, after, hnext, rfl⟩ := next?_of_request hspan
  rw [afterRequests, request_of_next?_eq_some hnext]
  exact (step_offset hnext).symm

/-- What every step keeps as long as a goal is not reached holds all the way to
the goal, and the goal is reached: each step shortens what is left. -/
theorem exists_stretch {categories : List Category} {holds goal : Classifier → Prop}
    (hstep : ∀ state, holds state → ¬ goal state → ∃ token after,
      state.next? = some (token, after) ∧ token.category ∈ categories ∧ holds after)
    {state : Classifier} (h : holds state) :
    ∃ count, Stretch categories holds state count ∧ goal (state.afterRequests count) := by
  induction hlength : state.rest.length using Nat.strongRecOn generalizing state with
  | ind length ih =>
    by_cases hgoal : goal state
    · exact ⟨0, .nil h, hgoal⟩
    · obtain ⟨token, after, hnext, hcategory, hafter⟩ := hstep state h hgoal
      have hshorter := length_rest_of_next? hnext
      obtain ⟨count, hstretch, hdone⟩ := ih _ (hlength ▸ hshorter) hafter rfl
      refine ⟨count + 1, .cons hnext hcategory h hstretch, ?_⟩
      rw [afterRequests_succ, request_of_next?_eq_some hnext]
      exact hdone

end Classifier

/-! ## The first place where a body stops -/

/-- The first place of a text where a body stops. Whether it stops at a place is
told by what of the text stands before it and what is ahead of it. -/
structure FirstStop (stop : Text → Text → Prop) (text front ahead : Text) : Prop where
  split : text = front ++ ahead
  stops : stop front ahead
  first : ∀ front' ahead', text = front' ++ ahead' → front'.length < front.length →
    ¬ stop front' ahead'

theorem firstStop_iff {stop : Text → Text → Prop} {text front ahead : Text} :
    FirstStop stop text front ahead ↔ text = front ++ ahead ∧ stop front ahead ∧
      ∀ place < front.length, ¬ stop (text.take place) (text.drop place) := by
  constructor
  · intro h
    refine ⟨h.split, h.stops, ?_⟩
    intro place hplace
    refine h.first _ _ (List.take_append_drop place text).symm ?_
    exact Nat.lt_of_le_of_lt (List.length_take_le place text) hplace
  · rintro ⟨hsplit, hstops, hfirst⟩
    refine ⟨hsplit, hstops, ?_⟩
    rintro front' ahead' rfl hshorter
    have hno := hfirst _ hshorter
    rwa [List.take_left, List.drop_left] at hno

instance {stop : Text → Text → Prop} [∀ front ahead, Decidable (stop front ahead)]
    (text front ahead : Text) : Decidable (FirstStop stop text front ahead) :=
  decidable_of_iff _ firstStop_iff.symm

theorem FirstStop.unique {stop : Text → Text → Prop} {text front ahead front' ahead' : Text}
    (h : FirstStop stop text front ahead) (h' : FirstStop stop text front' ahead') :
    front = front' ∧ ahead = ahead' := by
  have hle : front.length ≤ front'.length := by
    apply Nat.le_of_not_lt
    intro hlt
    exact h.first front' ahead' h'.split hlt h'.stops
  have hge : front'.length ≤ front.length := by
    apply Nat.le_of_not_lt
    intro hlt
    exact h'.first front ahead h.split hlt h.stops
  exact List.append_inj (h.split.symm.trans h'.split) (Nat.le_antisymm hle hge)

/-- A text that can be passed over: no stop is at its beginning or inside it, and
it does not matter for the stops that are ahead. -/
structure Skips (stop : Text → Text → Prop) (text ahead : Text) : Prop where
  inside : ∀ front back, text = front ++ back → back ≠ [] → ¬ stop front (back ++ ahead)
  behind : ∀ front rest, ahead = front ++ rest → (stop (text ++ front) rest ↔ stop front rest)

namespace Skips

theorem nil (stop : Text → Text → Prop) (ahead : Text) : Skips stop [] ahead where
  inside := by
    intro front back hsplit hback
    exact absurd (List.append_eq_nil_iff.mp hsplit.symm).2 hback
  behind := by
    intro front rest _
    exact Iff.rfl

/-- A single character is passed over if no stop is there. -/
theorem single {stop : Text → Text → Prop} {c : Char} {ahead : Text} (hstart : ¬ stop [] (c :: ahead))
    (hbehind : ∀ front rest, ahead = front ++ rest → (stop (c :: front) rest ↔ stop front rest)) :
    Skips stop [c] ahead where
  inside := by
    intro front back hsplit hback
    rcases List.cons_eq_append_iff.mp hsplit with ⟨rfl, rfl⟩ | ⟨_, -, hend⟩
    · exact hstart
    · exact absurd (List.append_eq_nil_iff.mp hend.symm).2 hback
  behind := hbehind

theorem append {stop : Text → Text → Prop} {first second ahead : Text}
    (h : Skips stop first (second ++ ahead)) (h' : Skips stop second ahead) :
    Skips stop (first ++ second) ahead where
  inside := by
    intro front back hsplit hback
    rcases List.append_eq_append_iff.mp hsplit with ⟨more, rfl, rfl⟩ | ⟨more, rfl, rfl⟩
    · rw [h.behind more (back ++ ahead) (List.append_assoc ..)]
      exact h'.inside more back rfl hback
    · by_cases hmore : more = []
      · subst hmore
        have hstart := h'.inside [] second rfl hback
        rw [← h.behind [] (second ++ ahead) rfl] at hstart
        simpa using hstart
      · rw [List.append_assoc]
        exact h.inside front more rfl hmore
  behind := by
    intro front rest hahead
    have hsplit : second ++ ahead = second ++ front ++ rest := by rw [hahead, List.append_assoc]
    rw [List.append_assoc, h.behind (second ++ front) rest hsplit]
    exact h'.behind front rest hahead

/-- A stop right behind a text that can be passed over is the first one. -/
theorem firstStop {stop : Text → Text → Prop} {text ahead : Text} (h : Skips stop text ahead)
    (hstop : stop [] ahead) : FirstStop stop (text ++ ahead) text ahead where
  split := rfl
  stops := by
    have hbehind := (h.behind [] ahead rfl).mpr hstop
    rwa [List.append_nil] at hbehind
  first := by
    intro front ahead' hsplit hshorter
    rcases List.append_eq_append_iff.mp hsplit with ⟨more, rfl, rfl⟩ | ⟨more, rfl, rfl⟩
    · rw [List.length_append] at hshorter
      omega
    · refine h.inside front more rfl ?_
      rintro rfl
      simp at hshorter

end Skips

namespace Classifier

/-- Where a body stops there is a step, and it takes nothing that can be passed over. -/
theorem exists_step_at_stop {stop : Text → Text → Prop} {state : Classifier}
    (hnil : ¬ stop [] []) (hstop : stop [] state.rest) :
    ∃ token after, state.next? = some (token, after) ∧ ¬ Skips stop token.text after.rest := by
  cases hnext : state.next? with
  | none =>
    rw [next?_eq_none_iff.mp hnext] at hstop
    exact absurd hstop hnil
  | some taken =>
    obtain ⟨token, after⟩ := taken
    obtain ⟨hne, hrest⟩ := step_text hnext
    refine ⟨token, after, rfl, ?_⟩
    intro hskips
    rw [hrest] at hstop
    exact hskips.inside [] token.text rfl hne hstop

/-- The body that a mode reads: every step that does not begin at a stop is labelled
as a part of it, leaves the modes alone and can be passed over. -/
structure ReadsBody (mode : Mode) (categories : List Category) (stop : Text → Text → Prop) :
    Prop where
  step : ∀ (state : Classifier) token after, state.mode = mode →
    state.next? = some (token, after) → ¬ stop [] state.rest →
      token.category ∈ categories ∧ after.modes = state.modes ∧ Skips stop token.text after.rest
  ahead : ∀ front, ¬ stop front []

namespace ReadsBody

variable {mode : Mode} {categories : List Category} {stop : Text → Text → Prop}
  {state : Classifier}

/-- The body goes on in one stretch to a stop or to the end of the source, and what
is read on the way can be passed over. -/
theorem exists_stretch (h : ReadsBody mode categories stop) (hmode : state.mode = mode) :
    ∃ count read, let last := state.afterRequests count
      Stretch categories (·.modes = state.modes) state count ∧
      state.rest = read ++ last.rest ∧ last.offset = state.offset + Text.byteCount read ∧
      Skips stop read last.rest ∧ (last.rest = [] ∨ stop [] last.rest) := by
  let holds (later : Classifier) : Prop := later.modes = state.modes ∧ ∃ read,
    state.rest = read ++ later.rest ∧ later.offset = state.offset + Text.byteCount read ∧
      Skips stop read later.rest
  have hstart : holds state := ⟨rfl, [], rfl, rfl, .nil stop state.rest⟩
  have hkeeps : ∀ later, holds later → ¬ (later.rest = [] ∨ stop [] later.rest) →
      ∃ token after, later.next? = some (token, after) ∧ token.category ∈ categories ∧
        holds after := by
    rintro later ⟨hmodes, read, hread, hoffset, hskips⟩ hgoal
    obtain ⟨hleft, hstop⟩ := not_or.mp hgoal
    obtain ⟨c, rest, hrest⟩ := List.exists_cons_of_ne_nil hleft
    obtain ⟨token, after, hnext⟩ := exists_step hrest
    have hlater : later.mode = mode := (modes_inj hmodes).1.trans hmode
    obtain ⟨hcategory, hsame, hpassed⟩ := h.step later token after hlater hnext hstop
    have htext := (step_text hnext).2
    refine ⟨token, after, hnext, hcategory, hsame.trans hmodes, read ++ token.text, ?_, ?_, ?_⟩
    · rw [hread, htext, List.append_assoc]
    · rw [step_offset hnext, hoffset, Text.byteCount_append, Nat.add_assoc]
    · rw [htext] at hskips
      exact hskips.append hpassed
  obtain ⟨count, hstretch, hgoal⟩ := Classifier.exists_stretch hkeeps hstart
  obtain ⟨-, read, hread, hoffset, hskips⟩ := hstretch.states count (Nat.le_refl count)
  exact ⟨count, read, hstretch.mono fun _ => And.left, hread, hoffset, hskips, hgoal⟩

/-- The stretch goes on to the first stop. -/
theorem to_stop (h : ReadsBody mode categories stop) (hmode : state.mode = mode)
    {front ahead : Text} (hfirst : FirstStop stop state.rest front ahead) :
    ∃ count, Stretch categories (·.modes = state.modes) state count ∧
      (state.afterRequests count).offset = state.offset + Text.byteCount front ∧
      (state.afterRequests count).rest = ahead := by
  obtain ⟨count, read, hstretch, hread, hoffset, hskips, hend | hstop⟩ := h.exists_stretch hmode
  · have hahead : ahead ≠ [] := by
      rintro rfl
      exact h.ahead front hfirst.stops
    rw [hend, List.append_nil] at hread
    have hinside := hskips.inside front ahead (hread.symm.trans hfirst.split) hahead
    rw [hend, List.append_nil] at hinside
    exact absurd hfirst.stops hinside
  · rw [hread] at hfirst
    obtain ⟨rfl, hahead⟩ := (hskips.firstStop hstop).unique hfirst
    exact ⟨count, hstretch, hoffset, hahead⟩

/-- Without a stop the stretch goes on to the end of the source. -/
theorem to_end (h : ReadsBody mode categories stop) (hmode : state.mode = mode)
    (hnone : ∀ front ahead, state.rest = front ++ ahead → ¬ stop front ahead) :
    ∃ count, Stretch categories (·.modes = state.modes) state count ∧
      (state.afterRequests count).request.1 = none := by
  obtain ⟨count, read, hstretch, hread, -, hskips, hend | hstop⟩ := h.exists_stretch hmode
  · refine ⟨count, hstretch, ?_⟩
    rw [request_of_next?_eq_none (next?_eq_none_iff.mpr hend)]
  · exact absurd (hskips.firstStop hstop).stops (hnone read _ hread)

end ReadsBody

end Classifier

end WrenDocs
