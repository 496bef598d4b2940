import WrenDocs.Classifier
import WrenDocs.Proofs.Pattern

/-! Steps of the classifier. A step takes a word off the front of what is left,
so the texts of the tokens and what is left make up the source at all times. -/
namespace WrenDocs

/-- The text that tokens make up. -/
def textOf (tokens : List Token) : Text :=
  tokens.flatMap Token.text

@[simp] theorem textOf_nil : textOf [] = [] := rfl

@[simp] theorem textOf_cons (token : Token) (tokens : List Token) :
    textOf (token :: tokens) = token.text ++ textOf tokens := by
  simp [textOf]

@[simp] theorem textOf_append (first last : List Token) :
    textOf (first ++ last) = textOf first ++ textOf last := by
  simp [textOf]

namespace Classifier
open Grammar

@[simp] theorem offset_act (state : Classifier) (action : Action) :
    (state.act action).offset = state.offset := by
  cases action with
  | stay | push => rfl
  | pop => unfold act; dsimp only; split <;> rfl

@[simp] theorem before_act (state : Classifier) (action : Action) :
    (state.act action).before = state.before := by
  cases action with
  | stay | push => rfl
  | pop => unfold act; dsimp only; split <;> rfl

/-! ## One step -/

theorem firstMatch?_sound {state : Classifier} {rule : Rule} {lexeme : Text}
    (h : state.firstMatch? = some (rule, lexeme)) :
    rule ∈ state.mode.rules ∧ lexeme ≠ [] ∧
      ∃ ahead, state.rest = lexeme ++ ahead ∧ Fits state.before lexeme ahead rule.pattern := by
  obtain ⟨tried, hmem, htried⟩ := List.exists_of_findSome?_eq_some h
  obtain ⟨found, hfound, heq⟩ := Option.map_eq_some_iff.mp htried
  obtain ⟨rfl, rfl⟩ := Prod.mk.inj heq
  have hfits := Pattern.lexeme?_sound hfound (Pattern.readsPastEnd_of_mem_rules hmem)
  exact ⟨hmem, ne_nil_of_firstMatch? h, hfits⟩

/-- Everything a step can do: the first rule that matches takes its lexeme and
acts on the modes, or no rule matches and one character is passed over. -/
theorem step_cases {state after : Classifier} {token : Token}
    (h : state.next? = some (token, after)) :
    (∃ rule, state.firstMatch? = some (rule, token.text) ∧ token.category = rule.category ∧
      after = (state.advance token.text).act rule.action) ∨
    (state.firstMatch? = none ∧ token.category = .error ∧
      (∃ c, token.text = [c] ∧ state.rest.head? = some c) ∧ after = state.advance token.text) := by
  unfold next? at h
  split at h
  · simp at h
  · rename_i c rest hrest
    split at h
    · rename_i rule lexeme hmatch
      obtain ⟨rfl, rfl⟩ := Prod.mk.inj (Option.some.inj h)
      exact .inl ⟨rule, hmatch, rfl, rfl⟩
    · rename_i hnone
      obtain ⟨rfl, rfl⟩ := Prod.mk.inj (Option.some.inj h)
      exact .inr ⟨hnone, rfl, ⟨c, rfl, by rw [hrest]; rfl⟩, rfl⟩

theorem next?_eq_none_iff {state : Classifier} : state.next? = none ↔ state.rest = [] := by
  unfold next?
  split
  · rename_i hrest
    simp [hrest]
  · rename_i hrest
    split <;> simp [hrest]

/-- As long as a character is left there is a step. -/
theorem exists_step {state : Classifier} {c : Char} {rest : Text} (h : state.rest = c :: rest) :
    ∃ token after, state.next? = some (token, after) := by
  cases hnext : state.next? with
  | none =>
    rw [next?_eq_none_iff.mp hnext] at h
    simp at h
  | some taken => exact ⟨taken.1, taken.2, rfl⟩

theorem rest_advance {state : Classifier} {lexeme ahead : Text} (h : state.rest = lexeme ++ ahead) :
    (state.advance lexeme).rest = ahead := by
  rw [advance, h, List.drop_left]

/-- A step takes something, and takes it off the front. -/
theorem step_text {state after : Classifier} {token : Token}
    (h : state.next? = some (token, after)) :
    token.text ≠ [] ∧ state.rest = token.text ++ after.rest := by
  rcases step_cases h with ⟨rule, hmatch, -, rfl⟩ | ⟨-, -, ⟨c, htext, hhead⟩, rfl⟩
  · obtain ⟨-, hne, ahead, hrest, -⟩ := firstMatch?_sound hmatch
    refine ⟨hne, ?_⟩
    rw [rest_act, rest_advance hrest, hrest]
  · obtain ⟨rest, hrest⟩ := List.head?_eq_some_iff.mp hhead
    refine ⟨by simp [htext], ?_⟩
    have hsplit : state.rest = token.text ++ rest := by rw [hrest, htext, List.singleton_append]
    rw [rest_advance hsplit, hsplit]

/-- Everything a step can do, by what it takes and what it leaves: a word of a rule of
the mode, or one character where no rule matches. -/
theorem step_fits {state after : Classifier} {token : Token}
    (h : state.next? = some (token, after)) :
    (∃ rule ∈ state.mode.rules, state.firstMatch? = some (rule, token.text) ∧
      token.category = rule.category ∧ Fits state.before token.text after.rest rule.pattern ∧
      after = (state.advance token.text).act rule.action) ∨
    (state.firstMatch? = none ∧ token.category = .error ∧
      (∃ c, token.text = [c] ∧ state.rest = c :: after.rest) ∧ after = state.advance token.text) := by
  have hrest := (step_text h).2
  rcases step_cases h with
    ⟨rule, hmatch, hcategory, hafter⟩ | ⟨hnone, hcategory, ⟨c, htext, -⟩, hafter⟩
  · obtain ⟨hmem, -, ahead, hahead, hfits⟩ := firstMatch?_sound hmatch
    obtain rfl : after.rest = ahead := List.append_cancel_left (hrest.symm.trans hahead)
    exact .inl ⟨rule, hmem, hmatch, hcategory, hfits, hafter⟩
  · rw [htext] at hrest
    exact .inr ⟨hnone, hcategory, ⟨c, htext, hrest⟩, hafter⟩

theorem step_offset {state after : Classifier} {token : Token}
    (h : state.next? = some (token, after)) :
    after.offset = state.offset + Text.byteCount token.text := by
  rcases step_cases h with ⟨rule, -, -, rfl⟩ | ⟨-, -, -, rfl⟩
  · rw [offset_act, advance]
  · rfl

theorem step_before {state after : Classifier} {token : Token}
    (h : state.next? = some (token, after)) : after.before = token.text.getLast? := by
  have hne := (step_text h).1
  have hlast : (token.text.getLast?).or state.before = token.text.getLast? := by
    rw [List.getLast?_eq_some_getLast hne, Option.some_or]
  rcases step_cases h with ⟨rule, -, -, rfl⟩ | ⟨-, -, -, rfl⟩
  · rw [before_act, advance, hlast]
  · rw [advance, hlast]

/-! ## Any number of steps -/

/-- Steps from one state to another, with the tokens they take. -/
inductive Steps : Classifier → List Token → Classifier → Prop where
  | refl (state : Classifier) : Steps state [] state
  | head {state after last : Classifier} {token : Token} {tokens : List Token} :
      state.next? = some (token, after) → Steps after tokens last →
      Steps state (token :: tokens) last

theorem Steps.append {state middle last : Classifier} {first rest : List Token}
    (h : Steps state first middle) (h' : Steps middle rest last) :
    Steps state (first ++ rest) last := by
  induction h with
  | refl => exact h'
  | head hstep _ ih => exact .head hstep (ih h')

theorem Steps.single {state after : Classifier} {token : Token}
    (h : state.next? = some (token, after)) : Steps state [token] after :=
  .head h (.refl after)

/-- Nothing is lost: the tokens, then what is left. -/
theorem Steps.text {state last : Classifier} {tokens : List Token} (h : Steps state tokens last) :
    state.rest = textOf tokens ++ last.rest := by
  induction h with
  | refl => rfl
  | head hstep _ ih => rw [(step_text hstep).2, ih, textOf_cons, List.append_assoc]

theorem Steps.offset {state last : Classifier} {tokens : List Token} (h : Steps state tokens last) :
    last.offset = state.offset + Text.byteCount (textOf tokens) := by
  induction h with
  | refl => rfl
  | head hstep _ ih =>
    rw [ih, step_offset hstep, textOf_cons, Text.byteCount_append, Nat.add_assoc]

theorem Steps.before {state last : Classifier} {tokens : List Token} (h : Steps state tokens last) :
    last.before = (textOf tokens).getLast?.or state.before := by
  induction h with
  | refl => rfl
  | head hstep _ ih =>
    rw [ih, step_before hstep, textOf_cons, List.getLast?_append]
    cases (textOf _).getLast? with
    | some c => rfl
    | none =>
      rw [List.getLast?_eq_some_getLast (step_text hstep).1]
      rfl

/-- Every token takes at least one character. -/
theorem Steps.length_le {state last : Classifier} {tokens : List Token}
    (h : Steps state tokens last) : tokens.length + last.rest.length ≤ state.rest.length := by
  induction h with
  | refl => simp
  | head hstep _ ih =>
    have hshorter := length_rest_of_next? hstep
    rw [List.length_cons]
    omega

theorem run_of_next?_eq_none {state : Classifier} (h : state.next? = none) :
    state.run = ([], state) := by
  rw [run]
  split
  · rfl
  · simp_all

theorem run_of_next?_eq_some {state after : Classifier} {token : Token}
    (h : state.next? = some (token, after)) : state.run = (token :: after.run.1, after.run.2) := by
  rw [run]
  split <;> simp_all

/-- A run goes through the same steps. -/
theorem Steps.run_eq {state last : Classifier} {tokens : List Token}
    (h : Steps state tokens last) : state.run = (tokens ++ last.run.1, last.run.2) := by
  induction h with
  | refl => rfl
  | head hstep _ ih => rw [run_of_next?_eq_some hstep, ih, List.cons_append]

theorem steps_run (state : Classifier) :
    Steps state state.run.1 state.run.2 ∧ state.run.2.rest = [] := by
  induction hlength : state.rest.length using Nat.strongRecOn generalizing state with
  | ind length ih =>
    cases hnext : state.next? with
    | none =>
      rw [run_of_next?_eq_none hnext]
      exact ⟨.refl state, next?_eq_none_iff.mp hnext⟩
    | some taken =>
      obtain ⟨token, after⟩ := taken
      have hshorter := length_rest_of_next? hnext
      obtain ⟨hsteps, hend⟩ := ih _ (hlength ▸ hshorter) after rfl
      rw [run_of_next?_eq_some hnext]
      exact ⟨.head hnext hsteps, hend⟩

/-- Where tokens are passed one by one, the run passes through a state. -/
theorem steps_of_run_eq {state : Classifier} {first rest : List Token}
    (h : state.run.1 = first ++ rest) :
    ∃ middle, Steps state first middle ∧ middle.run = (rest, state.run.2) := by
  induction first generalizing state with
  | nil => exact ⟨state, .refl state, Prod.ext h rfl⟩
  | cons token first ih =>
    cases hnext : state.next? with
    | none => simp [run_of_next?_eq_none hnext] at h
    | some taken =>
      obtain ⟨token', after⟩ := taken
      rw [run_of_next?_eq_some hnext] at h ⊢
      obtain ⟨rfl, hrest⟩ := List.cons.inj h
      obtain ⟨middle, hsteps, hmiddle⟩ := ih hrest
      exact ⟨middle, .head hnext hsteps, hmiddle⟩

/-! ## Spans -/

theorem spansFrom_append (offset : Nat) (first rest : List Token) :
    spansFrom offset (first ++ rest) =
      spansFrom offset first ++ spansFrom (offset + Text.byteCount (textOf first)) rest := by
  induction first generalizing offset with
  | nil => rfl
  | cons token first ih =>
    simp only [List.cons_append, spansFrom, ih, textOf_cons, Text.byteCount_append, Nat.add_assoc]

/-- The span of a token begins where the tokens before it end. -/
theorem mem_spansFrom {offset : Nat} {tokens : List Token} {span : Span} :
    span ∈ spansFrom offset tokens ↔ ∃ first token rest, tokens = first ++ token :: rest ∧
      span = spanAt (offset + Text.byteCount (textOf first)) token := by
  constructor
  · intro h
    induction tokens generalizing offset with
    | nil => simp [spansFrom] at h
    | cons token tokens ih =>
      rcases List.mem_cons.mp h with rfl | h
      · exact ⟨[], token, tokens, rfl, rfl⟩
      · obtain ⟨first, found, rest, rfl, rfl⟩ := ih h
        refine ⟨token :: first, found, rest, rfl, ?_⟩
        rw [textOf_cons, Text.byteCount_append, Nat.add_assoc]
  · rintro ⟨first, token, rest, rfl, rfl⟩
    rw [spansFrom_append]
    exact List.mem_append_right _ List.mem_cons_self

end Classifier

end WrenDocs
