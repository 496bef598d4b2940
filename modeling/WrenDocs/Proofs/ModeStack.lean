import WrenDocs.Proofs.Coverage
import WrenDocs.Proofs.RuleOrder

/-! The stack of open modes: which mode may stand on which, which tokens close
one, and that the tokens alone tell the stack, without the source. -/
namespace WrenDocs

/-- Which mode may be opened in which. Comments hold comments only, strings and
markup their own kind of interpolation only, and the interpolation of strings
is opened nowhere else. -/
def Mode.standsOn (upper lower : Mode) : Bool :=
  match lower with
  | .comment => upper == .comment
  | .stringDouble | .stringSingle => upper == .interpolation
  | .html => upper == .htmlInterpolation
  | .root | .interpolation | .htmlInterpolation => upper != .interpolation

/-- A current mode and the modes around it that a run can have: code at the
bottom, and every other mode where it may stand. -/
inductive WellNested : Mode → List Mode → Prop where
  | bottom : WellNested .root []
  | above {upper lower : Mode} {around : List Mode} : upper.standsOn lower = true →
      WellNested lower around → WellNested upper (lower :: around)

/-- The tokens that close a mode. -/
def Mode.ClosedBy (token : Token) : Mode → Prop
  | .comment => token = ⟨.commentMultiline, ['*', '/']⟩
  | .stringDouble => token = ⟨.stringDouble, ['"']⟩
  | .stringSingle => token = ⟨.stringSingle, ['\'']⟩
  | .html => token.category = .other ∧ Grammar.IsMarkupTag token.text
  | .interpolation => token = ⟨.stringInterpol, [')']⟩
  | .htmlInterpolation => token = ⟨.stringInterpol, ['}', '}']⟩ ∨ token = ⟨.punctuation, [')']⟩
  | .root => token = ⟨.punctuation, [')']⟩

/-- What an action does to a current mode and the modes around it. -/
def Action.onStack : Action → Mode × List Mode → Mode × List Mode
  | .stay, stack => stack
  | .push inner, (mode, around) => (inner, mode :: around)
  | .pop, (mode, []) => (mode, [])
  | .pop, (_, outer :: around) => (outer, around)

namespace Token

/-- What a token does in code. -/
def actionInCode (token : Token) : Action :=
  match token.category with
  | .stringInterpol => if token.text = ['{', '{'] then .push .htmlInterpolation else .pop
  | .other => if token.text = Grammar.doctype then .stay else .push .html
  | .punctuation =>
    if token.text = ['('] then .push .root else if token.text = [')'] then .pop else .stay
  | .commentMultiline => .push .comment
  | .stringDouble => .push .stringDouble
  | .stringSingle => .push .stringSingle
  | _ => .stay

/-- What a token does to the modes, told by the current mode and the token. -/
def action (mode : Mode) (token : Token) : Action :=
  match mode with
  | .root | .interpolation | .htmlInterpolation => token.actionInCode
  | .comment =>
    if token.text = ['/', '*'] then .push .comment
    else if token.text = ['*', '/'] then .pop else .stay
  | .stringDouble =>
    if token.category = .stringInterpol then .push .interpolation
    else if token = ⟨.stringDouble, ['"']⟩ then .pop else .stay
  | .stringSingle =>
    if token.category = .stringInterpol then .push .interpolation
    else if token = ⟨.stringSingle, ['\'']⟩ then .pop else .stay
  | .html =>
    if token.category = .stringInterpol then .push .htmlInterpolation
    else if token.category = .other ∧ token.text.head? = some '<' then .pop else .stay

/-- The current mode and the modes around it after one more token. -/
def replay (stack : Mode × List Mode) (token : Token) : Mode × List Mode :=
  (token.action stack.1).onStack stack

theorem action_of_readsCode {mode : Mode} (h : mode.readsCode = true) (token : Token) :
    token.action mode = token.actionInCode := by
  cases mode with
  | root | interpolation | htmlInterpolation => rfl
  | comment | stringDouble | stringSingle | html => simp [Mode.readsCode] at h

end Token

namespace Classifier
open Grammar

/-! ## The action of a rule shows in its token -/

/-- The second character tells a tag from the document type. -/
theorem ne_doctype_of_isHtmlTag {text : Text} (h : IsHtmlTag text) : text ≠ doctype := by
  intro heq
  have hsecond : text[1]? = some '!' := by
    rw [heq]
    decide
  obtain ⟨slash, letter, body, rfl, rfl | rfl, hletter, -⟩ := h
  · obtain rfl : letter = '!' := Option.some.inj hsecond
    simp at hletter
  · simp at hsecond

/-- What a rule of code does can be told from its token: braces, tags and the document
type tell themselves apart by their text. -/
theorem actionInCode_of_mem_codeRules {before : Option Char} {text ahead : Text} {rule : Rule}
    (hmem : rule ∈ codeRules) (hfits : Fits before text ahead rule.pattern) :
    Token.actionInCode ⟨rule.category, text⟩ = rule.action := by
  simp only [codeRules, List.mem_cons, List.not_mem_nil, or_false] at hmem
  rcases hmem with rfl | rfl | rfl | rfl | rfl | rfl | rfl | rfl | rfl | rfl | rfl | rfl | rfl |
    rfl | rfl | rfl | rfl | rfl | rfl | rfl | rfl | rfl | rfl | rfl
  · rfl
  · exact if_pos hfits
  · exact if_neg (ne_doctype_of_isHtmlTag hfits)
  · exact if_pos hfits
  · obtain ⟨c, hc, rfl⟩ := hfits
    have hopen : c ≠ '(' := by rintro rfl; simp at hc
    have hclose : c ≠ ')' := by rintro rfl; simp at hc
    simp [Token.actionInCode, Rule.stay, hopen, hclose]
  · exact if_pos hfits
  · obtain rfl : text = [')'] := hfits
    rfl
  all_goals rfl

theorem action_of_mem_stringRules {quote : Char} {category : Category} {before : Option Char}
    {text ahead : Text} {rule : Rule} (hmem : rule ∈ stringRules quote category)
    (hcategory : category ≠ .stringInterpol ∧ category ≠ .stringEscape)
    (hfits : Fits before text ahead rule.pattern) :
    (if rule.category = .stringInterpol then Action.push .interpolation
      else if (⟨rule.category, text⟩ : Token) = ⟨category, [quote]⟩ then .pop else .stay) =
      rule.action := by
  simp only [stringRules, List.mem_cons, List.not_mem_nil, or_false] at hmem
  rcases hmem with rfl | rfl | rfl | rfl | rfl | rfl | rfl
  · obtain rfl : text = [quote] := hfits
    simp [Rule.pop, hcategory.1]
  · simp [Rule.stay, Ne.symm hcategory.2]
  · simp [Rule.stay, Ne.symm hcategory.2]
  · simp [Rule.stay, Ne.symm hcategory.2]
  · simp [Rule.stay, Ne.symm hcategory.2]
  · rfl
  · have hquote : text ≠ [quote] := by
      rintro rfl
      have hstop := hfits.all quote List.mem_cons_self
      simp at hstop
    simp [Rule.stay, hcategory.1, hquote]

theorem action_of_mem_ownRules {mode : Mode} {before : Option Char} {text ahead : Text}
    {rule : Rule} (hmode : mode.readsCode = false) (hmem : rule ∈ mode.ownRules) (hne : text ≠ [])
    (hfits : Fits before text ahead rule.pattern) :
    Token.action mode ⟨rule.category, text⟩ = rule.action := by
  cases mode with
  | root | interpolation | htmlInterpolation => simp [Mode.readsCode] at hmode
  | comment =>
    simp only [Mode.ownRules, commentRules, List.mem_cons, List.not_mem_nil, or_false] at hmem
    rcases hmem with rfl | rfl | rfl
    · exact if_pos hfits
    · obtain rfl : text = ['*', '/'] := hfits
      rfl
    · have hfree := hfits.free [] text rfl hne
      have hopen : text ≠ ['/', '*'] := by rintro rfl; exact hfree (.inl ⟨ahead, rfl⟩)
      have hclose : text ≠ ['*', '/'] := by rintro rfl; exact hfree (.inr ⟨ahead, rfl⟩)
      simp [Token.action, Rule.stay, hopen, hclose]
  | stringDouble => exact action_of_mem_stringRules hmem (by decide) hfits
  | stringSingle => exact action_of_mem_stringRules hmem (by decide) hfits
  | html =>
    simp only [Mode.ownRules, htmlRules, List.mem_cons, List.not_mem_nil, or_false] at hmem
    rcases hmem with rfl | rfl | rfl
    · obtain ⟨body, rfl, -⟩ := hfits
      rfl
    · rfl
    · have hfree := hfits.free [] text rfl hne
      have htag : text.head? ≠ some '<' := by
        intro hhead
        obtain ⟨rest, rfl⟩ := List.head?_eq_some_iff.mp hhead
        exact hfree (.inr (.inl ⟨rest ++ ahead, rfl⟩))
      simp [Token.action, Rule.stay, htag]

theorem action_of_firstMatch? {state : Classifier} {rule : Rule} {lexeme : Text}
    (h : state.firstMatch? = some (rule, lexeme)) :
    Token.action state.mode ⟨rule.category, lexeme⟩ = rule.action := by
  obtain ⟨hmem, hne, ahead, -, hfits⟩ := firstMatch?_sound h
  rcases Mode.mem_rules hmem with ⟨hmode, hown⟩ | ⟨hmode, hcode⟩ | ⟨hmode, rfl⟩ | ⟨hmode, rfl⟩
  · exact action_of_mem_ownRules hmode hown hne hfits
  · rw [Token.action_of_readsCode hmode]
    exact actionInCode_of_mem_codeRules hcode hfits
  · obtain rfl : lexeme = [')'] := hfits
    rw [hmode]
    rfl
  · obtain rfl : lexeme = ['}', '}'] := hfits
    rw [hmode]
    rfl

theorem action_error (mode : Mode) (c : Char) : Token.action mode ⟨.error, [c]⟩ = .stay := by
  cases mode <;> simp [Token.action, Token.actionInCode]

/-- A step acts on the modes as its token says. -/
theorem step_act {state after : Classifier} {token : Token}
    (h : state.next? = some (token, after)) :
    after = (state.advance token.text).act (token.action state.mode) := by
  rcases step_cases h with ⟨rule, hmatch, hcategory, hafter⟩ | ⟨-, hcategory, ⟨c, htext, -⟩, hafter⟩
  · have haction := action_of_firstMatch? hmatch
    rw [← hcategory] at haction
    rw [hafter, haction]
  · have haction := action_error state.mode c
    rw [← hcategory, ← htext] at haction
    rw [hafter, haction]
    rfl

/-- The current mode and the modes around it, innermost first. -/
def stack (state : Classifier) : Mode × List Mode :=
  (state.mode, state.enclosing)

theorem stack_act (state : Classifier) (action : Action) :
    (state.act action).stack = action.onStack state.stack := by
  cases action with
  | stay | push => rfl
  | pop =>
    simp only [act, stack]
    split <;> rename_i heq <;> rw [heq] <;> rfl

theorem step_replay {state after : Classifier} {token : Token}
    (h : state.next? = some (token, after)) : after.stack = Token.replay state.stack token := by
  rw [step_act h, stack_act]
  rfl

/-- The tokens alone give the modes back. -/
theorem Steps.replay {state last : Classifier} {tokens : List Token}
    (h : Steps state tokens last) : last.stack = tokens.foldl Token.replay state.stack := by
  induction h with
  | refl => rfl
  | head hstep _ ih => rw [ih, step_replay hstep, List.foldl_cons]

/-! ## What stands on what -/

theorem standsOn_of_push {mode inner : Mode} {rule : Rule} (hmem : rule ∈ mode.rules)
    (hpush : rule.action = .push inner) : inner.standsOn mode = true := by
  revert inner
  revert rule
  revert mode
  decide

theorem wellNested_lower {upper lower : Mode} {around : List Mode}
    (h : WellNested upper (lower :: around)) : WellNested lower around := by
  cases h with
  | above _ hlower => exact hlower

theorem mode_of_wellNested {mode : Mode} (h : WellNested mode []) : mode = .root := by
  cases h
  rfl

theorem getLast?_of_wellNested {mode : Mode} {around : List Mode} (h : WellNested mode around) :
    (mode :: around).getLast? = some .root := by
  induction h with
  | bottom => rfl
  | above _ _ ih => rw [List.getLast?_cons_cons, ih]

/-- Code is at the bottom of the stack. -/
theorem head?_modes_of_wellNested {state : Classifier}
    (h : WellNested state.mode state.enclosing) : state.modes.head? = some .root := by
  rw [modes, List.head?_reverse, getLast?_of_wellNested h]

theorem enclosing_ne_nil_of_wellNested {state : Classifier}
    (h : WellNested state.mode state.enclosing) (hmode : state.mode ≠ .root) :
    state.enclosing ≠ [] := by
  intro hbottom
  rw [hbottom] at h
  exact hmode (mode_of_wellNested h)

theorem step_wellNested {state after : Classifier} {token : Token}
    (h : state.next? = some (token, after)) (hnested : WellNested state.mode state.enclosing) :
    WellNested after.mode after.enclosing := by
  rcases step_cases h with ⟨rule, hmatch, -, rfl⟩ | ⟨-, -, -, rfl⟩
  · obtain ⟨hmem, -⟩ := firstMatch?_sound hmatch
    cases haction : rule.action with
    | stay => exact hnested
    | push inner => exact .above (standsOn_of_push hmem haction) hnested
    | pop =>
      simp only [act, advance]
      split
      · exact hnested
      · rename_i outer around heq
        rw [heq] at hnested
        exact wellNested_lower hnested
  · exact hnested

theorem Steps.wellNested {state last : Classifier} {tokens : List Token}
    (h : Steps state tokens last) (hnested : WellNested state.mode state.enclosing) :
    WellNested last.mode last.enclosing := by
  induction h with
  | refl => exact hnested
  | head hstep _ ih => exact ih (step_wellNested hstep hnested)

end Classifier

/-! ## What closes a mode -/

/-- The rules that close a mode, in their order. -/
def Mode.closingRules : Mode → List Rule
  | .root => [.pop (.literal [')']) .punctuation]
  | .comment => [.pop (.literal ['*', '/']) .commentMultiline]
  | .stringDouble => [.pop (.literal ['"']) .stringDouble]
  | .stringSingle => [.pop (.literal ['\'']) .stringSingle]
  | .html => [.pop .markupTag .other]
  | .interpolation => [.pop (.literal [')']) .stringInterpol, .pop (.literal [')']) .punctuation]
  | .htmlInterpolation =>
    [.pop (.literal ['}', '}']) .stringInterpol, .pop (.literal [')']) .punctuation]

theorem Mode.mem_closingRules {mode : Mode} {rule : Rule} (hmem : rule ∈ mode.rules)
    (hpop : rule.action = .pop) : rule ∈ mode.closingRules := by
  revert rule
  revert mode
  decide

namespace Classifier

/-- A rule that closes the current mode takes a token that closes it. In an interpolation
two rules take a `)` and close; its own is tried before the one of code. -/
theorem closedBy_of_pop {state : Classifier} {rule : Rule} {lexeme : Text}
    (h : state.firstMatch? = some (rule, lexeme)) (hpop : rule.action = .pop) :
    state.mode.ClosedBy ⟨rule.category, lexeme⟩ := by
  obtain ⟨hmem, -, ahead, hrest, hfits⟩ := firstMatch?_sound h
  have hclosing := Mode.mem_closingRules hmem hpop
  cases hmode : state.mode with
  | root | comment | stringDouble | stringSingle =>
    rw [hmode] at hclosing
    obtain rfl := List.mem_singleton.mp hclosing
    exact congrArg _ hfits
  | html =>
    rw [hmode] at hclosing
    obtain rfl := List.mem_singleton.mp hclosing
    exact ⟨rfl, hfits⟩
  | htmlInterpolation =>
    rw [hmode] at hclosing
    rcases List.mem_cons.mp hclosing with rfl | hclosing
    · exact .inl (congrArg _ hfits)
    · obtain rfl := List.mem_singleton.mp hclosing
      exact .inr (congrArg _ hfits)
  | interpolation =>
    rw [hmode] at hclosing
    rcases List.mem_cons.mp hclosing with rfl | hclosing
    · exact congrArg _ hfits
    · obtain rfl := List.mem_singleton.mp hclosing
      have hown : (Rule.pop (.literal [')']) .stringInterpol) ∈
          (Rule.pop (.literal [')']) .punctuation).predecessors state.mode.rules := by
        rw [hmode]
        decide
      have hfail := lexeme?_eq_none_of_mem_predecessors h hown
      obtain rfl : lexeme = [')'] := hfits
      rw [hrest] at hfail
      simp [Rule.pop, Pattern.lexeme?, Pattern.lexeme] at hfail

/-- Only a closing token takes a mode off the stack, and it takes one. -/
theorem closedBy_of_depth_lt {state after : Classifier} {token : Token}
    (h : state.next? = some (token, after)) (hlt : after.depth < state.depth) :
    state.mode.ClosedBy token ∧ after.modes = state.modes.dropLast := by
  rcases step_cases h with ⟨rule, hmatch, hcategory, rfl⟩ | ⟨-, -, -, rfl⟩
  · cases haction : rule.action with
    | stay => simp [haction, act, advance, depth] at hlt
    | push inner =>
      simp only [haction, act, advance, depth, List.length_cons] at hlt
      omega
    | pop =>
      have hclosed := closedBy_of_pop hmatch haction
      rw [← hcategory] at hclosed
      refine ⟨hclosed, ?_⟩
      rw [haction] at hlt
      simp only [act, advance] at hlt ⊢
      split at hlt
      · simp [depth] at hlt
      · rename_i heq
        simp [modes, heq]
  · simp [advance, depth] at hlt

/-- A closing rule leaves the stack alone only at the bottom, and there it is
the closing parenthesis. -/
theorem modes_eq_iff_of_pop {state after : Classifier} {rule : Rule} {token : Token}
    (h : state.next? = some (token, after)) (hnested : WellNested state.mode state.enclosing)
    (hmatch : state.firstMatch? = some (rule, token.text)) (hpop : rule.action = .pop) :
    after.modes = state.modes ↔ token = ⟨.punctuation, [')']⟩ ∧ state.depth = 1 := by
  rcases step_cases h with ⟨rule', hmatch', hcategory, rfl⟩ | ⟨hnone, -⟩
  · obtain ⟨rfl, -⟩ := Prod.mk.inj (Option.some.inj (hmatch.symm.trans hmatch'))
    have hclosed := closedBy_of_pop hmatch hpop
    rw [← hcategory] at hclosed
    rw [hpop]
    cases henclosing : state.enclosing with
    | nil =>
      rw [henclosing] at hnested
      rw [mode_of_wellNested hnested] at hclosed
      have hparenthesis : token = ⟨.punctuation, [')']⟩ := hclosed
      simp [act, advance, modes, depth, henclosing, hparenthesis]
    | cons outer around =>
      have hmodes : ((state.advance token.text).act .pop).modes ≠ state.modes := by
        intro heq
        have hcount := congrArg List.length heq
        simp [act, advance, modes, henclosing] at hcount
      simp [hmodes, depth, henclosing]
  · rw [hmatch] at hnone
    simp at hnone

end Classifier

open Classifier in
/-- **Stack discipline.** In every state that a source reaches the modes are well
nested. A mode is closed only by one of its closing tokens; a closing rule does
nothing exactly for a closing parenthesis with one mode open. The tokens so far
give the stack back without the source. -/
theorem mode_stack_discipline (source : Text) (count : Nat) :
    let state := (ofText source).afterRequests count
    WellNested state.mode state.enclosing ∧
    (∀ token after, state.next? = some (token, after) → after.depth < state.depth →
      state.mode.ClosedBy token ∧ after.modes = state.modes.dropLast) ∧
    (∀ rule token after, state.firstMatch? = some (rule, token.text) → rule.action = .pop →
      state.next? = some (token, after) →
      (after.modes = state.modes ↔ token = ⟨.punctuation, [')']⟩ ∧ state.depth = 1)) ∧
    state.stack = ((tokens source).take count).foldl Token.replay (.root, []) := by
  obtain ⟨hsteps, -⟩ := afterRequests_spec (ofText source) count
  have hnested := hsteps.wellNested .bottom
  refine ⟨hnested, fun token after => closedBy_of_depth_lt, ?_, hsteps.replay⟩
  intro rule token after hmatch hpop hnext
  exact modes_eq_iff_of_pop hnext hnested hmatch hpop

end WrenDocs
