import WrenDocs.Proofs.Lookahead
import WrenDocs.Proofs.ModeStack

/-! Texts that lead from one stack of modes to another. What such a text does
depends on what comes after it and not on what was read before it, so texts
that lead on from each other can be put together. -/
namespace WrenDocs.Classifier
open Grammar

/-- Where so much is ahead, a text takes one stack of modes to another: it ends
with a token, none of its tokens is an error, and such spans are among theirs. -/
def Leads (stack : Mode × List Mode) (text ahead : Text) (stack' : Mode × List Mode)
    (spans : Nat → List Span) : Prop :=
  ∀ state : Classifier, state.stack = stack → state.rest = text ++ ahead →
    ∃ tokens last, Steps state tokens last ∧ last.stack = stack' ∧ last.rest = ahead ∧
      (∀ token ∈ tokens, token.category ≠ .error) ∧
      ∀ span ∈ spans state.offset, span ∈ spansFrom state.offset tokens

theorem Leads.nil (stack : Mode × List Mode) (ahead : Text) :
    Leads stack [] ahead stack fun _ => [] := by
  intro state hstack hrest
  exact ⟨[], state, .refl state, hstack, hrest, by simp, by simp⟩

theorem Leads.mono {stack stack' : Mode × List Mode} {text ahead : Text}
    {spans spans' : Nat → List Span} (h : Leads stack text ahead stack' spans) (hspans : ∀ offset, spans' offset ⊆ spans offset) :
    Leads stack text ahead stack' spans' := by
  intro state hstack hrest
  obtain ⟨tokens, last, hsteps, hlast, hahead, hclean, hfound⟩ := h state hstack hrest
  refine ⟨tokens, last, hsteps, hlast, hahead, hclean, ?_⟩
  intro span hspan
  exact hfound span (hspans state.offset hspan)

theorem Leads.append {stack middle last : Mode × List Mode} {front back ahead : Text}
    {first second : Nat → List Span} (h : Leads stack front (back ++ ahead) middle first)
    (h' : Leads middle back ahead last second) :
    Leads stack (front ++ back) ahead last fun offset =>
      first offset ++ second (offset + Text.byteCount front) := by
  intro state hstack hrest
  rw [List.append_assoc] at hrest
  obtain ⟨tokens, between, hsteps, hmiddle, hback, hclean, hspans⟩ := h state hstack hrest
  obtain ⟨tokens', after, hsteps', hlast, hahead, hclean', hspans'⟩ := h' between hmiddle hback
  have htext : textOf tokens = front := by
    have htext := hsteps.text
    rw [hrest, hback] at htext
    exact (List.append_cancel_right htext).symm
  have hoffset := hsteps.offset
  rw [htext] at hoffset
  refine ⟨tokens ++ tokens', after, hsteps.append hsteps', hlast, hahead, ?_, ?_⟩
  · intro token htoken
    rcases List.mem_append.mp htoken with htoken | htoken
    · exact hclean token htoken
    · exact hclean' token htoken
  · intro span hspan
    rw [spansFrom_append, htext, ← hoffset]
    rcases List.mem_append.mp hspan with hspan | hspan
    · exact List.mem_append_left _ (hspans span hspan)
    · rw [← hoffset] at hspan
      exact List.mem_append_right _ (hspans' span hspan)

/-- A single token, where the rules that can match are known. -/
theorem Leads.token {mode : Mode} {around : List Mode} {c : Char} {tail ahead : Text}
    {passed : List Rule} {rule : Rule} (hrules : passed ++ [rule] <+: rulesAt mode c)
    (hpassed : ∀ earlier ∈ passed, ∀ before,
      earlier.pattern.lexeme? before (c :: tail ++ ahead) = none)
    (hlexeme : ∀ before, rule.pattern.lexeme? before (c :: tail ++ ahead) = some (c :: tail))
    (herror : rule.category ≠ .error) :
    Leads (mode, around) (c :: tail) ahead (rule.action.onStack (mode, around)) fun offset =>
      [spanAt offset ⟨rule.category, c :: tail⟩] := by
  intro state hstack hrest
  obtain ⟨hmode, henclosing⟩ := Prod.mk.inj hstack
  obtain ⟨others, hrules⟩ := hrules
  rw [List.append_assoc, List.singleton_append, ← hmode] at hrules
  have hnext := next?_of_rulesAt hrest hrules.symm
    (fun earlier hearlier => by rw [hrest]; exact hpassed earlier hearlier state.before)
    (by rw [hrest]; exact hlexeme state.before)
  refine ⟨_, _, .single hnext, ?_, ?_, ?_, ?_⟩
  · rw [stack_act, ← hstack]
    rfl
  · rw [rest_act, rest_advance hrest]
  · simpa using herror
  · simp [spansFrom]

/-! ## Plain text -/

/-- Plain text of a mode, up to such a stop. At each of its characters some rule
matches and every rule that can keeps the mode; and there is a place in the
text, or its end, that none of them gets over. -/
inductive Passes (mode : Mode) (stop : Text) : Text → Prop where
  | nil : Passes mode stop []
  | cons {c : Char} {tail far : Text} (hfar : far <:+ tail)
      (hkeeps : ∀ rule ∈ rulesAt mode c, rule.action = .stay ∧ rule.category ≠ .error ∧
        rule.pattern.HaltsAt (far ++ stop))
      (hseizes : ∃ rule ∈ rulesAt mode c, rule.pattern.seizes c = true) :
      Passes mode stop tail → Passes mode stop (c :: tail)

theorem Passes.drop {mode : Mode} {stop front back : Text} (h : Passes mode stop (front ++ back)) :
    Passes mode stop back := by
  induction front with
  | nil => exact h
  | cons c front ih =>
    cases h with
    | cons _ _ _ htail => exact ih htail

/-- A step in plain text takes some of it, and nothing after it. -/
theorem step_passes {state : Classifier} {text stop : Text} (hne : text ≠ [])
    (h : Passes state.mode stop text) (hrest : state.rest = text ++ stop) :
    ∃ token after back, state.next? = some (token, after) ∧ token.category ≠ .error ∧
      text = token.text ++ back ∧ after.rest = back ++ stop ∧ after.stack = state.stack := by
  cases h with
  | nil => exact absurd rfl hne
  | @cons c tail far hfar hkeeps hseizes _ =>
    obtain ⟨near, rfl⟩ := hfar
    obtain ⟨seizing, hseizing, hseizes⟩ := hseizes
    obtain ⟨⟨rule, lexeme⟩, hmatch⟩ := firstMatch?_of_seizes hrest hseizing hseizes
    obtain ⟨hstay, hclean, hhalts⟩ := hkeeps rule (mem_rulesAt_of_firstMatch? hrest hmatch)
    obtain ⟨-, -, ahead, hahead, hfits⟩ := firstMatch?_sound hmatch
    have hsplit : lexeme ++ ahead = c :: near ++ (far ++ stop) := by
      rw [← hahead, hrest, List.cons_append, List.cons_append, List.append_assoc]
    obtain ⟨rest, hnear⟩ := hhalts _ _ _ _ hfits hsplit (List.cons_ne_nil c near)
    have hnext := next?_of_firstMatch? hmatch
    rw [hstay] at hnext
    have htext : c :: (near ++ far) = lexeme ++ (rest ++ far) := by
      rw [← List.cons_append, ← hnear, List.append_assoc]
    refine ⟨_, _, rest ++ far, hnext, hclean, htext, ?_, rfl⟩
    rw [rest_act, rest_advance]
    rw [hrest, htext, List.append_assoc]

/-- Plain text changes nothing, in as many steps as it takes. -/
theorem Leads.plain {mode : Mode} {text stop : Text} (h : Passes mode stop text)
    (around : List Mode) : Leads (mode, around) text stop (mode, around) fun _ => [] := by
  induction hlength : text.length using Nat.strongRecOn generalizing text with
  | ind length ih =>
    intro state hstack hrest
    by_cases hnil : text = []
    · exact Leads.nil (mode, around) stop state hstack (by rw [hrest, hnil])
    · obtain ⟨hmode, -⟩ := Prod.mk.inj hstack
      obtain ⟨token, after, back, hnext, hclean, htext, hback, hsame⟩ :=
        step_passes hnil (by rwa [hmode]) hrest
      have hshorter : back.length < length := by
        have hpos := List.length_pos_iff.mpr (step_text hnext).1
        rw [← hlength, htext, List.length_append]
        omega
      have hpasses : Passes mode stop back := by
        rw [htext] at h
        exact h.drop
      obtain ⟨tokens, last, hsteps, hlast, hahead, hclean', -⟩ :=
        ih back.length hshorter hpasses rfl after (hsame.trans hstack) hback
      refine ⟨token :: tokens, last, .head hnext hsteps, hlast, hahead, ?_, by simp⟩
      intro found hfound
      rcases List.mem_cons.mp hfound with rfl | hfound
      · exact hclean
      · exact hclean' found hfound

end WrenDocs.Classifier
