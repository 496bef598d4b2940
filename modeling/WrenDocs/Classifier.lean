import WrenDocs.Rule
import WrenDocs.Span

/-! Classification of a source text. The classifier holds what is left of the
text, what stands just before it, and the open modes; each step takes one token
off the front, so it always ends. Where no rule matches, the token is one
character of the category `error`. -/
namespace WrenDocs

/-- A piece of source text and what it is. -/
structure Token where
  category : Category
  text : Text
  deriving DecidableEq, Repr, Inhabited

/-- A classification under way. There is always a current mode, so the stack of
open modes is never empty. -/
structure Classifier where
  /-- How many bytes have been read. -/
  offset : Nat
  /-- The character just before `rest`. -/
  before : Option Char
  /-- What has not been read yet. -/
  rest : Text
  mode : Mode
  /-- The modes around the current one, innermost first. -/
  enclosing : List Mode
  deriving DecidableEq, Repr, Inhabited

namespace Classifier

/-- The start of a source: nothing read, and code at the bottom of the stack. -/
def ofText (source : Text) : Classifier :=
  ⟨0, none, source, .root, []⟩

/-- The open modes, bottom first. -/
def modes (state : Classifier) : List Mode :=
  (state.mode :: state.enclosing).reverse

/-- How many modes are open. -/
def depth (state : Classifier) : Nat :=
  state.enclosing.length + 1

/-- Moves over a lexeme. -/
def advance (state : Classifier) (lexeme : Text) : Classifier :=
  { state with
    offset := state.offset + Text.byteCount lexeme
    before := lexeme.getLast?.or state.before
    rest := state.rest.drop lexeme.length }

/-- Opens or closes a mode. The mode at the bottom stays open. -/
def act (state : Classifier) : Action → Classifier
  | .stay => state
  | .push mode => { state with mode, enclosing := state.mode :: state.enclosing }
  | .pop =>
    match state.enclosing with
    | [] => state
    | mode :: enclosing => { state with mode, enclosing }

/-- The first rule of the current mode that matches, with its lexeme. -/
def firstMatch? (state : Classifier) : Option (Rule × Text) :=
  state.mode.rules.findSome? fun rule =>
    (rule.pattern.lexeme? state.before state.rest).map (rule, ·)

/-- One step: the next token and the state after it, or nothing at the end. -/
def next? (state : Classifier) : Option (Token × Classifier) :=
  match state.rest with
  | [] => none
  | c :: _ =>
    match state.firstMatch? with
    | some (rule, lexeme) =>
      some (⟨rule.category, lexeme⟩, (state.advance lexeme).act rule.action)
    | none => some (⟨.error, [c]⟩, state.advance [c])

@[simp] theorem rest_act (state : Classifier) (action : Action) :
    (state.act action).rest = state.rest := by
  cases action with
  | stay | push => rfl
  | pop => unfold act; dsimp only; split <;> rfl

/-- What the first matching rule takes is not empty. -/
theorem ne_nil_of_firstMatch? {state : Classifier} {rule : Rule} {lexeme : Text}
    (h : state.firstMatch? = some (rule, lexeme)) : lexeme ≠ [] := by
  obtain ⟨tried, _, htried⟩ := List.exists_of_findSome?_eq_some h
  obtain ⟨found, hfound, heq⟩ := Option.map_eq_some_iff.mp htried
  obtain ⟨rfl, rfl⟩ := Prod.mk.inj heq
  exact (Pattern.lexeme?_eq_some_iff.mp hfound).2

/-- Every step shortens what is left. -/
theorem length_rest_of_next? {state state' : Classifier} {token : Token}
    (h : state.next? = some (token, state')) : state'.rest.length < state.rest.length := by
  unfold next? at h
  split at h
  · simp at h
  · rename_i c rest hrest
    split at h
    · rename_i rule lexeme hmatch
      obtain ⟨-, rfl⟩ := Prod.mk.inj (Option.some.inj h)
      have hpos := List.length_pos_iff.mpr (ne_nil_of_firstMatch? hmatch)
      simp only [rest_act, advance, List.length_drop, hrest, List.length_cons]
      omega
    · obtain ⟨-, rfl⟩ := Prod.mk.inj (Option.some.inj h)
      simp [advance, hrest]

/-- Everything that is left: its tokens and the state at the end. -/
def run (state : Classifier) : List Token × Classifier :=
  match _ : state.next? with
  | none => ([], state)
  | some (token, state') =>
    let (tokens, last) := run state'
    (token :: tokens, last)
termination_by state.rest.length
decreasing_by exact length_rest_of_next? ‹_›

/-- The range of a token that begins at such an offset. -/
def spanAt (offset : Nat) (token : Token) : Span :=
  ⟨offset, offset + Text.byteCount token.text, token.category⟩

/-- The ranges of tokens that follow each other from such an offset on. -/
def spansFrom : Nat → List Token → List Span
  | _, [] => []
  | offset, token :: tokens =>
    spanAt offset token :: spansFrom (offset + Text.byteCount token.text) tokens

end Classifier

/-- The tokens of a source text. -/
def tokens (source : Text) : List Token :=
  (Classifier.ofText source).run.1

/-- The spans of a source text, one for each token. -/
def classify (source : Text) : List Span :=
  Classifier.spansFrom 0 (tokens source)

end WrenDocs
