import WrenDocs.Proofs.Nesting.Bracket

/-! Plain pieces of a body. In a row they run together, so a token may take from
several of them, but none takes from the delimiter that ends them. -/
namespace WrenDocs.Nesting
open Classifier

/-- What plain pieces in a row make up. The characters are plain, and a `+` in
code is followed by a space. -/
inductive Plain (kind : Kind) : Text → Prop where
  | nil : Plain kind []
  | char {c : Char} {text : Text} : c ∈ kind.alphabet → Plain kind text → Plain kind (c :: text)
  | plus {text : Text} : kind = .code → Plain kind (' ' :: text) → Plain kind ('+' :: ' ' :: text)

theorem Plain.append {kind : Kind} {front back : Text} (h : Plain kind front)
    (h' : Plain kind back) : Plain kind (front ++ back) := by
  induction h with
  | nil => exact h'
  | char hc _ ih => exact .char hc ih
  | plus hkind _ ih => exact .plus hkind ih

theorem plain_of_all {kind : Kind} {text : Text} (h : text.all kind.alphabet.contains = true) :
    Plain kind text := by
  induction text with
  | nil => exact .nil
  | cons c text ih =>
    rw [List.all_cons, Bool.and_eq_true] at h
    exact .char (List.contains_iff_mem.mp h.1) (ih h.2)

theorem plain_of_isPiece {kind : Kind} {text : Text} (h : kind.isPiece text = true) :
    Plain kind text := by
  cases kind with
  | code =>
    have hspace : ' ' ∈ Kind.code.alphabet := by decide
    simp only [Kind.isPiece, Bool.or_eq_true, beq_iff_eq, Bool.and_eq_true] at h
    rcases h with rfl | ⟨-, h⟩
    · exact .char hspace (.plus rfl (.char hspace .nil))
    · exact plain_of_all h
  | string =>
    simp only [Kind.isPiece, Bool.and_eq_true] at h
    exact plain_of_all h.2
  | comment | markup => exact plain_of_all h

theorem head?_ne_quote {kind : Kind} {text : Text} (h : kind.isPiece text = true) :
    text.head? ≠ some '"' := by
  have hplain := plain_of_isPiece h
  cases hplain with
  | nil => simp
  | @char c _ hc _ =>
    have hquote : '"' ∉ kind.alphabet := by cases kind <;> decide
    have hne : c ≠ '"' := by
      rintro rfl
      exact hquote hc
    simpa using hne
  | plus => simp

/-- In code and in strings a plain piece is not empty. -/
theorem piece_ne_nil {kind : Kind} {text : Text} (h : kind.isPiece text = true)
    (hkind : kind = .code ∨ kind = .string) : text ≠ [] := by
  rintro rfl
  rcases hkind with rfl | rfl <;> simp [Kind.isPiece] at h

/-! ## In a mode -/

/-- In code a `+` is an operator. -/
theorem rulesAt_plus {mode : Mode} (h : mode.kind = .code) :
    rulesAt mode '+' = [.stay .operatorRun .operator] := by
  revert mode
  decide

/-- The delimiters that end a plain piece of a mode: those that open a bracket
in it and those that close it. -/
def delimitersIn (mode : Mode) : List Text :=
  (Bracket.all.filter (·.standsIn mode.kind)).map Bracket.opening ++
    (Bracket.all.filter (·.mode == mode)).map Bracket.closing

theorem opening_mem_delimitersIn {bracket : Bracket} {mode : Mode}
    (h : bracket.standsIn mode.kind = true) : bracket.opening ∈ delimitersIn mode :=
  List.mem_append_left _ (List.mem_map_of_mem (List.mem_filter.mpr ⟨bracket.mem_all, h⟩))

theorem closing_mem_delimitersIn (bracket : Bracket) :
    bracket.closing ∈ delimitersIn bracket.mode :=
  List.mem_append_right _
    (List.mem_map_of_mem (List.mem_filter.mpr ⟨bracket.mem_all, beq_self_eq_true _⟩))

/-- Whether a mode reads a character as plain text: some rule matches there, and
each rule that can keeps the mode and halts before the delimiters. -/
def readsPlain (mode : Mode) (c : Char) : Bool :=
  (rulesAt mode c).any (·.pattern.seizes c) &&
  (rulesAt mode c).all fun rule => rule.action == .stay && rule.category != .error &&
    (delimitersIn mode).all rule.pattern.haltsBefore

theorem readsPlain_of_mem_alphabet {mode : Mode} {c : Char} (hc : c ∈ mode.kind.alphabet) :
    readsPlain mode c = true := by
  have hall : ∀ mode ∈ Mode.all, mode.kind.alphabet.all (readsPlain mode) = true := by
    decide
  exact List.all_eq_true.mp (hall mode mode.mem_all) c hc

theorem seizes_of_mem_alphabet {mode : Mode} {c : Char} (hc : c ∈ mode.kind.alphabet) :
    ∃ rule ∈ rulesAt mode c, rule.pattern.seizes c = true := by
  have hplain := readsPlain_of_mem_alphabet hc
  rw [readsPlain, Bool.and_eq_true] at hplain
  exact List.any_eq_true.mp hplain.1

theorem keeps_of_mem_alphabet {mode : Mode} {c : Char} {rule : Rule} (hc : c ∈ mode.kind.alphabet)
    (hrule : rule ∈ rulesAt mode c) : rule.action = .stay ∧ rule.category ≠ .error ∧
      ∀ stop ∈ delimitersIn mode, rule.pattern.haltsBefore stop = true := by
  have hplain := readsPlain_of_mem_alphabet hc
  rw [readsPlain, Bool.and_eq_true] at hplain
  have hkeeps := List.all_eq_true.mp hplain.2 rule hrule
  simpa [and_assoc] using hkeeps

/-- Plain pieces of a mode end where such a text begins. -/
def Halts (mode : Mode) (stop : Text) : Prop :=
  ∀ c ∈ mode.kind.alphabet, ∀ rule ∈ rulesAt mode c, rule.pattern.HaltsAt stop

theorem halts_of_delimiter {mode : Mode} {delimiter : Text} (h : delimiter ∈ delimitersIn mode)
    (rest : Text) : Halts mode (delimiter ++ rest) := by
  intro c hc rule hrule
  obtain ⟨-, -, hhalts⟩ := keeps_of_mem_alphabet hc hrule
  exact Pattern.haltsAt_of_haltsBefore (hhalts delimiter h) rest

/-- Plain text is passed up to where it halts. An operator could run into the stop, but
not over the space that plain text puts before it. -/
theorem passes_of_plain {mode : Mode} {text stop : Text} (h : Plain mode.kind text)
    (hstop : Halts mode stop) : Passes mode stop text := by
  induction h with
  | nil => exact .nil
  | char hc _ ih =>
    refine .cons List.nil_suffix ?_ (seizes_of_mem_alphabet hc) ih
    intro rule hrule
    obtain ⟨hstay, hclean, -⟩ := keeps_of_mem_alphabet hc hrule
    exact ⟨hstay, hclean, hstop _ hc rule hrule⟩
  | @plus text hkind _ ih =>
    refine .cons (List.suffix_refl _) ?_ ?_ ih
    · intro rule hrule
      rw [rulesAt_plus hkind, List.mem_singleton] at hrule
      subst hrule
      exact ⟨rfl, by decide, Pattern.haltsAt_of_bars (by decide) (text ++ stop)⟩
    · rw [rulesAt_plus hkind]
      exact ⟨_, List.mem_singleton_self _, by decide⟩

end WrenDocs.Nesting
