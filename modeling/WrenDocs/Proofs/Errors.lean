import WrenDocs.Proofs.Ascii
import WrenDocs.Proofs.Labels
import WrenDocs.Proofs.Lookahead

/-! Errors. A character is an error exactly where the mode has no token that begins
with it. The grammar tells these places, without the rules and their order. -/
namespace WrenDocs

namespace Grammar

def isControl (c : Char) : Bool :=
  decide (c.toNat < 0x20) || decide (c.toNat = 0x7f)

/-- The characters with which no token of code begins, whatever follows. -/
def isStray (c : Char) : Bool :=
  ['@', ';', '$'].contains c || (isControl c && !Text.isSpace c) ||
    (!Text.isAscii c && !Text.isWhiteSpace c)

/-- Where a mode has no token for a character and the text behind it. -/
def NoToken (mode : Mode) (c : Char) (rest : Text) : Prop :=
  match mode with
  | .root | .interpolation | .htmlInterpolation =>
    isStray c = true ∨ c = '`' ∧ ∀ query, query <+: c :: rest → ¬ IsQuery query
  | .stringDouble | .stringSingle =>
    (c = '\\' ∧ ∀ escape, escape <+: c :: rest → ¬ IsEscape escape) ∨
      c = '%' ∧ rest.head? ≠ some '('
  | .html => c = '\\' ∨ c = '<' ∧ ∀ tag, tag <+: c :: rest → ¬ IsMarkupTag tag
  | .comment => False

end Grammar

/-- The modes that read a string. -/
def Mode.readsString : Mode → Bool
  | .stringDouble | .stringSingle => true
  | .root | .comment | .html | .interpolation | .htmlInterpolation => false

namespace Pattern

/-- Whether the words of a pattern all begin with an ASCII character. -/
def opensInAscii : Pattern → Bool
  | space | commentText | stringText _ | markupText => false
  | literal text => text.all Text.isAscii
  | oneOf set => set.all Text.isAscii
  | word words => words.all (·.all Text.isAscii)
  | htmlTag | markupTag | lineComment | attributeLine | operatorRun | lowerName | upperName
  | classVariable | instanceVariable | hexNumber | decimal | rawString | query | charEscape _
  | hexEscape _ _ => true

theorem isAscii_of_opens {pattern : Pattern} {c : Char} (hascii : pattern.opensInAscii = true)
    (h : pattern.opens c = true) : Text.isAscii c = true := by
  cases pattern with
  | space | commentText | stringText | markupText => simp [opensInAscii] at hascii
  | literal text =>
    obtain ⟨tail, rfl⟩ := List.head?_eq_some_iff.mp (eq_of_beq h)
    exact List.all_eq_true.mp hascii c List.mem_cons_self
  | oneOf set => exact List.all_eq_true.mp hascii c (List.contains_iff_mem.mp h)
  | word words =>
    obtain ⟨word, hword, hhead⟩ := List.any_eq_true.mp h
    obtain ⟨tail, rfl⟩ := List.head?_eq_some_iff.mp (eq_of_beq hhead)
    exact List.all_eq_true.mp (List.all_eq_true.mp hascii _ hword) c List.mem_cons_self
  | operatorRun =>
    have hall : Lexeme.operatorChars.all Text.isAscii = true := by decide
    exact List.all_eq_true.mp hall c (List.contains_iff_mem.mp h)
  | lowerName | upperName | decimal =>
    have halphanum : c.isAlphanum = true := by
      simp only [opens] at h
      simp [Text.isAlphanum_eq, h]
    exact Text.isAscii_of_isAlphanum halphanum
  | htmlTag | markupTag | lineComment | attributeLine | classVariable | instanceVariable
  | hexNumber | rawString | query | charEscape | hexEscape =>
    obtain rfl := eq_of_beq h
    rfl

end Pattern

namespace Classifier
open Grammar

/-! ## Code -/

/-- What the rules of code say of a character: a stray one begins no token, any
other but the backtick begins one whatever follows. -/
def decidedInCode (c : Char) : Bool :=
  if isStray c then codeRules.all fun rule => !rule.pattern.opens c
  else c == '`' || codeRules.any fun rule => rule.pattern.seizes c

theorem decidedInCode_of_isAscii {c : Char} (hc : Text.isAscii c = true) :
    decidedInCode c = true := by
  have htable : Text.ascii.all decidedInCode = true := by
    decide
  exact List.all_eq_true.mp htable c (Text.mem_ascii hc)

/-- Beyond ASCII only white space begins a token of code. -/
theorem isStray_of_not_isAscii {c : Char} (hc : Text.isAscii c = false) :
    isStray c = !Text.isSpace c := by
  have hlarge : ¬ c.toNat < 0x80 := of_decide_eq_false hc
  have hnamed : ['@', ';', '$'].contains c = false := by
    have hall : ['@', ';', '$'].all Text.isAscii = true := by decide
    rw [← Bool.not_eq_true]
    intro hmem
    rw [List.all_eq_true.mp hall c (List.contains_iff_mem.mp hmem)] at hc
    simp at hc
  have hcontrol : isControl c = false := by
    simp only [isControl, Bool.or_eq_false_iff, decide_eq_false_iff_not]
    omega
  have hspace : Text.isSpace c = Text.isWhiteSpace c := by
    have hseparator : ¬ c.toNat ≤ 0x1f := by omega
    simp [Text.isSpace, hseparator]
  rw [isStray, hnamed, hcontrol, hc, hspace]
  simp

theorem decidedInCode_of_not_isAscii {c : Char} (hc : Text.isAscii c = false) :
    decidedInCode c = true := by
  rw [decidedInCode, isStray_of_not_isAscii hc]
  cases hspace : Text.isSpace c with
  | true =>
    have hseizes : codeRules.any (fun rule => rule.pattern.seizes c) = true :=
      List.any_eq_true.mpr ⟨.stay .space .whitespace, List.mem_cons_self, hspace⟩
    simp [hseizes]
  | false =>
    have hrules : ∀ rule ∈ codeRules,
        rule.pattern = .space ∨ rule.pattern.opensInAscii = true := by
      decide
    simp only [Bool.not_false, ↓reduceIte, List.all_eq_true, Bool.not_eq_true',
      ← Bool.not_eq_true]
    intro rule hrule hopens
    rcases hrules rule hrule with hpattern | hpattern
    · rw [hpattern, Pattern.opens, hspace] at hopens
      simp at hopens
    · rw [Pattern.isAscii_of_opens hpattern hopens] at hc
      simp at hc

theorem decidedInCode_eq_true (c : Char) : decidedInCode c = true := by
  cases hc : Text.isAscii c with
  | true => exact decidedInCode_of_isAscii hc
  | false => exact decidedInCode_of_not_isAscii hc

/-- No rule of a mode that reads code begins at a stray character. -/
theorem opens_of_isStray {mode : Mode} {c : Char} {rule : Rule} (hmode : mode.readsCode = true)
    (hstray : isStray c = true) (hrule : rule ∈ mode.rules) : rule.pattern.opens c = false := by
  have hdecided := decidedInCode_eq_true c
  rw [decidedInCode, if_pos hstray, List.all_eq_true] at hdecided
  rcases Mode.mem_rules hrule with ⟨hno, -⟩ | ⟨-, hcode⟩ | ⟨-, rfl⟩ | ⟨-, rfl⟩
  · rw [hmode] at hno
    simp at hno
  · simpa using hdecided rule hcode
  · have hne : c ≠ ')' := by rintro rfl; revert hstray; decide
    simp [Rule.pop, Pattern.opens, Ne.symm hne]
  · have hne : c ≠ '}' := by rintro rfl; revert hstray; decide
    simp [Rule.pop, Pattern.opens, Ne.symm hne]

/-- The only token of code that begins with a backtick is a query. -/
theorem pattern_of_opens_backtick {mode : Mode} {rule : Rule} (hmode : mode.readsCode = true)
    (hrule : rule ∈ mode.rules) (h : rule.pattern.opens '`' = true) : rule.pattern = .query := by
  revert rule
  revert mode
  decide

/-- A query is found wherever one stands. -/
theorem query_of_firstMatch?_eq_none {state : Classifier} {query : Text}
    (hmode : state.mode.readsCode = true) (h : state.firstMatch? = none)
    (hfront : query <+: state.rest) : ¬ IsQuery query := by
  intro hquery
  have hrule : Rule.stay .query .stringBacktick ∈ state.mode.rules :=
    Mode.mem_rules_of_readsCode hmode (by decide)
  obtain ⟨ahead, hrest⟩ := hfront
  have hlexeme := Lexeme.query_append ahead hquery
  rw [hrest] at hlexeme
  refine firstMatch?_ne_none_of_lexeme hrule hlexeme ?_ h
  obtain ⟨body, rfl, -⟩ := hquery
  simp

theorem firstMatch?_eq_none_iff_of_readsCode {state : Classifier} {c : Char} {rest : Text}
    (hmode : state.mode.readsCode = true) (hrest : state.rest = c :: rest) :
    state.firstMatch? = none ↔
      isStray c = true ∨ c = '`' ∧ ∀ query, query <+: c :: rest → ¬ IsQuery query := by
  constructor
  · intro hnone
    by_cases hstray : isStray c = true
    · exact .inl hstray
    · have hdecided := decidedInCode_eq_true c
      rw [decidedInCode, if_neg hstray, Bool.or_eq_true, beq_iff_eq, List.any_eq_true] at hdecided
      rcases hdecided with hquery | ⟨rule, hrule, hseizes⟩
      · refine .inr ⟨hquery, fun query hfront => ?_⟩
        exact query_of_firstMatch?_eq_none hmode hnone (hrest ▸ hfront)
      · have hmem := Mode.mem_rules_of_readsCode hmode hrule
        exact absurd hnone (firstMatch?_ne_none_of_seizes hrest hmem hseizes)
  · intro h
    cases hmatch : state.firstMatch? with
    | none => rfl
    | some found =>
      obtain ⟨rule, lexeme⟩ := found
      obtain ⟨hrule, hopens, ahead, hahead, hfits⟩ := firstMatch?_opens hrest hmatch
      rcases h with hstray | ⟨rfl, hno⟩
      · rw [opens_of_isStray hmode hstray hrule] at hopens
        simp at hopens
      · rw [pattern_of_opens_backtick hmode hrule hopens] at hfits
        exact absurd hfits (hno lexeme ⟨ahead, hahead⟩)

/-! ## Strings -/

theorem escape_rules {mode : Mode} (hmode : mode.readsString = true) :
    .stay (.charEscape escapeChars) .stringEscape ∈ mode.rules ∧
      (∀ form ∈ [('x', 2), ('u', 4), ('U', 8)],
        .stay (.hexEscape form.1 form.2) .stringEscape ∈ mode.rules) ∧
      .push (.literal ['%', '(']) .stringInterpol .interpolation ∈ mode.rules := by
  revert mode
  decide

/-- With a backslash only an escape begins, and with `%` only an interpolation. -/
theorem opens_in_string {mode : Mode} {rule : Rule} (hmode : mode.readsString = true)
    (hrule : rule ∈ mode.rules) :
    (rule.pattern.opens '\\' = true → rule.category = .stringEscape) ∧
      (rule.pattern.opens '%' = true → rule.pattern = .literal ['%', '(']) := by
  revert rule
  revert mode
  decide

theorem exists_seizes_of_stringRules {quote c : Char} (category : Category) (hescape : c ≠ '\\')
    (hpercent : c ≠ '%') : ∃ rule ∈ stringRules quote category, rule.pattern.seizes c = true := by
  by_cases hquote : c = quote
  · refine ⟨.pop (.literal [quote]) category, by simp [stringRules], ?_⟩
    simp [Rule.pop, Pattern.seizes, hquote]
  · refine ⟨.stay (.stringText quote) category, by simp [stringRules], ?_⟩
    simp [Rule.stay, Pattern.seizes, hescape, hpercent, hquote]

theorem exists_seizes_of_readsString {mode : Mode} {c : Char} (hmode : mode.readsString = true)
    (hescape : c ≠ '\\') (hpercent : c ≠ '%') :
    ∃ rule ∈ mode.rules, rule.pattern.seizes c = true := by
  cases mode with
  | stringDouble => exact exists_seizes_of_stringRules .stringDouble hescape hpercent
  | stringSingle => exact exists_seizes_of_stringRules .stringSingle hescape hpercent
  | root | comment | html | interpolation | htmlInterpolation => simp [Mode.readsString] at hmode

theorem escape_of_firstMatch?_eq_none {state : Classifier} {escape : Text}
    (hmode : state.mode.readsString = true) (h : state.firstMatch? = none)
    (hfront : escape <+: state.rest) : ¬ IsEscape escape := by
  obtain ⟨hchar, hhex, -⟩ := escape_rules hmode
  obtain ⟨ahead, hrest⟩ := hfront
  rintro (⟨c, hc, rfl⟩ | ⟨marker, digits, rfl, hform, hdigits⟩)
  · have hlexeme : Lexeme.charEscape escapeChars state.rest = ['\\', c] :=
      hrest ▸ Lexeme.charEscape_append ahead hc
    exact firstMatch?_ne_none_of_lexeme hchar hlexeme (by simp) h
  · have hlexeme : Lexeme.hexEscape marker digits.length state.rest = '\\' :: marker :: digits :=
      hrest ▸ Lexeme.hexEscape_append ahead hdigits
    exact firstMatch?_ne_none_of_lexeme (hhex _ hform) hlexeme (by simp) h

theorem firstMatch?_eq_none_iff_of_readsString {state : Classifier} {c : Char} {rest : Text}
    (hmode : state.mode.readsString = true) (hrest : state.rest = c :: rest) :
    state.firstMatch? = none ↔
      (c = '\\' ∧ ∀ escape, escape <+: c :: rest → ¬ IsEscape escape) ∨
        c = '%' ∧ rest.head? ≠ some '(' := by
  constructor
  · intro hnone
    by_cases hescape : c = '\\'
    · refine .inl ⟨hescape, fun escape hfront => ?_⟩
      exact escape_of_firstMatch?_eq_none hmode hnone (hrest ▸ hfront)
    · by_cases hpercent : c = '%'
      · refine .inr ⟨hpercent, fun hopen => ?_⟩
        obtain ⟨ahead, rfl⟩ := List.head?_eq_some_iff.mp hopen
        subst hpercent
        exact firstMatch?_ne_none_of_literal (escape_rules hmode).2.2 rfl (by simp)
          ⟨ahead, hrest.symm⟩ hnone
      · obtain ⟨rule, hrule, hseizes⟩ := exists_seizes_of_readsString hmode hescape hpercent
        exact absurd hnone (firstMatch?_ne_none_of_seizes hrest hrule hseizes)
  · intro h
    cases hmatch : state.firstMatch? with
    | none => rfl
    | some found =>
      obtain ⟨rule, lexeme⟩ := found
      obtain ⟨hrule, hopens, ahead, hahead, hfits⟩ := firstMatch?_opens hrest hmatch
      obtain ⟨hbackslash, hpercent⟩ := opens_in_string hmode hrule
      rcases h with ⟨rfl, hno⟩ | ⟨rfl, hno⟩
      · have hlabels := step_labels (next?_of_firstMatch? hmatch)
        simp only [hbackslash hopens] at hlabels
        exact absurd hlabels (hno lexeme ⟨ahead, hahead⟩)
      · rw [hpercent hopens] at hfits
        obtain rfl : lexeme = ['%', '('] := hfits
        obtain ⟨-, rfl⟩ := List.cons.inj hahead
        exact absurd rfl hno

/-! ## Markup and comments -/

/-- With a backslash no markup begins, and with `<` only a tag. -/
theorem opens_in_html {rule : Rule} (hrule : rule ∈ Mode.html.rules) :
    rule.pattern.opens '\\' = false ∧
      (rule.pattern.opens '<' = true → rule.pattern = .markupTag) := by
  revert rule
  decide

theorem html_rules {mode : Mode} (hmode : mode = .html) :
    .pop .markupTag .other ∈ mode.rules ∧
      .push (.literal ['{', '{']) .stringInterpol .htmlInterpolation ∈ mode.rules ∧
      .stay .markupText .other ∈ mode.rules := by
  revert mode
  decide

theorem markupTag_of_firstMatch?_eq_none {state : Classifier} {tag : Text}
    (hmode : state.mode = .html) (h : state.firstMatch? = none) (hfront : tag <+: state.rest) :
    ¬ IsMarkupTag tag := by
  intro hmarkup
  obtain ⟨ahead, hrest⟩ := hfront
  have hlexeme := Lexeme.markupTag_append ahead hmarkup
  rw [hrest] at hlexeme
  refine firstMatch?_ne_none_of_lexeme (html_rules hmode).1 hlexeme ?_ h
  obtain ⟨body, rfl, -⟩ := hmarkup
  simp

theorem firstMatch?_eq_none_iff_of_html {state : Classifier} {c : Char} {rest : Text}
    (hmode : state.mode = .html) (hrest : state.rest = c :: rest) :
    state.firstMatch? = none ↔
      c = '\\' ∨ c = '<' ∧ ∀ tag, tag <+: c :: rest → ¬ IsMarkupTag tag := by
  constructor
  · intro hnone
    obtain ⟨-, hopen, hbody⟩ := html_rules hmode
    have htext : Lexeme.markupText state.rest = [] := firstMatch?_eq_none_iff.mp hnone _ hbody
    rw [hrest] at htext
    rcases Lexeme.markupDelimiter_of_nil (List.cons_ne_nil c rest) htext with
      ⟨_, heq⟩ | ⟨_, heq⟩ | hbrace
    · exact .inl (List.cons.inj heq).1.symm
    · refine .inr ⟨(List.cons.inj heq).1.symm, fun tag hfront => ?_⟩
      exact markupTag_of_firstMatch?_eq_none hmode hnone (hrest ▸ hfront)
    · exact absurd hnone (firstMatch?_ne_none_of_literal hopen rfl (by simp) (hrest ▸ hbrace))
  · intro h
    cases hmatch : state.firstMatch? with
    | none => rfl
    | some found =>
      obtain ⟨rule, lexeme⟩ := found
      obtain ⟨hrule, hopens, ahead, hahead, hfits⟩ := firstMatch?_opens hrest hmatch
      rw [hmode] at hrule
      obtain ⟨hbackslash, htag⟩ := opens_in_html hrule
      rcases h with rfl | ⟨rfl, hno⟩
      · rw [hbackslash] at hopens
        simp at hopens
      · rw [htag hopens] at hfits
        exact absurd hfits (hno lexeme ⟨ahead, hahead⟩)

theorem comment_rules {mode : Mode} (hmode : mode = .comment) :
    .push (.literal ['/', '*']) .commentMultiline .comment ∈ mode.rules ∧
      .pop (.literal ['*', '/']) .commentMultiline ∈ mode.rules ∧
      .stay .commentText .commentMultiline ∈ mode.rules := by
  revert mode
  decide

/-- A comment is read to its end. -/
theorem firstMatch?_ne_none_of_comment {state : Classifier} {c : Char} {rest : Text}
    (hmode : state.mode = .comment) (hrest : state.rest = c :: rest) :
    state.firstMatch? ≠ none := by
  intro hnone
  obtain ⟨hopen, hclose, hbody⟩ := comment_rules hmode
  have htext : Lexeme.commentText state.rest = [] := firstMatch?_eq_none_iff.mp hnone _ hbody
  rw [hrest] at htext
  rcases Lexeme.commentDelimiter_of_nil (List.cons_ne_nil c rest) htext with hfront | hfront
  · exact firstMatch?_ne_none_of_literal hopen rfl (by simp) (hrest ▸ hfront) hnone
  · exact firstMatch?_ne_none_of_literal hclose rfl (by simp) (hrest ▸ hfront) hnone

/-! ## Every mode -/

theorem firstMatch?_eq_none_iff_noToken {state : Classifier} {c : Char} {rest : Text}
    (hrest : state.rest = c :: rest) :
    state.firstMatch? = none ↔ NoToken state.mode c rest := by
  cases hmode : state.mode with
  | root | interpolation | htmlInterpolation =>
    exact firstMatch?_eq_none_iff_of_readsCode (by rw [hmode]; rfl) hrest
  | stringDouble | stringSingle =>
    exact firstMatch?_eq_none_iff_of_readsString (by rw [hmode]; rfl) hrest
  | html => exact firstMatch?_eq_none_iff_of_html hmode hrest
  | comment => exact iff_of_false (firstMatch?_ne_none_of_comment hmode hrest) id

theorem category_ne_error {mode : Mode} {rule : Rule} (h : rule ∈ mode.rules) :
    rule.category ≠ .error := by
  revert rule
  revert mode
  decide

theorem category_eq_error_iff {state after : Classifier} {token : Token}
    (h : state.next? = some (token, after)) :
    token.category = .error ↔ state.firstMatch? = none := by
  rcases step_cases h with ⟨rule, hmatch, hcategory, -⟩ | ⟨hnone, hcategory, -⟩
  · rw [hcategory, hmatch]
    exact iff_of_false (category_ne_error (firstMatch?_sound hmatch).1) (by simp)
  · exact iff_of_true hcategory hnone

/-- An error passes over one character and does not touch the modes. -/
theorem step_of_error {state after : Classifier} {token : Token} {c : Char} {rest : Text}
    (hrest : state.rest = c :: rest) (h : state.next? = some (token, after))
    (hcategory : token.category = .error) :
    token.text = [c] ∧ after.rest = rest ∧ after.modes = state.modes := by
  have hnone := (category_eq_error_iff h).mp hcategory
  rw [next?, hrest] at h
  simp only [hnone, Option.some.injEq, Prod.mk.injEq] at h
  obtain ⟨rfl, rfl⟩ := h
  exact ⟨rfl, rest_advance hrest, rfl⟩

end Classifier

open Classifier in
/-- **Errors.** As long as something is left there is a next span, and it is an
error exactly where the mode has no token for what is left. An error covers one
character and leaves the modes as they are. -/
theorem error_iff_noToken (state : Classifier) (c : Char) (rest : Text)
    (hrest : state.rest = c :: rest) :
    ∃ span after, state.request = (some span, after) ∧
      (span.category = .error ↔ Grammar.NoToken state.mode c rest) ∧
      (span.category = .error → span = ⟨state.offset, state.offset + c.utf8Size, .error⟩ ∧
        after.rest = rest ∧ after.modes = state.modes) := by
  obtain ⟨token, after, hnext⟩ := exists_step hrest
  refine ⟨_, after, request_of_next?_eq_some hnext, ?_, ?_⟩
  · exact (category_eq_error_iff hnext).trans (firstMatch?_eq_none_iff_noToken hrest)
  · intro hcategory
    obtain ⟨htext, hafter, hmodes⟩ := step_of_error hrest hnext hcategory
    refine ⟨?_, hafter, hmodes⟩
    rw [spanAt, htext, Text.byteCount_cons, Text.byteCount_nil, Nat.add_zero]
    exact congrArg (Span.mk _ _) hcategory

/-- In a string no escape begins with a backslash and a `q`. -/
theorem error_iff_noToken_of_escape :
    let state := (Classifier.ofText "'\\q'".toList).afterRequests 1
    state.rest = '\\' :: ['q', '\''] ∧
    ∃ span after, state.request = (some span, after) ∧
      (span.category = .error ↔ Grammar.NoToken state.mode '\\' ['q', '\'']) ∧
      (span.category = .error → span = ⟨state.offset, state.offset + '\\'.utf8Size, .error⟩ ∧
        after.rest = ['q', '\''] ∧ after.modes = state.modes) := by
  intro state
  have hrest : state.rest = '\\' :: ['q', '\''] := by decide
  exact ⟨hrest, error_iff_noToken state '\\' ['q', '\''] hrest⟩

end WrenDocs
