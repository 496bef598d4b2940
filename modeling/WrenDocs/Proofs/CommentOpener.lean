import WrenDocs.Proofs.Labels
import WrenDocs.Proofs.Lookahead
import WrenDocs.Proofs.Stretch

/-! Comment openers in code. Rules are tried in order only where a span begins, and
there a comment comes before an operator. A run of operator characters goes on to the
last of them, though, and takes an opener in that stands behind its first. -/
namespace WrenDocs

/-- What opens a comment, and the category of the comment. -/
def commentOpeners : List (Text × Category) :=
  [(['/', '/'], .commentSingle), (['/', '*'], .commentMultiline)]

/-- The categories of spans that hold strings, markup, queries and comments in code. -/
def quotedCategories : List Category :=
  [.string, .stringBacktick, .other, .commentSingle, .commentSpecial]

theorem mem_commentOpeners {opener : Text × Category} (h : opener ∈ commentOpeners) :
    ∃ c, opener.1 = ['/', c] ∧ Lexeme.isOperatorChar c = true := by
  simp only [commentOpeners, List.mem_cons, List.not_mem_nil, or_false] at h
  rcases h with rfl | rfl
  · exact ⟨'/', rfl, rfl⟩
  · exact ⟨'*', rfl, rfl⟩

/-- How a span of code that covers the place behind some text comes to go over the
opener that stands there. -/
inductive OverOpener (source front : Text) (opener : Text × Category) (span : Span) : Prop where
  /-- It is a comment that the opener opens. -/
  | opens : span.start = Text.byteCount front → span.category = opener.2 →
      OverOpener source front opener span
  /-- It began before, and what it holds is no code. -/
  | quoted : span.start < Text.byteCount front → span.category ∈ quotedCategories →
      OverOpener source front opener span
  /-- It is an operator that began before, with the characters that stand right there. -/
  | joined (run : Text) : run ≠ [] → run <:+ front → (∀ c ∈ run, Lexeme.isOperatorChar c = true) →
      span.start + Text.byteCount run = Text.byteCount front → span.category = .operator →
      run ++ opener.1 <+: span.text source → OverOpener source front opener span

namespace Grammar

/-- A run takes in a word of its own characters that it has begun. -/
theorem Runs.takes {test : Char → Bool} {text ahead word rest : Text} (h : Runs test text ahead)
    (hword : ∀ c ∈ word, test c = true) (hsplit : text ++ ahead = word ++ rest) :
    word <+: text := by
  have hfront : word <+: text ++ ahead := ⟨rest, hsplit.symm⟩
  cases ahead with
  | nil => simpa using hfront
  | cons c ahead =>
    rcases prefix_or_exists_cons hfront with hshort | ⟨inner, rfl, -⟩
    · exact hshort
    · have hno := h.stops c rfl
      rw [hword c (List.mem_append_right text List.mem_cons_self)] at hno
      exact absurd hno (by decide)

end Grammar

namespace Pattern
open Grammar

/-- Whether a word of the pattern may hold a character behind its first one. -/
def holdsBehind (c : Char) : Pattern → Bool
  | literal text => text.tail.contains c
  | oneOf _ => false
  | classVariable => Text.isNameChar c
  | charEscape set => set.contains c
  | pattern => !pattern.bars c

theorem holdsBehind_of_fits {pattern : Pattern} {before : Option Char} {c first : Char}
    {tail ahead : Text} (h : Fits before (first :: tail) ahead pattern) (hc : c ∈ tail) :
    pattern.holdsBehind c = true := by
  cases pattern with
  | literal text =>
    obtain rfl : first :: tail = text := h
    exact List.contains_iff_mem.mpr hc
  | oneOf set =>
    obtain ⟨_, -, heq⟩ := h
    obtain ⟨-, rfl⟩ := List.cons.inj heq
    simp at hc
  | classVariable =>
    obtain ⟨rest, heq, hruns⟩ := h
    obtain ⟨-, rfl⟩ := List.cons.inj heq
    rcases List.mem_cons.mp hc with rfl | hc
    · rfl
    · exact hruns.all c hc
  | charEscape set =>
    obtain ⟨escaped, hescaped, heq⟩ := h
    obtain ⟨-, rfl⟩ := List.cons.inj heq
    obtain rfl := List.mem_singleton.mp hc
    exact List.contains_iff_mem.mpr hescaped
  | space | word | htmlTag | lineComment | attributeLine | operatorRun | lowerName | upperName
  | instanceVariable | hexNumber | decimal | rawString | query | commentText | hexEscape
  | stringText | markupTag | markupText =>
    simp [holdsBehind, bars_eq_false_of_fits h hc]

end Pattern

namespace Classifier
open Grammar

/-! ## The span over a place -/

/-- Every place that is left is covered by the span of some request. -/
theorem exists_request_over {state : Classifier} {front ahead : Text}
    (hrest : state.rest = front ++ ahead) (hahead : ahead ≠ []) :
    ∃ count token after read inside back, (state.afterRequests count).next? = some (token, after) ∧
      state.rest = read ++ (state.afterRequests count).rest ∧ front = read ++ inside ∧
      token.text = inside ++ back ∧ back ≠ [] ∧ ahead = back ++ after.rest := by
  induction hlength : state.rest.length using Nat.strongRecOn generalizing state front with
  | ind length ih =>
    have hleft : state.rest ≠ [] := by
      rw [hrest]
      simp [hahead]
    obtain ⟨c, rest, hcons⟩ := List.exists_cons_of_ne_nil hleft
    obtain ⟨token, after, hnext⟩ := exists_step hcons
    have htext := (step_text hnext).2
    have htoken : token.text <+: state.rest := ⟨_, htext.symm⟩
    have hfront : front <+: state.rest := ⟨_, hrest.symm⟩
    by_cases hbefore : token.text.length ≤ front.length
    · obtain ⟨more, rfl⟩ := List.prefix_of_prefix_length_le htoken hfront hbefore
      have hmore : after.rest = more ++ ahead := by
        rw [htext, List.append_assoc] at hrest
        exact List.append_cancel_left hrest
      have hshorter := length_rest_of_next? hnext
      obtain ⟨count, found, last, read, inside, back, hfound, hread, rfl, hover⟩ :=
        ih _ (hlength ▸ hshorter) hmore rfl
      refine ⟨count + 1, found, last, token.text ++ read, inside, back, ?_, ?_, ?_, hover⟩
      · rwa [afterRequests_succ, request_of_next?_eq_some hnext]
      · rw [afterRequests_succ, request_of_next?_eq_some hnext, htext, hread, List.append_assoc]
      · rw [List.append_assoc]
    · have hlonger := Nat.lt_of_not_le hbefore
      obtain ⟨back, hback⟩ := List.prefix_of_prefix_length_le hfront htoken (Nat.le_of_lt hlonger)
      refine ⟨0, token, after, [], front, back, hnext, rfl, rfl, hback.symm, ?_, ?_⟩
      · rintro rfl
        rw [← hback, List.append_nil] at hlonger
        exact Nat.lt_irrefl _ hlonger
      · rw [htext, ← hback, List.append_assoc] at hrest
        exact (List.append_cancel_left hrest).symm

/-! ## The span over an opener -/

theorem rulesAt_slash {mode : Mode} (hmode : mode.readsCode = true) :
    rulesAt mode '/' = [.push (.literal ['/', '*']) .commentMultiline .comment,
      .stay .lineComment .commentSingle, .stay .operatorRun .operator] := by
  revert mode
  decide

/-- What may go over a `/` in code: what holds other text, and operators. -/
theorem category_of_holdsBehind_slash {mode : Mode} {rule : Rule} (hmode : mode.readsCode = true)
    (hrule : rule ∈ mode.rules) (h : rule.pattern.holdsBehind '/' = true) :
    rule.category ∈ quotedCategories ∨
      rule.category = .operator ∧ rule.pattern = .operatorRun := by
  revert rule
  revert mode
  decide

/-- Where a span begins, a comment comes first. -/
theorem step_at_opener {state after : Classifier} {token : Token} {opener : Text × Category}
    {ahead : Text} (hmode : state.mode.readsCode = true) (hopener : opener ∈ commentOpeners)
    (hrest : state.rest = opener.1 ++ ahead) (hnext : state.next? = some (token, after)) :
    token.category = opener.2 := by
  simp only [commentOpeners, List.mem_cons, List.not_mem_nil, or_false] at hopener
  rcases hopener with rfl | rfl
  · have hrules : rulesAt state.mode '/' =
        [.push (.literal ['/', '*']) .commentMultiline .comment] ++
          .stay .lineComment .commentSingle :: [.stay .operatorRun .operator] :=
      rulesAt_slash hmode
    have hpassed : ∀ earlier ∈ [Rule.push (.literal ['/', '*']) .commentMultiline .comment],
        earlier.pattern.lexeme? state.before state.rest = none := by
      rw [hrest]
      simp [Rule.push, Pattern.lexeme?, Pattern.lexeme]
    have hline : Pattern.lineComment.lexeme? state.before state.rest =
        some (Lexeme.lineComment state.rest) := by
      rw [Pattern.lexeme?_eq_some_iff, hrest]
      exact ⟨rfl, List.cons_ne_nil _ _⟩
    rw [next?_of_rulesAt hrest hrules hpassed hline] at hnext
    obtain ⟨rfl, -⟩ := Prod.mk.inj (Option.some.inj hnext)
    rfl
  · have hrules : rulesAt state.mode '/' =
        [] ++ .push (.literal ['/', '*']) .commentMultiline .comment ::
          [.stay .lineComment .commentSingle, .stay .operatorRun .operator] :=
      rulesAt_slash hmode
    have hblock : (Pattern.literal ['/', '*']).lexeme? state.before state.rest =
        some ['/', '*'] := by
      rw [hrest]
      exact Pattern.lexeme?_literal (by simp) _ _
    rw [next?_of_rulesAt hrest hrules (by simp) hblock] at hnext
    obtain ⟨rfl, -⟩ := Prod.mk.inj (Option.some.inj hnext)
    rfl

/-- A span of code that goes over a `/` behind its first character. -/
theorem step_over_slash {state after : Classifier} {token : Token} {inside back : Text}
    (hmode : state.mode.readsCode = true) (hnext : state.next? = some (token, after))
    (htext : token.text = inside ++ '/' :: back) (hinside : inside ≠ []) :
    token.category ∈ quotedCategories ∨
      token.category = .operator ∧ Runs Lexeme.isOperatorChar token.text after.rest := by
  obtain ⟨first, inside, rfl⟩ := List.exists_cons_of_ne_nil hinside
  rcases step_fits hnext with
    ⟨rule, hmem, -, hcategory, hfits, -⟩ | ⟨-, -, ⟨c, hsingle, -⟩, -⟩
  · have hholds : rule.pattern.holdsBehind '/' = true := by
      rw [htext] at hfits
      exact Pattern.holdsBehind_of_fits hfits (List.mem_append_right inside List.mem_cons_self)
    rw [hcategory]
    rcases category_of_holdsBehind_slash hmode hmem hholds with hquoted | ⟨hoperator, hpattern⟩
    · exact .inl hquoted
    · rw [hpattern] at hfits
      exact .inr ⟨hoperator, hfits⟩
  · rw [hsingle] at htext
    simp at htext

/-- No operator begins with what opens a comment. -/
theorem not_opener_of_operator {state after : Classifier} {token : Token}
    {opener : Text × Category} (hnext : state.next? = some (token, after))
    (hoperator : token.category = .operator) (hopener : opener ∈ commentOpeners) :
    ¬ opener.1 <+: token.text := by
  have hlabels := step_labels hnext
  rw [hoperator] at hlabels
  simp only [commentOpeners, List.mem_cons, List.not_mem_nil, or_false] at hopener
  rcases hopener with rfl | rfl
  · exact hlabels.not_lineComment
  · exact hlabels.not_blockComment

theorem overOpener_of_next? {source read inside back ahead : Text} {count : Nat}
    {after : Classifier} {token : Token} {opener : Text × Category}
    (hmode : ((ofText source).afterRequests count).mode.readsCode = true)
    (hnext : ((ofText source).afterRequests count).next? = some (token, after))
    (hoffset : ((ofText source).afterRequests count).offset = Text.byteCount read)
    (htext : token.text = inside ++ back) (hback : back ≠ [])
    (hopener : opener ∈ commentOpeners) (hahead : opener.1 ++ ahead = back ++ after.rest) :
    OverOpener source (read ++ inside) opener
      (spanAt ((ofText source).afterRequests count).offset token) := by
  have hrest := (step_text hnext).2
  by_cases hinside : inside = []
  · subst hinside
    refine .opens (by rw [List.append_nil]; exact hoffset) ?_
    have hopens : ((ofText source).afterRequests count).rest = opener.1 ++ ahead := by
      rw [hrest, htext, List.nil_append, hahead]
    exact step_at_opener hmode hopener hopens hnext
  · obtain ⟨c, hslash, hc⟩ := mem_commentOpeners hopener
    obtain ⟨first, back, rfl⟩ := List.exists_cons_of_ne_nil hback
    obtain rfl : '/' = first := by
      rw [hslash] at hahead
      exact (List.cons.inj hahead).1
    rcases step_over_slash hmode hnext htext hinside with hquoted | ⟨hoperator, hruns⟩
    · refine .quoted ?_ hquoted
      have hpos := Text.byteCount_pos hinside
      simp only [spanAt, hoffset, Text.byteCount_append]
      omega
    · have hrun : ∀ c ∈ inside, Lexeme.isOperatorChar c = true := by
        intro c hc
        exact hruns.all c (htext ▸ List.mem_append_left _ hc)
      have hword : ∀ c ∈ inside ++ opener.1, Lexeme.isOperatorChar c = true := by
        rw [hslash]
        simpa [or_imp, forall_and, hc] using ⟨hrun, rfl⟩
      refine .joined inside hinside (List.suffix_append _ _) hrun ?_ hoperator ?_
      · rw [spanAt, hoffset, Text.byteCount_append]
      · rw [text_request hnext]
        apply hruns.takes hword
        rw [htext, List.append_assoc, List.append_assoc, hahead]

end Classifier

open Classifier in
/-- **Comment openers in code.** No operator begins with what opens a comment. Where
an opener stands, some span goes over its first character, and if that is a span of
code that does not hold a string, markup, a query or another comment, it is the
comment that opens there, or else an operator with characters right before the opener,
which takes the whole of it in. -/
theorem comment_openers_in_code (source : Text) :
    (∀ span ∈ classify source, span.category = .operator →
      ∀ opener ∈ commentOpeners, ¬ opener.1 <+: span.text source) ∧
    ∀ front ahead, ∀ opener ∈ commentOpeners, source = front ++ (opener.1 ++ ahead) →
      ∃ count span, let state := (ofText source).afterRequests count
        state.request.1 = some span ∧
        span.start ≤ Text.byteCount front ∧ Text.byteCount front < span.stop ∧
        (state.mode.readsCode = true → OverOpener source front opener span) := by
  constructor
  · intro span hspan hoperator opener hopener
    obtain ⟨count, hcount⟩ := List.mem_iff_getElem?.mp hspan
    rw [← request_eq_getElem?] at hcount
    obtain ⟨token, after, hnext, rfl⟩ := next?_of_request hcount
    rw [text_request hnext]
    exact not_opener_of_operator hnext hoperator hopener
  · intro front ahead opener hopener hsource
    have hne : opener.1 ++ ahead ≠ [] := by
      obtain ⟨c, hslash, -⟩ := mem_commentOpeners hopener
      simp [hslash]
    have hrest : (ofText source).rest = front ++ (opener.1 ++ ahead) := hsource
    obtain ⟨count, token, after, read, inside, back, hnext, hread, rfl, htext, hback, hahead⟩ :=
      exists_request_over hrest hne
    have hoffset : ((ofText source).afterRequests count).offset = Text.byteCount read :=
      (afterRequests_read hread).1
    have hpos := Text.byteCount_pos hback
    refine ⟨count, _, by rw [request_of_next?_eq_some hnext], ?_, ?_, ?_⟩
    · simp only [spanAt, hoffset, Text.byteCount_append]
      omega
    · simp only [spanAt, hoffset, htext, Text.byteCount_append]
      omega
    · intro hmode
      exact overOpener_of_next? hmode hnext hoffset htext hback hopener hahead

open Classifier in
/-- The operator does not begin with `//`, though it holds it, and the comment behind
it opens where a line begins. -/
theorem comment_openers_in_code_of_run :
    let source := "a+// b\n/* c */".toList
    (⟨1, 4, .operator⟩ ∈ classify source ∧ ¬ ['/', '/'] <+: Span.text ⟨1, 4, .operator⟩ source) ∧
    ∃ count span, let state := (ofText source).afterRequests count
      state.request.1 = some span ∧ span.start ≤ 7 ∧ 7 < span.stop ∧
      (state.mode.readsCode = true →
        OverOpener source "a+// b\n".toList (['/', '*'], .commentMultiline) span) := by
  intro source
  have hspan : ⟨1, 4, .operator⟩ ∈ classify source := by decide +kernel
  have hnot := (comment_openers_in_code source).1 _ hspan rfl _ List.mem_cons_self
  refine ⟨⟨hspan, hnot⟩, ?_⟩
  exact (comment_openers_in_code source).2 "a+// b\n".toList " c */".toList
    (['/', '*'], .commentMultiline) (by decide) rfl

/-- Not every opener in code opens a comment: an operator that began before it goes
over it. -/
theorem operator_goes_over_opener :
    ¬ ∀ source, ∀ span ∈ classify source, span.category = .operator →
      ∀ opener ∈ commentOpeners, ¬ opener.1 <:+: span.text source := by
  intro h
  have hspan : ⟨1, 4, .operator⟩ ∈ classify "a+// b".toList := by decide +kernel
  have hinside : ['/', '/'] <:+: Span.text ⟨1, 4, .operator⟩ "a+// b".toList := by decide
  exact h _ _ hspan rfl _ List.mem_cons_self hinside

end WrenDocs
