import Mathlib.Order.Bounds.Defs
import WrenDocs.Pattern
import WrenDocs.Proofs.Lexeme.Attribute

/-! Attributes as a regular expression. The expression is read by a matcher that
goes back over every choice; the attribute's own search, which looks for a list
once and never again after it has found none, takes the same text. Where it stops
is the least place that the expression allows. -/
namespace WrenDocs

/-- Regular expressions, as far as attributes need them. -/
inductive Expression where
  | character (c : Char)
  /-- Any characters, also newlines, and as few as the rest allows. -/
  | anything
  /-- Once or not at all; once is tried first. -/
  | optional (part : Expression)
  /-- Nothing, before a newline or at the end. -/
  | lineEnd
  | sequence (first second : Expression)
  deriving DecidableEq, Repr, Inhabited

namespace Expression

/-- Takes one character more each time the rest does not match. -/
def extend (rest : Text → Option Text) : Text → Option Text
  | [] => rest []
  | c :: text => (rest (c :: text)).or ((extend rest text).map (c :: ·))

/-- Matches an expression at the front of a text and the rest behind it, and goes
back over the choices of the expression until the rest matches too. The result is
what the two take together. -/
def matchBefore (rest : Text → Option Text) : Expression → Text → Option Text
  | character c, text =>
    if text.head? = some c then (rest text.tail).map (c :: ·) else none
  | anything, text => extend rest text
  | optional part, text => (part.matchBefore rest text).or (rest text)
  | lineEnd, text => if Lexeme.atLineEnd text then rest text else none
  | sequence first second, text => first.matchBefore (second.matchBefore rest) text

/-- What an expression takes off the front of a text. -/
def match? (expression : Expression) (text : Text) : Option Text :=
  expression.matchBefore (fun _ => some []) text

/-- `\(.*?\)`: an opening parenthesis, as little as can be, and a closing one. -/
def list : Expression :=
  .sequence (.character '(') (.sequence .anything (.character ')'))

/-- `#.*?(\(.*?\))?$`, where the dot stands for newlines too and the end is that of
any line. -/
def attributeLine : Expression :=
  .sequence (.character '#') (.sequence .anything (.sequence (.optional list) .lineEnd))

end Expression

namespace Lexeme
open Grammar Expression

/-- `\)$`: what ends a list. -/
def closing : Text → Option Text :=
  (Expression.sequence (.character ')') .lineEnd).match?

/-- `(\(.*?\))?$`: what ends the lazy body of an attribute. -/
def ending : Text → Option Text :=
  (Expression.sequence (.optional list) .lineEnd).match?

theorem closing_cons (c : Char) (text : Text) :
    closing (c :: text) = if c = ')' ∧ atLineEnd text then some [c] else none := by
  by_cases hc : c = ')'
  · cases hend : atLineEnd text <;> simp [closing, match?, matchBefore, hc, hend]
  · simp [closing, match?, matchBefore, hc]

theorem extend_closing (text : Text) : extend closing text = throughClosingLine? text := by
  induction text with
  | nil => rfl
  | cons c text ih =>
    rw [extend, ih, closing_cons, throughClosingLine?]
    split <;> rfl

theorem ending_cons (c : Char) (text : Text) :
    ending (c :: text) =
      (if c = '(' then (throughClosingLine? text).map (c :: ·) else none).or
        (if c = '\n' then some [] else none) := by
  have hunfold : ending (c :: text) =
      (if some c = some '(' then (extend closing text).map ('(' :: ·) else none).or
        (if (c == '\n') = true then some [] else none) := rfl
  rw [hunfold, extend_closing]
  by_cases hc : c = '(' <;> simp [hc]

/-- A text with no `)` that ends a line has none behind its first character either,
so a search that has failed once need not be made again. -/
theorem extend_ending {listPossible : Bool} {text : Text}
    (hflag : listPossible = true ∨ throughClosingLine? text = none) :
    extend ending text = some (attributeBody listPossible text) := by
  fun_induction attributeBody listPossible text with
  | case1 => rfl
  | case2 listPossible text => simp [extend, ending_cons]
  | case3 listPossible c text hline hopen found hfound =>
    simp [extend, ending_cons, hopen, hfound]
  | case4 listPossible c text hline hopen hnone ih =>
    simp [extend, ending_cons, hopen, hnone, ih]
  | case5 listPossible c text hline hopen ih =>
    have hflag' : listPossible = true ∨ throughClosingLine? text = none := by
      refine hflag.imp_right fun hnone => ?_
      rw [throughClosingLine?] at hnone
      split at hnone
      · simp at hnone
      · exact Option.map_eq_none_iff.mp hnone
    have hlist : c = '(' → throughClosingLine? text = none :=
      fun hc => hflag'.resolve_left fun h => hopen ⟨hc, h⟩
    rw [extend, ih hflag', ending_cons, if_neg hline]
    by_cases hc : c = '('
    · simp [hlist hc]
    · simp [hc]

theorem match?_attributeLine (text : Text) :
    Expression.attributeLine.match? ('#' :: text) = some (attributeLine ('#' :: text)) := by
  have hunfold : Expression.attributeLine.match? ('#' :: text) =
      (extend ending text).map ('#' :: ·) := rfl
  rw [hunfold, extend_ending (.inl rfl)]
  rfl

/-! ## Where an attribute stops -/

/-- A `(` at a place, and a `)` that ends a line at some later one. -/
def OpensList (text : Text) (place : Nat) : Prop :=
  text[place]? = some '(' ∧ ∃ close, place < close ∧ ClosesLine (text.drop close)

/-- Where the body of an attribute may end: at a list, or at the end of a line. -/
def BodyEnds (text : Text) (place : Nat) : Prop :=
  1 ≤ place ∧ (OpensList text place ∨ LineEnd (text.drop place))

/-- The body ends at the first place where it may. At a list the attribute goes on
through the first `)` that ends a line, else it ends there too. -/
def StopsAfter (text : Text) (stop : Nat) : Prop :=
  ∃ place, IsLeast {place | BodyEnds text place} place ∧
    ((text[place]? = some '(' ∧ ∃ close,
        IsLeast {close | place < close ∧ ClosesLine (text.drop close)} close ∧ stop = close + 1) ∨
      (LineEnd (text.drop place) ∧ stop = place))

/-- A place before the end of a body is one inside it. -/
theorem exists_inside {body : Text} (ahead : Text) {place : Nat} (hpos : 1 ≤ place)
    (h : place < body.length + 1) :
    ∃ front c back, body = front ++ c :: back ∧
      ('#' :: (body ++ ahead)).drop place = c :: (back ++ ahead) := by
  obtain ⟨count, rfl⟩ : ∃ count, place = count + 1 := ⟨place - 1, by omega⟩
  have hcount : count < body.length := by omega
  refine ⟨body.take count, body[count], body.drop (count + 1), by simp, ?_⟩
  rw [List.drop_succ_cons, List.drop_append_of_le_length (by omega),
    List.drop_eq_getElem_cons hcount, List.cons_append]

theorem drop_of_lt {text rest : Text} {c : Char} {place close : Nat}
    (hdrop : text.drop place = c :: rest) (h : place < close) :
    text.drop close = rest.drop (close - (place + 1)) := by
  have hrest : text.drop (place + 1) = rest := by rw [← List.drop_drop, hdrop, List.drop_one]; rfl
  rw [← hrest, List.drop_drop]
  congr 1
  omega

theorem stopsAfter_of_endsWithLine {body ahead : Text} (h : EndsWithLine body ahead) :
    StopsAfter ('#' :: (body ++ ahead)) (body.length + 1) := by
  have hend : LineEnd (('#' :: (body ++ ahead)).drop (body.length + 1)) := by
    rw [List.drop_succ_cons, List.drop_left]
    exact h.lineEnd
  refine ⟨body.length + 1, ⟨⟨by omega, .inr hend⟩, ?_⟩, .inr ⟨hend, rfl⟩⟩
  rintro place ⟨hpos, hends⟩
  refine Nat.le_of_not_lt fun hlt => ?_
  obtain ⟨front, c, back, rfl, hdrop⟩ := exists_inside ahead hpos hlt
  rcases hends with ⟨hopen, close, hclose, hcloses⟩ | hends
  · rw [← List.head?_drop, hdrop, List.head?_cons, Option.some_inj] at hopen
    subst hopen
    rw [drop_of_lt hdrop hclose] at hcloses
    exact h.noList front back rfl _ (List.drop_suffix _ _) hcloses
  · rw [hdrop] at hends
    obtain rfl := hends c rfl
    exact h.oneLine (by simp)

/-- Before the first `(` on a line nothing can end. -/
theorem not_bodyEnds_of_lt {opening rest : Text} {place : Nat} (hline : '\n' ∉ opening)
    (hopen : '(' ∉ opening) (h : place < opening.length + 1) :
    ¬ BodyEnds ('#' :: (opening ++ rest)) place := by
  rintro ⟨hpos, hends⟩
  obtain ⟨front, c, back, rfl, hdrop⟩ := exists_inside rest hpos h
  rcases hends with ⟨hopens, -⟩ | hends
  · rw [← List.head?_drop, hdrop, List.head?_cons, Option.some_inj] at hopens
    subst hopens
    exact hopen (by simp)
  · rw [hdrop] at hends
    obtain rfl := hends c rfl
    exact hline (by simp)

theorem stopsAfter_of_endsWithList {body ahead : Text} (h : EndsWithList body ahead) :
    StopsAfter ('#' :: (body ++ ahead)) (body.length + 1) := by
  obtain ⟨opening, arguments, rfl, hline, hopen, hend, hstops⟩ := h
  have htext : opening ++ '(' :: arguments ++ [')'] ++ ahead =
      opening ++ '(' :: (arguments ++ ')' :: ahead) := by simp
  rw [htext]
  generalize hplace : opening.length + 1 = place
  generalize hclose : place + 1 + arguments.length = close
  have hlist : ('#' :: (opening ++ '(' :: (arguments ++ ')' :: ahead))).drop place =
      '(' :: (arguments ++ ')' :: ahead) := by
    rw [← hplace, List.drop_succ_cons, List.drop_left]
  have hfirst : ('#' :: (opening ++ '(' :: (arguments ++ ')' :: ahead)))[place]? = some '(' := by
    rw [← List.head?_drop, hlist, List.head?_cons]
  have hcloses : ClosesLine
      (('#' :: (opening ++ '(' :: (arguments ++ ')' :: ahead))).drop close) := by
    rw [drop_of_lt hlist (by omega), show close - (place + 1) = arguments.length by omega,
      List.drop_left]
    exact ⟨ahead, rfl, hend⟩
  refine ⟨place, ⟨⟨by omega, .inl ⟨hfirst, close, by omega, hcloses⟩⟩, ?_⟩,
    .inl ⟨hfirst, close, ⟨⟨by omega, hcloses⟩, ?_⟩, by simp; omega⟩⟩
  · intro earlier hends
    exact Nat.le_of_not_lt fun hlt => not_bodyEnds_of_lt hline hopen (hplace ▸ hlt) hends
  · rintro earlier ⟨hafter, hcloses'⟩
    rw [drop_of_lt hlist hafter] at hcloses'
    have hlength := hstops.length_le hcloses'
    omega

/-- **Attributes.** An attribute is what its regular expression takes, read by a
matcher that goes back over every choice. It stops at the first place where its
body may end, or behind the list that begins there; one search for the end of a
list is enough. -/
theorem attributeLine_backtracks (before : Option Char) (text : Text) :
    ∃ stop, StopsAfter ('#' :: text) stop ∧
      Expression.attributeLine.match? ('#' :: text) = some (('#' :: text).take stop) ∧
      Pattern.attributeLine.lexeme? before ('#' :: text) = some (('#' :: text).take stop) ∧
      Pattern.attributeLine.byteLength? before ('#' :: text) =
        some (Text.byteCount (('#' :: text).take stop)) := by
  obtain ⟨ahead, htext, hbody⟩ := attributeBody_sound true text (.inl rfl)
  have hprefix : attributeBody true text <+: text := ⟨ahead, htext.symm⟩
  have htake : ('#' :: text).take ((attributeBody true text).length + 1) =
      attributeLine ('#' :: text) := by
    rw [List.take_succ_cons, ← List.prefix_iff_eq_take.mp hprefix]
    rfl
  have hstop := hbody.elim stopsAfter_of_endsWithLine stopsAfter_of_endsWithList
  rw [← htext] at hstop
  have hlexeme : Pattern.attributeLine.lexeme? before ('#' :: text) =
      some (attributeLine ('#' :: text)) := rfl
  refine ⟨(attributeBody true text).length + 1, hstop, ?_, ?_, ?_⟩
  · rw [match?_attributeLine, htake]
  · rw [hlexeme, htake]
  · rw [Pattern.byteLength?, hlexeme, htake]
    rfl

end Lexeme

end WrenDocs
