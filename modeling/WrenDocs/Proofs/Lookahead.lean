import WrenDocs.Proofs.RuleOrder

/-! What the next character tells about a pattern: with which characters one of
its words can begin, and which of them it never runs over. So only a few of a
mode's rules can match at a given place. -/
namespace WrenDocs
open Grammar

namespace Pattern

/-- Whether a word of the pattern can begin with a character. -/
def opens (c : Char) : Pattern → Bool
  | space => Text.isSpace c
  | literal text => text.head? == some c
  | oneOf set => set.contains c
  | word words => words.any (·.head? == some c)
  | htmlTag | markupTag => c == '<'
  | lineComment => c == '/'
  | attributeLine => c == '#'
  | operatorRun => Lexeme.isOperatorChar c
  | lowerName => c.isLower
  | upperName => c.isUpper
  | classVariable | instanceVariable => c == '_'
  | hexNumber => c == '0'
  | decimal => c.isDigit
  | rawString => c == '"'
  | query => c == '`'
  | commentText => true
  | charEscape _ | hexEscape .. => c == '\\'
  | stringText quote => c != '\\' && c != quote && c != '%'
  | markupText => c != '\\' && c != '<'

/-- Whether a word of the pattern never holds a character behind its first one. -/
def bars (c : Char) : Pattern → Bool
  | space => !Text.isSpace c
  | word _ => !Text.isWordChar c
  | operatorRun => !Lexeme.isOperatorChar c
  | lowerName | upperName | instanceVariable => !Text.isNameChar c
  | hexNumber => c != 'x' && !Text.isHexDigit c
  | decimal => !(c.isDigit || ['.', 'e', 'E', '-', '+'].contains c)
  | stringText quote => c == '\\' || c == quote || c == '%'
  | _ => false

theorem opens_of_fits {pattern : Pattern} {before : Option Char} {c : Char} {tail ahead : Text}
    (h : Fits before (c :: tail) ahead pattern) : pattern.opens c = true := by
  cases pattern with
  | space | operatorRun | stringText => exact h.all c List.mem_cons_self
  | literal expected =>
    obtain rfl : c :: tail = expected := h
    simp [opens]
  | oneOf set =>
    obtain ⟨_, hc, heq⟩ := h
    obtain ⟨rfl, -⟩ := List.cons.inj heq
    exact List.contains_iff_mem.mpr hc
  | word words => exact List.any_eq_true.mpr ⟨c :: tail, h.1, by simp⟩
  | htmlTag =>
    obtain ⟨_, _, _, heq, -⟩ := h
    obtain ⟨rfl, -⟩ := List.cons.inj heq
    rfl
  | markupTag | lineComment | attributeLine | classVariable | rawString | query | hexNumber
  | hexEscape =>
    obtain ⟨_, heq, -⟩ := h
    obtain ⟨rfl, -⟩ := List.cons.inj heq
    rfl
  | charEscape =>
    obtain ⟨_, -, heq⟩ := h
    obtain ⟨rfl, -⟩ := List.cons.inj heq
    rfl
  | lowerName | upperName | instanceVariable =>
    obtain ⟨_, _, heq, hhead, -⟩ := h
    obtain ⟨rfl, -⟩ := List.cons.inj heq
    exact hhead
  | decimal =>
    obtain ⟨whole, _, _, heq, ⟨hne, hdigits⟩, -⟩ := h
    cases whole with
    | nil => exact absurd rfl hne
    | cons first whole =>
      obtain ⟨rfl, -⟩ := List.cons.inj heq
      exact hdigits c List.mem_cons_self
  | commentText => rfl
  | markupText =>
    have hfree := h.free [] _ rfl (List.cons_ne_nil c tail)
    have hescape : c ≠ '\\' := by rintro rfl; exact hfree (.inl ⟨tail ++ ahead, rfl⟩)
    have htag : c ≠ '<' := by rintro rfl; exact hfree (.inr (.inl ⟨tail ++ ahead, rfl⟩))
    simp [opens, hescape, htag]

theorem bars_of_isDecimal {c first : Char} {tail : Text} (h : IsDecimal (first :: tail))
    (hc : c ∈ tail) : c.isDigit = true ∨ c ∈ ['.', 'e', 'E', '-', '+'] := by
  obtain ⟨whole, fraction, exponent, heq, hwhole, hfraction, hexponent⟩ := h
  have hmem : c ∈ whole ++ fraction ++ exponent := heq ▸ List.mem_cons_of_mem first hc
  rcases List.mem_append.mp hmem with hmem | hmem
  · rcases List.mem_append.mp hmem with hmem | hmem
    · exact .inl (hwhole.2 c hmem)
    · rcases hfraction with rfl | ⟨digits, rfl, hdigits⟩
      · simp at hmem
      · rcases List.mem_cons.mp hmem with rfl | hmem
        · simp
        · exact .inl (hdigits.2 c hmem)
  · rcases hexponent with rfl | ⟨mark, sign, digits, rfl, hmark, hsign, hdigits⟩
    · simp at hmem
    · rcases List.mem_append.mp hmem with hmem | hmem
      · rcases List.mem_cons.mp hmem with rfl | hmem
        · rcases hmark with rfl | rfl <;> simp
        · rcases hsign with rfl | rfl | rfl <;> simp_all
      · exact .inl (hdigits.2 c hmem)

theorem bars_eq_false_of_fits {pattern : Pattern} {before : Option Char} {c first : Char}
    {tail ahead : Text} (h : Fits before (first :: tail) ahead pattern) (hc : c ∈ tail) :
    pattern.bars c = false := by
  cases pattern with
  | space | operatorRun => simpa [bars] using h.all c (List.mem_cons_of_mem first hc)
  | stringText quote =>
    have hall := h.all c (List.mem_cons_of_mem first hc)
    simp only [Bool.and_eq_true, bne_iff_ne, ne_eq] at hall
    simp [bars, hall]
  | word words => simpa [bars] using h.2.2.all c (List.mem_cons_of_mem first hc)
  | lowerName | upperName | instanceVariable =>
    obtain ⟨_, _, heq, -, htail⟩ := h
    obtain ⟨-, rfl⟩ := List.cons.inj heq
    simpa [bars] using htail.all c hc
  | hexNumber =>
    obtain ⟨digits, heq, -, hdigits⟩ := h
    obtain ⟨-, rfl⟩ := List.cons.inj heq
    rcases List.mem_cons.mp hc with rfl | hc
    · rfl
    · simp [bars, hdigits.all c hc]
  | decimal =>
    rcases bars_of_isDecimal h hc with hdigit | hmark
    · simp [bars, hdigit]
    · have hcontains := List.contains_iff_mem.mpr hmark
      simp only [bars, hcontains, Bool.or_true, Bool.not_true]
  | literal | oneOf | htmlTag | lineComment | attributeLine | classVariable | rawString | query
  | commentText | charEscape | hexEscape | markupTag | markupText => rfl

theorem lexeme?_literal {text : Text} (hne : text ≠ []) (before : Option Char) (ahead : Text) :
    (literal text).lexeme? before (text ++ ahead) = some text := by
  rw [lexeme?_eq_some_iff]
  refine ⟨?_, hne⟩
  rw [lexeme, if_pos (List.isPrefixOf_iff_prefix.mpr (List.prefix_append text ahead))]

/-- No word of the pattern that begins before such a text reaches into it. -/
def HaltsAt (pattern : Pattern) (stop : Text) : Prop :=
  ∀ before lexeme ahead front, Fits before lexeme ahead pattern → lexeme ++ ahead = front ++ stop →
    front ≠ [] → lexeme <+: front

theorem haltsAt_nil (pattern : Pattern) : pattern.HaltsAt [] := by
  intro before lexeme ahead front _ htext _
  rw [List.append_nil] at htext
  exact ⟨ahead, htext⟩

/-- A word does not run over a character that its pattern bars. -/
theorem haltsAt_of_bars {pattern : Pattern} {c : Char} (h : pattern.bars c = true) (rest : Text) :
    pattern.HaltsAt (c :: rest) := by
  intro before lexeme ahead front hfits htext hfront
  have hlexeme : lexeme <+: front ++ c :: rest := ⟨ahead, htext⟩
  rcases prefix_or_exists_cons hlexeme with hshort | ⟨inner, rfl, -⟩
  · exact hshort
  · cases front with
    | nil => exact absurd rfl hfront
    | cons first front =>
      have hno := bars_eq_false_of_fits hfits (List.mem_append_right front List.mem_cons_self)
      rw [h] at hno
      simp at hno

/-- Whether the pattern halts at every text that begins so. -/
def haltsBefore (stop : Text) : Pattern → Bool
  | commentText => ['/', '*'].isPrefixOf stop || ['*', '/'].isPrefixOf stop
  | markupText => ['\\'].isPrefixOf stop || ['<'].isPrefixOf stop || ['{', '{'].isPrefixOf stop
  | pattern => stop.head?.any pattern.bars

theorem haltsAt_of_haltsBefore {pattern : Pattern} {stop : Text}
    (h : pattern.haltsBefore stop = true) (rest : Text) : pattern.HaltsAt (stop ++ rest) := by
  unfold haltsBefore at h
  split at h
  · simp only [Bool.or_eq_true, List.isPrefixOf_iff_prefix] at h
    have hstop : CommentDelimiter (stop ++ rest) :=
      h.imp (·.trans (List.prefix_append stop rest)) (·.trans (List.prefix_append stop rest))
    intro before lexeme ahead front hfits htext _
    exact hfits.within htext hstop
  · simp only [Bool.or_eq_true, or_assoc, List.isPrefixOf_iff_prefix] at h
    have hstop : MarkupDelimiter (stop ++ rest) :=
      h.imp (·.trans (List.prefix_append stop rest))
        (Or.imp (·.trans (List.prefix_append stop rest)) (·.trans (List.prefix_append stop rest)))
    intro before lexeme ahead front hfits htext _
    exact hfits.within htext hstop
  · cases stop with
    | nil => simp at h
    | cons c stop => exact haltsAt_of_bars (by simpa using h) (stop ++ rest)

/-- Whether a character is enough for a word of the pattern to begin there. -/
def seizes (c : Char) : Pattern → Bool
  | space => Text.isSpace c
  | literal text => text == [c]
  | oneOf set => set.contains c
  | attributeLine => c == '#'
  | operatorRun => Lexeme.isOperatorChar c
  | lowerName => c.isLower
  | upperName => c.isUpper
  | instanceVariable => c == '_'
  | decimal => c.isDigit
  | commentText => c != '/' && c != '*'
  | stringText quote => c != '\\' && c != quote && c != '%'
  | markupText => c != '\\' && c != '<' && c != '{'
  | word _ | htmlTag | lineComment | classVariable | hexNumber | rawString | query | charEscape _
  | hexEscape _ _ | markupTag => false

theorem lexeme_ne_nil_of_seizes {pattern : Pattern} {before : Option Char} {c : Char} {tail : Text}
    (h : pattern.seizes c = true) : pattern.lexeme before (c :: tail) ≠ [] := by
  cases pattern with
  | space | operatorRun | stringText =>
    simp only [seizes] at h
    simp [lexeme, Lexeme.stringText, h]
  | literal text =>
    obtain rfl : text = [c] := eq_of_beq h
    simp [lexeme]
  | oneOf set =>
    have hc : c ∈ set := List.contains_iff_mem.mp h
    simp [lexeme, hc]
  | attributeLine =>
    obtain rfl : c = '#' := eq_of_beq h
    simp [lexeme, Lexeme.attributeLine]
  | lowerName | upperName | instanceVariable =>
    simp only [seizes] at h
    simp [lexeme, Lexeme.name, h]
  | decimal =>
    simp only [seizes] at h
    simp [lexeme, Lexeme.decimal, h]
  | commentText =>
    simp only [seizes, Bool.and_eq_true, bne_iff_ne, ne_eq] at h
    simp [lexeme, Lexeme.commentText, h]
  | markupText =>
    simp only [seizes, Bool.and_eq_true, bne_iff_ne, ne_eq] at h
    simp [lexeme, Lexeme.markupText, h]
  | word | htmlTag | lineComment | classVariable | hexNumber | rawString | query | charEscape
  | hexEscape | markupTag => simp [seizes] at h

end Pattern

namespace Classifier

theorem findSome?_filter {α β : Type} {f : α → Option β} {keep : α → Bool} {items : List α}
    (h : ∀ item ∈ items, keep item = false → f item = none) :
    (items.filter keep).findSome? f = items.findSome? f := by
  induction items with
  | nil => rfl
  | cons item items ih =>
    have htail := ih fun next hnext => h next (List.mem_cons_of_mem item hnext)
    rw [List.filter_cons, List.findSome?_cons, ← htail]
    cases hkeep : keep item with
    | true => rw [if_pos rfl, List.findSome?_cons]
    | false => rw [if_neg (by simp), h item List.mem_cons_self hkeep]

/-- The rules of a mode that can match where a character stands. -/
def rulesAt (mode : Mode) (c : Char) : List Rule :=
  mode.rules.filter (·.pattern.opens c)

/-- A rule of a mode takes something only where one of its words can begin. -/
theorem opens_of_lexeme? {mode : Mode} {rule : Rule} {before : Option Char} {c : Char}
    {rest lexeme : Text} (hrule : rule ∈ mode.rules)
    (h : rule.pattern.lexeme? before (c :: rest) = some lexeme) : rule.pattern.opens c = true := by
  have hne := (Pattern.lexeme?_eq_some_iff.mp h).2
  obtain ⟨ahead, hrest, hfits⟩ :=
    Pattern.lexeme?_sound h (Pattern.readsPastEnd_of_mem_rules hrule)
  cases lexeme with
  | nil => exact absurd rfl hne
  | cons first tail =>
    obtain ⟨rfl, -⟩ := List.cons.inj hrest
    exact Pattern.opens_of_fits hfits

theorem firstMatch?_eq_rulesAt {state : Classifier} {c : Char} {rest : Text}
    (h : state.rest = c :: rest) :
    state.firstMatch? = (rulesAt state.mode c).findSome? fun rule =>
      (rule.pattern.lexeme? state.before state.rest).map (rule, ·) := by
  rw [firstMatch?, rulesAt, findSome?_filter]
  intro rule hrule hopens
  rw [Option.map_eq_none_iff, h]
  cases hlexeme : rule.pattern.lexeme? state.before (c :: rest) with
  | none => rfl
  | some lexeme =>
    rw [opens_of_lexeme? hrule hlexeme] at hopens
    simp at hopens

theorem mem_rulesAt_of_firstMatch? {state : Classifier} {c : Char} {rest lexeme : Text}
    {rule : Rule} (hrest : state.rest = c :: rest) (h : state.firstMatch? = some (rule, lexeme)) :
    rule ∈ rulesAt state.mode c := by
  rw [firstMatch?_eq_rulesAt hrest] at h
  obtain ⟨tried, hmem, htried⟩ := List.exists_of_findSome?_eq_some h
  obtain ⟨_, -, heq⟩ := Option.map_eq_some_iff.mp htried
  obtain ⟨rfl, -⟩ := Prod.mk.inj heq
  exact hmem

/-- What a match says where it begins. -/
theorem firstMatch?_opens {state : Classifier} {c : Char} {rest lexeme : Text} {rule : Rule}
    (hrest : state.rest = c :: rest) (h : state.firstMatch? = some (rule, lexeme)) :
    rule ∈ state.mode.rules ∧ rule.pattern.opens c = true ∧
      ∃ ahead, lexeme ++ ahead = c :: rest ∧ Fits state.before lexeme ahead rule.pattern := by
  obtain ⟨hrule, hopens⟩ := List.mem_filter.mp (mem_rulesAt_of_firstMatch? hrest h)
  obtain ⟨-, -, ahead, hahead, hfits⟩ := firstMatch?_sound h
  exact ⟨hrule, hopens, ahead, hahead.symm.trans hrest, hfits⟩

/-- Where some rule takes something, some rule matches, if not the same one. -/
theorem firstMatch?_ne_none_of_lexeme {state : Classifier} {rule : Rule} {lexeme : Text}
    (hrule : rule ∈ state.mode.rules)
    (hlexeme : rule.pattern.lexeme state.before state.rest = lexeme) (hne : lexeme ≠ []) :
    state.firstMatch? ≠ none := by
  intro hnone
  have hnil := firstMatch?_eq_none_iff.mp hnone rule hrule
  exact hne (hlexeme.symm.trans hnil)

theorem firstMatch?_ne_none_of_seizes {state : Classifier} {c : Char} {rest : Text} {rule : Rule}
    (hrest : state.rest = c :: rest) (hrule : rule ∈ state.mode.rules)
    (hseizes : rule.pattern.seizes c = true) : state.firstMatch? ≠ none := by
  apply firstMatch?_ne_none_of_lexeme hrule rfl
  rw [hrest]
  exact Pattern.lexeme_ne_nil_of_seizes hseizes

theorem firstMatch?_ne_none_of_literal {state : Classifier} {rule : Rule} {text : Text}
    (hrule : rule ∈ state.mode.rules) (hpattern : rule.pattern = .literal text) (hne : text ≠ [])
    (hfront : text <+: state.rest) : state.firstMatch? ≠ none := by
  obtain ⟨ahead, hrest⟩ := hfront
  have hlexeme := Pattern.lexeme?_literal hne state.before ahead
  rw [← hpattern, hrest] at hlexeme
  exact firstMatch?_ne_none_of_lexeme hrule (Pattern.lexeme?_eq_some_iff.mp hlexeme).1 hne

/-- A rule that needs no more than the character that stands there lets some rule match. -/
theorem firstMatch?_of_seizes {state : Classifier} {c : Char} {rest : Text} {rule : Rule}
    (hrest : state.rest = c :: rest) (hrule : rule ∈ rulesAt state.mode c)
    (hseizes : rule.pattern.seizes c = true) : ∃ found, state.firstMatch? = some found :=
  Option.ne_none_iff_exists'.mp
    (firstMatch?_ne_none_of_seizes hrest (List.mem_filter.mp hrule).1 hseizes)

theorem next?_of_firstMatch? {state : Classifier} {rule : Rule} {lexeme : Text}
    (h : state.firstMatch? = some (rule, lexeme)) :
    state.next? = some (⟨rule.category, lexeme⟩, (state.advance lexeme).act rule.action) := by
  obtain ⟨-, hne, ahead, hrest, -⟩ := firstMatch?_sound h
  cases lexeme with
  | nil => exact absurd rfl hne
  | cons c tail =>
    rw [next?, hrest, List.cons_append]
    simp only [h]

/-- The step where the rules that can match are known, and which of them does. -/
theorem next?_of_rulesAt {state : Classifier} {c : Char} {rest lexeme : Text}
    {passed others : List Rule} {rule : Rule} (hrest : state.rest = c :: rest)
    (hrules : rulesAt state.mode c = passed ++ rule :: others)
    (hpassed : ∀ earlier ∈ passed, earlier.pattern.lexeme? state.before state.rest = none)
    (hlexeme : rule.pattern.lexeme? state.before state.rest = some lexeme) :
    state.next? = some (⟨rule.category, lexeme⟩, (state.advance lexeme).act rule.action) := by
  have hmatch : state.firstMatch? = some (rule, lexeme) := by
    rw [firstMatch?_eq_rulesAt hrest, hrules, List.findSome?_append]
    have hnone : (passed.findSome? fun rule =>
        (rule.pattern.lexeme? state.before state.rest).map (rule, ·)) = none := by
      rw [List.findSome?_eq_none_iff]
      intro earlier hearlier
      rw [hpassed earlier hearlier, Option.map_none]
    rw [hnone, Option.none_or, List.findSome?_cons, hlexeme, Option.map_some]
  exact next?_of_firstMatch? hmatch

end Classifier

end WrenDocs
