import WrenDocs.Proofs.Errors
import WrenDocs.Proofs.Remainder

/-! Names and the words that are reserved. Both are runs of name characters, and a
run is read whole, whichever rule reads it. What it is depends on the run, on the
byte before it and on the character behind it; that the byte is a dot means that
the token before it is an operator. -/
namespace WrenDocs

/-- An ASCII letter or `_`, the characters with which a name begins. -/
def Text.isNameStart (c : Char) : Bool :=
  c.isUpper || c.isLower || c == '_'

namespace Grammar

/-- The lists of reserved words, and what the words of each list are. -/
def reservedWords : List (List Text × Category) :=
  [(keywords, .keyword), (constants, .keywordConstant), (wordOperators, .operatorWord)]

/-- What a run of name characters can be. -/
def nameCategories : List Category :=
  [.nameVariableClass, .nameVariableInstance, .nameClass, .name] ++ reservedWords.map Prod.snd

/-- A word of the list that is read as such: not right after a dot, and not right
before a letter or a number of any script. -/
def IsReserved (words : List Text) (afterDot : Prop) (word ahead : Text) : Prop :=
  word ∈ words ∧ ¬ afterDot ∧ ∀ c ∈ ahead.head?, Text.isAlphanumeric c = false

/-- What a run of name characters is. -/
def LabelsName (afterDot : Prop) (word ahead : Text) (category : Category) : Prop :=
  if ['_', '_'] <+: word then category = .nameVariableClass
  else if ['_'] <+: word then category = .nameVariableInstance
  else if word.head?.any Char.isUpper then category = .nameClass
  else
    (∀ reserved ∈ reservedWords,
      category = reserved.2 ↔ IsReserved reserved.1 afterDot word ahead) ∧
    (category = .name ∨ ∃ reserved ∈ reservedWords, category = reserved.2)

/-! ## Reserved words -/

theorem isNameChar_of_isNameStart {c : Char} (h : Text.isNameStart c = true) :
    Text.isNameChar c = true := by
  simp only [Text.isNameStart, Bool.or_eq_true] at h
  rcases h with (h | h) | h
  · simp [Text.isNameChar, Text.isAlphanum_eq, h]
  · simp [Text.isNameChar, Text.isAlphanum_eq, h]
  · simp [Text.isNameChar, h]

theorem isWordChar_of_isNameChar {c : Char} (h : Text.isNameChar c = true) :
    Text.isWordChar c = true := by
  have htable : Text.ascii.all (fun c =>
      decide (Text.isNameChar c = true → Text.isWordChar c = true)) = true := by
    decide
  have hc := List.all_eq_true.mp htable c (Text.mem_ascii (Text.isAscii_of_isNameChar h))
  exact of_decide_eq_true hc h

/-- A reserved word is made of name characters, the first of them a small letter. -/
theorem name_of_mem_reservedWords {reserved : List Text × Category} {word : Text}
    (hreserved : reserved ∈ reservedWords) (hword : word ∈ reserved.1) :
    word.all Text.isNameChar = true ∧ word.head?.any Char.isLower = true := by
  revert word
  revert reserved
  decide

/-- No word is in two of the lists. -/
theorem reserved_unique {reserved reserved' : List Text × Category} {word : Text}
    (h : reserved ∈ reservedWords) (h' : reserved' ∈ reservedWords) (hword : word ∈ reserved.1)
    (hword' : word ∈ reserved'.1) : reserved = reserved' := by
  revert word
  revert reserved'
  revert reserved
  decide

theorem isWord_of_labels {reserved : List Text × Category} {before : Option Char}
    {text ahead : Text} (hreserved : reserved ∈ reservedWords)
    (h : Labels before text ahead reserved.2) : IsWord reserved.1 before text ahead := by
  simp only [reservedWords, List.mem_cons, List.not_mem_nil, or_false] at hreserved
  rcases hreserved with rfl | rfl | rfl
  · exact h
  · exact h
  · exact h

/-- For a whole run of name characters the boundary of a word is one of letters
and numbers: an underscore behind it would belong to it. -/
theorem isWord_iff_isReserved {words : List Text} {before : Option Char} {word ahead : Text}
    (hruns : Runs Text.isNameChar word ahead) :
    IsWord words before word ahead ↔ IsReserved words (before = some '.') word ahead := by
  constructor
  · rintro ⟨hword, hdot, hwhole⟩
    refine ⟨hword, hdot, ?_⟩
    intro c hc
    have hstop := hwhole.stops c hc
    simp only [Text.isWordChar, Bool.or_eq_false_iff] at hstop
    exact hstop.1
  · rintro ⟨hword, hdot, hahead⟩
    refine ⟨hword, hdot, ?_, ?_⟩
    · intro c hc
      exact isWordChar_of_isNameChar (hruns.all c hc)
    · intro c hc
      have hstop := hruns.stops c hc
      simp only [Text.isNameChar, Bool.or_eq_false_iff] at hstop
      simp only [Text.isWordChar, hahead c hc, hstop.2, Bool.or_self]

theorem runs_of_isName {head : Char → Bool} {text ahead : Text}
    (hhead : ∀ c, head c = true → Text.isNameStart c = true) (h : IsName head text ahead) :
    Runs Text.isNameChar text ahead := by
  obtain ⟨c, tail, rfl, hc, htail⟩ := h
  exact htail.cons (isNameChar_of_isNameStart (hhead c hc))

theorem runs_of_classVariable {text ahead : Text}
    (h : ∃ tail, text = '_' :: '_' :: tail ∧ Runs Text.isNameChar tail ahead) :
    Runs Text.isNameChar text ahead := by
  obtain ⟨tail, rfl, htail⟩ := h
  exact (htail.cons rfl).cons rfl

theorem runs_of_isWord {reserved : List Text × Category} {before : Option Char}
    {word ahead : Text} (hreserved : reserved ∈ reservedWords)
    (h : IsWord reserved.1 before word ahead) : Runs Text.isNameChar word ahead := by
  obtain ⟨hword, -, hwhole⟩ := h
  refine ⟨List.all_eq_true.mp (name_of_mem_reservedWords hreserved hword).1, ?_⟩
  intro c hc
  have hstop := hwhole.stops c hc
  rw [← Bool.not_eq_true] at hstop ⊢
  exact fun hname => hstop (isWordChar_of_isNameChar hname)

/-! ## What a run of name characters is -/

/-- A run that begins with a small letter is a reserved word or a name. -/
theorem labelsName_of_isLower {afterDot : Prop} {word ahead : Text} {category : Category}
    (hlower : word.head?.any Char.isLower = true)
    (hreserved : ∀ reserved ∈ reservedWords,
      category = reserved.2 ↔ IsReserved reserved.1 afterDot word ahead)
    (hcategory : category = .name ∨ ∃ reserved ∈ reservedWords, category = reserved.2) :
    LabelsName afterDot word ahead category := by
  cases word with
  | nil => simp at hlower
  | cons c tail =>
    have hc : c.isLower = true := hlower
    have hunderscore : '_' ≠ c := by rintro rfl; revert hc; decide
    have hupper : c.isUpper = false := by
      rw [← Bool.not_eq_true]
      intro hupper
      have hlow := Text.toNat_of_isLower hc
      have hhigh := Text.toNat_of_isUpper hupper
      omega
    rw [LabelsName, if_neg, if_neg, if_neg]
    · exact ⟨hreserved, hcategory⟩
    · simp [hupper]
    · simp [hunderscore]
    · simp [hunderscore]

theorem labelsName_of_reserved {reserved : List Text × Category} {before : Option Char}
    {word ahead : Text} (hreserved : reserved ∈ reservedWords)
    (hlabels : Labels before word ahead reserved.2) :
    LabelsName (before = some '.') word ahead reserved.2 := by
  have hword := isWord_of_labels hreserved hlabels
  have hruns := runs_of_isWord hreserved hword
  have hlower := (name_of_mem_reservedWords hreserved hword.1).2
  apply labelsName_of_isLower hlower
  · intro other hother
    rw [← isWord_iff_isReserved hruns]
    constructor
    · intro heq
      exact isWord_of_labels hother (heq ▸ hlabels)
    · intro hword'
      rw [reserved_unique hreserved hother hword.1 hword'.1]
  · exact .inr ⟨reserved, hreserved, rfl⟩

theorem labelsName_of_name {before : Option Char} {word ahead : Text}
    (hname : IsName Char.isLower word ahead)
    (hno : ∀ reserved ∈ reservedWords, ¬ IsWord reserved.1 before word ahead) :
    LabelsName (before = some '.') word ahead .name := by
  have hruns := runs_of_isName (by simp +contextual [Text.isNameStart]) hname
  have hcategories : ∀ reserved ∈ reservedWords, Category.name ≠ reserved.2 := by decide
  apply labelsName_of_isLower
  · obtain ⟨c, tail, rfl, hc, -⟩ := hname
    simpa using hc
  · intro reserved hreserved
    rw [← isWord_iff_isReserved hruns]
    exact iff_of_false (hcategories reserved hreserved) (hno reserved hreserved)
  · exact .inl rfl

theorem runs_of_labels {before : Option Char} {word ahead : Text} {category : Category}
    (hcategory : category ∈ nameCategories) (hlabels : Labels before word ahead category) :
    Runs Text.isNameChar word ahead := by
  rcases List.mem_append.mp hcategory with hcategory | hcategory
  · simp only [List.mem_cons, List.not_mem_nil, or_false] at hcategory
    rcases hcategory with rfl | rfl | rfl | rfl
    · exact runs_of_classVariable hlabels
    · exact runs_of_isName (by simp [Text.isNameStart]) hlabels.1
    · exact runs_of_isName (by simp +contextual [Text.isNameStart]) hlabels
    · exact runs_of_isName (by simp +contextual [Text.isNameStart]) hlabels
  · obtain ⟨reserved, hreserved, rfl⟩ := List.mem_map.mp hcategory
    exact runs_of_isWord hreserved (isWord_of_labels hreserved hlabels)

/-- A run is what it is labelled, as long as a reserved word is not taken for a name. -/
theorem labelsName_of_labels {before : Option Char} {word ahead : Text} {category : Category}
    (hcategory : category ∈ nameCategories) (hlabels : Labels before word ahead category)
    (hname : category = .name → ∀ reserved ∈ reservedWords,
      ¬ IsWord reserved.1 before word ahead) :
    LabelsName (before = some '.') word ahead category := by
  rcases List.mem_append.mp hcategory with hcategory | hcategory
  · simp only [List.mem_cons, List.not_mem_nil, or_false] at hcategory
    rcases hcategory with rfl | rfl | rfl | rfl
    · obtain ⟨tail, rfl, -⟩ := hlabels
      rw [LabelsName, if_pos ⟨tail, rfl⟩]
    · obtain ⟨⟨c, tail, rfl, hc, -⟩, hsingle⟩ := hlabels
      obtain rfl := eq_of_beq hc
      rw [LabelsName, if_neg, if_pos ⟨tail, rfl⟩]
      exact fun hdouble => hsingle (hdouble.trans (List.prefix_append _ ahead))
    · obtain ⟨c, tail, rfl, hc, -⟩ := hlabels
      have hunderscore : '_' ≠ c := by rintro rfl; revert hc; decide
      rw [LabelsName, if_neg, if_neg, if_pos]
      · exact hc
      · simp [hunderscore]
      · simp [hunderscore]
    · exact labelsName_of_name hlabels (hname rfl)
  · obtain ⟨reserved, hreserved, rfl⟩ := List.mem_map.mp hcategory
    exact labelsName_of_reserved hreserved hlabels

end Grammar

namespace Pattern
open Grammar

/-- Whether a word of the pattern can end with a character. -/
def ends (c : Char) : Pattern → Bool
  | space => Text.isSpace c
  | literal text => text.getLast? == some c
  | oneOf set => set.contains c
  | word words => words.any (·.getLast? == some c)
  | htmlTag | markupTag => c == '>'
  | operatorRun => Lexeme.isOperatorChar c
  | lowerName | upperName | classVariable | instanceVariable => Text.isNameChar c
  | hexNumber => Text.isHexDigit c
  | decimal => c.isDigit
  | rawString => c == '"'
  | query => c == '`'
  | charEscape set => set.contains c
  | hexEscape marker _ => c == marker || Text.isHexDigit c
  | stringText quote => c != '\\' && c != quote && c != '%'
  | lineComment | attributeLine | commentText | markupText => true

theorem mem_of_getLast?_append (front : Text) {back : Text} {c : Char} (hne : back ≠ [])
    (h : (front ++ back).getLast? = some c) : c ∈ back := by
  rw [List.getLast?_append, List.getLast?_eq_some_getLast hne, Option.some_or] at h
  exact Option.some_inj.mp h ▸ List.getLast_mem hne

/-- A number in decimal ends with digits, whatever parts it has. -/
theorem digits_of_isDecimal {text : Text} (h : IsDecimal text) :
    ∃ front digits, text = front ++ digits ∧ IsDigits digits := by
  obtain ⟨whole, fraction, exponent, rfl, hwhole, hfraction, hexponent⟩ := h
  rcases hexponent with rfl | ⟨mark, sign, digits, rfl, -, -, hdigits⟩
  · rcases hfraction with rfl | ⟨digits, rfl, hdigits⟩
    · exact ⟨[], whole, by simp, hwhole⟩
    · exact ⟨whole ++ ['.'], digits, by simp, hdigits⟩
  · exact ⟨whole ++ fraction ++ mark :: sign, digits, by simp, hdigits⟩

theorem ends_of_fits {pattern : Pattern} {before : Option Char} {text ahead : Text} {c : Char}
    (h : Fits before text ahead pattern) (hlast : text.getLast? = some c) :
    pattern.ends c = true := by
  have hmem := List.mem_of_getLast? hlast
  cases pattern with
  | space | operatorRun | stringText => exact h.all c hmem
  | literal expected =>
    obtain rfl : text = expected := h
    exact beq_iff_eq.mpr hlast
  | oneOf set =>
    obtain ⟨next, hset, rfl⟩ := h
    rw [List.mem_singleton.mp hmem]
    exact List.contains_iff_mem.mpr hset
  | word words => exact List.any_eq_true.mpr ⟨text, h.1, beq_iff_eq.mpr hlast⟩
  | htmlTag =>
    obtain ⟨_, _, _, rfl, -⟩ := h
    have hclose := mem_of_getLast?_append _ (List.cons_ne_nil '>' []) hlast
    exact beq_iff_eq.mpr (List.mem_singleton.mp hclose)
  | markupTag =>
    obtain ⟨_, rfl, -⟩ := h
    have hclose := mem_of_getLast?_append _ (List.cons_ne_nil '>' []) hlast
    exact beq_iff_eq.mpr (List.mem_singleton.mp hclose)
  | lowerName | upperName | instanceVariable =>
    exact (runs_of_isName (by simp +contextual [Text.isNameStart]) h).all c hmem
  | classVariable => exact (runs_of_classVariable h).all c hmem
  | hexNumber =>
    obtain ⟨digits, rfl, hne, hdigits⟩ := h
    exact hdigits.all c (mem_of_getLast?_append ['0', 'x'] hne hlast)
  | decimal =>
    obtain ⟨front, digits, rfl, hne, hdigits⟩ := digits_of_isDecimal h
    exact hdigits c (mem_of_getLast?_append front hne hlast)
  | rawString =>
    obtain ⟨body, rfl, -⟩ := h
    have hquote := mem_of_getLast?_append _ (by decide) hlast
    simpa [tripleQuote, ends] using hquote
  | query =>
    obtain ⟨body, rfl, -⟩ := h
    have hclose := mem_of_getLast?_append _ (List.cons_ne_nil '`' []) hlast
    exact beq_iff_eq.mpr (List.mem_singleton.mp hclose)
  | charEscape set =>
    obtain ⟨next, hset, rfl⟩ := h
    obtain rfl : next = c := by simpa using hlast
    exact List.contains_iff_mem.mpr hset
  | hexEscape marker count =>
    obtain ⟨digits, rfl, -, hdigits⟩ := h
    have hbody := mem_of_getLast?_append ['\\'] (List.cons_ne_nil marker digits) hlast
    rcases List.mem_cons.mp hbody with rfl | hdigit
    · simp [ends]
    · simp [ends, hdigits c hdigit]
  | lineComment | attributeLine | commentText | markupText => rfl

end Pattern

namespace Classifier
open Grammar

/-! ## The step at a name -/

theorem category_of_isNameStart {mode : Mode} {rule : Rule} {c : Char}
    (hmode : mode.readsCode = true) (hstart : Text.isNameStart c = true)
    (hrule : rule ∈ rulesAt mode c) : rule.category ∈ nameCategories := by
  have htable : Text.ascii.all (fun c => decide (Text.isNameStart c = true →
      ∀ mode : Mode, mode.readsCode = true →
        ∀ rule ∈ rulesAt mode c, rule.category ∈ nameCategories)) = true := by
    decide
  have hascii := Text.isAscii_of_isNameChar (isNameChar_of_isNameStart hstart)
  have hc := List.all_eq_true.mp htable c (Text.mem_ascii hascii)
  exact of_decide_eq_true hc hstart mode hmode rule hrule

/-- Some rule matches where a name begins. -/
theorem firstMatch?_of_isNameStart {state : Classifier} {c : Char} {rest : Text}
    (hmode : state.mode.readsCode = true) (hrest : state.rest = c :: rest)
    (hstart : Text.isNameStart c = true) : state.firstMatch? ≠ none := by
  have hseizes : ∃ rule ∈ codeRules, rule.pattern.seizes c = true := by
    simp only [Text.isNameStart, Bool.or_eq_true] at hstart
    rcases hstart with (hupper | hlower) | hunderscore
    · exact ⟨.stay .upperName .nameClass, by decide, hupper⟩
    · exact ⟨.stay .lowerName .name, by decide, hlower⟩
    · exact ⟨.stay .instanceVariable .nameVariableInstance, by decide, hunderscore⟩
  obtain ⟨rule, hrule, hseizes⟩ := hseizes
  exact firstMatch?_ne_none_of_seizes hrest (Mode.mem_rules_of_readsCode hmode hrule) hseizes

/-- A name that begins with a small letter is read by one rule only. -/
theorem rule_of_name {mode : Mode} {rule : Rule} (hrule : rule ∈ mode.rules)
    (hcategory : rule.category = .name) : rule = .stay .lowerName .name := by
  revert rule
  revert mode
  decide

/-- Where a name is read, no reserved word stands. -/
theorem not_isWord_of_name {state after : Classifier} {token : Token}
    {reserved : List Text × Category} (hmode : state.mode.readsCode = true)
    (h : state.next? = some (token, after)) (hcategory : token.category = .name)
    (hreserved : reserved ∈ reservedWords) :
    ¬ IsWord reserved.1 state.before token.text after.rest := by
  have hbefore : ∀ reserved ∈ reservedWords, Rule.stay (.word reserved.1) reserved.2 ∈
      (Rule.stay .lowerName .name).predecessors codeRules := by
    decide
  rintro ⟨hword, hdot, hwhole⟩
  rcases step_cases h with ⟨rule, hmatch, hrule, -⟩ | ⟨-, herror, -⟩
  · have hmem := (firstMatch?_sound hmatch).1
    obtain rfl := rule_of_name hmem (hrule ▸ hcategory)
    have hnil := lexeme_eq_nil_of_mem_predecessors hmatch hmode (by decide) (hbefore _ hreserved)
    rw [(step_text h).2] at hnil
    have hfound : Pattern.wordOf reserved.1 state.before (token.text ++ after.rest) =
        token.text := by
      rw [Pattern.wordOf, hwhole.takeWhile_append, if_pos]
      exact ⟨hdot, List.contains_iff_mem.mpr hword⟩
    exact (step_text h).1 (hfound.symm.trans hnil)
  · rw [hcategory] at herror
    simp at herror

/-- A step where a name begins reads a whole run of name characters. -/
theorem step_labelsName {state after : Classifier} {token : Token} {c : Char} {rest : Text}
    (hmode : state.mode.readsCode = true) (hrest : state.rest = c :: rest)
    (hstart : Text.isNameStart c = true) (h : state.next? = some (token, after)) :
    Runs Text.isNameChar token.text after.rest ∧
      LabelsName (state.before = some '.') token.text after.rest token.category := by
  have hcategory : token.category ∈ nameCategories := by
    rcases step_cases h with ⟨rule, hmatch, hrule, -⟩ | ⟨hnone, -⟩
    · rw [hrule]
      exact category_of_isNameStart hmode hstart (mem_rulesAt_of_firstMatch? hrest hmatch)
    · exact absurd hnone (firstMatch?_of_isNameStart hmode hrest hstart)
  have hlabels := step_labels h
  refine ⟨runs_of_labels hcategory hlabels, labelsName_of_labels hcategory hlabels ?_⟩
  intro hname reserved hreserved
  exact not_isWord_of_name hmode h hname hreserved

/-! ## The step before a name -/

/-- A token that ends with a dot is an operator, unless it goes to the end of a line
or stays in what is no code. -/
theorem ends_in_dot {mode : Mode} {rule : Rule} (hrule : rule ∈ mode.rules)
    (hends : rule.pattern.ends '.' = true) :
    rule.category = .operator ∨ rule.pattern = .lineComment ∨ rule.pattern = .attributeLine ∨
      mode.readsCode = false ∧ rule.action = .stay := by
  revert rule
  revert mode
  decide

/-- Before a line goes on in code, only an operator ends with a dot. A line comment and
an attribute leave the end of a line, and what ends with a dot in a string, a comment
or markup does not lead back to code. -/
theorem step_of_dot {state after : Classifier} {token : Token} {c : Char}
    (h : state.next? = some (token, after)) (hdot : token.text.getLast? = some '.')
    (hmode : after.mode.readsCode = true) (hahead : after.rest.head? = some c) (hc : c ≠ '\n') :
    token.category = .operator := by
  have hline : ¬ LineEnd after.rest := fun hend => hc (hend c hahead)
  rcases step_fits h with
    ⟨rule, hrule, -, hcategory, hfits, hafter⟩ | ⟨hnone, -, ⟨first, htext, hrest⟩, hafter⟩
  · rcases ends_in_dot hrule (Pattern.ends_of_fits hfits hdot) with
      hoperator | hpattern | hpattern | ⟨hno, hstay⟩
    · rw [hcategory, hoperator]
    · rw [hpattern] at hfits
      obtain ⟨body, -, hruns⟩ := hfits
      refine absurd (fun next hnext => ?_) hline
      simpa using hruns.stops next hnext
    · rw [hpattern] at hfits
      obtain ⟨body, -, hbody | ⟨_, _, -, -, -, hend, -⟩⟩ := hfits
      · exact absurd hbody.lineEnd hline
      · exact absurd hend hline
    · rw [hafter, hstay] at hmode
      exact absurd (hno.symm.trans hmode) (by simp)
  · obtain rfl : first = '.' := by simpa [htext] using hdot
    have hcode : state.mode.readsCode = true := by rwa [hafter] at hmode
    rcases (firstMatch?_eq_none_iff_of_readsCode hcode hrest).mp hnone with hstray | ⟨hquery, -⟩
    · exact absurd hstray (by decide)
    · exact absurd hquery (by decide)

/-- What the last request answered, where one was answered: its span covers the
text that stands right before what is left. -/
theorem getLast?_take_classify {source : Text} {count : Nat} {after : Classifier} {token : Token}
    (h : ((ofText source).afterRequests count).next? = some (token, after)) :
    ∃ span, ((classify source).take (count + 1)).getLast? = some span ∧
      span.category = token.category ∧ span.text source = token.text := by
  have hanswer := request_eq_getElem? source count
  rw [request_of_next?_eq_some h] at hanswer
  refine ⟨spanAt ((ofText source).afterRequests count).offset token, ?_, rfl, text_request h⟩
  rw [List.take_add_one, ← hanswer, List.getLast?_append]
  rfl

/-- After some requests a dot stands right before a name exactly where the last
answer was an operator that ends with a dot. What stands before is the end of the
last token alone, so nothing about the requests before it is needed. -/
theorem dot_iff_operator {source : Text} {count : Nat} {c : Char}
    (hmode : ((ofText source).afterRequests count).mode.readsCode = true)
    (hahead : ((ofText source).afterRequests count).rest.head? = some c) (hc : c ≠ '\n') :
    ((ofText source).afterRequests count).before = some '.' ↔
      ∃ span, ((classify source).take count).getLast? = some span ∧
        span.category = .operator ∧ (span.text source).getLast? = some '.' := by
  cases count with
  | zero => simp [afterRequests, ofText]
  | succ count =>
    rw [afterRequests] at hmode hahead ⊢
    cases hnext : ((ofText source).afterRequests count).next? with
    | none =>
      rw [request_of_next?_eq_none hnext, next?_eq_none_iff.mp hnext] at hahead
      simp at hahead
    | some taken =>
      obtain ⟨token, after⟩ := taken
      rw [request_of_next?_eq_some hnext] at hmode hahead ⊢
      obtain ⟨span, hlast, hcategory, htext⟩ := getLast?_take_classify hnext
      simp only [hlast, Option.some_inj, exists_eq_left', hcategory, htext]
      rw [step_before hnext]
      constructor
      · intro hdot
        exact ⟨step_of_dot hnext hdot hmode hahead hc, hdot⟩
      · exact And.right

end Classifier

open Classifier in
/-- **Names and reserved words.** Wherever code goes on with an ASCII letter or an
underscore, the next span is the whole run of name characters from there. The run,
the byte before it and the character behind it tell what it is. That byte is a dot
exactly where the span before is an operator that ends with a dot. -/
theorem request_labelsName (source : Text) (count : Nat) :
    let state := (ofText source).afterRequests count
    let word := state.rest.takeWhile Text.isNameChar
    let ahead := state.rest.dropWhile Text.isNameChar
    let afterDot := (Cursor.mk source state.offset).previous? = some Text.dotByte
    state.mode.readsCode = true → (∃ c ∈ state.rest.head?, Text.isNameStart c = true) →
      (∃ category,
        state.request.1 = some ⟨state.offset, state.offset + Text.byteCount word, category⟩ ∧
        Grammar.LabelsName afterDot word ahead category) ∧
      (afterDot ↔ ∃ span, ((classify source).take count).getLast? = some span ∧
        span.category = .operator ∧ (span.text source).getLast? = some '.') := by
  rintro state word ahead afterDot hmode ⟨c, hhead, hstart⟩
  have hstands := standsAt_afterRequests source count
  have hdot : afterDot ↔ state.before = some '.' := by
    rw [hstands.before]
    exact Cursor.previous?_eq_dot_iff hstands.boundary
  have hline : c ≠ '\n' := by rintro rfl; revert hstart; decide
  constructor
  · obtain ⟨rest, hrest⟩ := List.head?_eq_some_iff.mp hhead
    obtain ⟨token, after, hnext⟩ := exists_step hrest
    obtain ⟨hruns, hlabels⟩ := step_labelsName hmode hrest hstart hnext
    have hword : word = token.text := by
      rw [← hruns.takeWhile_append, ← (step_text hnext).2]
    have hahead : ahead = after.rest := by
      rw [← hruns.dropWhile_append, ← (step_text hnext).2]
    rw [hword, hahead, propext hdot, request_of_next?_eq_some hnext]
    exact ⟨token.category, rfl, hlabels⟩
  · exact hdot.trans (dot_iff_operator hmode hhead hline)

/-- Right after a dot stands a name, though `if` is reserved. -/
theorem request_labelsName_of_member :
    let source := "x.if".toList
    let state := (Classifier.ofText source).afterRequests 2
    let word := state.rest.takeWhile Text.isNameChar
    let ahead := state.rest.dropWhile Text.isNameChar
    let afterDot := (Cursor.mk source state.offset).previous? = some Text.dotByte
    state.mode.readsCode = true ∧ state.rest = ['i', 'f'] ∧ afterDot ∧
      (∃ category,
        state.request.1 = some ⟨state.offset, state.offset + Text.byteCount word, category⟩ ∧
        Grammar.LabelsName afterDot word ahead category) ∧
      (afterDot ↔ ∃ span, ((classify source).take 2).getLast? = some span ∧
        span.category = .operator ∧ (span.text source).getLast? = some '.') := by
  intro source state word ahead afterDot
  have hmode : state.mode.readsCode = true := by decide
  have hrest : state.rest = ['i', 'f'] := by decide
  have hstart : ∃ c ∈ state.rest.head?, Text.isNameStart c = true := by
    rw [hrest]
    exact ⟨'i', rfl, rfl⟩
  exact ⟨hmode, hrest, by decide, request_labelsName source 2 hmode hstart⟩

end WrenDocs
