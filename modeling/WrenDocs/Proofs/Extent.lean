import Mathlib.Order.Bounds.Basic
import WrenDocs.Proofs.MatchEnd

/-! How far a pattern reaches. More than one word of a language may stand at the
front of a text. What has a closer ends at the first one, so the shortest word is
taken; a number goes on for as long as it is one, so the longest is. Lengths are in
bytes, and a pattern may be tried between any two characters of a source. -/
namespace WrenDocs

/-- How many bytes each word of a language takes that stands at the front of a text. -/
def Text.extents (language : Text → Prop) (text : Text) : Set Nat :=
  {length | ∃ word, word <+: text ∧ language word ∧ byteCount word = length}

theorem Text.byteCount_mono {word text : Text} (h : word <+: text) :
    byteCount word ≤ byteCount text := by
  obtain ⟨ahead, rfl⟩ := h
  rw [byteCount_append]
  exact Nat.le_add_right _ _

namespace Pattern
open Grammar Text

/-- Where a pattern is tried, the length of its match is the one chosen among those
of the words that stand there, and it fails only where none does. -/
structure Selects (choice : Set Nat → Nat → Prop) (pattern : Pattern)
    (language : Text → Prop) : Prop where
  some_iff : ∀ front text length,
    (Cursor.mk (front ++ text) (byteCount front)).matchLength? pattern = some length ↔
      choice (extents language text) length
  none_iff : ∀ front text,
    (Cursor.mk (front ++ text) (byteCount front)).matchLength? pattern = none ↔
      ∀ word, word <+: text → ¬ language word

/-- Whatever a pattern takes is a word of the language and stands there. -/
def TakesWords (pattern : Pattern) (language : Text → Prop) : Prop :=
  ∀ before text, pattern.lexeme before text ≠ [] →
    pattern.lexeme before text <+: text ∧ language (pattern.lexeme before text)

section Selects
variable {pattern : Pattern} {language : Text → Prop}

/-- A choice gives one of the lengths and never two, so it is enough that the lexeme
has the length that is chosen, and that there is one where a word stands. -/
theorem selects_of {choice : Set Nat → Nat → Prop}
    (hmem : ∀ lengths length, choice lengths length → length ∈ lengths)
    (hunique : ∀ lengths length other,
      choice lengths length → choice lengths other → length = other)
    (hlexeme : ∀ before text, pattern.lexeme before text ≠ [] →
      choice (extents language text) (byteCount (pattern.lexeme before text)))
    (hfound : ∀ before text word, word <+: text → language word →
      pattern.lexeme before text ≠ []) :
    pattern.Selects choice language := by
  have hsome (before : Option Char) (text : Text) (length : Nat) :
      pattern.byteLength? before text = some length ↔ choice (extents language text) length := by
    rw [byteLength?, Option.map_eq_some_iff]
    constructor
    · rintro ⟨lexeme, hlexeme?, rfl⟩
      obtain ⟨rfl, hne⟩ := lexeme?_eq_some_iff.mp hlexeme?
      exact hlexeme before text hne
    · intro hchoice
      obtain ⟨word, hword, hlanguage, -⟩ := hmem _ _ hchoice
      have hne := hfound before text word hword hlanguage
      exact ⟨_, lexeme?_eq_some_iff.mpr ⟨rfl, hne⟩, hunique _ _ _ (hlexeme before text hne) hchoice⟩
  have hnone (before : Option Char) (text : Text) :
      pattern.byteLength? before text = none ↔ ∀ word, word <+: text → ¬ language word := by
    rw [Option.eq_none_iff_forall_ne_some]
    constructor
    · intro h word hword hlanguage
      have hne := hfound before text word hword hlanguage
      exact h _ ((hsome before text _).mpr (hlexeme before text hne))
    · intro hno length hmatch
      obtain ⟨word, hword, hlanguage, -⟩ := hmem _ _ ((hsome before text length).mp hmatch)
      exact hno word hword hlanguage
  constructor <;> intro front text <;> rw [Cursor.matchLength?, Cursor.rest_append]
  · exact hsome _ text
  · exact hnone _ text

theorem selects_shortest (hsound : pattern.TakesWords language)
    (hshort : ∀ before word ahead, language word →
      pattern.lexeme before (word ++ ahead) ≠ [] ∧
        pattern.lexeme before (word ++ ahead) <+: word) :
    pattern.Selects IsLeast language := by
  refine selects_of (fun _ _ h => h.1) (fun _ _ _ => IsLeast.unique) ?_ ?_
  · intro before text hne
    obtain ⟨hfront, hlanguage⟩ := hsound before text hne
    refine ⟨⟨_, hfront, hlanguage, rfl⟩, ?_⟩
    rintro _ ⟨word, ⟨ahead, rfl⟩, hword, rfl⟩
    exact byteCount_mono (hshort before word ahead hword).2
  · rintro before _ word ⟨ahead, rfl⟩ hword
    exact (hshort before word ahead hword).1

/-- Where no word begins another, the word that stands there is the shortest. -/
theorem selects_only (hsound : pattern.TakesWords language) (hempty : ¬ language [])
    (hword : ∀ before word ahead, language word → pattern.lexeme before (word ++ ahead) = word) :
    pattern.Selects IsLeast language := by
  refine selects_shortest hsound fun before word ahead hlanguage => ?_
  rw [hword before word ahead hlanguage]
  exact ⟨fun hnil => hempty (hnil ▸ hlanguage), List.prefix_refl word⟩

theorem selects_longest (hsound : pattern.TakesWords language) (hempty : ¬ language [])
    (hlong : ∀ before text word, word <+: text → language word →
      word <+: pattern.lexeme before text) :
    pattern.Selects IsGreatest language := by
  refine selects_of (fun _ _ h => h.1) (fun _ _ _ => IsGreatest.unique) ?_ ?_
  · intro before text hne
    obtain ⟨hfront, hlanguage⟩ := hsound before text hne
    refine ⟨⟨_, hfront, hlanguage, rfl⟩, ?_⟩
    rintro _ ⟨word, hword, hlanguage', rfl⟩
    exact byteCount_mono (hlong before text word hword hlanguage')
  · intro before text word hword hlanguage
    refine (hlong before text word hword hlanguage).ne_nil fun hnil => ?_
    exact hempty (hnil ▸ hlanguage)

end Selects

/-! ## Lexemes with a closer -/

/-- Three double quotes, any text, and three double quotes. -/
def InTripleQuotes (text : Text) : Prop :=
  ∃ body, text = tripleQuote ++ body ++ tripleQuote

/-- **Shortest match.** A raw string, a query and a tag of either kind end where they
are closed for the first time: of the words that stand at a place, the shortest is
taken. Without a closer nothing is taken, however far the text goes on. -/
theorem delimited_take_shortest :
    rawString.Selects IsLeast InTripleQuotes ∧ query.Selects IsLeast IsQuery ∧
      htmlTag.Selects IsLeast IsHtmlTag ∧ markupTag.Selects IsLeast IsMarkupTag := by
  refine ⟨selects_shortest ?_ ?_, selects_only ?_ ?_ ?_, selects_only ?_ ?_ ?_,
    selects_only ?_ ?_ ?_⟩
  · intro before text hne
    obtain ⟨hfront, body, heq, -⟩ := Lexeme.rawString_sound hne
    exact ⟨hfront, body, heq⟩
  · rintro before _ ahead ⟨body, rfl⟩
    exact Lexeme.rawString_append body ahead
  · exact fun before text => Lexeme.query_sound
  · rintro ⟨body, hnil, -⟩
    cases hnil
  · exact fun before word ahead => Lexeme.query_append ahead
  · exact fun before text => Lexeme.htmlTag_sound
  · rintro ⟨slash, letter, body, hnil, -⟩
    cases hnil
  · exact fun before word ahead => Lexeme.htmlTag_append ahead
  · exact fun before text => Lexeme.markupTag_sound
  · rintro ⟨body, hnil, -⟩
    cases hnil
  · exact fun before word ahead => Lexeme.markupTag_append ahead

/-- Of seven quotes in a row three open and the next three close. -/
example : (Cursor.mk (List.replicate 7 '"') 0).matchLength? rawString = some 6 := by decide

/-! ## Numbers -/

/-- `0x` and one or more hexadecimal digits. -/
def IsHexadecimal (text : Text) : Prop :=
  ∃ digits, text = '0' :: 'x' :: digits ∧ digits ≠ [] ∧ ∀ c ∈ digits, Text.isHexDigit c = true

/-- A dot with a digit right behind it, or an exponent mark with one behind its sign,
if it has a sign. -/
def HasDigit (mark : Char) (ahead : Text) : Prop :=
  ∃ sign digit, sign ++ [digit] <+: ahead ∧ digit.isDigit = true ∧
    (sign = [] ∨ mark ≠ '.' ∧ (sign = ['-'] ∨ sign = ['+']))

theorem hasDigit_append {mark : Char} {sign digits : Text} (ahead : Text) (h : IsDigits digits)
    (hsign : sign = [] ∨ mark ≠ '.' ∧ (sign = ['-'] ∨ sign = ['+'])) :
    HasDigit mark (sign ++ digits ++ ahead) := by
  obtain ⟨hne, hall⟩ := h
  obtain ⟨digit, digits, rfl⟩ := List.exists_cons_of_ne_nil hne
  exact ⟨sign, digit, ⟨digits ++ ahead, by simp⟩, hall digit List.mem_cons_self, hsign⟩

/-- The characters with which a fraction or an exponent begins. -/
def partMarks : List Char :=
  ['.', 'e', 'E']

section Marks
variable {mark : Char} {front back : Text}

theorem not_mem_isDigits {digits : Text} (hmark : mark ∈ partMarks) (h : IsDigits digits) :
    mark ∉ digits := by
  intro hmem
  have htable : partMarks.all (fun mark => !mark.isDigit) = true := by decide
  have hdigit := List.all_eq_true.mp htable mark hmark
  rw [h.2 mark hmem] at hdigit
  exact Bool.false_ne_true hdigit

/-- A fraction has its dot in front, and no mark but that. -/
theorem hasDigit_of_fraction {part : Text} (ahead : Text) (hmark : mark ∈ partMarks)
    (hpart : part = [] ∨ IsFraction part) (h : part = front ++ mark :: back) :
    HasDigit mark (back ++ ahead) := by
  rcases hpart with rfl | ⟨digits, rfl, hdigits⟩
  · simp at h
  · cases front with
    | nil =>
      obtain ⟨-, rfl⟩ := List.cons.inj h
      exact hasDigit_append ahead hdigits (.inl rfl)
    | cons first front =>
      have hmem : mark ∈ digits := by simp [(List.cons.inj h).2]
      exact absurd hmem (not_mem_isDigits hmark hdigits)

/-- An exponent has its mark in front, and no mark but that. -/
theorem hasDigit_of_exponent {scale : Text} (hmark : mark ∈ partMarks)
    (hscale : scale = [] ∨ IsExponent scale) (h : scale = front ++ mark :: back) :
    HasDigit mark back := by
  rcases hscale with rfl | ⟨first, sign, digits, rfl, hfirst, hsign, hdigits⟩
  · simp at h
  · cases front with
    | nil =>
      obtain ⟨rfl, rfl⟩ := List.cons.inj h
      have hdot : first ≠ '.' := by
        rintro rfl
        exact absurd hfirst (by decide)
      simpa using hasDigit_append [] hdigits (hsign.imp_right fun hsign => ⟨hdot, hsign⟩)
    | cons other front =>
      have htail : sign ++ digits = front ++ mark :: back := (List.cons.inj h).2
      have hmem : mark ∈ sign ++ digits := by simp [htail]
      rcases List.mem_append.mp hmem with hmem | hmem
      · rcases hsign with rfl | rfl | rfl
        · cases hmem
        all_goals
          obtain rfl := List.mem_singleton.mp hmem
          exact absurd hmark (by decide)
      · exact absurd hmem (not_mem_isDigits hmark hdigits)

theorem hasDigit_of_isDecimal (hmark : mark ∈ partMarks)
    (h : IsDecimal (front ++ mark :: back)) : HasDigit mark back := by
  obtain ⟨digits, part, scale, heq, hdigits, hpart, hscale⟩ := h
  rw [List.append_assoc] at heq
  rcases append_eq_append_cons heq.symm with ⟨inner, rfl, -⟩ | ⟨inner, -, hrest⟩
  · exact absurd (by simp) (not_mem_isDigits hmark hdigits)
  · rcases append_eq_append_cons hrest with ⟨inner, hinner, rfl⟩ | ⟨inner, -, hinner⟩
    · exact hasDigit_of_fraction scale hmark hpart hinner
    · exact hasDigit_of_exponent hmark hscale hinner

theorem HasDigit.mono {longer : Text} (h : HasDigit mark back) (hlonger : back <+: longer) :
    HasDigit mark longer := by
  obtain ⟨sign, digit, hfront, hrest⟩ := h
  exact ⟨sign, digit, hfront.trans hlonger, hrest⟩

end Marks

/-- A word that goes beyond a place has the character there. -/
theorem exists_of_byteCount_lt {word front back : Text} {c : Char} (h : word <+: front ++ c :: back)
    (hlong : byteCount front < byteCount word) :
    ∃ inner, word = front ++ c :: inner ∧ inner <+: back := by
  refine (prefix_or_exists_cons h).resolve_left fun hshort => ?_
  exact Nat.not_lt_of_le (byteCount_mono hshort) hlong

theorem decimal_selects : decimal.Selects IsGreatest IsDecimal := by
  refine selects_longest (fun before text => Lexeme.decimal_sound) ?_ ?_
  · rintro ⟨digits, part, scale, hnil, ⟨hne, -⟩, -⟩
    exact hne (List.append_eq_nil_iff.mp (List.append_eq_nil_iff.mp hnil.symm).1).1
  · exact fun before text word => Lexeme.prefix_decimal

theorem hexNumber_selects : hexNumber.Selects IsGreatest IsHexadecimal := by
  refine selects_longest ?_ ?_ ?_
  · intro before text hne
    obtain ⟨ahead, htext, digits, heq, hdigits, hruns⟩ := Lexeme.hexNumber_sound hne
    exact ⟨⟨ahead, htext.symm⟩, digits, heq, hdigits, hruns.all⟩
  · rintro ⟨digits, hnil, -⟩
    cases hnil
  · rintro before text _ hfront ⟨digits, rfl, hne, hdigits⟩
    exact Lexeme.prefix_hexNumber hfront hne hdigits

theorem not_mem_of_isHexadecimal {word : Text} (h : IsHexadecimal word) {mark : Char}
    (hmark : mark ∈ ['.', '+', '-']) : mark ∉ word := by
  obtain ⟨digits, rfl, -, hdigits⟩ := h
  intro hmem
  have htable : ['.', '+', '-'].all (fun c => !(c == '0' || c == 'x' || Text.isHexDigit c)) = true := by
    decide
  have hplain := List.all_eq_true.mp htable mark hmark
  have hword : (mark == '0' || mark == 'x' || Text.isHexDigit mark) = true := by
    rcases List.mem_cons.mp hmem with rfl | hmem
    · rfl
    · rcases List.mem_cons.mp hmem with rfl | hmem
      · rfl
      · rw [hdigits mark hmem, Bool.or_true]
  rw [hword] at hplain
  exact Bool.false_ne_true hplain

/-- **Longest match.** A number is taken as far as it goes on being one, and nothing is
taken where none begins. A dot and an exponent mark belong to it only with a digit of
their own; in a hexadecimal number, where `e` is a digit, no dot or sign does. -/
theorem numbers_take_longest :
    decimal.Selects IsGreatest IsDecimal ∧ hexNumber.Selects IsGreatest IsHexadecimal ∧
      ∀ front before mark ahead length,
        let cursor := Cursor.mk (front ++ (before ++ mark :: ahead)) (byteCount front)
        (cursor.matchLength? decimal = some length → mark ∈ partMarks → ¬ HasDigit mark ahead →
          length ≤ byteCount before) ∧
        (cursor.matchLength? hexNumber = some length → mark ∈ ['.', '+', '-'] →
          length ≤ byteCount before) := by
  refine ⟨decimal_selects, hexNumber_selects, fun front before mark ahead length => ⟨?_, ?_⟩⟩
  · intro hmatch hmark hdigit
    obtain ⟨word, hword, hdecimal, rfl⟩ := ((decimal_selects.some_iff _ _ _).mp hmatch).1
    refine Nat.le_of_not_lt fun hlong => hdigit ?_
    obtain ⟨inner, rfl, hinner⟩ := exists_of_byteCount_lt hword hlong
    exact (hasDigit_of_isDecimal hmark hdecimal).mono hinner
  · intro hmatch hmark
    obtain ⟨word, hword, hhexadecimal, rfl⟩ := ((hexNumber_selects.some_iff _ _ _).mp hmatch).1
    refine Nat.le_of_not_lt fun hlong => ?_
    obtain ⟨inner, rfl, -⟩ := exists_of_byteCount_lt hword hlong
    exact not_mem_of_isHexadecimal hhexadecimal hmark (by simp)

/-- In `1.5e+x` the exponent mark has no digit, also behind its sign. -/
theorem numbers_take_longest_of_no_exponent :
    (Cursor.mk "1.5e+x".toList 0).matchLength? decimal = some 3 ∧ ¬ HasDigit 'e' ['+', 'x'] ∧
      3 ≤ byteCount ['1', '.', '5'] ∧
      (Cursor.mk "0xe.5".toList 0).matchLength? hexNumber = some 3 ∧
      3 ≤ byteCount ['0', 'x', 'e'] := by
  have hdecimal : (Cursor.mk "1.5e+x".toList 0).matchLength? decimal = some 3 := by decide
  have hhexadecimal : (Cursor.mk "0xe.5".toList 0).matchLength? hexNumber = some 3 := by decide
  have hno : ¬ HasDigit 'e' ['+', 'x'] := by
    rintro ⟨sign, digit, hfront, hdigit, rfl | ⟨-, rfl | rfl⟩⟩
    · obtain ⟨rfl, -⟩ := List.cons_prefix_cons.mp hfront
      exact absurd hdigit (by decide)
    · exact absurd (List.cons_prefix_cons.mp hfront).1 (by decide)
    · obtain ⟨rfl, -⟩ := List.cons_prefix_cons.mp (List.cons_prefix_cons.mp hfront).2
      exact absurd hdigit (by decide)
  refine ⟨hdecimal, hno, ?_, hhexadecimal, ?_⟩
  · exact (numbers_take_longest.2.2 [] ['1', '.', '5'] 'e' ['+', 'x'] 3).1 hdecimal (by decide) hno
  · exact (numbers_take_longest.2.2 [] ['0', 'x', 'e'] '.' ['5'] 3).2 hhexadecimal (by decide)

end Pattern

end WrenDocs
