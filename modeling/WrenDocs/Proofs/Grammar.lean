import WrenDocs.Rule

/-! The words of the language, said without the patterns that find them. A word
is a text with what stands around it: the character before it and everything
ahead of it. `Labels` gives the words of every category. -/
namespace WrenDocs.Grammar

/-- A character of a text made of two parts stands in the first or in the second. -/
theorem append_eq_append_cons {c : Char} {first second front back : Text}
    (h : first ++ second = front ++ c :: back) :
    (∃ inner, first = front ++ c :: inner ∧ back = inner ++ second) ∨
      ∃ inner, front = first ++ inner ∧ second = inner ++ c :: back := by
  rcases List.append_eq_append_iff.mp h with hsecond | ⟨middle, rfl, hback⟩
  · exact .inr hsecond
  · cases middle with
    | nil => exact .inr ⟨[], by simp, hback.symm⟩
    | cons d middle =>
      obtain ⟨rfl, rfl⟩ := List.cons.inj hback
      exact .inl ⟨middle, rfl, rfl⟩

/-- What begins a text ends before a character of it or goes over that character. -/
theorem prefix_or_exists_cons {c : Char} {word front back : Text} (h : word <+: front ++ c :: back) :
    word <+: front ∨ ∃ inner, word = front ++ c :: inner ∧ inner <+: back := by
  obtain ⟨ahead, hahead⟩ := h
  rcases append_eq_append_cons hahead with ⟨inner, hword, hback⟩ | ⟨inner, hfront, -⟩
  · exact .inr ⟨inner, hword, ahead, hback.symm⟩
  · exact .inl ⟨inner, hfront.symm⟩

/-- A run that is as long as it can be: all of it passes the test, and what
stands ahead does not go on with another such character. -/
structure Runs (test : Char → Bool) (text ahead : Text) : Prop where
  all : ∀ c ∈ text, test c = true
  stops : ∀ c ∈ ahead.head?, test c = false

/-- The text up to the first place where a delimiter begins, or up to the end.
A delimiter that begins in the text and ends after it counts. -/
structure StopsAt (delimiter : Text → Prop) (text ahead : Text) : Prop where
  free : ∀ front back, text = front ++ back → back ≠ [] → ¬ delimiter (back ++ ahead)
  stops : ahead = [] ∨ delimiter ahead

theorem runs_takeWhile (test : Char → Bool) (text : Text) :
    Runs test (text.takeWhile test) (text.dropWhile test) where
  all := by
    have h := List.all_takeWhile (l := text) (p := test)
    simpa only [List.all_eq_true] using h
  stops := by
    intro c hc
    have h := List.head?_dropWhile_not test text
    rw [Option.mem_def.mp hc] at h
    simpa using h

theorem Runs.cons {test : Char → Bool} {c : Char} {text ahead : Text} (hc : test c = true)
    (h : Runs test text ahead) : Runs test (c :: text) ahead where
  all := List.forall_mem_cons.mpr ⟨hc, h.all⟩
  stops := h.stops

theorem Runs.takeWhile_append {test : Char → Bool} {text ahead : Text} (h : Runs test text ahead) :
    (text ++ ahead).takeWhile test = text := by
  rw [List.takeWhile_append_of_pos h.all]
  cases ahead with
  | nil => exact List.append_nil text
  | cons c ahead =>
    have hstop : ¬ test c = true := Bool.eq_false_iff.mp (h.stops c rfl)
    rw [List.takeWhile_cons_of_neg hstop, List.append_nil]

theorem Runs.dropWhile_append {test : Char → Bool} {text ahead : Text} (h : Runs test text ahead) :
    (text ++ ahead).dropWhile test = ahead := by
  rw [List.dropWhile_append_of_pos h.all]
  cases ahead with
  | nil => rfl
  | cons c ahead =>
    have hstop : ¬ test c = true := Bool.eq_false_iff.mp (h.stops c rfl)
    rw [List.dropWhile_cons_of_neg hstop]

theorem StopsAt.nil {delimiter : Text → Prop} {ahead : Text} (h : ahead = [] ∨ delimiter ahead) :
    StopsAt delimiter [] ahead := by
  refine ⟨?_, h⟩
  intro front back hsplit hback
  exact absurd (List.append_eq_nil_iff.mp hsplit.symm).2 hback

theorem StopsAt.cons {delimiter : Text → Prop} {c : Char} {text ahead : Text}
    (hc : ¬ delimiter (c :: (text ++ ahead))) (h : StopsAt delimiter text ahead) :
    StopsAt delimiter (c :: text) ahead := by
  refine ⟨?_, h.stops⟩
  intro front back hsplit hback
  cases front with
  | nil =>
    rw [List.nil_append] at hsplit
    rwa [← hsplit, List.cons_append]
  | cons first front => exact h.free front back (List.cons.inj hsplit).2 hback

theorem StopsAt.tail {delimiter : Text → Prop} {c : Char} {text ahead : Text}
    (h : StopsAt delimiter (c :: text) ahead) :
    ¬ delimiter (c :: (text ++ ahead)) ∧ StopsAt delimiter text ahead := by
  refine ⟨h.free [] _ rfl (List.cons_ne_nil c text), ?_, h.stops⟩
  intro front back hsplit hback
  exact h.free (c :: front) back (by rw [hsplit, List.cons_append]) hback

/-- What stops at a delimiter stays within what stands before one. -/
theorem StopsAt.within {delimiter : Text → Prop} {text ahead front stop : Text}
    (h : StopsAt delimiter text ahead) (htext : text ++ ahead = front ++ stop)
    (hstop : delimiter stop) : text <+: front := by
  have hprefix : front <+: text ++ ahead := ⟨stop, htext.symm⟩
  rcases List.prefix_or_prefix_of_prefix (List.prefix_append text ahead) hprefix with
    hshort | ⟨extra, rfl⟩
  · exact hshort
  · rw [List.append_assoc, List.append_cancel_left_eq] at htext
    by_cases hextra : extra = []
    · simp [hextra]
    · have hfree := h.free front extra rfl hextra
      rw [htext] at hfree
      exact absurd hstop hfree

/-- No place before the stop is one where a delimiter begins. -/
theorem StopsAt.length_le {delimiter : Text → Prop} {text ahead : Text} {place : Nat}
    (h : StopsAt delimiter text ahead) (hplace : delimiter ((text ++ ahead).drop place)) :
    text.length ≤ place := by
  refine Nat.le_of_not_lt fun hlt => ?_
  rw [List.drop_append_of_le_length (Nat.le_of_lt hlt)] at hplace
  have hback : text.drop place ≠ [] := by simpa using hlt
  exact h.free _ _ (List.take_append_drop place text).symm hback hplace

/-- A character that passes the test, and as many name characters as follow. -/
def IsName (head : Char → Bool) (text ahead : Text) : Prop :=
  ∃ c tail, text = c :: tail ∧ head c = true ∧ Runs Text.isNameChar tail ahead

/-- A word of the list, whole, and not right after a dot. -/
def IsWord (words : List Text) (before : Option Char) (text ahead : Text) : Prop :=
  text ∈ words ∧ before ≠ some '.' ∧ Runs Text.isWordChar text ahead

/-- `<` or `</`, a small ASCII letter, and no `>` but the last character. -/
def IsHtmlTag (text : Text) : Prop :=
  ∃ slash letter body, text = '<' :: slash ++ letter :: body ++ ['>'] ∧
    (slash = [] ∨ slash = ['/']) ∧ letter.isLower = true ∧ '>' ∉ body

/-- `<`, something, and no `>` but the last character. -/
def IsMarkupTag (text : Text) : Prop :=
  ∃ body, text = '<' :: body ++ ['>'] ∧ body ≠ [] ∧ '>' ∉ body

def doctype : Text :=
  "<!doctype html>".toList

def tripleQuote : Text :=
  ['"', '"', '"']

/-- Three double quotes, through the first three that follow. -/
def IsRawString (text : Text) : Prop :=
  ∃ body, text = tripleQuote ++ body ++ tripleQuote ∧
    StopsAt (tripleQuote <+: ·) body tripleQuote

/-- What stands between backticks: no bare backtick and no bare backslash. -/
inductive QueryBody : Text → Prop where
  | nil : QueryBody []
  | plain {c : Char} {body : Text} (hquote : c ≠ '`') (hescape : c ≠ '\\') :
      QueryBody body → QueryBody (c :: body)
  | escaped {c : Char} {body : Text} : QueryBody body → QueryBody ('\\' :: c :: body)

def IsQuery (text : Text) : Prop :=
  ∃ body, text = '`' :: body ++ ['`'] ∧ QueryBody body

/-- One or more ASCII digits. -/
def IsDigits (text : Text) : Prop :=
  text ≠ [] ∧ ∀ c ∈ text, c.isDigit = true

def IsFraction (text : Text) : Prop :=
  ∃ digits, text = '.' :: digits ∧ IsDigits digits

def IsExponent (text : Text) : Prop :=
  ∃ mark sign digits, text = mark :: sign ++ digits ∧ (mark = 'e' ∨ mark = 'E') ∧
    (sign = [] ∨ sign = ['-'] ∨ sign = ['+']) ∧ IsDigits digits

/-- Digits, a fraction or none, an exponent or none. -/
def IsDecimal (text : Text) : Prop :=
  ∃ whole fraction exponent, text = whole ++ fraction ++ exponent ∧ IsDigits whole ∧
    (fraction = [] ∨ IsFraction fraction) ∧ (exponent = [] ∨ IsExponent exponent)

/-- `0x` and as many hexadecimal digits as follow, at least one. -/
def IsHexNumber (text ahead : Text) : Prop :=
  ∃ digits, text = '0' :: 'x' :: digits ∧ digits ≠ [] ∧ Runs Text.isHexDigit digits ahead

/-- A backslash, a marker, and the number of hexadecimal digits it asks for. -/
def IsHexEscape (text : Text) : Prop :=
  ∃ marker digits, text = '\\' :: marker :: digits ∧
    (marker, digits.length) ∈ [('x', 2), ('u', 4), ('U', 8)] ∧
    ∀ c ∈ digits, Text.isHexDigit c = true

def IsEscape (text : Text) : Prop :=
  (∃ c ∈ escapeChars, text = ['\\', c]) ∨ IsHexEscape text

/-- The end of a source, or the end of a line. -/
def LineEnd (ahead : Text) : Prop :=
  ∀ c ∈ ahead.head?, c = '\n'

/-- A `)` that ends a line. -/
def ClosesLine (text : Text) : Prop :=
  ∃ ahead, text = ')' :: ahead ∧ LineEnd ahead

/-- The rest of a line on which no `(` has a `)` before some end of line. -/
structure EndsWithLine (body ahead : Text) : Prop where
  oneLine : '\n' ∉ body
  lineEnd : LineEnd ahead
  noList : ∀ front back, body = front ++ '(' :: back →
    ∀ place, place <:+ back ++ ahead → ¬ ClosesLine place

/-- The first `(` on a line, and everything through the first `)` before an end
of line, whatever line that is. -/
def EndsWithList (body ahead : Text) : Prop :=
  ∃ opening arguments, body = opening ++ '(' :: arguments ++ [')'] ∧ '\n' ∉ opening ∧
    '(' ∉ opening ∧ LineEnd ahead ∧ StopsAt ClosesLine arguments (')' :: ahead)

def IsAttribute (text ahead : Text) : Prop :=
  ∃ body, text = '#' :: body ∧ (EndsWithLine body ahead ∨ EndsWithList body ahead)

/-- Where a block comment opens or closes. -/
def CommentDelimiter (text : Text) : Prop :=
  ['/', '*'] <+: text ∨ ['*', '/'] <+: text

/-- Where markup is interrupted. -/
def MarkupDelimiter (text : Text) : Prop :=
  ['\\'] <+: text ∨ ['<'] <+: text ∨ ['{', '{'] <+: text

/-- A quote alone, or the text up to a backslash, a `%` or the quote. -/
def IsStringPart (quote : Char) (text ahead : Text) : Prop :=
  text = [quote] ∨ text ≠ [] ∧ Runs (fun c => c != '\\' && c != quote && c != '%') text ahead

/-- A run of operator characters where nothing else begins that is made of them. -/
structure IsOperator (text ahead : Text) : Prop where
  nonempty : text ≠ []
  runs : Runs Lexeme.isOperatorChar text ahead
  not_backslash : ¬ ['\\'] <+: text
  not_lineComment : ¬ ['/', '/'] <+: text
  not_blockComment : ¬ ['/', '*'] <+: text
  not_doctype : ¬ doctype <+: text ++ ahead
  not_htmlTag : ∀ tag, IsHtmlTag tag → ¬ tag <+: text ++ ahead

/-- The words of a pattern, each with the character before it and the text ahead
of it. -/
def Fits (before : Option Char) (text ahead : Text) : Pattern → Prop
  | .space => Runs Text.isSpace text ahead
  | .literal expected => text = expected
  | .oneOf set => ∃ c ∈ set, text = [c]
  | .word words => IsWord words before text ahead
  | .htmlTag => IsHtmlTag text
  | .lineComment => ∃ body, text = '/' :: '/' :: body ∧ Runs (· != '\n') body ahead
  | .attributeLine => IsAttribute text ahead
  | .operatorRun => Runs Lexeme.isOperatorChar text ahead
  | .lowerName => IsName Char.isLower text ahead
  | .upperName => IsName Char.isUpper text ahead
  | .classVariable => ∃ tail, text = '_' :: '_' :: tail ∧ Runs Text.isNameChar tail ahead
  | .instanceVariable => IsName (· == '_') text ahead
  | .hexNumber => IsHexNumber text ahead
  | .decimal => IsDecimal text
  | .rawString => IsRawString text
  | .query => IsQuery text
  | .commentText => StopsAt CommentDelimiter text ahead
  | .charEscape set => ∃ c ∈ set, text = ['\\', c]
  | .hexEscape marker count => ∃ digits, text = '\\' :: marker :: digits ∧ digits.length = count ∧
      ∀ c ∈ digits, Text.isHexDigit c = true
  | .stringText quote => Runs (fun c => c != '\\' && c != quote && c != '%') text ahead
  | .markupTag => IsMarkupTag text
  | .markupText => StopsAt MarkupDelimiter text ahead

/-- The words of a category, each with the character before it and the text
ahead of it. -/
def Labels (before : Option Char) (text ahead : Text) : Category → Prop
  | .whitespace => text ≠ [] ∧ Runs Text.isSpace text ahead
  | .punctuation => ∃ c ∈ [',', '\\', '[', ']', '{', '}', '(', ')'], text = [c]
  | .keyword => IsWord keywords before text ahead
  | .keywordConstant => IsWord constants before text ahead
  | .operator => IsOperator text ahead
  | .operatorWord => IsWord wordOperators before text ahead
  | .name => IsName Char.isLower text ahead
  | .nameClass => IsName Char.isUpper text ahead
  | .nameVariableClass => ∃ tail, text = '_' :: '_' :: tail ∧ Runs Text.isNameChar tail ahead
  | .nameVariableInstance => IsName (· == '_') text ahead ∧ ¬ ['_', '_'] <+: text ++ ahead
  | .numberHex => IsHexNumber text ahead
  | .numberFloat => IsDecimal text
  | .string => IsRawString text
  | .stringDouble => IsStringPart '"' text ahead
  | .stringSingle => IsStringPart '\'' text ahead
  | .stringBacktick => IsQuery text
  | .stringEscape => IsEscape text
  | .stringInterpol => text = ['%', '('] ∨ text = [')'] ∨ text = ['{', '{'] ∨ text = ['}', '}']
  | .commentSingle => ∃ body, text = '/' :: '/' :: body ∧ Runs (· != '\n') body ahead
  | .commentMultiline => text = ['/', '*'] ∨ text = ['*', '/'] ∨
      text ≠ [] ∧ StopsAt CommentDelimiter text ahead
  | .commentSpecial => IsAttribute text ahead
  | .other => IsHtmlTag text ∨ text = doctype ∨ IsMarkupTag text ∨
      text ≠ [] ∧ StopsAt MarkupDelimiter text ahead
  | .error => ∃ c, text = [c]

end WrenDocs.Grammar
