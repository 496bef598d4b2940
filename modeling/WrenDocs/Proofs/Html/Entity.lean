import WrenDocs.Html

/-! Entities. Undoing them gives back what was escaped, whatever it looked like,
and an escaped text has none of the characters that end a tag, a class or an
element. -/
namespace WrenDocs.Html

/-- A text with the five entities undone, from left to right. -/
def unescape : Text → Text
  | '&' :: 'a' :: 'm' :: 'p' :: ';' :: text => '&' :: unescape text
  | '&' :: 'l' :: 't' :: ';' :: text => '<' :: unescape text
  | '&' :: 'g' :: 't' :: ';' :: text => '>' :: unescape text
  | '&' :: 'q' :: 'u' :: 'o' :: 't' :: ';' :: text => '"' :: unescape text
  | '&' :: '#' :: '3' :: '9' :: ';' :: text => '\'' :: unescape text
  | c :: text => c :: unescape text
  | [] => []

/-- The characters that markup is made of, `&` aside. -/
def isMarkup (c : Char) : Bool :=
  c == '<' || c == '>' || c == '"' || c == '\''

def entities : List Text :=
  ["&amp;".toList, "&lt;".toList, "&gt;".toList, "&quot;".toList, "&#39;".toList]

theorem escapeChar_cases (c : Char) :
    (c ≠ '&' ∧ isMarkup c = false ∧ escapeChar c = [c]) ∨ escapeChar c ∈ entities := by
  rw [escapeChar.eq_def]
  split
  case h_6 hamp hlt hgt hquote happ =>
    exact .inl ⟨hamp, by simpa [isMarkup, and_assoc] using ⟨hlt, hgt, hquote, happ⟩, rfl⟩
  all_goals exact .inr (by decide)

/-! ## What an escaped text has not -/

/-- The characters of an escaped text are those of the text or of an entity. -/
theorem mem_escape_cases {c : Char} {text : Text} (h : c ∈ escape text) :
    (c ∈ text ∧ isMarkup c = false) ∨ ∃ entity ∈ entities, c ∈ entity := by
  obtain ⟨d, hd, hc⟩ := List.mem_flatMap.mp h
  rcases escapeChar_cases d with ⟨-, hmarkup, heq⟩ | hentity
  · rw [heq] at hc
    obtain rfl := List.mem_singleton.mp hc
    exact .inl ⟨hd, hmarkup⟩
  · exact .inr ⟨escapeChar d, hentity, hc⟩

theorem isMarkup_of_mem_escape {c : Char} {text : Text} (h : c ∈ escape text) :
    isMarkup c = false := by
  rcases mem_escape_cases h with ⟨-, hmarkup⟩ | ⟨entity, hentity, hc⟩
  · exact hmarkup
  · have hall : entities.all (·.all (!isMarkup ·)) = true := by decide
    simpa using List.all_eq_true.mp (List.all_eq_true.mp hall entity hentity) c hc

theorem newline_not_mem_escape {text : Text} (h : '\n' ∉ text) : '\n' ∉ escape text := by
  intro hmem
  rcases mem_escape_cases hmem with ⟨hnewline, -⟩ | ⟨entity, hentity, hc⟩
  · exact h hnewline
  · have hall : entities.all (!·.contains '\n') = true := by decide
    simpa [hc] using List.all_eq_true.mp hall entity hentity

theorem escape_ne_nil {text : Text} (h : text ≠ []) : escape text ≠ [] := by
  obtain ⟨c, rest, rfl⟩ := List.exists_cons_of_ne_nil h
  have hchar : escapeChar c ≠ [] := by
    rcases escapeChar_cases c with ⟨-, -, heq⟩ | hentity
    · simp [heq]
    · have hall : entities.all (!·.isEmpty) = true := by decide
      simpa using List.all_eq_true.mp hall _ hentity
  simp [escape, hchar]

@[simp] theorem escape_append (a b : Text) : escape (a ++ b) = escape a ++ escape b :=
  List.flatMap_append

/-! ## Undoing -/

theorem unescape_cons {c : Char} (h : c ≠ '&') (text : Text) :
    unescape (c :: text) = c :: unescape text := by
  rw [unescape.eq_def]
  split <;> simp_all

/-- Escaping is undone, with any text behind. -/
theorem unescape_escape_append (text rest : Text) :
    unescape (escape text ++ rest) = text ++ unescape rest := by
  induction text with
  | nil => rfl
  | cons c text ih =>
    rw [escape, List.flatMap_cons, ← escape, List.append_assoc, escapeChar.eq_def, List.cons_append]
    split
    case h_6 hamp _ _ _ _ => rw [List.singleton_append, unescape_cons hamp, ih]
    all_goals rw [← ih]; rfl

theorem unescape_escape (text : Text) : unescape (escape text) = text := by
  simpa [unescape] using unescape_escape_append text []

end WrenDocs.Html
