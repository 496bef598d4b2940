import WrenDocs.Proofs.Errors
import WrenDocs.Proofs.Stretch

/-! Where a string ends. Escapes, errors and runs of text take the backslashes of a
string in different groups, but never out of step with their parity: a string in
double quotes goes on to the first quote behind an even number of backslashes, and
one in single quotes to the first quote. -/
namespace WrenDocs

/-- The quote of a mode that reads a string, and the category of its text. -/
def Mode.stringForm? : Mode → Option (Char × Category)
  | .stringDouble => some ('"', .stringDouble)
  | .stringSingle => some ('\'', .stringSingle)
  | .root | .comment | .html | .interpolation | .htmlInterpolation => none

theorem Mode.rules_of_stringForm? {mode : Mode} {quote : Char} {category : Category}
    (h : mode.stringForm? = some (quote, category)) :
    mode.rules = stringRules quote category ∧ mode.readsString = true ∧ mode ≠ .root ∧
      (quote = '"' ∨ quote = '\'') := by
  cases mode with
  | stringDouble =>
    obtain ⟨rfl, rfl⟩ := Prod.mk.inj (Option.some.inj h)
    exact ⟨List.append_nil _, rfl, by decide, .inl rfl⟩
  | stringSingle =>
    obtain ⟨rfl, rfl⟩ := Prod.mk.inj (Option.some.inj h)
    exact ⟨List.append_nil _, rfl, by decide, .inr rfl⟩
  | root | comment | html | interpolation | htmlInterpolation => simp [stringForm?] at h

namespace Grammar

/-- How many backslashes stand in a row at the end of a text. -/
def trailingBackslashes (text : Text) : Nat :=
  (text.reverse.takeWhile (· == '\\')).length

/-- The place where a string between such quotes is closed. A double quote may be
escaped, so the backslashes before it have to be even in number; a single one may
not, whatever stands before it. -/
def ClosesString (quote : Char) (front ahead : Text) : Prop :=
  [quote] <+: ahead ∧ (quote = '"' → trailingBackslashes front % 2 = 0)

/-- The place where a string is interpolated. -/
def OpensInterpolation (front ahead : Text) : Prop :=
  ['%', '('] <+: ahead ∧ trailingBackslashes front % 2 = 0

/-- The place where the body of a string stops. -/
def StopsString (quote : Char) (front ahead : Text) : Prop :=
  ClosesString quote front ahead ∨ OpensInterpolation front ahead

instance (quote : Char) (front ahead : Text) : Decidable (ClosesString quote front ahead) :=
  inferInstanceAs (Decidable (_ ∧ _))

instance (front ahead : Text) : Decidable (OpensInterpolation front ahead) :=
  inferInstanceAs (Decidable (_ ∧ _))

instance (quote : Char) (front ahead : Text) : Decidable (StopsString quote front ahead) :=
  inferInstanceAs (Decidable (_ ∨ _))

/-- A part of the body of a string: an escape, text without a special character, or
a special character on its own that begins neither an escape nor an interpolation. -/
def IsBodyPart (quote : Char) (text ahead : Text) : Prop :=
  IsEscape text ∨ Runs (fun c => c != '\\' && c != quote && c != '%') text ahead ∨
    (text = ['\\'] ∧ ∀ escape, escape <+: '\\' :: ahead → ¬ IsEscape escape) ∨
    text = ['%'] ∧ ahead.head? ≠ some '('

/-! ## Backslashes in a row -/

theorem trailingBackslashes_append (text front : Text) :
    trailingBackslashes (text ++ front) = trailingBackslashes front ∨
      trailingBackslashes front = front.length ∧
        trailingBackslashes (text ++ front) = front.length + trailingBackslashes text := by
  unfold trailingBackslashes
  rw [List.reverse_append, List.takeWhile_append]
  split
  · rename_i hall
    rw [List.length_reverse] at hall
    exact .inr ⟨hall, by rw [List.length_append, List.length_reverse]⟩
  · exact .inl rfl

/-- An even number of backslashes does not change the parity of those behind it. -/
theorem trailingBackslashes_append_of_even {text : Text} (h : trailingBackslashes text % 2 = 0)
    (front : Text) : trailingBackslashes (text ++ front) % 2 = trailingBackslashes front % 2 := by
  rcases trailingBackslashes_append text front with hsame | ⟨hall, hsum⟩
  · rw [hsame]
  · omega

theorem trailingBackslashes_eq_zero {text : Text} (h : ∀ c ∈ text.getLast?, c ≠ '\\') :
    trailingBackslashes text = 0 := by
  rw [trailingBackslashes, List.length_eq_zero_iff]
  rw [← List.head?_reverse] at h
  cases hreverse : text.reverse with
  | nil => rfl
  | cons c front =>
    have hc : c ≠ '\\' := h c (by rw [hreverse]; rfl)
    exact List.takeWhile_cons_of_neg (by simpa using hc)

/-- Backslashes count back to the beginning only where nothing else stands. -/
theorem trailingBackslashes_append_cons {c : Char} (hc : c ≠ '\\') (text front : Text) :
    trailingBackslashes (text ++ c :: front) = trailingBackslashes (c :: front) := by
  rcases trailingBackslashes_append text (c :: front) with hsame | ⟨hall, -⟩
  · exact hsame
  · have hbegins := List.takeWhile_prefix (l := (c :: front).reverse) (· == '\\')
    have heq := hbegins.eq_of_length (by rw [List.length_reverse]; exact hall)
    have hmem : c ∈ (c :: front).reverse := List.mem_reverse.mpr List.mem_cons_self
    rw [← heq] at hmem
    exact absurd (eq_of_beq ((runs_takeWhile (· == '\\') _).all c hmem)) hc

/-! ## What can be passed over -/

theorem stopsString_congr {front front' : Text}
    (h : trailingBackslashes front % 2 = trailingBackslashes front' % 2) (quote : Char)
    (ahead : Text) : StopsString quote front ahead ↔ StopsString quote front' ahead := by
  simp only [StopsString, ClosesString, OpensInterpolation, h]

theorem not_stopsString_nil (quote : Char) (front : Text) : ¬ StopsString quote front [] := by
  simp [StopsString, ClosesString, OpensInterpolation]

theorem not_stopsString_cons {quote c : Char} (hquote : c ≠ quote) (hpercent : c ≠ '%')
    (front ahead : Text) : ¬ StopsString quote front (c :: ahead) := by
  simp [StopsString, ClosesString, OpensInterpolation, Ne.symm hquote, Ne.symm hpercent]

theorem not_stopsString_backslash {quote : Char} (hform : quote = '"' ∨ quote = '\'')
    (front ahead : Text) : ¬ StopsString quote front ('\\' :: ahead) := by
  apply not_stopsString_cons
  · rcases hform with rfl | rfl <;> decide
  · decide

/-- Text can be passed over if an even number of backslashes ends it and there is
neither a quote nor a `%` behind its first character. -/
theorem skips_of_even {quote first : Char} {tail ahead : Text}
    (hstart : ¬ StopsString quote [] (first :: tail ++ ahead))
    (heven : trailingBackslashes (first :: tail) % 2 = 0)
    (htail : ∀ c ∈ tail, c ≠ quote ∧ c ≠ '%') :
    Skips (StopsString quote) (first :: tail) ahead where
  inside := by
    intro front back hsplit hback
    cases front with
    | nil => rwa [← show first :: tail = back from hsplit]
    | cons _ front =>
      obtain ⟨c, back, rfl⟩ := List.exists_cons_of_ne_nil hback
      obtain ⟨-, htext⟩ := List.cons.inj hsplit
      have hc : c ∈ tail := htext ▸ List.mem_append_right front List.mem_cons_self
      obtain ⟨hquote, hpercent⟩ := htail c hc
      exact not_stopsString_cons hquote hpercent _ _
  behind := by
    intro front rest _
    exact stopsString_congr (trailingBackslashes_append_of_even heven front) quote rest

/-- The character that a backslash escapes stands behind one backslash, and no
backslash escapes a single quote. -/
theorem skips_charEscape {quote c : Char} (hc : c ∈ escapeChars)
    (hform : quote = '"' ∨ quote = '\'') (ahead : Text) :
    Skips (StopsString quote) ['\\', c] ahead where
  inside := by
    intro front back hsplit hback
    rcases List.cons_eq_append_iff.mp hsplit with ⟨rfl, rfl⟩ | ⟨front, rfl, htail⟩
    · exact not_stopsString_backslash hform _ _
    · rcases List.cons_eq_append_iff.mp htail with ⟨rfl, rfl⟩ | ⟨_, -, hend⟩
      · have hodd : trailingBackslashes ['\\'] = 1 := by decide
        rintro (⟨hquote, heven⟩ | ⟨-, heven⟩)
        · obtain rfl : quote = c := by simpa using hquote
          rcases hform with rfl | rfl
          · simp [hodd] at heven
          · simp [escapeChars] at hc
        · simp [hodd] at heven
      · exact absurd (List.append_eq_nil_iff.mp hend.symm).2 hback
  behind := by
    intro front rest _
    have heven : trailingBackslashes ['\\', c] % 2 = 0 := by
      by_cases hescape : c = '\\' <;> simp [trailingBackslashes, hescape]
    exact stopsString_congr (trailingBackslashes_append_of_even heven front) quote rest

/-- A backslash that begins no escape stands before nothing that it could keep from
stopping the string. The quote behind it is then a single one, for a double quote
would make an escape, and a single quote stops whatever backslashes precede it. -/
theorem skips_backslash {quote : Char} {ahead : Text} (hform : quote = '"' ∨ quote = '\'')
    (hno : ∀ escape, escape <+: '\\' :: ahead → ¬ IsEscape escape) :
    Skips (StopsString quote) ['\\'] ahead := by
  refine .single ?_ ?_
  · exact not_stopsString_backslash hform _ _
  · intro front rest hahead
    have hplain : ∀ c ∈ ahead.head?, c ∉ escapeChars := by
      intro c hhead hc
      obtain ⟨tail, rfl⟩ := List.head?_eq_some_iff.mp hhead
      exact hno ['\\', c] ⟨tail, rfl⟩ (.inl ⟨c, hc, rfl⟩)
    cases front with
    | cons c front =>
      have hc : c ≠ '\\' := by
        rintro rfl
        exact hplain '\\' (by simp [hahead]) (by decide)
      have hsame := trailingBackslashes_append_cons hc ['\\'] front
      exact stopsString_congr (congrArg (· % 2) hsame) quote rest
    | nil =>
      obtain rfl : ahead = rest := hahead
      cases ahead with
      | nil => exact iff_of_false (not_stopsString_nil _ _) (not_stopsString_nil _ _)
      | cons c rest =>
        have hpercent : c ≠ '%' := by
          rintro rfl
          exact hplain '%' rfl (by decide)
        by_cases hquote : c = quote
        · have hsingle : quote ≠ '"' := by
            rintro rfl
            exact hplain c rfl (by rw [hquote]; decide)
          have hcloses : ∀ front, ClosesString quote front (c :: rest) := by
            intro front
            exact ⟨⟨rest, by rw [hquote]; rfl⟩, fun hdouble => absurd hdouble hsingle⟩
          exact iff_of_true (.inl (hcloses _)) (.inl (hcloses _))
        · exact iff_of_false (not_stopsString_cons hquote hpercent _ _)
            (not_stopsString_cons hquote hpercent _ _)

theorem not_stopChar_of_isHexDigit {quote c : Char} (hform : quote = '"' ∨ quote = '\'')
    (h : Text.isHexDigit c = true) : c ≠ '\\' ∧ c ≠ quote ∧ c ≠ '%' := by
  refine ⟨?_, ?_, ?_⟩
  · rintro rfl
    simp [Text.isHexDigit] at h
  · rintro rfl
    rcases hform with rfl | rfl <;> simp [Text.isHexDigit] at h
  · rintro rfl
    simp [Text.isHexDigit] at h

theorem skips_escape {quote : Char} {text ahead : Text} (hform : quote = '"' ∨ quote = '\'')
    (h : IsEscape text) : Skips (StopsString quote) text ahead := by
  rcases h with ⟨c, hc, rfl⟩ | ⟨marker, digits, rfl, hcount, hdigits⟩
  · exact skips_charEscape hc hform ahead
  · have hmarker : marker = 'x' ∨ marker = 'u' ∨ marker = 'U' := by
      simp only [List.mem_cons, Prod.mk.injEq, List.not_mem_nil, or_false] at hcount
      exact hcount.imp And.left (Or.imp And.left And.left)
    have hplain : ∀ c ∈ marker :: digits, c ≠ '\\' ∧ c ≠ quote ∧ c ≠ '%' := by
      intro c hc
      rcases List.mem_cons.mp hc with rfl | hc
      · rcases hmarker with rfl | rfl | rfl <;> rcases hform with rfl | rfl <;> decide
      · exact not_stopChar_of_isHexDigit hform (hdigits c hc)
    refine skips_of_even ?_ ?_ fun c hc => (hplain c hc).2
    · exact not_stopsString_backslash hform _ _
    · rw [trailingBackslashes_eq_zero]
      intro c hc
      rw [List.getLast?_cons_cons] at hc
      exact (hplain c (List.mem_of_getLast? hc)).1

theorem skips_plain {quote : Char} {text ahead : Text} (hne : text ≠ [])
    (h : Runs (fun c => c != '\\' && c != quote && c != '%') text ahead) :
    Skips (StopsString quote) text ahead := by
  have hplain : ∀ c ∈ text, c ≠ '\\' ∧ c ≠ quote ∧ c ≠ '%' := by
    intro c hc
    simpa [and_assoc] using h.all c hc
  obtain ⟨first, tail, rfl⟩ := List.exists_cons_of_ne_nil hne
  obtain ⟨-, hquote, hpercent⟩ := hplain first List.mem_cons_self
  refine skips_of_even (not_stopsString_cons hquote hpercent _ _) ?_ ?_
  · rw [trailingBackslashes_eq_zero]
    intro c hc
    exact (hplain c (List.mem_of_getLast? hc)).1
  · intro c hc
    exact (hplain c (List.mem_cons_of_mem first hc)).2

theorem skips_percent {quote : Char} {ahead : Text} (hform : quote = '"' ∨ quote = '\'')
    (hno : ahead.head? ≠ some '(') : Skips (StopsString quote) ['%'] ahead := by
  refine skips_of_even ?_ rfl (by simp)
  rintro (⟨⟨rest, hquote⟩, -⟩ | ⟨⟨rest, hopen⟩, -⟩)
  · rw [List.singleton_append, List.singleton_append, List.cons.injEq] at hquote
    rcases hform with rfl | rfl <;> simp at hquote
  · obtain ⟨-, rfl⟩ := List.cons.inj hopen
    exact hno rfl

theorem skips_bodyPart {quote : Char} {text ahead : Text} (hform : quote = '"' ∨ quote = '\'')
    (hne : text ≠ []) (h : IsBodyPart quote text ahead) :
    Skips (StopsString quote) text ahead := by
  rcases h with hescape | hplain | ⟨rfl, hno⟩ | ⟨rfl, hno⟩
  · exact skips_escape hform hescape
  · exact skips_plain hne hplain
  · exact skips_backslash hform hno
  · exact skips_percent hform hno

end Grammar

namespace Classifier
open Grammar

/-- Everything a step in a string can do: it closes the string, it opens an
interpolation, or it reads on in the body. -/
theorem step_in_string {state after : Classifier} {token : Token} {quote : Char}
    {category : Category} (hform : state.mode.stringForm? = some (quote, category))
    (h : state.next? = some (token, after)) :
    (token = ⟨category, [quote]⟩ ∧ after = (state.advance token.text).act .pop) ∨
    (token = ⟨.stringInterpol, ['%', '(']⟩ ∧
      after = (state.advance token.text).act (.push .interpolation)) ∨
    (token.category ∈ [category, .stringEscape, .error] ∧ after = state.advance token.text ∧
      IsBodyPart quote token.text after.rest) := by
  obtain ⟨hrules, hreads, -⟩ := Mode.rules_of_stringForm? hform
  have hlabels := step_labels h
  rcases step_fits h with
    ⟨rule, hmem, -, hcategory, hfits, hafter⟩ | ⟨hnone, hcategory, ⟨c, htext, hrest⟩, hafter⟩
  · have htoken : ∀ text, token.text = text → token = ⟨rule.category, text⟩ := by
      rintro _ rfl
      rw [← hcategory]
    rw [hcategory] at hlabels ⊢
    rw [hrules] at hmem
    simp only [stringRules, List.mem_cons, List.not_mem_nil, or_false] at hmem
    rcases hmem with rfl | rfl | rfl | rfl | rfl | rfl | rfl
    · exact .inl ⟨htoken _ hfits, hafter⟩
    · exact .inr (.inr ⟨by simp [Rule.stay], hafter, .inl hlabels⟩)
    · exact .inr (.inr ⟨by simp [Rule.stay], hafter, .inl hlabels⟩)
    · exact .inr (.inr ⟨by simp [Rule.stay], hafter, .inl hlabels⟩)
    · exact .inr (.inr ⟨by simp [Rule.stay], hafter, .inl hlabels⟩)
    · exact .inr (.inl ⟨htoken _ hfits, hafter⟩)
    · exact .inr (.inr ⟨by simp [Rule.stay], hafter, .inr (.inl hfits)⟩)
  · refine .inr (.inr ⟨by simp [hcategory], hafter, .inr (.inr ?_)⟩)
    rcases (firstMatch?_eq_none_iff_of_readsString hreads hrest).mp hnone with
      ⟨rfl, hno⟩ | ⟨rfl, hno⟩
    · exact .inl ⟨htext, hno⟩
    · exact .inr ⟨htext, hno⟩

theorem readsBody_of_string {mode : Mode} {quote : Char} {category : Category}
    (hform : mode.stringForm? = some (quote, category)) :
    ReadsBody mode [category, .stringEscape, .error] (StopsString quote) where
  step := by
    rintro state token after rfl hnext hstop
    obtain ⟨-, -, -, hquote⟩ := Mode.rules_of_stringForm? hform
    obtain ⟨hne, hrest⟩ := step_text hnext
    rcases step_in_string hform hnext with ⟨rfl, -⟩ | ⟨rfl, -⟩ | ⟨hcategory, hafter, hbody⟩
    · exact absurd (.inl ⟨⟨_, hrest.symm⟩, fun _ => rfl⟩) hstop
    · exact absurd (.inr ⟨⟨_, hrest.symm⟩, rfl⟩) hstop
    · exact ⟨hcategory, by rw [hafter]; rfl, skips_bodyPart hquote hne hbody⟩
  ahead := not_stopsString_nil quote

/-- Where a string stops, the step is not one in its body. -/
theorem step_at_stringStop {state : Classifier} {quote : Char} {category : Category}
    (hform : state.mode.stringForm? = some (quote, category))
    (hstop : StopsString quote [] state.rest) :
    ([quote] <+: state.rest ∧ state.next? =
      some (⟨category, [quote]⟩, (state.advance [quote]).act .pop)) ∨
    (['%', '('] <+: state.rest ∧ state.next? =
      some (⟨.stringInterpol, ['%', '(']⟩,
        (state.advance ['%', '(']).act (.push .interpolation))) := by
  obtain ⟨-, -, -, hquote⟩ := Mode.rules_of_stringForm? hform
  obtain ⟨token, after, hnext, hno⟩ :=
    exists_step_at_stop (not_stopsString_nil quote []) hstop
  obtain ⟨hne, hrest⟩ := step_text hnext
  rcases step_in_string hform hnext with ⟨rfl, rfl⟩ | ⟨rfl, rfl⟩ | ⟨-, -, hbody⟩
  · exact .inl ⟨⟨_, hrest.symm⟩, hnext⟩
  · exact .inr ⟨⟨_, hrest.symm⟩, hnext⟩
  · exact absurd (skips_bodyPart hquote hne hbody) hno

theorem not_opens_of_quote {state : Classifier} {quote : Char} {category : Category}
    (hform : state.mode.stringForm? = some (quote, category)) (hquote : [quote] <+: state.rest) :
    ¬ ['%', '('] <+: state.rest := by
  obtain ⟨-, -, -, heither⟩ := Mode.rules_of_stringForm? hform
  obtain ⟨rest, hrest⟩ := hquote
  rintro ⟨rest', hrest'⟩
  obtain ⟨rfl, -⟩ := List.cons.inj (hrest'.trans hrest.symm)
  rcases heither with hpercent | hpercent <;> simp at hpercent

theorem step_closes {state : Classifier} {quote : Char} {category : Category}
    (hform : state.mode.stringForm? = some (quote, category)) (hquote : [quote] <+: state.rest) :
    state.next? = some (⟨category, [quote]⟩, (state.advance [quote]).act .pop) := by
  rcases step_at_stringStop hform (.inl ⟨hquote, fun _ => rfl⟩) with ⟨-, hnext⟩ | ⟨hopen, -⟩
  · exact hnext
  · exact absurd hopen (not_opens_of_quote hform hquote)

theorem step_interpolates {state : Classifier} {quote : Char} {category : Category}
    (hform : state.mode.stringForm? = some (quote, category)) (hopen : ['%', '('] <+: state.rest) :
    state.next? = some (⟨.stringInterpol, ['%', '(']⟩,
      (state.advance ['%', '(']).act (.push .interpolation)) := by
  rcases step_at_stringStop hform (.inr ⟨hopen, rfl⟩) with ⟨hquote, -⟩ | ⟨-, hnext⟩
  · exact absurd hopen (not_opens_of_quote hform hquote)
  · exact hnext

end Classifier

open Classifier Grammar in
/-- **Where a string ends.** The body of a string is read in one stretch, with the
modes as they are, to the first quote that closes it or the first `%(` that
interpolates it, and there the quote closes the string or the `%(` opens an
interpolation on it. If there is neither, the body goes on to the end of the source
and the string is never closed. -/
theorem string_reads_to_its_end (source : Text) (requests : Nat) (quote : Char)
    (category : Category) :
    let state := (ofText source).afterRequests requests
    state.mode.stringForm? = some (quote, category) →
      (∀ front ahead, FirstStop (StopsString quote) state.rest front ahead →
        ∃ count, let stop := state.afterRequests count
          Stretch [category, .stringEscape, .error] (·.modes = state.modes) state count ∧
          stop.offset = state.offset + Text.byteCount front ∧
          (ClosesString quote front ahead →
            stop.request.1 = some ⟨stop.offset, stop.offset + 1, category⟩ ∧
            stop.request.2.modes = state.modes.dropLast) ∧
          (OpensInterpolation front ahead →
            stop.request.1 = some ⟨stop.offset, stop.offset + 2, .stringInterpol⟩ ∧
            stop.request.2.modes = state.modes ++ [.interpolation])) ∧
      ((∀ front ahead, state.rest = front ++ ahead → ¬ StopsString quote front ahead) →
        ∃ count, let last := state.afterRequests count
          Stretch [category, .stringEscape, .error] (·.modes = state.modes) state count ∧
          last.request.1 = none ∧ last.mode = state.mode) := by
  intro state hform
  have hbody := readsBody_of_string hform
  obtain ⟨-, -, hroot, hquote⟩ := Mode.rules_of_stringForm? hform
  constructor
  · intro front ahead hfirst
    obtain ⟨count, hstretch, hoffset, hrest⟩ := hbody.to_stop rfl hfirst
    have hmodes := hstretch.states count (Nat.le_refl count)
    obtain ⟨hmode, henclosing⟩ := modes_inj hmodes
    refine ⟨count, hstretch, hoffset, ?_, ?_⟩
    · rintro ⟨hbegins, -⟩
      have hnext := step_closes (hmode ▸ hform) (hrest ▸ hbegins)
      have hnested := (afterRequests_spec (ofText source) requests).1.wellNested .bottom
      have habove : (state.afterRequests count).enclosing ≠ [] :=
        henclosing ▸ enclosing_ne_nil_of_wellNested hnested hroot
      rw [request_of_next?_eq_some hnext]
      refine ⟨by rcases hquote with rfl | rfl <;> rfl, ?_⟩
      rw [modes_pop _ habove, hmodes]
    · rintro ⟨hbegins, -⟩
      have hnext := step_interpolates (hmode ▸ hform) (hrest ▸ hbegins)
      rw [request_of_next?_eq_some hnext]
      refine ⟨rfl, ?_⟩
      rw [modes_push, hmodes]
  · intro hnone
    obtain ⟨count, hstretch, hend⟩ := hbody.to_end rfl hnone
    exact ⟨count, hstretch, hend, (modes_inj (hstretch.states count (Nat.le_refl count))).1⟩

open Classifier Grammar in
/-- The body passes over an escaped quote and a lone `%`, and two backslashes do not
keep the interpolation behind them from opening. -/
theorem string_reads_to_its_end_of_escapes :
    let state := (ofText "\"x\\\"%q\\\\%(y)\"".toList).afterRequests 1
    let front := "x\\\"%q\\\\".toList
    state.mode.stringForm? = some ('"', .stringDouble) ∧
    FirstStop (StopsString '"') state.rest front "%(y)\"".toList ∧
    OpensInterpolation front "%(y)\"".toList ∧
    ∃ count, let stop := state.afterRequests count
      Stretch [.stringDouble, .stringEscape, .error] (·.modes = state.modes) state count ∧
      stop.offset = state.offset + Text.byteCount front ∧
      stop.request.1 = some ⟨stop.offset, stop.offset + 2, .stringInterpol⟩ ∧
      stop.request.2.modes = state.modes ++ [.interpolation] := by
  intro state front
  have hform : state.mode.stringForm? = some ('"', .stringDouble) := by decide
  have hfirst : FirstStop (StopsString '"') state.rest front "%(y)\"".toList := by decide
  have hopens : OpensInterpolation front "%(y)\"".toList := by decide
  obtain ⟨count, hstretch, hoffset, -, hopened⟩ :=
    (string_reads_to_its_end _ 1 '"' .stringDouble hform).1 _ _ hfirst
  exact ⟨hform, hfirst, hopens, count, hstretch, hoffset, hopened hopens⟩

end WrenDocs
