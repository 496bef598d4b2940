import WrenDocs.Proofs.Toml.Escape

/-! Strings on several lines read back: no run of quotes in them is long enough to
close them, and the newline that opens them is not part of them. -/
namespace WrenDocs.Toml
open Reader Setting

/-! ## Runs of quotes -/

/-- How many quotes a text begins with. -/
def leadingQuotes (quote : Char) (text : Text) : Nat :=
  (text.takeWhile (· == quote)).length

theorem leadingQuotes_cons (quote : Char) (text : Text) :
    leadingQuotes quote (quote :: text) = leadingQuotes quote text + 1 := by
  simp [leadingQuotes]

theorem leadingQuotes_of_ne {quote c : Char} (h : c ≠ quote) (text : Text) :
    leadingQuotes quote (c :: text) = 0 := by
  simp [leadingQuotes, h]

theorem leadingQuotes_of_head? {quote : Char} {text : Text} (h : text.head? ≠ some quote) :
    leadingQuotes quote text = 0 := by
  cases text with
  | nil => rfl
  | cons c text => exact leadingQuotes_of_ne (by simpa using h) text

theorem leadingQuotes_fence {quote : Char} {rest : Text} (h : rest.head? ≠ some quote) :
    leadingQuotes quote (fence quote ++ rest) = 3 := by
  have hrest := leadingQuotes_of_head? h
  simp [fence, List.replicate_succ, leadingQuotes_cons, hrest]

/-- Before a fence a text begins with its own quotes, or it is quotes only and
those of the fence come to them. -/
theorem leadingQuotes_append_fence {quote : Char} {rest : Text} (h : rest.head? ≠ some quote)
    (text : Text) : leadingQuotes quote (text ++ (fence quote ++ rest)) = leadingQuotes quote text ∨
      leadingQuotes quote (text ++ (fence quote ++ rest)) = leadingQuotes quote text + 3 := by
  induction text with
  | nil => exact .inr (leadingQuotes_fence h)
  | cons c text ih =>
    by_cases hc : c = quote
    · subst hc
      rw [List.cons_append, leadingQuotes_cons, leadingQuotes_cons]
      omega
    · rw [List.cons_append, leadingQuotes_of_ne hc, leadingQuotes_of_ne hc]
      exact .inl rfl

theorem leadingQuotes_le_longestRun (quote : Char) (text : Text) :
    leadingQuotes quote text ≤ longestRun quote text := by
  cases text with
  | nil => simp [leadingQuotes]
  | cons c text =>
    by_cases hc : c = quote
    · rw [longestRun, if_pos hc]
      exact Nat.le_max_left _ _
    · rw [leadingQuotes_of_ne hc]
      exact Nat.zero_le _

theorem longestRun_le_cons (quote c : Char) (text : Text) :
    longestRun quote text ≤ longestRun quote (c :: text) := by
  rw [longestRun]
  split
  · exact Nat.le_max_right _ _
  · exact Nat.le_refl _

/-- No more quotes stand in a row than are allowed. -/
theorem leadingQuotes_escapeText {run : Nat} (hrun : run ≤ 2) (text : Text) :
    leadingQuotes '"' (escapeText true 2 run text) + run ≤ 2 := by
  induction text generalizing run with
  | nil => simpa [escapeText, leadingQuotes] using hrun
  | cons c text ih =>
    by_cases hquote : c = '"'
    · subst hquote
      rw [escapeText_quote]
      split
      · rename_i hlt
        have hnext := @ih (run + 1) (by omega)
        rw [leadingQuotes_cons]
        omega
      · rw [leadingQuotes_of_ne (by decide)]
        omega
    · by_cases hnewline : c = '\n'
      · subst hnewline
        rw [escapeText_newline, if_pos rfl, List.singleton_append, leadingQuotes_of_ne (by decide)]
        omega
      · obtain ⟨first, tail, heq, hfirst, -⟩ := exists_escapeChar hquote hnewline
        rw [escapeText_other hquote hnewline, heq, List.cons_append, leadingQuotes_of_ne hfirst]
        omega

theorem closes_fence {quote : Char} {rest : Text} (h : rest.head? ≠ some quote) :
    closes quote (fence quote ++ rest) = true := by
  have hrun := leadingQuotes_fence h
  rw [leadingQuotes] at hrun
  simp [closes, hrun]

/-- One or two quotes before the end of a text, or before the fence, close
nothing. -/
theorem closes_quote {quote : Char} {text rest : Text} (hrest : rest.head? ≠ some quote)
    (htext : leadingQuotes quote text ≤ 1) :
    closes quote (quote :: (text ++ (fence quote ++ rest))) = false := by
  have hrun := leadingQuotes_cons quote (text ++ (fence quote ++ rest))
  rw [leadingQuotes] at hrun
  have hcases := leadingQuotes_append_fence hrest text
  simp only [closes, hrun, Bool.or_eq_false_iff, beq_eq_false_iff_ne, decide_eq_false_iff_not]
  omega

/-! ## Strings on several lines -/

theorem newline_of_ne {c : Char} (hnewline : c ≠ '\n') (hreturn : c ≠ '\r') (text : Text) :
    newline (c :: text) = none := by
  rw [newline.eq_def]
  split <;> simp_all

theorem multilineChar_plain {quote c : Char} (hquote : c ≠ quote) (hnewline : c ≠ '\n')
    (hcontrol : isControl c = false) (rest : Text) :
    multilineChar quote (c :: rest) = some ([c], rest) := by
  rw [multilineChar, newline_of_ne hnewline (ne_return_of_isControl hcontrol)]
  simp [hquote, hcontrol]

theorem multilineChar_quote {quote : Char} {rest : Text} (hplain : isControl quote = false)
    (hnewline : quote ≠ '\n') : multilineChar quote (quote :: rest) =
      if closes quote (quote :: rest) then none else some ([quote], rest) := by
  rw [multilineChar, newline_of_ne hnewline (ne_return_of_isControl hplain)]
  simp

theorem multilineChar_fence {quote : Char} {rest : Text} (hplain : isControl quote = false)
    (hnewline : quote ≠ '\n') (hrest : rest.head? ≠ some quote) :
    multilineChar quote (fence quote ++ rest) = none := by
  have hcloses := closes_fence hrest
  rw [fence, List.replicate_succ, List.cons_append] at hcloses ⊢
  rw [multilineChar_quote hplain hnewline, if_pos hcloses]

/-- The newline that opens a text with several lines is not part of it, and a text
of one line begins with none. -/
theorem body_openingNewline {text body : Text} (h : '\n' ∉ text → newline body = none) :
    ((newline (openingNewline text ++ body)).map Prod.snd).getD (openingNewline text ++ body) =
      body := by
  rw [openingNewline]
  split
  · rfl
  · rename_i hlines
    rw [List.nil_append, h (by simpa using hlines)]
    rfl

theorem multilineString_fence {quote : Char} {read : Reader Text} {text body rest : Text}
    (hbody : '\n' ∉ text → newline (body ++ (fence quote ++ rest)) = none)
    (htakes : Takes read (body ++ (fence quote ++ rest)) (text.map fun c => [c])
      (fence quote ++ rest)) (hend : read (fence quote ++ rest) = none) :
    multilineString quote read (fence quote ++ openingNewline text ++ body ++ fence quote ++ rest) =
      some (text, rest) := by
  have hmany := htakes.many_eq hend
  have hliteral (after : Text) : Reader.literal (List.replicate 3 quote) (fence quote ++ after) =
      some ((), after) := literal_append _ after
  have hflatten : (text.map fun c => [c]).flatten = text := by
    rw [← List.flatMap_def, List.flatMap_singleton']
  simp only [multilineString, List.append_assoc, hliteral, Option.bind_some,
    body_openingNewline hbody, hmany, Option.map_some, hflatten]

theorem multilineBasicChar_escapeChar {c : Char} (hquote : c ≠ '"') (hnewline : c ≠ '\n')
    (rest : Text) : multilineBasicChar (escapeChar c ++ rest) = some ([c], rest) := by
  rcases escapeChar_cases c with ⟨mark, text, heq, hink, hread⟩ | ⟨heq, hback, hcontrol⟩
  · simp only [isInk, Bool.and_eq_true, Bool.not_eq_true', bne_iff_ne] at hink
    obtain ⟨⟨hblank, hmark⟩, hreturn⟩ := hink
    have hskip : skipBlanks (mark :: text ++ rest) = mark :: text ++ rest := by
      simp [skipBlanks, hblank]
    rw [heq, List.cons_append, multilineBasicChar, hskip, List.cons_append,
      newline_of_ne hmark hreturn]
    exact map_of_some (hread rest)
  · rw [heq, List.singleton_append, multilineBasicChar]
    · exact multilineChar_plain hquote hnewline hcontrol rest
    · rintro tail ⟨⟩
      exact hback rfl

theorem multilineBasicChar_quote (rest : Text) :
    multilineBasicChar ('"' :: rest) = multilineChar '"' ('"' :: rest) := rfl

theorem takes_multilineBasicChar {run : Nat} (hrun : run ≤ 2) (text : Text) {rest : Text}
    (hrest : rest.head? ≠ some '"') :
    Takes multilineBasicChar (escapeText true 2 run text ++ (fence '"' ++ rest))
      (text.map fun c => [c]) (fence '"' ++ rest) := by
  induction text generalizing run with
  | nil => exact .refl _
  | cons c text ih =>
    by_cases hquote : c = '"'
    · subst hquote
      rw [escapeText_quote]
      split
      · rename_i hlt
        have hleading := @leadingQuotes_escapeText (run + 1) (by omega) text
        have hcloses := @closes_quote _ (escapeText true 2 (run + 1) text) _ hrest (by omega)
        refine .head ?_ (by simp) (@ih (run + 1) (by omega))
        rw [List.cons_append, multilineBasicChar_quote, multilineChar_quote rfl (by decide), hcloses]
        rfl
      · rw [List.cons_append, List.cons_append]
        exact .head rfl (by simp only [List.length_cons]; omega) (ih (Nat.zero_le 2))
    · by_cases hnewline : c = '\n'
      · subst hnewline
        rw [escapeText_newline, if_pos rfl]
        exact .head rfl (by simp) (ih (Nat.zero_le 2))
      · have hread := multilineBasicChar_escapeChar hquote hnewline
          (escapeText true 2 0 text ++ (fence '"' ++ rest))
        obtain ⟨first, tail, heq, -⟩ := exists_escapeChar hquote hnewline
        rw [escapeText_other hquote hnewline, List.append_assoc]
        refine .head hread ?_ (ih (Nat.zero_le 2))
        rw [heq, List.cons_append, List.length_cons, @List.length_append _ tail]
        omega

/-- Text without a newline does not begin with one when it is escaped. -/
theorem newline_escapeText {text : Text} (h : '\n' ∉ text) (rest : Text) :
    newline (escapeText true 2 0 text ++ (fence '"' ++ rest)) = none := by
  cases text with
  | nil => rfl
  | cons c text =>
    have hnewline : c ≠ '\n' := fun heq => h (by simp [heq])
    by_cases hquote : c = '"'
    · subst hquote
      rfl
    · obtain ⟨first, tail, heq, -, hfirst, hreturn⟩ := exists_escapeChar hquote hnewline
      rw [escapeText_other hquote hnewline, heq]
      exact newline_of_ne hfirst hreturn _

theorem multilineString_quoteIn_basic (text : Text) {rest : Text} (hrest : rest.head? ≠ some '"') :
    multilineString '"' multilineBasicChar (quoteIn .multilineBasic text ++ rest) =
      some (text, rest) := by
  have hend : multilineBasicChar (fence '"' ++ rest) = none :=
    @multilineChar_fence '"' _ rfl (by decide) hrest
  exact multilineString_fence (fun h => newline_escapeText h rest)
    (takes_multilineBasicChar (Nat.zero_le 2) text hrest) hend

theorem takes_multilineChar {text rest : Text} (hplain : ∀ c ∈ text, c = '\n' ∨ isControl c = false)
    (hrun : longestRun '\'' text ≤ 2) (hrest : rest.head? ≠ some '\'') :
    Takes (multilineChar '\'') (text ++ (fence '\'' ++ rest)) (text.map fun c => [c])
      (fence '\'' ++ rest) := by
  induction text with
  | nil => exact .refl _
  | cons c text ih =>
    obtain ⟨hc, htext⟩ := List.forall_mem_cons.mp hplain
    have htail := ih htext (Nat.le_trans (longestRun_le_cons '\'' c text) hrun)
    rw [List.cons_append]
    rcases hc with rfl | hcontrol
    · exact .head rfl (by simp) htail
    · have hnewline : c ≠ '\n' := by
        rintro rfl
        simp [isControl] at hcontrol
      by_cases hquote : c = '\''
      · subst hquote
        have hleading := leadingQuotes_le_longestRun '\'' ('\'' :: text)
        rw [leadingQuotes_cons] at hleading
        have hcloses := @closes_quote _ text _ hrest (by omega)
        refine .head ?_ (by simp) htail
        rw [multilineChar_quote rfl (by decide), hcloses]
        rfl
      · exact .head (multilineChar_plain hquote hnewline hcontrol _) (by simp) htail

theorem plain_of_any_needsEscape {text : Text} (h : text.any needsEscape = false) :
    ∀ c ∈ text, c = '\n' ∨ isControl c = false := by
  intro c hc
  have hplain := List.any_eq_false.mp h c hc
  by_cases hnewline : c = '\n'
  · exact .inl hnewline
  · exact .inr (by simpa [needsEscape, hnewline] using hplain)

theorem multilineString_quoteIn_literal {text : Text} (hcontrol : text.any needsEscape = false)
    (hrun : longestRun '\'' text ≤ 2) {rest : Text} (hrest : rest.head? ≠ some '\'') :
    multilineString '\'' (multilineChar '\'') (quoteIn .multilineLiteral text ++ rest) =
      some (text, rest) := by
  have hplain := plain_of_any_needsEscape hcontrol
  have hend : multilineChar '\'' (fence '\'' ++ rest) = none :=
    multilineChar_fence rfl (by decide) hrest
  refine multilineString_fence (fun h => ?_) (takes_multilineChar hplain hrun hrest) hend
  cases text with
  | nil => rfl
  | cons c text =>
    have hnewline : c ≠ '\n' := fun heq => h (by simp [heq])
    have hc := (hplain c List.mem_cons_self).resolve_left hnewline
    exact newline_of_ne hnewline (ne_return_of_isControl hc) _

end WrenDocs.Toml
