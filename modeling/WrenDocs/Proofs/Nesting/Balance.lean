import WrenDocs.Highlighted
import WrenDocs.Proofs.Nesting.Plain

/-! A well-nested source comes back to where it began, whatever is open around it
and whatever comes after it. -/
namespace WrenDocs
open Classifier Grammar

namespace Nesting.Body

theorem print_unquoted {kind : Kind} {body : Body kind} {ahead : Text}
    (hkind : kind = .code ∨ kind = .string) (h : body.startsDouble = false)
    (hahead : ahead.head? ≠ some '"') : (body.print ++ ahead).head? ≠ some '"' := by
  cases body with
  | nil => exact hahead
  | piece text hpiece rest =>
    have hne := piece_ne_nil hpiece hkind
    have hhead := head?_ne_quote hpiece
    cases text with
    | nil => exact absurd rfl hne
    | cons c text => simpa [print] using hhead
  | enclosed bracket hstands body rest =>
    cases bracket with
    | double => simp [startsDouble] at h
    | parenthesis | single | braces | comment | paragraph | interpolation =>
      simp [print, Bracket.opening]

theorem print_of_isEmpty {kind : Kind} {body : Body kind} (h : body.isEmpty = true) :
    body.print = [] := by
  cases body with
  | nil => rfl
  | piece | enclosed => simp [isEmpty] at h

theorem isEmpty_of_print {kind : Kind} {body : Body kind} (hkind : kind = .code ∨ kind = .string)
    (h : body.print = []) : body.isEmpty = true := by
  cases body with
  | nil => rfl
  | piece text hpiece rest =>
    have hne := piece_ne_nil hpiece hkind
    simp [print, hne] at h
  | enclosed bracket hstands body rest => cases bracket <;> simp [print, Bracket.opening] at h

theorem startsDouble_of_string (pieces : Body .string) : pieces.startsDouble = false := by
  cases pieces with
  | nil | piece => rfl
  | enclosed bracket hstands =>
    cases bracket with
    | double => simp [Bracket.standsIn] at hstands
    | parenthesis | single | braces | comment | paragraph | interpolation => rfl

/-- A quote that opens a string is not the first of three: the second character is a
quote only after an empty string, and then the third is not. -/
theorem opening_not_raw {kind : Kind} {bracket : Bracket} {hstands : bracket.standsIn kind = true}
    {body : Body bracket.inner} {rest : Body kind} {ahead : Text}
    (h : (enclosed bracket hstands body rest).separated = true)
    (hahead : kind = .code → ahead.head? ≠ some '"') :
    ¬ tripleQuote <+:
      bracket.opening ++ (body.print ++ (bracket.closing ++ (rest.print ++ ahead))) := by
  rintro ⟨tail, htail⟩
  cases bracket with
  | parenthesis | single | braces | comment | paragraph | interpolation =>
    simp [Bracket.opening, tripleQuote] at htail
  | double =>
    obtain rfl : kind = .code := by simpa [Bracket.standsIn] using hstands
    by_cases hbody : body.isEmpty = true
    · have hnil : body.print = [] := print_of_isEmpty hbody
      have hrest : rest.startsDouble = false := by
        simp only [separated, hbody, Bool.and_eq_true] at h
        simpa using h.2
      have hunquoted := print_unquoted (.inl rfl) hrest (hahead rfl)
      rw [hnil] at htail
      have hthird := congrArg (List.head? ∘ List.drop 2) htail
      exact hunquoted hthird.symm
    · have hpieces := startsDouble_of_string body
      have hunquoted : (body.print ++ []).head? ≠ some '"' :=
        print_unquoted (.inr rfl) hpieces (by simp)
      rw [List.append_nil] at hunquoted
      cases hprint : body.print with
      | nil => exact hbody (isEmpty_of_print (.inr rfl) hprint)
      | cons c text =>
        have hsecond := congrArg (List.head? ∘ List.drop 1) htail
        rw [hprint] at hsecond hunquoted
        exact hunquoted hsecond.symm

/-- A body leads back to the stack that it began on, in any mode that reads its
kind. The plain text in front is what the pieces before it have left unread: a piece
joins it, for plain pieces run together, and a bracket ends it. -/
theorem leads {kind : Kind} (body : Body kind) (h : body.separated = true) {mode : Mode}
    (hmode : mode.kind = kind) (around : List Mode) {front ahead : Text}
    (hfront : Plain kind front) (hhalts : Halts mode ahead)
    (hahead : kind = .code → ahead.head? ≠ some '"') :
    Leads (mode, around) (front ++ body.print) ahead (mode, around) fun offset =>
      body.delimiters (offset + Text.byteCount front) := by
  induction body generalizing mode around front ahead with
  | nil =>
    subst hmode
    rw [print, List.append_nil]
    exact Leads.plain (passes_of_plain hfront hhalts) around
  | piece text hpiece rest ih =>
    have hrest := ih h hmode around (hfront.append (plain_of_isPiece hpiece)) hhalts hahead
    rw [List.append_assoc] at hrest
    apply hrest.mono
    intro offset
    rw [delimiters, Text.byteCount_append, Nat.add_assoc]
    exact List.Subset.refl _
  | enclosed bracket hstands body rest ihbody ihrest =>
    subst hmode
    have hraw := opening_not_raw h hahead
    simp only [separated, Bool.and_eq_true] at h
    have hstop : Halts mode
        (bracket.opening ++ body.print ++ bracket.closing ++ (rest.print ++ ahead)) := by
      rw [List.append_assoc, List.append_assoc]
      exact halts_of_delimiter (opening_mem_delimitersIn hstands) _
    have hplain := Leads.plain (passes_of_plain hfront hstop) around
    have hinner : Leads (bracket.mode, mode :: around) body.print
        (bracket.closing ++ (rest.print ++ ahead)) (bracket.mode, mode :: around)
        fun offset => body.delimiters offset :=
      ihbody h.1.1 bracket.kind_mode (mode :: around) .nil
        (halts_of_delimiter (closing_mem_delimitersIn bracket) _)
        (Bracket.closing_unquoted · _)
    have hbracket := Bracket.leads hstands hraw hinner
    have hrest : Leads (mode, around) rest.print ahead (mode, around)
        fun offset => rest.delimiters offset :=
      ihrest h.1.2 rfl around .nil hhalts hahead
    have hall := (hplain.append hbracket).append hrest
    rw [List.append_assoc front, List.append_assoc, List.append_assoc] at hall
    apply hall.mono
    intro offset
    simp [delimiters, spanAt, ← Nat.add_assoc]

end Nesting.Body

open Classifier Nesting in
/-- **Balance.** Well-nested code ends with the stack that it began with. None of
its spans is an error, the two delimiters of each of its brackets are spans with
the category of the bracket, and nothing is left open when it is highlighted. -/
theorem nested_returns_to_root (code : Body .code) (h : code.separated = true) :
    (ofText code.print).run.2.modes = [.root] ∧
    (∀ span ∈ classify code.print, span.category ≠ .error) ∧
    (∀ span ∈ code.delimiters 0, span ∈ classify code.print) ∧
    (highlight code.print).unterminated? = none := by
  have hhalts : Halts .root [] := fun _ _ rule _ => Pattern.haltsAt_nil rule.pattern
  have hleads := code.leads h rfl [] .nil hhalts (by simp)
  obtain ⟨tokens, last, hsteps, hlast, hend, hclean, hspans⟩ :=
    hleads (ofText code.print) rfl (List.append_nil _).symm
  have hrun : (ofText code.print).run = (tokens, last) := by
    rw [hsteps.run_eq, run_of_next?_eq_none (next?_eq_none_iff.mpr hend), List.append_nil]
  have hclassify : classify code.print = spansFrom 0 tokens := by
    rw [classify, WrenDocs.tokens, hrun]
  obtain ⟨hmode, henclosing⟩ := Prod.mk.inj hlast
  refine ⟨?_, ?_, ?_, ?_⟩
  · rw [hrun, modes, hmode, henclosing]
    rfl
  · intro span hspan
    rw [hclassify] at hspan
    obtain ⟨first, token, rest, rfl, rfl⟩ := mem_spansFrom.mp hspan
    exact hclean token (List.mem_append_right first List.mem_cons_self)
  · rw [hclassify]
    exact hspans
  · simp [highlight, hrun, depth, henclosing]

open Nesting in
theorem nested_returns_to_root_of_sample :
    ∃ code : Body .code,
      code.print = "(a + \"%(\x7b\x7bx\x7d\x7d)\"\"\" )/*/**/*/<p>\x7b\x7b''\x7d\x7dy</p>".toList ∧
      code.separated = true ∧ (highlight code.print).unterminated? = none := by
  let braces : Body .code := .enclosed .braces rfl (.piece ['x'] (by decide) .nil) .nil
  let double : Body .string := .enclosed .interpolation rfl braces .nil
  let comment : Body .comment := .enclosed .comment rfl .nil .nil
  let markup : Body .markup := .enclosed .braces rfl (.enclosed .single rfl .nil .nil)
    (.piece ['y'] (by decide) .nil)
  let inner : Body .code := .piece ['a'] (by decide) (.piece [' ', '+', ' '] (by decide)
    (.enclosed .double rfl double (.enclosed .double rfl .nil (.piece [' '] (by decide) .nil))))
  let code : Body .code := .enclosed .parenthesis rfl inner (.enclosed .comment rfl comment
    (.enclosed .paragraph rfl markup .nil))
  have hseparated : code.separated = true := by decide
  exact ⟨code, by decide, hseparated, (nested_returns_to_root code hseparated).2.2.2⟩

end WrenDocs
