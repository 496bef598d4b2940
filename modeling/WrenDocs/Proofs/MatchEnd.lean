import WrenDocs.Proofs.Remainder

/-! Where matches end. What a pattern takes lies in the text, from one boundary to
another. The exceptions are the escapes that ask for a NUL: past its end a text
reads as NUL, so where only a backslash is left they reach one byte beyond. No rule
has such an escape, so nothing leads the classifier beyond the end, whatever NULs
a source holds. -/
namespace WrenDocs

/-! ## Lexemes -/

namespace Lexeme

/-- What is taken lies in the text, or a backslash is all that is left of it. -/
theorem charEscape_within {set : List Char} {text : Text} (h : charEscape set text ≠ []) :
    charEscape set text <+: text ∨ text = ['\\'] := by
  unfold charEscape at h ⊢
  split at h
  · rename_i text
    cases text with
    | nil => exact .inr rfl
    | cons c text =>
      split at h <;> rename_i hc
      · rw [if_pos hc]
        exact .inl ⟨text, rfl⟩
      · exact absurd rfl h
  · exact absurd rfl h

/-- An escape by a NUL and no digit is an escape of NUL. -/
theorem hexEscape_pastEnd (text : Text) : hexEscape pastEnd 0 text = charEscape [pastEnd] text := by
  unfold hexEscape charEscape
  split
  · rename_i text
    cases text with
    | nil => rfl
    | cons c text =>
      by_cases hc : c = pastEnd
      · simp [hc]
      · simp [hc]
  · rfl

end Lexeme

namespace Pattern

theorem lexeme?_within {pattern : Pattern} {before : Option Char} {text lexeme : Text}
    (h : pattern.lexeme? before text = some lexeme) :
    lexeme <+: text ∨ text = ['\\'] ∧ pattern.readsPastEnd = true := by
  cases hend : pattern.readsPastEnd with
  | false =>
    obtain ⟨ahead, htext, -⟩ := lexeme?_sound h hend
    exact .inl ⟨ahead, htext.symm⟩
  | true =>
    obtain ⟨rfl, hne⟩ := lexeme?_eq_some_iff.mp h
    cases pattern with
    | charEscape set => exact (Lexeme.charEscape_within hne).imp_right (⟨·, rfl⟩)
    | hexEscape marker count =>
      obtain ⟨rfl, rfl⟩ : marker = Lexeme.pastEnd ∧ count = 0 := by
        simpa [readsPastEnd] using hend
      rw [Pattern.lexeme, Lexeme.hexEscape_pastEnd] at hne ⊢
      exact (Lexeme.charEscape_within hne).imp_right (⟨·, rfl⟩)
    | _ => simp [readsPastEnd] at hend

/-- At a backslash that ends the text, a pattern that may read past the end does. -/
theorem lexeme?_of_readsPastEnd {pattern : Pattern} (h : pattern.readsPastEnd = true)
    (before : Option Char) :
    pattern.lexeme? before ['\\'] = some ['\\', Lexeme.pastEnd] := by
  have hlexeme : pattern.lexeme before ['\\'] = ['\\', Lexeme.pastEnd] := by
    cases pattern with
    | charEscape set =>
      have hmem : Lexeme.pastEnd ∈ set := by simpa [readsPastEnd] using h
      simp [Pattern.lexeme, Lexeme.charEscape, hmem]
    | hexEscape marker count =>
      obtain ⟨rfl, rfl⟩ : marker = Lexeme.pastEnd ∧ count = 0 := by
        simpa [readsPastEnd] using h
      rfl
    | _ => simp [readsPastEnd] at h
  exact lexeme?_eq_some_iff.mpr ⟨hlexeme, by simp⟩

end Pattern

/-! ## Cursors -/

theorem Text.IsBoundary.le {text : Text} {offset : Nat} (h : text.IsBoundary offset) :
    offset ≤ Text.byteCount text := by
  obtain ⟨front, back, rfl, rfl⟩ := h
  rw [Text.byteCount_append]
  omega

namespace Cursor

/-- Only a backslash is left, and the pattern takes the end behind it for a NUL. -/
structure ReachesPastEnd (cursor : Cursor) (pattern : Pattern) : Prop where
  rest : cursor.rest = ['\\']
  readsPastEnd : pattern.readsPastEnd = true

/-- A match that lies in the source and ends between two of its characters. -/
structure Contains (cursor : Cursor) (length : Nat) : Prop where
  inside : cursor.position + length ≤ Text.byteCount cursor.source
  boundary : cursor.source.IsBoundary (cursor.position + length)

theorem rest_append (front back : Text) :
    (Cursor.mk (front ++ back) (Text.byteCount front)).rest = back := by
  rw [rest, Text.splitAtByte?_byteCount]
  rfl

/-- What stands at the front of the rest lies in the source. -/
theorem contains_of_prefix {cursor : Cursor} (h : cursor.source.IsBoundary cursor.position)
    {lexeme : Text} (hlexeme : lexeme <+: cursor.rest) :
    cursor.Contains (Text.byteCount lexeme) := by
  obtain ⟨source, position⟩ := cursor
  obtain ⟨front, back, rfl, rfl⟩ := h
  rw [rest_append] at hlexeme
  obtain ⟨ahead, rfl⟩ := hlexeme
  have hboundary : (front ++ (lexeme ++ ahead)).IsBoundary
      (Text.byteCount front + Text.byteCount lexeme) :=
    ⟨front ++ lexeme, ahead, (List.append_assoc ..).symm, Text.byteCount_append ..⟩
  exact ⟨hboundary.le, hboundary⟩

theorem reachesPastEnd_spec {cursor : Cursor} {pattern : Pattern}
    (hboundary : cursor.source.IsBoundary cursor.position) (h : cursor.ReachesPastEnd pattern) :
    cursor.matchLength? pattern = some 2 ∧
      cursor.position + 1 = Text.byteCount cursor.source := by
  obtain ⟨hrest, hpattern⟩ := h
  constructor
  · rw [matchLength?, Pattern.byteLength?, hrest, Pattern.lexeme?_of_readsPastEnd hpattern]
    rfl
  · obtain ⟨source, position⟩ := cursor
    obtain ⟨front, back, rfl, rfl⟩ := hboundary
    rw [rest_append] at hrest
    rw [hrest, Text.byteCount_append]
    rfl

/-- A match lies in the source, unless it reaches past the end. -/
theorem matchLength?_spec {cursor : Cursor} {pattern : Pattern} {length : Nat}
    (hboundary : cursor.source.IsBoundary cursor.position)
    (h : cursor.matchLength? pattern = some length) :
    1 ≤ length ∧ (cursor.Contains length ↔ ¬ cursor.ReachesPastEnd pattern) := by
  obtain ⟨lexeme, hlexeme, rfl⟩ := Option.map_eq_some_iff.mp h
  refine ⟨Text.byteCount_pos (Pattern.lexeme?_eq_some_iff.mp hlexeme).2, ?_, fun hinside => ?_⟩
  · intro hcontains hreaches
    obtain ⟨hlength, hend⟩ := reachesPastEnd_spec hboundary hreaches
    rw [h, Option.some_inj] at hlength
    have hle := hcontains.inside
    omega
  · rcases Pattern.lexeme?_within hlexeme with hfront | ⟨hrest, hpattern⟩
    · exact contains_of_prefix hboundary hfront
    · exact absurd ⟨hrest, hpattern⟩ hinside

end Cursor

open Classifier

/-- **Matches stay in the text.** From any boundary of any source, a pattern takes at
least one byte and ends at a boundary of the source, with one exception: where only a
backslash is left, an escape that asks for a NUL takes two bytes. No rule has such an
escape; so wherever requests lead the classifier it stands in the source, and so does
the end of whatever a rule of its mode may take from there. -/
theorem match_stays_inside :
    (∀ (cursor : Cursor) (pattern : Pattern), cursor.source.IsBoundary cursor.position →
      (∀ length, cursor.matchLength? pattern = some length →
        1 ≤ length ∧ (cursor.Contains length ↔ ¬ cursor.ReachesPastEnd pattern)) ∧
      (cursor.ReachesPastEnd pattern → cursor.matchLength? pattern = some 2 ∧
        cursor.position + 1 = Text.byteCount cursor.source)) ∧
    (∀ (mode : Mode), ∀ rule ∈ mode.rules, rule.pattern.readsPastEnd = false) ∧
    ∀ (source : Text) (count : Nat), let state := (ofText source).afterRequests count
      let cursor := Cursor.mk source state.offset
      cursor.Contains 0 ∧
      ∀ rule ∈ state.mode.rules, ∀ length,
        rule.pattern.byteLength? state.before state.rest = some length → cursor.Contains length := by
  refine ⟨fun cursor pattern hboundary => ⟨fun length => ?_, ?_⟩, ?_, ?_⟩
  · exact Cursor.matchLength?_spec hboundary
  · exact Cursor.reachesPastEnd_spec hboundary
  · exact fun mode rule => Pattern.readsPastEnd_of_mem_rules
  · intro source count state cursor
    have hstands : state.StandsAt cursor := standsAt_afterRequests source count
    refine ⟨⟨hstands.boundary.le, hstands.boundary⟩, fun rule hrule length hlength => ?_⟩
    have hpattern := Pattern.readsPastEnd_of_mem_rules hrule
    rw [hstands.before, hstands.rest] at hlength
    refine (Cursor.matchLength?_spec hstands.boundary hlength).2.mpr fun hreaches => ?_
    exact Bool.false_ne_true (hpattern.symm.trans hreaches.readsPastEnd)

/-- The same escape reaches past the end behind a NUL that is part of the source, and
stays in the source where the NUL is; and text in a string may be a NUL. -/
theorem match_stays_inside_of_nul :
    let state := (ofText ['"', '\x00']).afterRequests 1
    (Cursor.mk ['\x00', '\\'] 1).matchLength? (.charEscape ['n', '\x00']) = some 2 ∧
    (Cursor.mk ['\\', '\x00'] 0).Contains 2 ∧
    Rule.stay (.stringText '"') .stringDouble ∈ state.mode.rules ∧
    (Cursor.mk ['"', '\x00'] state.offset).Contains 1 := by
  intro state
  have hrule : Rule.stay (.stringText '"') .stringDouble ∈ state.mode.rules := by decide
  refine ⟨?_, ?_, hrule, ?_⟩
  · have hboundary : Text.IsBoundary ['\x00', '\\'] 1 := ⟨['\x00'], ['\\'], rfl, rfl⟩
    exact ((match_stays_inside.1 ⟨['\x00', '\\'], 1⟩ _ hboundary).2 ⟨by decide, by decide⟩).1
  · have hboundary : Text.IsBoundary ['\\', '\x00'] 0 := ⟨[], ['\\', '\x00'], rfl, rfl⟩
    have hmatch : (Cursor.mk ['\\', '\x00'] 0).matchLength? (.charEscape ['n', '\x00']) = some 2 := by
      decide
    refine ((match_stays_inside.1 _ _ hboundary).1 2 hmatch).2.mpr fun hreaches => ?_
    exact absurd hreaches.rest (by decide)
  · exact (match_stays_inside.2.2 ['"', '\x00'] 1).2 _ hrule 1 (by decide)

end WrenDocs
