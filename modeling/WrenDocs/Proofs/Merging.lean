import Mathlib.Data.List.Chain
import WrenDocs.Highlighted
import WrenDocs.Proofs.Coverage

/-! Merging of neighbouring spans. The merged spans are the longest runs of spans
of one category: they tile what the spans tile, each byte keeps its category, and
no two neighbours are alike. -/
namespace WrenDocs

/-- The category of the span that covers a byte. -/
def categoryAt? (spans : List Span) (offset : Nat) : Option Category :=
  (spans.find? fun span => decide (span.start ≤ offset ∧ offset < span.stop)).map Span.category

/-- No span has the category of the one before it. -/
def Alternates (spans : List Span) : Prop :=
  spans.IsChain fun span next => span.category ≠ next.category

/-- One span in place of several that follow each other without a gap and have
its category. -/
def Span.Joins (whole : Span) (parts : List Span) : Prop :=
  parts ≠ [] ∧ Tiles whole.start parts whole.stop ∧ ∀ part ∈ parts, part.category = whole.category

/-- Spans cut into groups, with one span in place of each group. -/
inductive Regroups : List Span → List Span → Prop where
  | nil : Regroups [] []
  | group {parts rest merged : List Span} {whole : Span} :
      whole.Joins parts → Regroups rest merged → Regroups (parts ++ rest) (whole :: merged)

namespace Tiles

/-- Some span covers each byte between the ends. -/
theorem categoryAt?_isSome {start stop offset : Nat} {spans : List Span}
    (h : Tiles start spans stop) (hstart : start ≤ offset) (hstop : offset < stop) :
    (categoryAt? spans offset).isSome = true := by
  induction spans generalizing start with
  | nil =>
    obtain rfl : start = stop := h
    omega
  | cons span spans ih =>
    obtain ⟨rfl, hlt, htail⟩ := h
    by_cases hinside : offset < span.stop
    · simp [categoryAt?, hstart, hinside]
    · have hrest := ih htail (by omega)
      rwa [categoryAt?, List.find?_cons_of_neg (by simp [hinside])]

end Tiles

namespace Highlighted

/-- Merging puts a span in front of merged spans, or lets the first of them begin
where the span begins. -/
theorem coalesce_cons (span : Span) (spans : List Span) :
    coalesce (span :: spans) = span :: coalesce spans ∨
    ∃ next others, coalesce spans = next :: others ∧ span.category = next.category ∧
      span.stop = next.start ∧
      coalesce (span :: spans) = { next with start := span.start } :: others := by
  rw [coalesce]
  split
  · rename_i heq
    exact .inl (by rw [heq])
  · rename_i next others heq
    split
    · rename_i halike
      exact .inr ⟨next, others, heq, halike.1, halike.2, rfl⟩
    · exact .inl (by rw [heq])

theorem tiles_coalesce {start stop : Nat} {spans : List Span} (h : Tiles start spans stop) :
    Tiles start (coalesce spans) stop := by
  induction spans generalizing start with
  | nil => exact h
  | cons span spans ih =>
    obtain ⟨rfl, hlt, htail⟩ := h
    have hmerged := ih htail
    rcases coalesce_cons span spans with heq | ⟨next, others, hnext, -, -, heq⟩
    · rw [heq]
      exact ⟨rfl, hlt, hmerged⟩
    · rw [hnext] at hmerged
      obtain ⟨hstart, hnextlt, hothers⟩ := hmerged
      rw [heq]
      exact ⟨rfl, by dsimp only; omega, hothers⟩

theorem regroups_coalesce {start stop : Nat} {spans : List Span} (h : Tiles start spans stop) :
    Regroups spans (coalesce spans) := by
  induction spans generalizing start with
  | nil => exact .nil
  | cons span spans ih =>
    obtain ⟨rfl, hlt, htail⟩ := h
    have hgroups := ih htail
    rcases coalesce_cons span spans with heq | ⟨next, others, hnext, hcategory, hstop, heq⟩
    · rw [heq]
      have hsingle : span.Joins [span] := ⟨by simp, ⟨rfl, hlt, rfl⟩, by simp⟩
      exact .group hsingle hgroups
    · rw [hnext] at hgroups
      rw [heq]
      cases hgroups with
      | @group parts rest _ _ hjoins hrest =>
        obtain ⟨-, htiles, hparts⟩ := hjoins
        refine @Regroups.group (span :: parts) _ _ _ ⟨by simp, ⟨rfl, hlt, ?_⟩, ?_⟩ hrest
        · rw [hstop]
          exact htiles
        · intro part hpart
          rcases List.mem_cons.mp hpart with rfl | hpart
          · exact hcategory
          · exact hparts part hpart

theorem alternates_coalesce {start stop : Nat} {spans : List Span} (h : Tiles start spans stop) :
    Alternates (coalesce spans) := by
  induction spans generalizing start with
  | nil => exact List.IsChain.nil
  | cons span spans ih =>
    obtain ⟨rfl, -, htail⟩ := h
    have halternates := ih htail
    have htiles := tiles_coalesce htail
    rw [coalesce]
    split
    · exact List.IsChain.singleton span
    · rename_i next others hnext
      rw [hnext] at halternates htiles
      split
      · cases halternates with
        | singleton => exact List.IsChain.singleton _
        | cons_cons hne hothers => exact List.IsChain.cons_cons hne hothers
      · rename_i hunlike
        have hne : span.category ≠ next.category := fun hcategory =>
          hunlike ⟨hcategory, htiles.1.symm⟩
        exact List.IsChain.cons_cons hne halternates

/-- Where no neighbours are alike there is nothing to merge. -/
theorem coalesce_of_alternates {spans : List Span} (h : Alternates spans) :
    coalesce spans = spans := by
  induction spans with
  | nil => rfl
  | cons span spans ih =>
    rw [coalesce, ih (List.IsChain.tail h)]
    cases spans with
    | nil => rfl
    | cons next others =>
      have hne : span.category ≠ next.category := (List.isChain_cons_cons.mp h).1
      simp [hne]

/-- Merging changes the category of no byte: one in a widened span lies in the span in
front or in the span that it was, and those are of one category. -/
theorem categoryAt?_coalesce {start stop : Nat} {spans : List Span} (h : Tiles start spans stop)
    (offset : Nat) : categoryAt? (coalesce spans) offset = categoryAt? spans offset := by
  induction spans generalizing start with
  | nil => rfl
  | cons span spans ih =>
    obtain ⟨rfl, hlt, htail⟩ := h
    have hrest := ih htail
    rcases coalesce_cons span spans with heq | ⟨next, others, hnext, hcategory, hstop, heq⟩
    · rw [heq]
      simp only [categoryAt?, List.find?_cons] at hrest ⊢
      split
      · rfl
      · exact hrest
    · rw [hnext] at hrest
      have htiles := tiles_coalesce htail
      rw [hnext] at htiles
      have hnextlt : next.start < next.stop := htiles.2.1
      rw [heq]
      simp only [categoryAt?, List.find?_cons] at hrest ⊢
      by_cases hfront : span.start ≤ offset ∧ offset < span.stop
      · have hwide : span.start ≤ offset ∧ offset < next.stop := by omega
        simp [hfront, hwide, hcategory]
      · have hsame : (span.start ≤ offset ∧ offset < next.stop) ↔
            (next.start ≤ offset ∧ offset < next.stop) := by omega
        simp only [hfront, decide_false, hsame]
        rw [← hrest]
        split <;> rfl

theorem exists_category_coalesce (spans : List Span) (category : Category) :
    (∃ span ∈ coalesce spans, span.category = category) ↔
      ∃ span ∈ spans, span.category = category := by
  induction spans with
  | nil => rfl
  | cons span spans ih =>
    rcases coalesce_cons span spans with heq | ⟨next, others, hnext, hcategory, -, heq⟩
    · rw [heq, List.exists_mem_cons_iff, ih, List.exists_mem_cons_iff]
    · rw [hnext, List.exists_mem_cons_iff] at ih
      rw [heq, List.exists_mem_cons_iff, List.exists_mem_cons_iff, ← ih, hcategory, ← or_assoc,
        or_self]

/-- Merged spans begin where a span begins and end where one ends. -/
theorem ends_of_mem_coalesce {spans : List Span} {whole : Span} (h : whole ∈ coalesce spans) :
    (∃ span ∈ spans, span.start = whole.start) ∧ ∃ span ∈ spans, span.stop = whole.stop := by
  induction spans generalizing whole with
  | nil => simp [coalesce] at h
  | cons span spans ih =>
    have hlater {found : Span} (hfound : found ∈ coalesce spans) :
        (∃ other ∈ span :: spans, other.start = found.start) ∧
          ∃ other ∈ span :: spans, other.stop = found.stop := by
      obtain ⟨⟨first, hfirst, hstart⟩, last, hlast, hstop⟩ := ih hfound
      exact ⟨⟨first, List.mem_cons_of_mem span hfirst, hstart⟩,
        last, List.mem_cons_of_mem span hlast, hstop⟩
    rcases coalesce_cons span spans with heq | ⟨next, others, hnext, -, -, heq⟩
    · rw [heq] at h
      rcases List.mem_cons.mp h with rfl | h
      · exact ⟨⟨whole, by simp, rfl⟩, whole, by simp, rfl⟩
      · exact hlater h
    · rw [heq] at h
      rcases List.mem_cons.mp h with rfl | h
      · have hfirst : next ∈ coalesce spans := by simp [hnext]
        exact ⟨⟨span, by simp, rfl⟩, (hlater hfirst).2⟩
      · exact hlater (hnext ▸ List.mem_cons_of_mem _ h)

end Highlighted

end WrenDocs
