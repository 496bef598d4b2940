import WrenDocs.Proofs.Errors
import WrenDocs.Proofs.Stretch

/-! Where markup ends. Backslashes and angle brackets that begin no tag are errors
of one character, so the text between them is read in pieces; still the first tag or
double brace is found, wherever it stands. -/
namespace WrenDocs

namespace Grammar

/-- A place where a tag begins. -/
def BeginsTag (text : Text) : Prop :=
  ∃ tag, IsMarkupTag tag ∧ tag <+: text

/-- The place where markup stops, whatever stands before it. -/
def StopsMarkup (_ ahead : Text) : Prop :=
  BeginsTag ahead ∨ ['{', '{'] <+: ahead

theorem beginsTag_iff {text : Text} : BeginsTag text ↔ Lexeme.markupTag text ≠ [] := by
  constructor
  · rintro ⟨tag, htag, ahead, rfl⟩
    rw [Lexeme.markupTag_append ahead htag]
    obtain ⟨body, rfl, -⟩ := htag
    exact List.cons_ne_nil _ _
  · intro h
    obtain ⟨hfront, htag⟩ := Lexeme.markupTag_sound h
    exact ⟨Lexeme.markupTag text, htag, hfront⟩

instance (text : Text) : Decidable (BeginsTag text) :=
  decidable_of_iff _ beginsTag_iff.symm

instance (front ahead : Text) : Decidable (StopsMarkup front ahead) :=
  inferInstanceAs (Decidable (_ ∨ _))

/-- No two tags begin at one place. -/
theorem isMarkupTag_unique {tag tag' text : Text} (h : IsMarkupTag tag) (hfront : tag <+: text)
    (h' : IsMarkupTag tag') (hfront' : tag' <+: text) : tag = tag' := by
  obtain ⟨ahead, rfl⟩ := hfront
  obtain ⟨ahead', heq⟩ := hfront'
  rw [← Lexeme.markupTag_append ahead h, ← heq, Lexeme.markupTag_append ahead' h']

theorem head?_of_beginsTag {text : Text} (h : BeginsTag text) : text.head? = some '<' := by
  obtain ⟨_, ⟨body, rfl, -⟩, ahead, rfl⟩ := h
  rfl

theorem markupDelimiter_of_stops {front ahead : Text} (h : StopsMarkup front ahead) :
    MarkupDelimiter ahead := by
  rcases h with htag | hbrace
  · obtain ⟨tail, rfl⟩ := List.head?_eq_some_iff.mp (head?_of_beginsTag htag)
    exact .inr (.inl ⟨tail, rfl⟩)
  · exact .inr (.inr hbrace)

theorem not_stopsMarkup_nil (front : Text) : ¬ StopsMarkup front [] := by
  rintro (htag | hbrace)
  · simpa using head?_of_beginsTag htag
  · simp at hbrace

theorem skips_markupText {text ahead : Text} (h : StopsAt MarkupDelimiter text ahead) :
    Skips StopsMarkup text ahead where
  inside := by
    intro front back hsplit hback hstop
    exact h.free front back hsplit hback (markupDelimiter_of_stops hstop)
  behind := by
    intro front rest _
    exact Iff.rfl

theorem skips_markupError {c : Char} {ahead : Text}
    (h : c = '\\' ∨ c = '<' ∧ ¬ BeginsTag (c :: ahead)) : Skips StopsMarkup [c] ahead := by
  refine .single ?_ fun _ _ _ => Iff.rfl
  rintro (htag | ⟨tail, hbrace⟩)
  · rcases h with rfl | ⟨-, hno⟩
    · simpa using head?_of_beginsTag htag
    · exact hno htag
  · obtain ⟨rfl, -⟩ := List.cons.inj hbrace
    simp at h

end Grammar

namespace Classifier
open Grammar

/-- Everything a step in markup can do: a tag closes the markup, two braces open an
interpolation, and else the markup is read on. -/
theorem step_in_html {state after : Classifier} {token : Token} (hmode : state.mode = .html)
    (h : state.next? = some (token, after)) :
    (token.category = .other ∧ IsMarkupTag token.text ∧
      after = (state.advance token.text).act .pop) ∨
    (token = ⟨.stringInterpol, ['{', '{']⟩ ∧
      after = (state.advance token.text).act (.push .htmlInterpolation)) ∨
    (after = state.advance token.text ∧
      ((token.category = .other ∧ StopsAt MarkupDelimiter token.text after.rest) ∨
        token.category = .error ∧ Skips StopsMarkup token.text after.rest)) := by
  rcases step_fits h with
    ⟨rule, hmem, -, hcategory, hfits, hafter⟩ | ⟨hnone, hcategory, ⟨c, htext, hrest⟩, hafter⟩
  · rw [hmode] at hmem
    simp only [Mode.rules, Mode.ownRules, Mode.included?, htmlRules, Option.map_none,
      Option.getD_none, List.append_nil, List.mem_cons, List.not_mem_nil, or_false] at hmem
    rcases hmem with rfl | rfl | rfl
    · exact .inl ⟨hcategory, hfits, hafter⟩
    · have htext : token.text = ['{', '{'] := hfits
      refine .inr (.inl ⟨?_, hafter⟩)
      rw [← htext, ← show token.category = .stringInterpol from hcategory]
    · exact .inr (.inr ⟨hafter, .inl ⟨hcategory, hfits⟩⟩)
  · refine .inr (.inr ⟨hafter, .inr ⟨hcategory, ?_⟩⟩)
    rw [htext]
    apply skips_markupError
    refine ((firstMatch?_eq_none_iff_of_html hmode hrest).mp hnone).imp_right ?_
    rintro ⟨hopen, hno⟩
    refine ⟨hopen, ?_⟩
    rintro ⟨tag, htag, hfront⟩
    exact hno tag hfront htag

theorem readsBody_of_html : ReadsBody .html [.other, .error] StopsMarkup where
  step := by
    intro state token after hmode hnext hstop
    have hrest := (step_text hnext).2
    rcases step_in_html hmode hnext with
      ⟨-, htag, -⟩ | ⟨rfl, -⟩ | ⟨hafter, ⟨hcategory, htext⟩ | ⟨hcategory, herror⟩⟩
    · exact absurd (.inl ⟨_, htag, _, hrest.symm⟩) hstop
    · exact absurd (.inr ⟨_, hrest.symm⟩) hstop
    · exact ⟨by simp [hcategory], by rw [hafter]; rfl, skips_markupText htext⟩
    · exact ⟨by simp [hcategory], by rw [hafter]; rfl, herror⟩
  ahead := not_stopsMarkup_nil

/-- Where markup stops, the step is not one in its body. -/
theorem step_at_markupStop {state : Classifier} (hmode : state.mode = .html)
    (hstop : StopsMarkup [] state.rest) :
    (∃ tag, IsMarkupTag tag ∧ tag <+: state.rest ∧
      state.next? = some (⟨.other, tag⟩, (state.advance tag).act .pop)) ∨
    (['{', '{'] <+: state.rest ∧ state.next? = some (⟨.stringInterpol, ['{', '{']⟩,
      (state.advance ['{', '{']).act (.push .htmlInterpolation))) := by
  obtain ⟨token, after, hnext, hno⟩ := exists_step_at_stop (not_stopsMarkup_nil []) hstop
  have hrest := (step_text hnext).2
  rcases step_in_html hmode hnext with
    ⟨hcategory, htag, rfl⟩ | ⟨rfl, rfl⟩ | ⟨-, ⟨-, htext⟩ | ⟨-, herror⟩⟩
  · refine .inl ⟨token.text, htag, ⟨_, hrest.symm⟩, ?_⟩
    rw [hnext, ← hcategory]
  · exact .inr ⟨⟨_, hrest.symm⟩, hnext⟩
  · exact absurd (skips_markupText htext) hno
  · exact absurd herror hno

theorem step_tag {state : Classifier} {tag : Text} (hmode : state.mode = .html)
    (htag : IsMarkupTag tag) (hfront : tag <+: state.rest) :
    state.next? = some (⟨.other, tag⟩, (state.advance tag).act .pop) := by
  rcases step_at_markupStop hmode (.inl ⟨tag, htag, hfront⟩) with
    ⟨tag', htag', hfront', hnext⟩ | ⟨⟨tail, hbrace⟩, -⟩
  · rwa [isMarkupTag_unique htag hfront htag' hfront']
  · have hhead := head?_of_beginsTag ⟨tag, htag, hfront⟩
    rw [← hbrace] at hhead
    simp at hhead

theorem step_braces {state : Classifier} (hmode : state.mode = .html)
    (hfront : ['{', '{'] <+: state.rest) :
    state.next? = some (⟨.stringInterpol, ['{', '{']⟩,
      (state.advance ['{', '{']).act (.push .htmlInterpolation)) := by
  rcases step_at_markupStop hmode (.inr hfront) with ⟨tag, htag, hbegins, -⟩ | ⟨-, hnext⟩
  · have hhead := head?_of_beginsTag ⟨tag, htag, hbegins⟩
    obtain ⟨tail, hbrace⟩ := hfront
    rw [← hbrace] at hhead
    simp at hhead
  · exact hnext

/-- So many requests are answered with markup. The modes are left alone, and text
goes on to a backslash, a `<`, two braces or the end: one brace does not interrupt it. -/
structure ReadsMarkup (state : Classifier) (count : Nat) : Prop where
  stretch : Stretch [.other, .error] (·.modes = state.modes) state count
  unbroken : ∀ earlier < count, ∀ span, (state.afterRequests earlier).request.1 = some span →
    span.category = .other → let ahead := (state.afterRequests (earlier + 1)).rest
      ahead = [] ∨ MarkupDelimiter ahead

/-- Every step of the stretch stays in markup, since one that closes or opens something
would not keep the modes. -/
theorem readsMarkup_of_stretch {state : Classifier} {count : Nat} (hmode : state.mode = .html)
    (henclosing : state.enclosing ≠ [])
    (h : Stretch [.other, .error] (·.modes = state.modes) state count) :
    ReadsMarkup state count where
  stretch := h
  unbroken := by
    intro earlier hearlier span hspan hother
    have hmodes := h.states earlier (Nat.le_of_lt hearlier)
    have hkept := h.states (earlier + 1) hearlier
    obtain ⟨hsame, haround⟩ := modes_inj hmodes
    obtain ⟨token, after, hnext, rfl⟩ := next?_of_request hspan
    rw [afterRequests, request_of_next?_eq_some hnext] at hkept ⊢
    rcases step_in_html (hsame.trans hmode) hnext with
      ⟨-, -, hafter⟩ | ⟨rfl, -⟩ | ⟨-, ⟨-, htext⟩ | ⟨herror, -⟩⟩
    · have hclosed : after.modes = state.modes.dropLast := by
        rw [hafter, modes_pop _ (haround ▸ henclosing), hmodes]
      have hlength := congrArg List.length (hkept.symm.trans hclosed)
      simp [modes] at hlength
    · simp [spanAt] at hother
    · exact htext.stops
    · simp [spanAt, herror] at hother

end Classifier

open Classifier Grammar in
/-- **Where markup ends.** Markup is read in one stretch to the first tag or double
brace, and there the whole tag closes the markup or the braces open an interpolation
on it; what a tag holds is part of it, braces too. If there is neither, the markup
goes on to the end of the source and is never closed. -/
theorem markup_reads_to_its_end (source : Text) (requests : Nat) :
    let state := (ofText source).afterRequests requests
    state.mode = .html →
      (∀ front ahead, FirstStop StopsMarkup state.rest front ahead →
        ∃ count, let stop := state.afterRequests count
          ReadsMarkup state count ∧ stop.offset = state.offset + Text.byteCount front ∧
          (∀ tag, IsMarkupTag tag → tag <+: ahead →
            stop.request.1 = some ⟨stop.offset, stop.offset + Text.byteCount tag, .other⟩ ∧
            stop.request.2.modes = state.modes.dropLast) ∧
          (['{', '{'] <+: ahead →
            stop.request.1 = some ⟨stop.offset, stop.offset + 2, .stringInterpol⟩ ∧
            stop.request.2.modes = state.modes ++ [.htmlInterpolation])) ∧
      ((∀ front ahead, state.rest = front ++ ahead → ¬ StopsMarkup front ahead) →
        ∃ count, let last := state.afterRequests count
          ReadsMarkup state count ∧ last.request.1 = none ∧ last.mode = .html) := by
  intro state hmode
  have hnested := (afterRequests_spec (ofText source) requests).1.wellNested .bottom
  have henclosing : state.enclosing ≠ [] := by
    apply enclosing_ne_nil_of_wellNested hnested
    rw [show ((ofText source).afterRequests requests).mode = .html from hmode]
    decide
  constructor
  · intro front ahead hfirst
    obtain ⟨count, hstretch, hoffset, hrest⟩ := readsBody_of_html.to_stop hmode hfirst
    have hmodes := hstretch.states count (Nat.le_refl count)
    obtain ⟨hsame, haround⟩ := modes_inj hmodes
    refine ⟨count, readsMarkup_of_stretch hmode henclosing hstretch, hoffset, ?_, ?_⟩
    · intro tag htag hfront
      have hnext := step_tag (hsame.trans hmode) htag (hrest ▸ hfront)
      rw [request_of_next?_eq_some hnext]
      refine ⟨rfl, ?_⟩
      rw [modes_pop _ (haround ▸ henclosing), hmodes]
    · intro hfront
      have hnext := step_braces (hsame.trans hmode) (hrest ▸ hfront)
      rw [request_of_next?_eq_some hnext]
      refine ⟨rfl, ?_⟩
      rw [modes_push, hmodes]
  · intro hnone
    obtain ⟨count, hstretch, hend⟩ := readsBody_of_html.to_end hmode hnone
    refine ⟨count, readsMarkup_of_stretch hmode henclosing hstretch, hend, ?_⟩
    exact (modes_inj (hstretch.states count (Nat.le_refl count))).1.trans hmode

open Classifier Grammar in
/-- Lone braces, a backslash and the brackets of `<>` do not end the markup, and the
braces in the tag that does are part of it. -/
theorem markup_reads_to_its_end_of_errors :
    let state := (ofText "<p>a {b} \\ <> c<i {{x}}>".toList).afterRequests 1
    let front := "a {b} \\ <> c".toList
    state.mode = .html ∧ FirstStop StopsMarkup state.rest front "<i {{x}}>".toList ∧
    ∃ count, let stop := state.afterRequests count
      ReadsMarkup state count ∧ stop.offset = state.offset + Text.byteCount front ∧
      stop.request.1 = some ⟨stop.offset, stop.offset + 9, .other⟩ ∧
      stop.request.2.modes = state.modes.dropLast := by
  intro state front
  have hmode : state.mode = .html := by decide
  have hfirst : FirstStop StopsMarkup state.rest front "<i {{x}}>".toList := by decide
  have htag : IsMarkupTag "<i {{x}}>".toList := ⟨"i {{x}}".toList, by decide, by decide, by decide⟩
  obtain ⟨count, hreads, hoffset, hcloses, -⟩ :=
    (markup_reads_to_its_end _ 1 hmode).1 _ _ hfirst
  exact ⟨hmode, hfirst, count, hreads, hoffset, hcloses _ htag (List.prefix_refl _)⟩

end WrenDocs
