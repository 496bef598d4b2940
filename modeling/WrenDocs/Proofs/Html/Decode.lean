import WrenDocs.Proofs.Html.Markup
import WrenDocs.Proofs.Coalescing
import WrenDocs.Proofs.Split

/-! Rendered spans read back. Whatever the source and the spans hold, the markup
is read as the pieces that the spans cover, line by line and each with its
class, so nothing of the source becomes markup. -/
namespace WrenDocs

/-- The texts of spans, one after the other, are the source. -/
def Spells (source : Text) (spans : List Span) : Prop :=
  spans.flatMap (Span.text · source) = source

theorem Text.IsBoundary.extend {front back : Text} {offset : Nat}
    (h : (front ++ back).IsBoundary offset) (hle : Text.byteCount front ≤ offset) :
    ∃ middle rest, back = middle ++ rest ∧ offset = Text.byteCount front + Text.byteCount middle := by
  obtain ⟨before, after, htext, rfl⟩ := h
  rcases List.append_eq_append_iff.mp htext with ⟨middle, rfl, hback⟩ | ⟨middle, rfl, -⟩
  · exact ⟨middle, after, hback, Text.byteCount_append front middle⟩
  · rw [Text.byteCount_append] at hle
    have hempty : middle = [] := by
      by_contra hne
      have hpos := Text.byteCount_pos hne
      omega
    exact ⟨[], back, rfl, by simp [hempty]⟩

/-- Spans that follow each other between characters, up to the end, spell out
what is ahead of the first. -/
theorem flatMap_text_of_tiles {front back : Text} {spans : List Span}
    (htiles : Tiles (Text.byteCount front) spans (Text.byteCount (front ++ back)))
    (hbounds : ∀ span ∈ spans, (front ++ back).IsBoundary span.stop) :
    spans.flatMap (Span.text · (front ++ back)) = back := by
  induction spans generalizing front back with
  | nil =>
    have hcount : Text.byteCount front = Text.byteCount (front ++ back) := htiles
    rw [Text.byteCount_append] at hcount
    by_contra hne
    have hpos := Text.byteCount_pos (Ne.symm hne)
    omega
  | cons span spans ih =>
    obtain ⟨hstart, hlt, htail⟩ := htiles
    obtain ⟨hstop, hrest⟩ := List.forall_mem_cons.mp hbounds
    obtain ⟨middle, rest, rfl, hmiddle⟩ := hstop.extend (by omega)
    rw [hmiddle, ← Text.byteCount_append, ← List.append_assoc] at htail
    rw [← List.append_assoc] at hrest
    have hspell := ih htail hrest
    have htext : span.text (front ++ (middle ++ rest)) = middle := by
      rw [Span.text, hstart, hmiddle, Text.slice?_byteCount, Option.getD_some]
    rw [List.append_assoc] at hspell
    rw [List.flatMap_cons, htext, hspell]

theorem spells_of_tiles {source : Text} {spans : List Span}
    (htiles : Tiles 0 spans (Text.byteCount source))
    (hbounds : ∀ span ∈ spans, source.IsBoundary span.start ∧ source.IsBoundary span.stop) :
    Spells source spans :=
  @flatMap_text_of_tiles [] _ _ htiles fun span hspan => (hbounds span hspan).2

theorem spells_highlight (source : Text) : Spells source (highlight source).spans := by
  have htiles := Classifier.tiles_classify source
  refine spells_of_tiles (Highlighted.tiles_coalesce htiles) fun span hspan => ?_
  exact Classifier.boundaries_of_mem_highlight hspan

namespace Html

/-! ## What spans show -/

/-- A piece of a line in an element, and nothing for an empty piece. -/
def pieceParts (styleClass piece : Text) : List Part :=
  if piece = [] then [] else [.element styleClass piece]

/-- The pieces of a text between its newlines, with the newlines in their places. -/
def textParts (styleClass text : Text) : List Part :=
  [Part.newline].intercalate ((Text.splitOn '\n' text).map (pieceParts styleClass))

/-- What the spans of a source show, span by span. -/
def spanParts (style : Style) (source : Text) (spans : List Span) : List Part :=
  spans.flatMap fun span =>
    textParts (style.classPrefix ++ span.category.styleClass.toList) (span.text source)

/-- What the spans of a source show, in a block unless the style is bare. -/
def shown (style : Style) (source : Text) (spans : List Span) : Markup :=
  ⟨if style.bare then none else some style.wrapperClass, spanParts style source spans⟩

theorem shown_of_bare {style : Style} (h : style.bare = true) (source : Text) (spans : List Span) :
    shown style source spans = ⟨none, spanParts style source spans⟩ := by
  rw [shown, h, if_pos rfl]

theorem shown_of_not_bare {style : Style} (h : style.bare = false) (source : Text)
    (spans : List Span) :
    shown style source spans = ⟨some style.wrapperClass, spanParts style source spans⟩ := by
  rw [shown, h, if_neg Bool.false_ne_true]

theorem mem_textParts {styleClass text : Text} {part : Part} (h : part ∈ textParts styleClass text) :
    part = .newline ∨ ∃ body, part = .element styleClass body ∧ body ≠ [] ∧ '\n' ∉ body := by
  rcases Text.mem_intercalate h with rfl | ⟨group, hgroup, hpart⟩
  · exact .inl rfl
  · obtain ⟨piece, hpiece, rfl⟩ := List.mem_map.mp hgroup
    rw [pieceParts] at hpart
    split at hpart
    · simp at hpart
    · rename_i hne
      rw [Text.splitOn_eq] at hpiece
      exact .inr ⟨piece, List.mem_singleton.mp hpart, hne, Text.not_mem_of_mem_splitOn hpiece⟩

/-- Every part is a newline, or has the class of a category and some of a line. -/
theorem mem_spanParts {style : Style} {source : Text} {spans : List Span} {part : Part}
    (h : part ∈ spanParts style source spans) :
    part = .newline ∨ ∃ category : Category, ∃ body,
      part = .element (style.classPrefix ++ category.styleClass.toList) body ∧
        body ≠ [] ∧ '\n' ∉ body := by
  obtain ⟨span, -, hspan⟩ := List.mem_flatMap.mp h
  rcases mem_textParts hspan with rfl | ⟨body, rfl, hne, hline⟩
  · exact .inl rfl
  · exact .inr ⟨span.category, body, rfl, hne, hline⟩

theorem isClean_escape {style : Style} {source : Text} {spans : List Span} {part : Part}
    (h : part ∈ spanParts style source spans) : (part.map escape).IsClean := by
  rcases mem_spanParts h with rfl | ⟨category, body, rfl, hne, hline⟩
  · trivial
  · exact ⟨fun c => isMarkup_of_mem_escape, escape_ne_nil hne, fun c => isMarkup_of_mem_escape,
      newline_not_mem_escape hline⟩

theorem unescape_map_escape (part : Part) : (part.map escape).map unescape = part := by
  cases part with
  | newline => rfl
  | element styleClass body => simp only [Part.map, unescape_escape]

theorem text_map_escape (part : Part) : (part.map escape).text = escape part.text := by
  cases part with
  | newline => decide
  | element styleClass body => rfl

theorem flatMap_text_textParts (styleClass text : Text) :
    (textParts styleClass text).flatMap Part.text = text := by
  have hpiece : (fun piece => (pieceParts styleClass piece).flatMap Part.text) = id := by
    funext piece
    rw [pieceParts]
    split <;> simp_all [Part.text]
  rw [textParts, Text.flatMap_intercalate, List.map_map, Function.comp_def, hpiece, List.map_id,
    Part.text, ← Text.joinWith_eq, Text.joinWith_splitOn]

theorem flatMap_text_spanParts (style : Style) (source : Text) (spans : List Span) :
    (spanParts style source spans).flatMap Part.text = spans.flatMap (Span.text · source) := by
  simp only [spanParts, List.flatMap_assoc, flatMap_text_textParts]

/-! ## What is written -/

theorem escape_styleClass (category : Category) :
    escape category.styleClass.toList = category.styleClass.toList := by
  cases category <;> decide

theorem piece_of_ne_nil (style : Style) (category : Category) {text : Text} (h : text ≠ []) :
    piece style category text = spanOpening ++ escape style.classPrefix ++
      category.styleClass.toList ++ classEnd ++ escape text ++ spanClosing := by
  cases text with
  | nil => exact absurd rfl h
  | cons c text => rfl

theorem piece_eq (style : Style) (category : Category) (text : Text) :
    piece style category text =
      (pieceParts (style.classPrefix ++ category.styleClass.toList) text).flatMap
        fun part => (part.map escape).write := by
  by_cases h : text = []
  · subst h
    rfl
  · rw [piece_of_ne_nil style category h, pieceParts, if_neg h, List.flatMap_singleton, Part.map,
      Part.write, escape_append, escape_styleClass]
    simp only [List.append_assoc]

theorem element_eq (style : Style) (category : Category) (text : Text) :
    element style category text =
      (textParts (style.classPrefix ++ category.styleClass.toList) text).flatMap
        fun part => (part.map escape).write := by
  rw [element, textParts, Text.flatMap_intercalate, List.map_map, Text.joinWith_eq]
  congr 1
  exact List.map_congr_left fun text _ => piece_eq style category text

theorem elements_eq (style : Style) (source : Text) (spans : List Span) :
    elements style source spans =
      ((spanParts style source spans).map (Part.map escape)).flatMap Part.write := by
  simp only [elements, element_eq, spanParts, List.flatMap_map, List.flatMap_assoc]

theorem render_of_not_bare {style : Style} (h : style.bare = false) (source : Text)
    (spans : List Span) : render style source spans = blockOpening ++ escape style.wrapperClass ++
      blockInside ++ elements style source spans ++ blockClosing := by
  rw [render, h]
  rfl

theorem render_eq (style : Style) (source : Text) (spans : List Span) :
    render style source spans = ((shown style source spans).map escape).write := by
  cases hbare : style.bare with
  | true =>
    rw [shown_of_bare hbare, render, if_pos hbare]
    exact elements_eq style source spans
  | false =>
    rw [shown_of_not_bare hbare, render_of_not_bare hbare, elements_eq]
    simp only [Markup.map, Option.map_some, Markup.write, List.append_assoc]

theorem isClean_shown (style : Style) (source : Text) (spans : List Span) :
    ((shown style source spans).map escape).IsClean := by
  refine ⟨fun wrapper hwrapper c hc => ?_, fun part hpart => ?_⟩
  · obtain ⟨original, -, rfl⟩ := Option.map_eq_some_iff.mp hwrapper
    exact isMarkup_of_mem_escape hc
  · obtain ⟨original, horiginal, rfl⟩ := List.mem_map.mp hpart
    exact isClean_escape horiginal

theorem unescape_map_shown (style : Style) (source : Text) (spans : List Span) :
    ((shown style source spans).map escape).map unescape = shown style source spans := by
  simp only [Markup.map, Option.map_map, List.map_map, Function.comp_def, unescape_escape,
    unescape_map_escape, Option.map_id', List.map_id']

/-! ## Tags taken away -/

theorem flatMap_text_map_escape (written : List Part) :
    (written.map (Part.map escape)).flatMap Part.text = escape (written.flatMap Part.text) := by
  simp only [List.flatMap_map, text_map_escape, escape, List.flatMap_assoc]

theorem unescape_withoutTags_write {written : List Part}
    (h : ∀ part ∈ written, (part.map escape).IsClean) :
    unescape (withoutTags false ((written.map (Part.map escape)).flatMap Part.write)) =
      written.flatMap Part.text := by
  have hclean : ∀ part ∈ written.map (Part.map escape), part.IsClean := List.forall_mem_map.mpr h
  have hplain := withoutTags_flatMap_write hclean []
  rw [List.append_nil, flatMap_text_map_escape] at hplain
  rw [hplain, unescape_escape_append]
  exact List.append_nil _

theorem unescape_withoutTags_render (style : Style) (source : Text) (spans : List Span) :
    unescape (withoutTags false (render style source spans)) =
      spans.flatMap (Span.text · source) ++ if style.bare then [] else ['\n'] := by
  rw [render_eq, ← flatMap_text_spanParts style]
  cases hbare : style.bare with
  | true =>
    rw [shown_of_bare hbare, if_pos rfl, List.append_nil]
    exact unescape_withoutTags_write fun part => isClean_escape
  | false =>
    have hclean := isClean_shown style source spans
    rw [shown_of_not_bare hbare] at hclean ⊢
    obtain ⟨hwrapper, hparts⟩ := hclean
    have hblock : withoutTags false
        (Markup.map escape ⟨some style.wrapperClass, spanParts style source spans⟩).write =
          escape ((spanParts style source spans).flatMap Part.text) ++ ['\n'] := by
      rw [← flatMap_text_map_escape]
      exact withoutTags_block (hwrapper _ rfl) hparts
    rw [hblock, unescape_escape_append]
    rfl

/-! ## Lines -/

theorem mem_of_mem_splitOn {part : Part} {line written : List Part}
    (hline : line ∈ written.splitOn .newline) (hpart : part ∈ line) : part ∈ written := by
  have hjoin : [Part.newline].intercalate (written.splitOn .newline) = written :=
    List.intercalate_splitOn Part.newline
  rw [← hjoin]
  exact Text.mem_intercalate_of_mem hline hpart

/-- Where only newlines are written with a newline, the lines of what is written
are what is written of the parts between newlines. -/
theorem splitOn_flatMap {write : Part → Text} {written : List Part} (hnewline : write .newline = ['\n'])
    (hwrite : ∀ part ∈ written, part ≠ .newline → '\n' ∉ write part) :
    Text.splitOn '\n' (written.flatMap write) =
      (written.splitOn .newline).map (·.flatMap write) := by
  have hjoined : written.flatMap write =
      ['\n'].intercalate ((written.splitOn .newline).map (·.flatMap write)) := by
    rw [← hnewline, ← Text.flatMap_intercalate, List.intercalate_splitOn]
  rw [Text.splitOn_eq, hjoined]
  refine List.splitOn_intercalate '\n' (fun line hline => ?_) (by simp)
  obtain ⟨group, hgroup, rfl⟩ := List.mem_map.mp hline
  intro hmem
  obtain ⟨part, hpart, hmem⟩ := List.mem_flatMap.mp hmem
  have hne : part ≠ .newline := by
    rintro rfl
    exact Text.not_mem_of_mem_splitOn hgroup hpart
  exact hwrite part (mem_of_mem_splitOn hgroup hpart) hne hmem

theorem newline_not_mem_write {styleClass body : Text} (hclass : '\n' ∉ styleClass)
    (hbody : '\n' ∉ body) : '\n' ∉ (Part.element styleClass body).write := by
  have hopening : '\n' ∉ spanOpening := by decide
  have hclassEnd : '\n' ∉ classEnd := by decide
  have hclosing : '\n' ∉ spanClosing := by decide
  simp only [Part.write, List.mem_append, hopening, hclass, hclassEnd, hbody, hclosing, or_self,
    not_false_eq_true]

theorem newline_not_mem_styleClass (category : Category) :
    '\n' ∉ category.styleClass.toList := by
  cases category <;> decide

/-- The lines of what the spans cover are the texts between newlines. -/
theorem splitOn_texts (style : Style) (source : Text) (spans : List Span) :
    Text.splitOn '\n' (spans.flatMap (Span.text · source)) =
      ((spanParts style source spans).splitOn .newline).map (·.flatMap Part.text) := by
  rw [← flatMap_text_spanParts style]
  refine splitOn_flatMap rfl fun part hpart hne => ?_
  rcases mem_spanParts hpart with rfl | ⟨category, body, rfl, -, hline⟩
  · exact absurd rfl hne
  · exact hline

/-- With a prefix of one line, the lines of the elements are the elements between
newlines. -/
theorem splitOn_elements {style : Style} (hclass : '\n' ∉ style.classPrefix) (source : Text)
    (spans : List Span) : Text.splitOn '\n' (elements style source spans) =
      ((spanParts style source spans).splitOn .newline).map
        fun line => (line.map (Part.map escape)).flatMap Part.write := by
  simp only [elements_eq, List.flatMap_map]
  refine splitOn_flatMap rfl fun part hpart hne => ?_
  rcases mem_spanParts hpart with rfl | ⟨category, body, rfl, -, hline⟩
  · exact absurd rfl hne
  · have hclass : '\n' ∉ style.classPrefix ++ category.styleClass.toList := by
      simp [hclass, newline_not_mem_styleClass category]
    exact newline_not_mem_write (newline_not_mem_escape hclass) (newline_not_mem_escape hline)

/-- With a prefix of one line, each line of the elements shows a line of what the
spans cover, and is made of elements. -/
theorem lines_elements {style : Style} (hclass : '\n' ∉ style.classPrefix) (source : Text)
    (spans : List Span) :
    (Text.splitOn '\n' (elements style source spans)).map
      (fun line => unescape (withoutTags false line)) =
        Text.splitOn '\n' (spans.flatMap (Span.text · source)) ∧
    ∀ line ∈ Text.splitOn '\n' (elements style source spans), ∃ found, Part.newline ∉ found ∧
      markup? line = some ⟨none, found⟩ := by
  rw [splitOn_elements hclass, splitOn_texts style]
  refine ⟨?_, fun written hwritten => ?_⟩
  · rw [List.map_map]
    refine List.map_congr_left fun line hline => ?_
    exact unescape_withoutTags_write fun part hpart => isClean_escape (mem_of_mem_splitOn hline hpart)
  · obtain ⟨line, hline, rfl⟩ := List.mem_map.mp hwritten
    refine ⟨line.map (Part.map escape), fun hmem => ?_, ?_⟩
    · obtain ⟨part, hpart, heq⟩ := List.mem_map.mp hmem
      cases part with
      | newline => exact Text.not_mem_of_mem_splitOn hline hpart
      | element styleClass body => simp [Part.map] at heq
    · refine @markup?_write ⟨none, line.map (Part.map escape)⟩ ⟨by simp, ?_⟩
      exact List.forall_mem_map.mpr fun part hpart => isClean_escape (mem_of_mem_splitOn hline hpart)

/-- **Rendering.** What is written is clean markup and is read as such; with its
entities undone it is what the spans show. So where the spans spell the source,
taking away tags and undoing entities gives the source, and without a block the
same holds line by line if the prefix of the classes has no newline. The spans of
a highlighted source spell it, and so do any that tile it between characters. -/
theorem render_reads_back (style : Style) (source : Text) (spans : List Span) :
    let html := render style source spans
    (∃ markup : Markup, markup.IsClean ∧ html = markup.write ∧ markup? html = some markup ∧
      markup.map unescape = shown style source spans) ∧
    (Spells source spans →
      unescape (withoutTags false html) = (source ++ if style.bare then [] else ['\n']) ∧
      (style.bare = true → '\n' ∉ style.classPrefix →
        (Text.splitOn '\n' html).map (fun line => unescape (withoutTags false line)) =
          Text.splitOn '\n' source ∧
        ∀ line ∈ Text.splitOn '\n' html, ∃ found, Part.newline ∉ found ∧
          markup? line = some ⟨none, found⟩)) ∧
    Spells source (highlight source).spans ∧
    (Tiles 0 spans (Text.byteCount source) →
      (∀ span ∈ spans, source.IsBoundary span.start ∧ source.IsBoundary span.stop) →
      Spells source spans) := by
  have hclean := isClean_shown style source spans
  refine ⟨⟨_, hclean, render_eq style source spans, ?_, unescape_map_shown style source spans⟩,
    fun hspells => ⟨?_, fun hbare hclass => ?_⟩, spells_highlight source, spells_of_tiles⟩
  · rw [render_eq]
    exact markup?_write hclean
  · rw [unescape_withoutTags_render, show spans.flatMap (Span.text · source) = source from hspells]
  · have hlines := lines_elements hclass source spans
    rw [show spans.flatMap (Span.text · source) = source from hspells] at hlines
    rw [render, if_pos hbare]
    exact hlines

end Html

end WrenDocs
