import WrenDocs.Proofs.Command.Highlight
import WrenDocs.Proofs.FileTree
import WrenDocs.Proofs.Grammar
import WrenDocs.Proofs.Html.Markup
import WrenDocs.Proofs.Html.Replace
import WrenDocs.Proofs.Html.Slices

/-! The label of a file in HTML: a comment with the path in it, above what the file is
rendered as. A path may be any text, also one that looks like the end of a comment; the
comment ends where it is meant to all the same, and the path is read back from it. -/
namespace WrenDocs

/-- A text up to the first place where another begins, if it begins anywhere. -/
def Text.upToFirst? (stop : Text) : Text → Option Text
  | [] => if stop = [] then some [] else none
  | c :: text =>
    if stop.isPrefixOf (c :: text) then some [] else (upToFirst? stop text).map (c :: ·)

namespace RenderedFile
open Grammar

/-- What ends a comment. -/
def commentClosing : Text := "-->".toList

/-- A label up to where its comment ends. -/
def labelFront (path : Text) : Text :=
  "<!-- ".toList ++ Html.escape path ++ [' ']

/-- The path in the label at the front of a text: what stands between the blanks of a
comment that ends at the first place where a comment may end, with the entities undone. -/
def label? (text : Text) : Option Text := do
  let inside ← Html.after? "<!-- ".toList text
  let body ← Text.upToFirst? commentClosing inside
  return Html.replaceEntities body.dropLast

theorem upToFirst?_of_stopsAt {stop front ahead : Text} (hne : stop ≠ [])
    (h : StopsAt (stop <+: ·) front (stop ++ ahead)) :
    Text.upToFirst? stop (front ++ (stop ++ ahead)) = some front := by
  induction front with
  | nil =>
    obtain ⟨c, stop, rfl⟩ := List.exists_cons_of_ne_nil hne
    have hprefix : (c :: stop).isPrefixOf (c :: (stop ++ ahead)) = true :=
      List.isPrefixOf_iff_prefix.mpr ⟨ahead, rfl⟩
    rw [List.nil_append, List.cons_append, Text.upToFirst?, if_pos hprefix]
  | cons c front ih =>
    obtain ⟨hhere, hlater⟩ := h.tail
    have hhere' : ¬ stop.isPrefixOf (c :: (front ++ (stop ++ ahead))) = true :=
      fun hprefix => hhere (List.isPrefixOf_iff_prefix.mp hprefix)
    rw [List.cons_append, Text.upToFirst?, if_neg hhere', ih hlater]
    rfl

/-- Without a `>` in it, a text and a blank end no comment, not even together with the
first characters of what ends one behind them, for what ends a comment has no blank
in it. -/
theorem stopsAt_closing {text : Text} (h : '>' ∉ text) (ahead : Text) :
    StopsAt (commentClosing <+: ·) (text ++ [' ']) (commentClosing ++ ahead) := by
  refine ⟨?_, .inr (List.prefix_append commentClosing ahead)⟩
  intro front back hsplit hback hprefix
  obtain ⟨inner, last, rfl⟩ := (List.eq_nil_or_concat back).resolve_left hback
  rw [List.concat_eq_append, ← List.append_assoc] at hsplit
  obtain ⟨rfl, hlast⟩ := List.append_inj' hsplit rfl
  obtain rfl := List.singleton_inj.mp hlast
  rw [List.concat_eq_append, List.append_assoc] at hprefix
  rcases prefix_or_exists_cons hprefix with hinner | ⟨beyond, hover, -⟩
  · have hbracket : '>' ∈ commentClosing := by decide
    exact h (List.mem_append_right front (hinner.subset hbracket))
  · have hblank : ' ' ∈ commentClosing := by simp [hover]
    exact absurd hblank (by decide)

theorem labelFront_eq (path : Text) :
    labelFront path = "<!-- ".toList ++ (Html.escape path ++ [' ']) :=
  List.append_assoc ..

theorem html_eq (path source : Text) (highlighted : Highlighted) :
    html path source highlighted = labelFront path ++
      (commentClosing ++ '\n' :: Html.render .standard source highlighted.spans) := by
  have hend : " -->\n".toList = ' ' :: (commentClosing ++ ['\n']) := by decide
  have hunfold : html path source highlighted = "<!-- ".toList ++ Html.escape path ++
      " -->\n".toList ++ Html.render .standard source highlighted.spans := rfl
  rw [hunfold, hend, labelFront_eq]
  simp

theorem bracket_not_mem_escape (text : Text) : '>' ∉ Html.escape text := fun hmem =>
  absurd (Html.isMarkup_of_mem_escape hmem) (by decide)

/-- Nothing in a label ends its comment before the end. -/
theorem stopsAt_labelFront (path ahead : Text) :
    StopsAt (commentClosing <+: ·) (labelFront path) (commentClosing ++ ahead) := by
  apply stopsAt_closing
  rw [List.mem_append, not_or]
  exact ⟨by decide, bracket_not_mem_escape path⟩

/-- The path is read back from its label. -/
theorem label?_labelFront (path ahead : Text) :
    label? (labelFront path ++ (commentClosing ++ ahead)) = some path := by
  have hstops := stopsAt_closing (bracket_not_mem_escape path) ahead
  have hbody := upToFirst?_of_stopsAt (by decide) hstops
  rw [label?, labelFront_eq, List.append_assoc, Html.after?_append]
  simp only [Option.bind_eq_bind, Option.bind_some, hbody, List.dropLast_concat]
  rw [Html.replaceEntities_escape]
  rfl

theorem html_of_ofPath {files : FileSystem} {arguments : HighlightArguments} {config : Config}
    {path : Text} {file : RenderedFile} (hformat : arguments.format = .html)
    (h : ofPath files arguments config path = .ok file) :
    ∃ ahead, file.text = labelFront path ++ (commentClosing ++ ahead) := by
  cases hsource : files.readText path with
  | error cause =>
    rw [Command.ofPath_of_unreadable files arguments config hsource] at h
    cases h
  | ok source =>
    cases hhighlighter : highlighterFor arguments config path with
    | error cause =>
      rw [ofPath, hsource, hhighlighter] at h
      cases h
    | ok highlighter =>
      rw [Command.ofPath_of_readText files arguments config hsource hhighlighter] at h
      obtain rfl := Except.ok.inj h
      rw [ofSource, hformat]
      exact ⟨_, html_eq path source (highlighter.highlight source)⟩

/-- **Escaping is exact.** Written slice by slice, an escaped text is cut between its
characters only. It has none of the characters of markup, every `&` in it begins one of the
five entities, it is the text again when these are replaced one after the other, `&amp;`
last, and two texts are escaped together as each alone. So the label of a file in HTML is
closed by its own end and by nothing before it, and the path is read back from it. -/
theorem escape_is_exact (text : Text) :
    Html.escapeBySlices? text = some (Html.escape text) ∧
    (∀ c ∈ ['<', '>', '"', '\''], c ∉ Html.escape text) ∧
    (∀ front back, Html.escape text = front ++ '&' :: back →
      ∃ entity ∈ Html.entities, entity <+: '&' :: back) ∧
    Html.replaceEntities (Html.escape text) = text ∧
    (∀ other, Html.escape (text ++ other) = Html.escape text ++ Html.escape other) ∧
    ∀ (files : FileSystem) (arguments : HighlightArguments) (config : Config) (path : Text)
      (file : RenderedFile), arguments.format = .html →
      ofPath files arguments config path = .ok file →
      (∃ ahead, file.text = labelFront path ++ (commentClosing ++ ahead) ∧
        StopsAt (commentClosing <+: ·) (labelFront path) (commentClosing ++ ahead)) ∧
      label? file.text = some path := by
  refine ⟨Html.escapeBySlices?_eq text, ?_, fun front back => Html.exists_entity_of_ampersand,
    Html.replaceEntities_escape text, Html.escape_append text, ?_⟩
  · intro c hc hmem
    have hall : ['<', '>', '"', '\''].all Html.isMarkup = true := by decide
    have hmarkup := List.all_eq_true.mp hall c hc
    rw [Html.isMarkup_of_mem_escape hmem] at hmarkup
    exact Bool.false_ne_true hmarkup
  · intro files arguments config path file hformat hfile
    obtain ⟨ahead, hahead⟩ := html_of_ofPath hformat hfile
    refine ⟨⟨ahead, hahead, stopsAt_labelFront path ahead⟩, ?_⟩
    rw [hahead, label?_labelFront]

/-- An entity that is escaped once more, and a path that ends a comment and holds an entity. -/
theorem escape_is_exact_of_closing :
    let files : FileSystem := ⟨fun _ => .ok (.file "é".toUTF8)⟩
    let arguments := { HighlightArguments.initial with language? := some "wren".toList }
    let path := "-->&lt;.wren".toList
    Html.escape "&lt;".toList = "&amp;".toList ++ "lt;".toList ∧
    (∃ entity ∈ Html.entities, entity <+: "&amp;lt;".toList) ∧
    '>' ∈ ['<', '>', '"', '\''] ∧ '>' ∉ Html.escape path ∧
    arguments.format = .html ∧
    ∃ file, ofPath files arguments .published path = .ok file ∧ label? file.text = some path := by
  intro files arguments path
  have hsource : files.readText path = .ok "é".toList := Entry.readText_toUTF8 "é"
  have hlanguage : Registry.builtin.find? "wren".toList = some .wren := by decide
  have hhighlighter : highlighterFor arguments .published path = .ok ⟨some .wren⟩ := by
    change Highlighter.forLanguage "wren".toList false = _
    rw [Highlighter.forLanguage, hlanguage]
  have hfile := Command.ofPath_of_readText files arguments .published hsource hhighlighter
  have hescape : Html.escape "&lt;".toList = [] ++ '&' :: "amp;lt;".toList := by decide
  have hbracket : '>' ∈ ['<', '>', '"', '\''] := by decide
  refine ⟨hescape, (escape_is_exact "&lt;".toList).2.2.1 _ _ hescape, hbracket,
    (escape_is_exact path).2.1 _ hbracket, rfl, _, hfile, ?_⟩
  exact ((escape_is_exact path).2.2.2.2.2 files arguments .published path _ rfl hfile).2

end RenderedFile

end WrenDocs
