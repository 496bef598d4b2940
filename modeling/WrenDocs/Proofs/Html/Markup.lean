import WrenDocs.Proofs.Html.Entity

/-! Markup read back: newlines, and elements of one class with no tags inside,
alone or in a block. What clean markup is written as is read as this markup, and
shows the texts of its parts when the tags are taken away. -/
namespace WrenDocs.Html

/-- What an element begins with, up to its class. -/
def spanOpening : Text := "<span class=\"".toList

/-- The end of a class and of the tag it stands in. -/
def classEnd : Text := "\">".toList

def spanClosing : Text := "</span>".toList

/-- A newline, or an element with its class and its text. -/
inductive Part where
  | newline
  | element (styleClass body : Text)
  deriving DecidableEq, Repr

namespace Part

/-- A part as markup. -/
def write : Part → Text
  | newline => ['\n']
  | element styleClass body => spanOpening ++ (styleClass ++ (classEnd ++ (body ++ spanClosing)))

/-- What a part shows. -/
def text : Part → Text
  | newline => ['\n']
  | element _ body => body

/-- Nothing in a class ends its tag, and the text of an element is one piece of a
line that holds no tag. -/
def IsClean : Part → Prop
  | newline => True
  | element styleClass body =>
    (∀ c ∈ styleClass, isMarkup c = false) ∧ body ≠ [] ∧
      (∀ c ∈ body, isMarkup c = false) ∧ '\n' ∉ body

/-- Both texts of an element changed. -/
def map (change : Text → Text) : Part → Part
  | newline => newline
  | element styleClass body => element (change styleClass) (change body)

end Part

/-- Parts, and the class of the block around them if there is one. -/
structure Markup where
  wrapper? : Option Text
  parts : List Part
  deriving DecidableEq, Repr

def blockOpening : Text := "<div class=\"".toList

/-- The end of the class of a block, and what opens its lines. -/
def blockInside : Text := "\"><pre>".toList

def blockClosing : Text := "</pre></div>\n".toList

namespace Markup

def write : Markup → Text
  | ⟨none, parts⟩ => parts.flatMap Part.write
  | ⟨some wrapper, parts⟩ =>
    blockOpening ++ (wrapper ++ (blockInside ++ (parts.flatMap Part.write ++ blockClosing)))

def IsClean (markup : Markup) : Prop :=
  (∀ wrapper ∈ markup.wrapper?, ∀ c ∈ wrapper, isMarkup c = false) ∧
    ∀ part ∈ markup.parts, part.IsClean

/-- All texts in the markup changed. -/
def map (change : Text → Text) (markup : Markup) : Markup :=
  ⟨markup.wrapper?.map change, markup.parts.map (Part.map change)⟩

end Markup

/-! ## Reading -/

/-- What follows a beginning of a text, if the text has it. -/
def after? (expected text : Text) : Option Text :=
  if expected.isPrefixOf text then some (text.drop expected.length) else none

/-- A text up to a character, and from there on. -/
def splitBefore (stop : Char) (text : Text) : Text × Text :=
  (text.takeWhile (· != stop), text.dropWhile (· != stop))

/-- The part at the front of a text, and the rest. A class goes up to the next
quote, the text of an element up to the next tag. -/
def part? (text : Text) : Option (Part × Text) :=
  if text.head? = some '\n' then some (.newline, text.tail)
  else do
    let (styleClass, inTag) := splitBefore '"' (← after? spanOpening text)
    let (body, atTag) := splitBefore '<' (← after? classEnd inTag)
    let rest ← after? spanClosing atTag
    return (.element styleClass body, rest)

/-- As many parts as follow one another, and the rest. -/
def parts (text : Text) : List Part × Text :=
  match part? text with
  | none => ([], text)
  | some (part, rest) =>
    if rest.length < text.length then
      let (found, last) := parts rest
      (part :: found, last)
    else ([], text)
termination_by text.length

/-- The markup that all of a text is. -/
def markup? (text : Text) : Option Markup :=
  match after? blockOpening text with
  | none =>
    let (found, rest) := parts text
    if rest = [] then some ⟨none, found⟩ else none
  | some inTag => do
    let (wrapper, inTag) := splitBefore '"' inTag
    let (found, rest) := parts (← after? blockInside inTag)
    if rest = blockClosing then some ⟨some wrapper, found⟩ else none

theorem after?_append (expected rest : Text) : after? expected (expected ++ rest) = some rest := by
  simp [after?]

theorem splitBefore_append {stop : Char} {text rest : Text} (htext : stop ∉ text)
    (hrest : rest.head? = some stop) : splitBefore stop (text ++ rest) = (text, rest) := by
  have hpass : ∀ c ∈ text, (c != stop) = true := fun c hc =>
    bne_iff_ne.mpr fun heq => htext (heq ▸ hc)
  obtain ⟨last, rfl⟩ := List.head?_eq_some_iff.mp hrest
  rw [splitBefore, List.takeWhile_append_of_pos hpass, List.dropWhile_append_of_pos hpass]
  simp

theorem not_mem_of_isMarkup {c : Char} {text : Text} (hc : isMarkup c = true)
    (htext : ∀ d ∈ text, isMarkup d = false) : c ∉ text := by
  intro hmem
  have hfalse := htext c hmem
  simp [hc] at hfalse

theorem part?_write {part : Part} (h : part.IsClean) (rest : Text) :
    part? (part.write ++ rest) = some (part, rest) := by
  cases part with
  | newline => rfl
  | element styleClass body =>
    obtain ⟨hclass, -, hbody, -⟩ := h
    have hopening (text : Text) : (spanOpening ++ text).head? = some '<' := by
      rw [List.head?_append, show spanOpening.head? = some '<' by decide, Option.some_or]
    have hclassEnd (text : Text) : (classEnd ++ text).head? = some '"' := by
      rw [List.head?_append, show classEnd.head? = some '"' by decide, Option.some_or]
    have hclosing (text : Text) : (spanClosing ++ text).head? = some '<' := by
      rw [List.head?_append, show spanClosing.head? = some '<' by decide, Option.some_or]
    have hquote : '"' ∉ styleClass := not_mem_of_isMarkup (by decide) hclass
    have htag : '<' ∉ body := not_mem_of_isMarkup (by decide) hbody
    simp only [part?, Part.write, List.append_assoc, hopening, after?_append, Option.bind_eq_bind,
      Option.bind_some, splitBefore_append hquote (hclassEnd _),
      splitBefore_append htag (hclosing _)]
    rfl

theorem write_ne_nil (part : Part) : part.write ≠ [] := by
  cases part with
  | newline => simp [Part.write]
  | element styleClass body => simp [Part.write, show spanOpening ≠ [] by decide]

/-- Clean parts are read as they were written, up to where no part stands. -/
theorem parts_write {written : List Part} (h : ∀ part ∈ written, part.IsClean) {rest : Text}
    (hrest : part? rest = none) : parts (written.flatMap Part.write ++ rest) = (written, rest) := by
  induction written with
  | nil =>
    rw [List.flatMap_nil, List.nil_append, parts]
    simp only [hrest]
  | cons part written ih =>
    obtain ⟨hpart, hwritten⟩ := List.forall_mem_cons.mp h
    have hshorter := List.length_pos_iff.mpr (write_ne_nil part)
    rw [List.flatMap_cons, List.append_assoc, parts]
    simp only [part?_write hpart, ih hwritten, List.length_append]
    rw [if_pos (by omega)]

theorem after?_blockOpening_write (written : List Part) :
    after? blockOpening (written.flatMap Part.write) = none := by
  have hdiffer (text : Text) : blockOpening.isPrefixOf (spanOpening ++ text) = false := by
    have hblock : blockOpening = '<' :: 'd' :: "iv class=\"".toList := by decide
    have hspan : spanOpening = '<' :: 's' :: "pan class=\"".toList := by decide
    rw [hblock, hspan]
    rfl
  rw [after?, if_neg]
  rw [Bool.not_eq_true]
  cases written with
  | nil => decide
  | cons part written =>
    cases part with
    | newline => rfl
    | element styleClass body =>
      rw [List.flatMap_cons, Part.write, List.append_assoc]
      exact hdiffer _

theorem markup?_write {markup : Markup} (h : markup.IsClean) :
    markup? markup.write = some markup := by
  obtain ⟨hwrapper, hparts⟩ := h
  obtain ⟨wrapper?, written⟩ := markup
  cases wrapper? with
  | none =>
    have hend : part? [] = none := by decide
    have hread := parts_write hparts hend
    rw [List.append_nil] at hread
    simp only [markup?, Markup.write, after?_blockOpening_write, hread, if_true]
  | some wrapper =>
    have hquote : '"' ∉ wrapper := not_mem_of_isMarkup (by decide) (hwrapper wrapper rfl)
    have hinside (text : Text) : (blockInside ++ text).head? = some '"' := by
      rw [List.head?_append, show blockInside.head? = some '"' by decide, Option.some_or]
    have hend : part? blockClosing = none := by decide
    simp only [markup?, Markup.write, after?_append, Option.bind_eq_bind, Option.bind_some,
      splitBefore_append hquote (hinside _), parts_write hparts hend, if_true]

/-! ## Tags taken away -/

/-- A text without its tags: what stands from `<` to `>`. -/
def withoutTags (inTag : Bool) : Text → Text
  | [] => []
  | c :: text =>
    if inTag then withoutTags (c != '>') text
    else if c = '<' then withoutTags true text
    else c :: withoutTags false text

theorem withoutTags_of_text {text : Text} (h : '<' ∉ text) (rest : Text) :
    withoutTags false (text ++ rest) = text ++ withoutTags false rest := by
  induction text with
  | nil => rfl
  | cons c text ih =>
    rw [List.mem_cons, not_or] at h
    simp [withoutTags, Ne.symm h.1, ih h.2]

/-- A tag runs to its first `>`. -/
theorem withoutTags_of_tag {inner : Text} (h : '>' ∉ inner) (rest : Text) :
    withoutTags false ('<' :: (inner ++ '>' :: rest)) = withoutTags false rest := by
  have hinside : withoutTags true (inner ++ '>' :: rest) = withoutTags false rest := by
    induction inner with
    | nil => rfl
    | cons c inner ih =>
      rw [List.mem_cons, not_or] at h
      rw [List.cons_append, withoutTags, if_pos rfl, bne_iff_ne.mpr (Ne.symm h.1), ih h.2]
  exact hinside

theorem withoutTags_of_classTag {name styleClass : Text} (hname : '>' ∉ name)
    (hclass : ∀ c ∈ styleClass, isMarkup c = false) (rest : Text) :
    withoutTags false ('<' :: (name ++ (styleClass ++ ('"' :: '>' :: rest)))) =
      withoutTags false rest := by
  have hinner : '>' ∉ name ++ (styleClass ++ ['"']) := by
    have hclass' : '>' ∉ styleClass := not_mem_of_isMarkup (by decide) hclass
    simp [hname, hclass']
  have htag := withoutTags_of_tag hinner rest
  rwa [List.append_assoc, List.append_assoc, List.singleton_append] at htag

theorem withoutTags_write {part : Part} (h : part.IsClean) (rest : Text) :
    withoutTags false (part.write ++ rest) = part.text ++ withoutTags false rest := by
  cases part with
  | newline => rfl
  | element styleClass body =>
    obtain ⟨hclass, -, hbody, -⟩ := h
    have hopening : spanOpening = '<' :: "span class=\"".toList := by decide
    have hclassEnd : classEnd = ['"', '>'] := by decide
    have hclosing : spanClosing = '<' :: ("/span".toList ++ ['>']) := by decide
    have hname : '>' ∉ "span class=\"".toList := by decide
    have hlast : '>' ∉ "/span".toList := by decide
    have hbody' : '<' ∉ body := not_mem_of_isMarkup (by decide) hbody
    simp only [Part.write, hopening, hclassEnd, hclosing, List.append_assoc, List.cons_append,
      List.nil_append]
    rw [withoutTags_of_classTag hname hclass, withoutTags_of_text hbody', withoutTags_of_tag hlast]
    rfl

theorem withoutTags_flatMap_write {written : List Part} (h : ∀ part ∈ written, part.IsClean)
    (rest : Text) : withoutTags false (written.flatMap Part.write ++ rest) =
      written.flatMap Part.text ++ withoutTags false rest := by
  induction written with
  | nil => rfl
  | cons part written ih =>
    obtain ⟨hpart, hwritten⟩ := List.forall_mem_cons.mp h
    rw [List.flatMap_cons, List.append_assoc, withoutTags_write hpart, ih hwritten,
      List.flatMap_cons, List.append_assoc]

/-- A block has its parts and a newline at the end to show. -/
theorem withoutTags_block {wrapper : Text} (hwrapper : ∀ c ∈ wrapper, isMarkup c = false)
    {written : List Part} (hparts : ∀ part ∈ written, part.IsClean) :
    withoutTags false (Markup.write ⟨some wrapper, written⟩) =
      written.flatMap Part.text ++ ['\n'] := by
  have hopening : blockOpening = '<' :: "div class=\"".toList := by decide
  have hinside : blockInside = '"' :: '>' :: '<' :: ("pre".toList ++ ['>']) := by decide
  have hname : '>' ∉ "div class=\"".toList := by decide
  have hpre : '>' ∉ "pre".toList := by decide
  have hclosing : withoutTags false blockClosing = ['\n'] := by decide
  simp only [Markup.write, hopening, hinside, List.append_assoc, List.cons_append, List.nil_append]
  rw [withoutTags_of_classTag hname hwrapper, withoutTags_of_tag hpre,
    withoutTags_flatMap_write hparts, hclosing]

end WrenDocs.Html
