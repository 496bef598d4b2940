import WrenDocs.Proofs.Cursor
import WrenDocs.Proofs.Extent

/-! Where a run of text ends. The body of a comment and that of markup go on to the first
delimiter; a character that only might have begun one is passed, and the search goes on
right behind it. Places are counted in bytes. The delimiters are ASCII, so none is found
inside a longer character. -/
namespace WrenDocs

/-! ## Delimiters in bytes -/

namespace Text

/-- One of the delimiters stands in front of a text. -/
def BeginsWith (delimiters : List Text) (text : Text) : Prop :=
  ∃ delimiter ∈ delimiters, delimiter <+: text

/-- One of the delimiters begins at this byte of a text, wherever it ends. -/
def BeginsAt (delimiters : List Text) (text : Text) (place : Nat) : Prop :=
  ∃ delimiter ∈ delimiters, bytes delimiter <+: (bytes text).drop place

/-- The bytes where a run of text may end: where a delimiter begins, and behind the last
character. -/
def runEnds (delimiters : List Text) (text : Text) : Set Nat :=
  {place | BeginsAt delimiters text place ∨ place = byteCount text}

theorem bytes_cons_of_isAscii {c : Char} (hc : isAscii c = true) (text : Text) :
    bytes (c :: text) = c.toUInt8 :: bytes text := by
  rw [bytes_cons, utf8EncodeChar_of_isAscii hc, List.singleton_append]

/-- Where the byte of an ASCII character stands, that character does. -/
theorem exists_of_getElem?_bytes {c : Char} {text : Text} {place : Nat} (hc : isAscii c = true)
    (h : (bytes text)[place]? = some c.toUInt8) :
    ∃ front back, text = front ++ c :: back ∧ byteCount front = place := by
  induction text generalizing place with
  | nil => simp [bytes] at h
  | cons d text ih =>
    rw [bytes_cons, List.getElem?_append, String.length_utf8EncodeChar] at h
    split at h
    · obtain ⟨rfl, rfl⟩ := eq_of_getElem?_utf8EncodeChar hc h
      exact ⟨[], text, rfl, rfl⟩
    · obtain ⟨front, back, rfl, hplace⟩ := ih h
      refine ⟨d :: front, back, rfl, ?_⟩
      rw [byteCount_cons]
      omega

theorem bytes_prefix {word text : Text} (h : word <+: text) : bytes word <+: bytes text := by
  obtain ⟨ahead, rfl⟩ := h
  rw [bytes_append]
  exact List.prefix_append _ _

theorem prefix_of_bytes_prefix {word text : Text} (hword : ∀ c ∈ word, isAscii c = true)
    (h : bytes word <+: bytes text) : word <+: text := by
  induction word generalizing text with
  | nil => exact List.nil_prefix
  | cons c word ih =>
    obtain ⟨hc, hword⟩ := List.forall_mem_cons.mp hword
    rw [bytes_cons_of_isAscii hc] at h
    have hbyte := List.prefix_iff_getElem?.mp h 0 (Nat.zero_lt_succ _)
    obtain ⟨front, back, rfl, hfront⟩ := exists_of_getElem?_bytes hc hbyte
    obtain rfl : front = [] := by
      by_contra hne
      exact absurd hfront (Nat.ne_of_gt (byteCount_pos hne))
    rw [List.nil_append, bytes_cons_of_isAscii hc, List.prefix_cons_inj] at h
    exact (List.prefix_cons_inj c).mpr (ih hword h)

section Delimiters
variable {delimiters : List Text} {text : Text} {place : Nat}

/-- What stands in front of a text moves the places where delimiters begin. -/
theorem beginsAt_append (passed text : Text) (place : Nat) :
    BeginsAt delimiters (passed ++ text) (byteCount passed + place) ↔
      BeginsAt delimiters text place := by
  have hdrop : (bytes passed ++ bytes text).drop (byteCount passed + place) =
      (bytes text).drop place := by
    rw [← length_bytes, List.drop_length_add_append]
  rw [BeginsAt, BeginsAt, bytes_append, hdrop]

/-- If no delimiter begins in what was passed, a run ends where it ends from there. -/
theorem isLeast_runEnds_append {passed : Text}
    (hpassed : ∀ earlier < byteCount passed, ¬ BeginsAt delimiters (passed ++ text) earlier)
    (h : IsLeast (runEnds delimiters text) place) :
    IsLeast (runEnds delimiters (passed ++ text)) (byteCount passed + place) := by
  constructor
  · rcases h.1 with hbegins | rfl
    · exact .inl ((beginsAt_append passed text place).mpr hbegins)
    · exact .inr (byteCount_append passed text).symm
  · rintro other (hbegins | rfl)
    · have hbehind : byteCount passed ≤ other := by
        by_contra hlt
        exact hpassed other (Nat.lt_of_not_le hlt) hbegins
      obtain ⟨rest, rfl⟩ := Nat.exists_eq_add_of_le hbehind
      have hrest := h.2 (.inl ((beginsAt_append passed text rest).mp hbegins))
      omega
    · have hend := h.2 (.inr rfl)
      rw [byteCount_append]
      omega

variable (hascii : ∀ delimiter ∈ delimiters, delimiter ≠ [] ∧ delimiter.all isAscii = true)
include hascii

/-- Every byte where a delimiter begins is the first one of a character: its own first
byte is ASCII, so that byte is a whole character and the text can be cut before it. -/
theorem beginsAt_iff :
    BeginsAt delimiters text place ↔
      ∃ front back, text = front ++ back ∧ byteCount front = place ∧ BeginsWith delimiters back := by
  constructor
  · rintro ⟨delimiter, hmem, hbytes⟩
    obtain ⟨hne, hall⟩ := hascii delimiter hmem
    rw [List.all_eq_true] at hall
    obtain ⟨c, rest, rfl⟩ := List.exists_cons_of_ne_nil hne
    have hc := hall c List.mem_cons_self
    have hfirst := hbytes
    rw [bytes_cons_of_isAscii hc] at hfirst
    have hbyte := List.prefix_iff_getElem?.mp hfirst 0 (Nat.zero_lt_succ _)
    rw [List.getElem?_drop, Nat.add_zero] at hbyte
    obtain ⟨front, back, rfl, rfl⟩ := exists_of_getElem?_bytes hc hbyte
    rw [bytes_append, ← length_bytes, List.drop_left] at hbytes
    exact ⟨front, c :: back, rfl, rfl, _, hmem, prefix_of_bytes_prefix hall hbytes⟩
  · rintro ⟨front, back, rfl, rfl, delimiter, hmem, hfront⟩
    exact (beginsAt_append front back 0).mpr ⟨delimiter, hmem, bytes_prefix hfront⟩

/-- A text that stops at a delimiter, or with the source, stops where a run has to. -/
theorem isLeast_runEnds_of_stopsAt {ahead : Text}
    (h : Grammar.StopsAt (BeginsWith delimiters) text ahead) :
    IsLeast (runEnds delimiters (text ++ ahead)) (byteCount text) := by
  constructor
  · rcases h.stops with rfl | hstop
    · exact .inr (by rw [List.append_nil])
    · exact .inl ((beginsAt_iff hascii).mpr ⟨text, ahead, rfl, rfl, hstop⟩)
  · rintro place (hbegins | rfl)
    · obtain ⟨front, back, hsplit, rfl, hstop⟩ := (beginsAt_iff hascii).mp hbegins
      exact byteCount_mono (h.within hsplit hstop)
    · exact byteCount_mono (List.prefix_append text ahead)

end Delimiters

end Text

/-! ## Patterns that run to delimiters -/

/-- How far a pattern gets from a cursor. -/
def Cursor.reach (cursor : Cursor) (pattern : Pattern) : Nat :=
  (cursor.matchLength? pattern).getD 0

namespace Pattern
open Grammar Text

/-- A pattern that takes everything up to the first delimiter, or else up to the end of
the text, unless that is nothing. No delimiter begins in a match, also none that ends
behind it. And what no delimiter begins in may be passed: from behind it the pattern ends
at the same place, at once if a delimiter stands there. -/
structure RunsTo (pattern : Pattern) (delimiters : List Text) : Prop where
  ends : ∀ front text, ∃ stop, IsLeast (runEnds delimiters text) stop ∧
    (Cursor.mk (front ++ text) (byteCount front)).matchLength? pattern =
      if stop = 0 then none else some stop
  free : ∀ front text length,
    (Cursor.mk (front ++ text) (byteCount front)).matchLength? pattern = some length →
      ∀ place < length, ¬ BeginsAt delimiters text place
  resumes : ∀ front passed text,
    (∀ place < byteCount passed, ¬ BeginsAt delimiters (passed ++ text) place) →
      let cursor := Cursor.mk (front ++ (passed ++ text)) (byteCount front)
      cursor.reach pattern = byteCount passed + (cursor.advance (byteCount passed)).reach pattern

theorem byteLength?_eq (pattern : Pattern) (before : Option Char) (text : Text) :
    pattern.byteLength? before text =
      if byteCount (pattern.lexeme before text) = 0 then none
      else some (byteCount (pattern.lexeme before text)) := by
  by_cases hnil : pattern.lexeme before text = []
  · rw [byteLength?, lexeme?, hnil]
    rfl
  · have hpos := byteCount_pos hnil
    rw [byteLength?, lexeme?_eq_some_iff.mpr ⟨rfl, hnil⟩, if_neg (Nat.ne_of_gt hpos)]
    rfl

section RunsTo
variable {pattern : Pattern} {delimiters : List Text}
  (hascii : ∀ delimiter ∈ delimiters, delimiter ≠ [] ∧ delimiter.all isAscii = true)
  (hstops : ∀ before text, ∃ ahead, text = pattern.lexeme before text ++ ahead ∧
    StopsAt (BeginsWith delimiters) (pattern.lexeme before text) ahead)
include hascii hstops

theorem isLeast_runEnds_lexeme (before : Option Char) (text : Text) :
    IsLeast (runEnds delimiters text) (byteCount (pattern.lexeme before text)) := by
  obtain ⟨ahead, hahead, hstop⟩ := hstops before text
  have hleast := isLeast_runEnds_of_stopsAt hascii hstop
  rwa [← hahead] at hleast

theorem exists_runEnd (front text : Text) :
    ∃ stop, IsLeast (runEnds delimiters text) stop ∧
      (Cursor.mk (front ++ text) (byteCount front)).matchLength? pattern =
        if stop = 0 then none else some stop := by
  have hleast := isLeast_runEnds_lexeme hascii hstops
    (Cursor.mk (front ++ text) (byteCount front)).before? text
  refine ⟨_, hleast, ?_⟩
  rw [Cursor.matchLength?, Cursor.rest_append, byteLength?_eq]

theorem isLeast_runEnds_reach (front text : Text) :
    IsLeast (runEnds delimiters text)
      ((Cursor.mk (front ++ text) (byteCount front)).reach pattern) := by
  obtain ⟨stop, hstop, hmatch⟩ := exists_runEnd hascii hstops front text
  rw [Cursor.reach, hmatch]
  by_cases hzero : stop = 0
  · rwa [if_pos hzero, Option.getD_none, ← hzero]
  · rwa [if_neg hzero, Option.getD_some]

/-- A pattern whose lexemes stop at delimiters runs to them. -/
theorem runsTo_of_stopsAt : pattern.RunsTo delimiters := by
  refine ⟨exists_runEnd hascii hstops, ?_, ?_⟩
  · intro front text length hmatch place hplace hbegins
    have hleast := isLeast_runEnds_reach hascii hstops front text
    rw [Cursor.reach, hmatch, Option.getD_some] at hleast
    exact absurd (hleast.2 (.inl hbegins)) (Nat.not_le_of_lt hplace)
  · intro front passed text hpassed
    have hwhole := isLeast_runEnds_reach hascii hstops front (passed ++ text)
    have hrest := isLeast_runEnds_reach hascii hstops (front ++ passed) text
    rw [List.append_assoc, byteCount_append] at hrest
    exact hwhole.unique (isLeast_runEnds_append hpassed hrest)

end RunsTo

/-! ## Comments and markup -/

/-- What opens and what closes a block comment. -/
def commentDelimiters : List Text :=
  [['/', '*'], ['*', '/']]

/-- What interrupts markup. -/
def markupDelimiters : List Text :=
  [['\\'], ['<'], ['{', '{']]

theorem commentDelimiter_eq : CommentDelimiter = BeginsWith commentDelimiters := by
  funext text
  simp [CommentDelimiter, BeginsWith, commentDelimiters]

theorem markupDelimiter_eq : MarkupDelimiter = BeginsWith markupDelimiters := by
  funext text
  simp [MarkupDelimiter, BeginsWith, markupDelimiters]

/-- **Runs of text.** Comment text goes on to the first `/*` or `*/`, markup text to the
first backslash, `<` or `{{`, and both to the end of the text if there is none. A star, a
slash or a brace on its own interrupts neither, and hides no delimiter that begins at the
next byte. -/
theorem texts_run_to_delimiters :
    commentText.RunsTo commentDelimiters ∧ markupText.RunsTo markupDelimiters := by
  constructor
  · refine runsTo_of_stopsAt (by decide) fun before text => ?_
    rw [← commentDelimiter_eq]
    exact Lexeme.commentText_stops text
  · refine runsTo_of_stopsAt (by decide) fun before text => ?_
    rw [← markupDelimiter_eq]
    exact Lexeme.markupText_stops text

/-- A star right before the end of a comment is passed and the end is found, and so is a
tag right behind a brace. -/
theorem texts_run_to_delimiters_of_lone :
    let comment := Cursor.mk ['é', '*', '*', '/'] 0
    let markup := Cursor.mk ['{', '<'] 0
    comment.matchLength? commentText = some 3 ∧
      (∀ place < 3, ¬ BeginsAt commentDelimiters ['é', '*', '*', '/'] place) ∧
      comment.reach commentText = 3 + (comment.advance 3).reach commentText ∧
    markup.matchLength? markupText = some 1 ∧
      (∀ place < 1, ¬ BeginsAt markupDelimiters ['{', '<'] place) ∧
      markup.reach markupText = 1 + (markup.advance 1).reach markupText := by
  obtain ⟨hcomments, hmarkups⟩ := texts_run_to_delimiters
  have hcomment : (Cursor.mk ['é', '*', '*', '/'] 0).matchLength? commentText = some 3 := by decide
  have hmarkup : (Cursor.mk ['{', '<'] 0).matchLength? markupText = some 1 := by decide
  have hstar := hcomments.free [] _ 3 hcomment
  have hbrace := hmarkups.free [] _ 1 hmarkup
  exact ⟨hcomment, hstar, hcomments.resumes [] ['é', '*'] ['*', '/'] hstar,
    hmarkup, hbrace, hmarkups.resumes [] ['{'] ['<'] hbrace⟩

end Pattern

end WrenDocs
