import WrenDocs.Command.Run
import WrenDocs.Proofs.Coverage
import WrenDocs.Proofs.FileTree
import WrenDocs.Proofs.Reading
import WrenDocs.Proofs.Split

/-! Listings read back. Each line of a listing is read, on its own and in one way, as
the span that it lists and the text that the span covers, whichever characters are
written by their code points; and a listing has as many lines as there are spans. -/
namespace WrenDocs.Listing
open Toml (Reader)
open Toml.Reader

/-! ## Reading a line -/

/-- A character by its code point, in hexadecimal digits between braces. -/
def bracedCode : Reader Char
  | '{' :: text =>
    let digits := text.takeWhile Text.isHexDigit
    match text.drop digits.length with
    | '}' :: rest =>
      if digits ≠ [] ∧ (Reading.hexNumber digits).isValidChar then
        some (Char.ofNat (Reading.hexNumber digits), rest)
      else none
    | _ => none
  | _ => none

/-- What a backslash stands for, with what follows it. -/
def escaped : Reader Char
  | '"' :: text => some ('"', text)
  | '\\' :: text => some ('\\', text)
  | 'n' :: text => some ('\n', text)
  | 'r' :: text => some ('\r', text)
  | 't' :: text => some ('\t', text)
  | '0' :: text => some ('\x00', text)
  | 'u' :: text => bracedCode text
  | _ => none

/-- A category by its dotted name, which ends with the next blank. -/
def category : Reader Category := fun text =>
  let name := text.takeWhile (· != ' ')
  (Category.ofDottedName? (String.ofList name)).map (·, text.drop name.length)

/-- What a line of a listing tells. -/
structure Entry where
  span : Span
  /-- What the span covers. -/
  text : Text
  deriving DecidableEq, Repr

def entry : Reader Entry := fun line => do
  let (_, line) ← literal "  ".toList line
  let (category, line) ← category line
  let (_, line) ← literal " @ ".toList line
  let (start, line) ← Reading.natural line
  let (_, line) ← literal "..".toList line
  let (stop, line) ← Reading.natural line
  let (_, line) ← literal " ".toList line
  let (text, line) ← Reading.quoted escaped (fun _ => false) line
  return (⟨⟨start, stop, category⟩, text⟩, line)

/-- The entry that a line is, if it is one. -/
def entryOf? (line : Text) : Option Entry :=
  match entry line with
  | some (entry, []) => some entry
  | _ => none

/-! ## Quoted texts -/

theorem bracedCode_toDigits (c : Char) (rest : Text) :
    bracedCode ('{' :: (Nat.toDigits 16 c.toNat ++ '}' :: rest)) = some (c, rest) := by
  have hruns : Grammar.Runs Text.isHexDigit (Nat.toDigits 16 c.toNat) ('}' :: rest) :=
    ⟨fun d => Reading.isHexDigit_of_mem_toDigits, by simp; decide⟩
  have hvalid : c.toNat.isValidChar := c.valid
  simp only [bracedCode, hruns.takeWhile_append, List.drop_left, Reading.hexNumber_toDigits,
    ne_eq, Nat.toDigits_ne_nil, not_false_eq_true, hvalid, and_self, if_true, Char.ofNat_toNat]

theorem escapes_quoteChar (hidden : Char → Bool) :
    Reading.Escapes (Text.quoteChar hidden) escaped fun _ => false := by
  intro c
  rw [Text.quoteChar.eq_def]
  split
  case h_7 hquote hback hnewline _ _ _ =>
    split
    · refine .inl ⟨'u' :: '{' :: (Nat.toDigits 16 c.toNat ++ ['}']), rfl, ?_, fun rest => ?_⟩
      · have hdigits : '\n' ∉ Nat.toDigits 16 c.toNat := fun hmem =>
          absurd (Reading.isHexDigit_of_mem_toDigits hmem) (by decide)
        simp [hdigits]
      · have hcode := bracedCode_toDigits c rest
        simpa [escaped] using hcode
    · exact .inr ⟨rfl, hback, hquote, hnewline, rfl⟩
  all_goals exact .inl ⟨_, rfl, by decide, fun rest => rfl⟩

/-! ## Lines -/

/-- The line of a span, without its newline. -/
def row (hidden : Char → Bool) (source : Text) (span : Span) : Text :=
  "  ".toList ++ (span.category.dottedName.toList ++ (" @ ".toList
    ++ (Nat.toDigits 10 span.start ++ ("..".toList ++ (Nat.toDigits 10 span.stop
    ++ (" ".toList ++ Text.quoteHiding hidden (span.text source)))))))

/-- The definition is opened by `delta`, for its equation lemma takes long to check. -/
theorem lineHiding_eq (hidden : Char → Bool) (source : Text) (span : Span) :
    lineHiding hidden source span = row hidden source span ++ ['\n'] := by
  delta lineHiding
  simp only [row, List.append_assoc]

theorem category_dottedName (found : Category) (rest : Text) :
    category (found.dottedName.toList ++ (" @ ".toList ++ rest)) =
      some (found, " @ ".toList ++ rest) := by
  have hname : found.dottedName.toList.all (· != ' ') = true := by cases found <;> rfl
  have hruns : Grammar.Runs (· != ' ') found.dottedName.toList (" @ ".toList ++ rest) :=
    ⟨List.all_eq_true.mp hname, by simp⟩
  simp only [category, hruns.takeWhile_append, List.drop_left, String.ofList_toList,
    Category.ofDottedName?_dottedName, Option.map_some]

/-- A line is read as what it lists. -/
theorem entryOf?_row (hidden : Char → Bool) (source : Text) (span : Span) :
    entryOf? (row hidden source span) = some ⟨span, span.text source⟩ := by
  have htext : Reading.quoted escaped (fun _ => false) (Text.quoteHiding hidden (span.text source) ++ []) =
      some (span.text source, []) := (escapes_quoteChar hidden).quoted_append (span.text source) []
  rw [List.append_nil] at htext
  have hstart (rest : Text) :
      Reading.natural (Nat.toDigits 10 span.start ++ ("..".toList ++ rest)) =
        some (span.start, "..".toList ++ rest) :=
    Reading.natural_toDigits span.start (by simp)
  have hstop (rest : Text) :
      Reading.natural (Nat.toDigits 10 span.stop ++ (" ".toList ++ rest)) =
        some (span.stop, " ".toList ++ rest) :=
    Reading.natural_toDigits span.stop (by simp)
  have hentry : entry (row hidden source span) = some (⟨span, span.text source⟩, []) := by
    simp only [entry, row, literal_append, category_dottedName, hstart, hstop, htext,
      Option.bind_eq_bind, Option.bind_some, pure]
  rw [entryOf?, hentry]

theorem newline_not_mem_row (hidden : Char → Bool) (source : Text) (span : Span) :
    '\n' ∉ row hidden source span := by
  have hname : '\n' ∉ span.category.dottedName.toList := by cases span.category <;> decide
  have hdigits (number : Nat) : '\n' ∉ Nat.toDigits 10 number := fun hmem =>
    absurd (Nat.isDigit_of_mem_toDigits (by decide) (by decide) hmem) (by decide)
  have htext : '\n' ∉ Text.quoteHiding hidden (span.text source) :=
    (escapes_quoteChar hidden).newline_not_mem (span.text source)
  simp [row, hname, hdigits, htext]

/-! ## How many lines -/

theorem lineCount_line {line : Text} (h : '\n' ∉ line) (rest : Text) :
    lineCount (line ++ '\n' :: rest) = lineCount rest + 1 := by
  induction line with
  | nil =>
    cases rest with
    | nil => rfl
    | cons c rest => rw [List.nil_append, lineCount, if_pos rfl]
  | cons c line ih =>
    rw [List.mem_cons, not_or] at h
    obtain ⟨hc, hline⟩ := h
    obtain ⟨next, tail, htail⟩ := List.exists_cons_of_ne_nil
      (List.append_ne_nil_of_right_ne_nil line (List.cons_ne_nil '\n' rest))
    rw [List.cons_append, htail, lineCount, ← htail, ih hline, if_neg (Ne.symm hc), Nat.add_zero]

theorem lineCount_lines {lines : List Text} (h : ∀ line ∈ lines, '\n' ∉ line) :
    lineCount (lines.flatMap (· ++ ['\n'])) = lines.length := by
  induction lines with
  | nil => rfl
  | cons line lines ih =>
    obtain ⟨hline, hlines⟩ := List.forall_mem_cons.mp h
    rw [List.flatMap_cons, List.append_assoc, List.singleton_append, lineCount_line hline, ih hlines,
      List.length_cons]

theorem flatMap_lineHiding (hidden : Char → Bool) (source : Text) (spans : List Span) :
    spans.flatMap (lineHiding hidden source) =
      (spans.map (row hidden source)).flatMap (· ++ ['\n']) := by
  simp only [List.flatMap_map, ← lineHiding_eq]

theorem newline_not_mem_rows (hidden : Char → Bool) (source : Text) (spans : List Span) :
    ∀ line ∈ spans.map (row hidden source), '\n' ∉ line :=
  List.forall_mem_map.mpr fun span _ => newline_not_mem_row hidden source span

/-- A listing has a line for each span. -/
theorem lineCount_listing (hidden : Char → Bool) (source : Text) (spans : List Span) :
    lineCount (spans.flatMap (lineHiding hidden source)) = spans.length := by
  rw [flatMap_lineHiding, lineCount_lines (newline_not_mem_rows hidden source spans), List.length_map]

/-- Whichever characters are written by their code points, a line tells what it lists. -/
theorem lineHiding_inj {hidden hidden' : Char → Bool} {source source' : Text} {span span' : Span}
    (h : lineHiding hidden source span = lineHiding hidden' source' span') :
    span = span' ∧ span.text source = span'.text source' := by
  rw [lineHiding_eq, lineHiding_eq] at h
  have hentry := congrArg entryOf? (List.append_cancel_right h)
  rw [entryOf?_row, entryOf?_row, Option.some_inj, Entry.mk.injEq] at hentry
  exact hentry

/-- **Listings read back.** Whichever characters are written by their code points, the
listing of a source is a line for each of its spans: the newlines of the listing are
those at the ends of the lines, and each line is read as its span and the text that
the span covers, which no other line tells. The texts, one after the other, are the
source. The number printed over the listing of a file is that of its spans. -/
theorem listing_reads_back (hidden : Char → Bool) (source : Text) :
    let listing := (classify source).flatMap (lineHiding hidden source)
    (∃ lines : List Text, Text.splitOn '\n' listing = lines ++ [[]] ∧
      lines.mapM entryOf? = some ((classify source).map fun span => ⟨span, span.text source⟩)) ∧
    (classify source).flatMap (Span.text · source) = source ∧
    lineCount listing = (classify source).length ∧
    (∀ hidden' source' span span',
      lineHiding hidden source span = lineHiding hidden' source' span' →
        span = span' ∧ span.text source = span'.text source') ∧
    ∀ files path, FileSystem.readText files path = .ok source →
      Command.lex files path = Command.printing
        ("Spans for '".toList ++ path ++ "' (".toList ++ Nat.toDigits 10 (classify source).length
          ++ " spans):\n".toList ++ (classify source).flatMap (lineHiding Text.isHidden source)) := by
  refine ⟨⟨(classify source).map (row hidden source), ?_, ?_⟩, ?_,
    lineCount_listing hidden source (classify source), fun _ _ _ _ => lineHiding_inj, ?_⟩
  · rw [flatMap_lineHiding,
      Text.splitOn_lines (newline_not_mem_rows hidden source (classify source))]
  · exact Reading.mapM_map fun span _ => entryOf?_row hidden source span
  · have hspell := Classifier.flatMap_text_spansFrom [] (tokens source) []
    rwa [show textOf (tokens source) = source from Classifier.textOf_run (.ofText source),
      List.nil_append, List.append_nil] at hspell
  · intro files path hsource
    have hlisting : ofSource source = (classify source).flatMap (lineHiding Text.isHidden source) := rfl
    rw [Command.lex, hsource]
    dsimp only
    rw [hlisting, lineCount_listing]

/-- A file with a string over two lines. -/
theorem listing_reads_back_of_string :
    let files : FileSystem := ⟨fun _ => .ok (.file "'\n'".toUTF8)⟩
    let source : Text := ['\'', '\n', '\'']
    files.readText ['a'] = .ok source ∧
    Command.lex files ['a'] = Command.printing
      ("Spans for '".toList ++ ['a'] ++ "' (".toList ++ Nat.toDigits 10 (classify source).length
        ++ " spans):\n".toList ++ (classify source).flatMap (lineHiding Text.isHidden source)) := by
  intro files source
  have hsource : files.readText ['a'] = .ok source := Entry.readText_toUTF8 "'\n'"
  exact ⟨hsource, (listing_reads_back Text.isHidden source).2.2.2.2 files ['a'] hsource⟩

end WrenDocs.Listing
