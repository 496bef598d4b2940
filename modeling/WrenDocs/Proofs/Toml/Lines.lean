import Mathlib.Data.List.Basic
import WrenDocs.Proofs.Toml.Key
import WrenDocs.Proofs.Toml.Setting

/-! Written sections read back line by line: an empty line and a header, then a
key and its value on each line. -/
namespace WrenDocs.Toml
open Reader Setting

/-! ## How lines begin -/

/-- A key begins neither like a line that says nothing nor like a header. -/
theorem exists_writeKey (key : Text) : ∃ c text, writeKey key = c :: text ∧
    isBlank c = false ∧ c ≠ '[' ∧ c ≠ '\n' ∧ c ≠ '\ufeff' := by
  rcases writeKey_cases key with ⟨hne, hbare, heq⟩ | heq | ⟨-, heq⟩
  · obtain ⟨c, text, rfl⟩ := List.exists_cons_of_ne_nil hne
    have hc : isBareKeyChar c = true := List.all_eq_true.mp hbare c List.mem_cons_self
    refine ⟨c, text, heq, (of_isBareKeyChar hc).2.2, ?_, ?_, ?_⟩
    all_goals
      rintro rfl
      revert hc
      decide
  · exact ⟨'"', _, heq, by decide, by decide, by decide, by decide⟩
  · exact ⟨'\'', _, heq, by decide, by decide, by decide, by decide⟩

theorem exists_write (setting : Setting) :
    ∃ c text, setting.write = c :: text ∧ isBlank c = false := by
  cases setting with
  | string text =>
    rcases head?_quote text.toList with h | h
    all_goals
      obtain ⟨tail, heq⟩ := List.head?_eq_some_iff.mp h
      exact ⟨_, tail, heq, by decide⟩
  | flag flag => cases flag <;> exact ⟨_, _, rfl, by decide⟩
  | list items =>
    match items with
    | [] | [_] | _ :: _ :: _ => exact ⟨'[', _, rfl, by decide⟩

/-! ## Lines -/

/-- A line whose statement ends with it. -/
theorem line_of_statement {c : Char} {text rest : Text} {said : Line} (hblank : isBlank c = false)
    (h : statement (c :: text) = some (said, '\n' :: rest)) :
    line (c :: text) = some (said, rest) := by
  have hskip : skipBlanks (c :: text) = c :: text := skipBlanks_of_head? (by simpa using hblank)
  have hend : skipBlanks ('\n' :: rest) = '\n' :: rest := rfl
  have hcomment : comment ('\n' :: rest) = none := rfl
  rw [line]
  · simp only [hskip, h, Option.getD_some, hend, hcomment, Option.map_none, Option.getD_none]
    rfl
  · simp

theorem header_of_head? {opening closing text : Text} (h : text.head? ≠ opening.head?)
    (hne : opening ≠ []) : header opening closing text = none := by
  have hliteral := literal_of_head? h hne
  simp [header, hliteral]

theorem pair_of_keyPath {value : Reader Value} {text after rest : Text} {path : List String}
    {last : String} {found : Value} (hkey : keyPath text = some ((path, last), '=' :: after))
    (hvalue : value (skipBlanks after) = some (found, rest)) :
    pair value text = some ((path, last, found), skipBlanks rest) := by
  have hequals : Reader.literal ['='] ('=' :: after) = some ((), after) := literal_append ['='] after
  simp only [pair, hkey, Option.bind_eq_bind, Option.bind_some, hequals, hvalue, Option.pure_def]

theorem pair_write (key : String) (setting : Setting) (rest : Text) (depth : Nat) :
    pair (value (depth + 1))
        (writeKey key.toList ++ (" = ".toList ++ (setting.write ++ '\n' :: rest))) =
      some (([], key, setting.toValue), '\n' :: rest) := by
  have hkey := keyPath_key key.toList (setting.write ++ '\n' :: rest)
  rw [String.ofList_toList] at hkey
  have hspace : skipBlanks (' ' :: (setting.write ++ '\n' :: rest)) =
      setting.write ++ '\n' :: rest := by
    obtain ⟨c, text, heq, hblank⟩ := exists_write setting
    have hskip : skipBlanks (c :: text ++ '\n' :: rest) = c :: text ++ '\n' :: rest :=
      skipBlanks_of_head? (by simpa using hblank)
    rw [heq]
    exact hskip
  have hvalue := @value_write setting ('\n' :: rest) (.inl rfl) depth
  rw [← hspace] at hvalue
  exact pair_of_keyPath hkey hvalue

/-- A line that sets a key. -/
def writePair (entry : String × Setting) : Text :=
  writeKey entry.1.toList ++ " = ".toList ++ entry.2.write ++ ['\n']

/-- What a line that sets a key says. -/
def pairLine (entry : String × Setting) : Line :=
  .pair [] entry.1 entry.2.toValue

theorem line_writePair (entry : String × Setting) (rest : Text) :
    line (writePair entry ++ rest) = some (pairLine entry, rest) := by
  obtain ⟨key, setting⟩ := entry
  have htext : writePair (key, setting) ++ rest =
      writeKey key.toList ++ (" = ".toList ++ (setting.write ++ '\n' :: rest)) := by
    simp [writePair]
  obtain ⟨c, tail, heq, hblank, hbracket, -, -⟩ := exists_writeKey key.toList
  have hpair := pair_write key setting rest (depthLimit - 2)
  rw [htext, heq, List.cons_append]
  rw [heq, List.cons_append] at hpair
  apply line_of_statement hblank
  rw [statement, orElse_of_none (map_of_none (header_of_head? (by simpa using hbracket) (by simp))),
    orElse_of_none (map_of_none (header_of_head? (by simpa using hbracket) (by simp)))]
  exact map_of_some hpair

theorem line_newline (rest : Text) : line ('\n' :: rest) = some (.blank, rest) := by
  have hkey : keyPart ('\n' :: rest) = none := rfl
  have hpath : keyPath ('\n' :: rest) = none := by
    rw [keyPath, separatedBy_of_none hkey, Option.bind_none]
  have hpair : pair (value (depthLimit - 1)) ('\n' :: rest) = none := by
    simp [pair, hpath]
  have hstatement : statement ('\n' :: rest) = none := by
    rw [statement, orElse_of_none (map_of_none (header_of_head? (by simp) (by simp))),
      orElse_of_none (map_of_none (header_of_head? (by simp) (by simp))), map_of_none hpair]
  have hskip : skipBlanks ('\n' :: rest) = '\n' :: rest := rfl
  have hcomment : comment ('\n' :: rest) = none := rfl
  rw [line]
  · simp only [hskip, hstatement, Option.getD_none, hcomment, Option.map_none]
    rfl
  · simp

theorem header_writeHeader {path : List String} {last : String} (h : path.length + 1 < depthLimit)
    (rest : Text) :
    header ['['] [']'] ('[' :: (Section.writeHeader (path ++ [last]) ++ ']' :: rest)) =
      some ((path, last), rest) := by
  have hopening := literal_append ['['] (Section.writeHeader (path ++ [last]) ++ ']' :: rest)
  have hclosing := literal_append [']'] rest
  rw [List.singleton_append] at hopening hclosing
  simp only [header, hopening, keyPath_writeHeader h rest, hclosing, Option.bind_eq_bind,
    Option.bind_some, Option.pure_def]

theorem head?_writeHeader {header : List String} (h : header ≠ []) :
    ∃ c text, Section.writeHeader header = c :: text ∧ c ≠ '[' := by
  obtain ⟨key, keys, rfl⟩ := List.exists_cons_of_ne_nil h
  obtain ⟨c, text, heq, -, hbracket, -⟩ := exists_writeKey key.toList
  rw [writeHeader_cons, heq]
  exact ⟨c, _, rfl, hbracket⟩

/-- The line of a table: one bracket does not begin the header of an element. -/
theorem line_header {path : List String} {last : String} (h : path.length + 1 < depthLimit)
    (rest : Text) :
    line ('[' :: (Section.writeHeader (path ++ [last]) ++ (']' :: '\n' :: rest))) =
      some (.table path last, rest) := by
  apply line_of_statement (by decide)
  have helement : header ['[', '['] [']', ']']
      ('[' :: (Section.writeHeader (path ++ [last]) ++ (']' :: '\n' :: rest))) = none := by
    obtain ⟨c, text, heq, hne⟩ := @head?_writeHeader (path ++ [last]) (by simp)
    have hliteral : Reader.literal ['[', '[']
        ('[' :: (c :: text ++ ']' :: '\n' :: rest)) = none := by
      simp [Reader.literal, hne.symm]
    rw [heq, header, hliteral]
    rfl
  rw [statement, orElse_of_none (map_of_none helement),
    orElse_of_some (map_of_some (header_writeHeader h ('\n' :: rest)))]

/-! ## Sections -/

namespace Section

/-- What the lines of a section say. -/
def lines (part : Section) : List Line :=
  (match part.header.getLast? with
    | none => []
    | some last => [.blank, .table part.header.dropLast last]) ++ part.settings.map pairLine

theorem takes_settings (settings : List (String × Setting)) (rest : Text) :
    Takes line (settings.flatMap writePair ++ rest) (settings.map pairLine) rest := by
  induction settings with
  | nil => exact .refl rest
  | cons entry settings ih =>
    have hread := line_writePair entry (settings.flatMap writePair ++ rest)
    rw [← List.append_assoc, ← List.flatMap_cons] at hread
    refine .head hread ?_ ih
    simp [writePair]
    omega

theorem takes_write {part : Section} (h : part.header.length < depthLimit) (rest : Text) :
    Takes line (part.write ++ rest) part.lines rest := by
  obtain ⟨header, settings⟩ := part
  have hsettings := takes_settings settings rest
  rcases List.eq_nil_or_concat' header with rfl | ⟨path, last, rfl⟩
  · exact hsettings
  · have htext : write ⟨path ++ [last], settings⟩ ++ rest = '\n' :: '[' ::
        (writeHeader (path ++ [last]) ++ ']' :: '\n' :: (settings.flatMap writePair ++ rest)) := by
      have hwrite : write ⟨path ++ [last], settings⟩ =
          "\n[".toList ++ writeHeader (path ++ [last]) ++ "]\n".toList ++ settings.flatMap writePair := by
        rw [write, if_neg (by simp)]
        rfl
      have hopening : "\n[".toList = ['\n', '['] := by decide
      have hclosing : "]\n".toList = [']', '\n'] := by decide
      rw [hwrite, hopening, hclosing]
      simp
    have hlines : lines ⟨path ++ [last], settings⟩ =
        .blank :: .table path last :: settings.map pairLine := by
      simp [lines]
    rw [htext, hlines]
    refine .head (line_newline _) (by simp) (.head (line_header ?_ _) ?_ hsettings)
    · simpa using h
    · simp
      omega

theorem takes_writeAll {parts : List Section} (h : ∀ part ∈ parts, part.header.length < depthLimit)
    (rest : Text) : Takes line (writeAll parts ++ rest) (parts.flatMap lines) rest := by
  induction parts with
  | nil => exact .refl rest
  | cons part parts ih =>
    obtain ⟨hpart, hparts⟩ := List.forall_mem_cons.mp h
    rw [writeAll, List.flatMap_cons, List.flatMap_cons, List.append_assoc]
    exact (takes_write hpart _).append (ih hparts)

theorem head?_writeAll (parts : List Section) : (writeAll parts).head? ≠ some '\ufeff' := by
  induction parts with
  | nil => simp [writeAll]
  | cons part parts ih =>
    obtain ⟨header, settings⟩ := part
    rw [writeAll, List.flatMap_cons]
    rcases List.eq_nil_or_concat' header with rfl | ⟨path, last, rfl⟩
    · cases settings with
      | nil => exact ih
      | cons entry settings =>
        obtain ⟨c, text, heq, -, -, -, hmark⟩ := exists_writeKey entry.1.toList
        simp [write, heq, hmark]
    · have hopening : "\n[".toList = ['\n', '['] := by decide
      rw [write, if_neg (by simp), hopening]
      simp

end Section

/-- A written document describes the table that its lines define in turn. -/
theorem ofText?_writeAll {parts : List Section}
    (h : ∀ part ∈ parts, part.header.length < depthLimit) :
    Table.ofText? (Section.writeAll parts) =
      ((parts.flatMap Section.lines).foldlM Reading.add ⟨[], []⟩).map
        fun reading => Draft.toTable reading.entries := by
  have hmark : withoutMark (Section.writeAll parts) = Section.writeAll parts := by
    rw [withoutMark]
    rintro text heq
    exact Section.head?_writeAll parts (by rw [heq, List.head?_cons])
  have htakes := Section.takes_writeAll h []
  rw [List.append_nil] at htakes
  have hlines := htakes.many_eq rfl
  rw [Table.ofText?, hmark, hlines, Option.map_eq_bind]
  rfl

end WrenDocs.Toml
