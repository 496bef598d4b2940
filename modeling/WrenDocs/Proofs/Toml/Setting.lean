import WrenDocs.Proofs.Toml.Quoted
import WrenDocs.Toml.Document

/-! Settings read back: what a key is set to is read as one value, up to what may
follow a value. -/
namespace WrenDocs.Toml
open Reader Setting

/-! ## Values -/

namespace Setting

/-- The value that a setting stands for. -/
def toValue : Setting → Value
  | string value => .string value
  | flag value => .boolean value
  | list items => .array (items.map .string)

end Setting

/-- What may follow a value: neither a quote, nor what would make a key or a
number longer. -/
def EndsValue (rest : Text) : Prop :=
  rest.head? = some '\n' ∨ rest.head? = some ',' ∨ rest.head? = some ']'

theorem EndsValue.ne_quote {rest : Text} (h : EndsValue rest) :
    rest.head? ≠ some '"' ∧ rest.head? ≠ some '\'' := by
  rcases h with h | h | h <;> simp [h]

theorem head?_quote (text : Text) : (quote text).head? = some '"' ∨ (quote text).head? = some '\'' := by
  rw [quote]
  cases formOf text with
  | basic | multilineBasic => exact .inl rfl
  | literal | multilineLiteral => exact .inr rfl

theorem value_of_head? {c : Char} {text : Text} (h : text.head? = some c) (harray : c ≠ '[')
    (htable : c ≠ '\x7b') (depth : Nat) : value depth text = scalar text := by
  obtain ⟨rest, rfl⟩ := List.head?_eq_some_iff.mp h
  cases depth with
  | zero => rfl
  | succ depth =>
    rw [value]
    dsimp only
    split
    · rename_i heq
      exact absurd (List.cons.inj heq).1 harray
    · rename_i heq
      exact absurd (List.cons.inj heq).1 htable
    · rfl

theorem value_quote (text : String) {rest : Text} (h : EndsValue rest) (depth : Nat) :
    value depth (quote text.toList ++ rest) = some (.string text, rest) := by
  have hscalar : scalar (quote text.toList ++ rest) = some (.string text, rest) := by
    have hstring := string_quote text.toList h.ne_quote.1 h.ne_quote.2
    rw [scalar, orElse_of_some (map_of_some hstring), String.ofList_toList]
  rw [← hscalar]
  rcases head?_quote text.toList with hhead | hhead
  · exact value_of_head? (by rw [List.head?_append, hhead, Option.some_or]) (by decide) (by decide) depth
  · exact value_of_head? (by rw [List.head?_append, hhead, Option.some_or]) (by decide) (by decide) depth

/-- No string begins without a quote. -/
theorem string_of_ne {c : Char} (hdouble : c ≠ '"') (hsingle : c ≠ '\'') (rest : Text) :
    string (c :: rest) = none := by
  have hbasic : basicString (c :: rest) = none := by
    rw [basicString]
    rintro text ⟨⟩
    exact hdouble rfl
  have hliteral : literalString (c :: rest) = none := by
    rw [literalString]
    rintro text ⟨⟩
    exact hsingle rfl
  have hmultiline (quote : Char) (read : Reader Text) (hne : c ≠ quote) :
      multilineString quote read (c :: rest) = none := by
    apply multilineString_of_leadingQuotes
    rw [leadingQuotes_of_ne hne]
    decide
  rw [string, orElse_of_none (hmultiline _ _ hdouble), orElse_of_none hbasic,
    orElse_of_none (hmultiline _ _ hsingle), hliteral]

theorem value_flag (flag : Bool) (rest : Text) (depth : Nat) :
    value depth (write (.flag flag) ++ rest) = some (.boolean flag, rest) := by
  have hscalar {c : Char} {text : Text} (hdouble : c ≠ '"') (hsingle : c ≠ '\'')
      (hread : boolean (c :: text) = some (flag, rest)) :
      scalar (c :: text) = some (.boolean flag, rest) := by
    rw [scalar, orElse_of_none (map_of_none (string_of_ne hdouble hsingle text)),
      orElse_of_some (map_of_some hread)]
  cases flag with
  | false =>
    rw [value_of_head? (c := 'f') rfl (by decide) (by decide)]
    exact hscalar (by decide) (by decide) rfl
  | true =>
    rw [value_of_head? (c := 't') rfl (by decide) (by decide)]
    exact hscalar (by decide) (by decide) rfl

/-! ## Lists -/

/-- Skips a character that is space, with what follows. -/
theorem skipSpace_cons {c : Char} (h : c = ' ' ∨ c = '\n') (text : Text) :
    skipSpace (c :: text) = skipSpace text := by
  have hread : (Reader.orElse (Reader.map (fun _ => ()) (Reader.char isBlank))
      (Reader.orElse newline fun text => (comment text).bind fun found => newline found.2))
        (c :: text) = some ((), text) := by
    rcases h with rfl | rfl <;> rfl
  rw [skipSpace, Reader.many, hread]
  simp [skipSpace]

/-- Nothing is skipped before a character that is neither space nor the beginning
of a comment. -/
theorem skipSpace_of_isInk {c : Char} (h : isInk c = true) (hcomment : c ≠ '#') (text : Text) :
    skipSpace (c :: text) = c :: text := by
  simp only [isInk, Bool.and_eq_true, Bool.not_eq_true', bne_iff_ne] at h
  obtain ⟨⟨hblank, hnewline⟩, hreturn⟩ := h
  have hchar : Reader.char isBlank (c :: text) = none := by simp [Reader.char, hblank]
  have hcomment' : comment (c :: text) = none := by
    rw [comment]
    rintro tail ⟨⟩
    exact hcomment rfl
  rw [skipSpace, many_of_none]
  rw [orElse_of_none (map_of_none hchar), orElse_of_none (newline_of_ne hnewline hreturn text),
    hcomment', Option.bind_none]

/-- An item with space around it. -/
def spaced (item : Reader Value) : Reader Value := fun text =>
  (item (skipSpace text)).map fun (value, rest) => (value, skipSpace rest)

theorem spaced_of_none {item : Reader Value} {text : Text} (h : item (skipSpace text) = none) :
    spaced item text = none := by
  rw [spaced, h, Option.map_none]

theorem spaced_of_some {item : Reader Value} {text rest : Text} {value : Value}
    (h : item (skipSpace text) = some (value, rest)) :
    spaced item text = some (value, skipSpace rest) := by
  rw [spaced, h, Option.map_some]

/-- The items of an array, and what its closing bracket should begin. A comma may
stand after the last. -/
def arrayItems (item : Reader Value) (text : Text) : List Value × Text :=
  match Reader.separatedBy (Reader.literal [',']) (spaced item) text with
  | none => ([], skipSpace text)
  | some (items, rest) =>
    match rest with
    | ',' :: rest => (items, skipSpace rest)
    | _ => (items, rest)

theorem arrayRest_of_items {item : Reader Value} {text rest : Text} {items : List Value}
    (h : arrayItems item text = (items, ']' :: rest)) :
    arrayRest item text = some (items, rest) := by
  have hrest : arrayRest item text = (Reader.literal [']'] (arrayItems item text).2).map
      fun found => ((arrayItems item text).1, found.2) := rfl
  have hbracket : Reader.literal [']'] (']' :: rest) = some ((), rest) := literal_append [']'] rest
  rw [hrest, h, hbracket, Option.map_some]

/-- No value begins with a closing bracket. -/
theorem value_bracket (depth : Nat) (rest : Text) : value depth (']' :: rest) = none := by
  have hscalar : scalar (']' :: rest) = none := by
    have hstring : string (']' :: rest) = none := string_of_ne (by decide) (by decide) rest
    have hboolean : boolean (']' :: rest) = none := by rfl
    have hdateTime : dateTime (']' :: rest) = none := by
      simp [dateTime, date, time, twoDigits, fixedDigits, Reader.orElse]
    have hfloat : float (']' :: rest) = none := by rfl
    have hinteger : integer (']' :: rest) = none := by rfl
    simp [scalar, hstring, hboolean, hdateTime, hfloat, hinteger, Reader.orElse, Reader.map]
  rw [value_of_head? rfl (by decide) (by decide), hscalar]

theorem skipSpace_bracket (rest : Text) : skipSpace (']' :: rest) = ']' :: rest :=
  skipSpace_of_isInk (by decide) (by decide) rest

theorem skipSpace_comma (rest : Text) : skipSpace (',' :: rest) = ',' :: rest :=
  skipSpace_of_isInk (by decide) (by decide) rest

theorem skipSpace_quote (text rest : Text) : skipSpace (quote text ++ rest) = quote text ++ rest := by
  rcases head?_quote text with h | h
  all_goals
    obtain ⟨tail, heq⟩ := List.head?_eq_some_iff.mp h
    rw [heq]
    exact skipSpace_of_isInk (by decide) (by decide) _

/-- An item of a list is read with the space before it. -/
theorem spaced_quote (text : String) {before rest : Text}
    (hbefore : ∀ after, skipSpace (before ++ after) = skipSpace after) (h : EndsValue rest)
    (hrest : skipSpace rest = rest) (depth : Nat) :
    spaced (value depth) (before ++ (quote text.toList ++ rest)) = some (.string text, rest) := by
  have hread := value_quote text h depth
  rw [← skipSpace_quote text.toList rest, ← hbefore] at hread
  rw [spaced_of_some hread, hrest]

/-- An item after the first, on a line of its own. -/
def nextItem (item : String) : Text :=
  ",\n    ".toList ++ quote item.toList

/-- What follows the first item of a list with a line for each. -/
def itemsTail (items : List String) (rest : Text) : Text :=
  items.flatMap nextItem ++ (",\n]".toList ++ rest)

theorem itemsTail_cons (item : String) (items : List String) (rest : Text) :
    itemsTail (item :: items) rest =
      ',' :: ("\n    ".toList ++ (quote item.toList ++ itemsTail items rest)) := by
  have hitem : nextItem item = ',' :: ("\n    ".toList ++ quote item.toList) := by rfl
  rw [itemsTail, List.flatMap_cons, hitem, List.cons_append, List.cons_append, List.append_assoc,
    List.append_assoc, itemsTail]

theorem exists_itemsTail (items : List String) (rest : Text) :
    ∃ text, itemsTail items rest = ',' :: text := by
  cases items with
  | nil => exact ⟨_, rfl⟩
  | cons item items => exact ⟨_, itemsTail_cons item items rest⟩

theorem skipSpace_indent (text : Text) :
    skipSpace ("\n    ".toList ++ text) = skipSpace text := by
  have hindent : "\n    ".toList ++ text = '\n' :: ' ' :: ' ' :: ' ' :: ' ' :: text := by rfl
  rw [hindent, skipSpace_cons (.inr rfl), skipSpace_cons (.inl rfl), skipSpace_cons (.inl rfl),
    skipSpace_cons (.inl rfl), skipSpace_cons (.inl rfl)]

/-- An item on a line of its own, with the space around it. -/
theorem spaced_indented (item : String) (items : List String) (rest : Text) (depth : Nat) :
    spaced (value depth) ("\n    ".toList ++ (quote item.toList ++ itemsTail items rest)) =
      some (.string item, itemsTail items rest) := by
  obtain ⟨text, htext⟩ := exists_itemsTail items rest
  apply spaced_quote item skipSpace_indent
  · exact .inr (.inl (by rw [htext, List.head?_cons]))
  · rw [htext, skipSpace_comma]

theorem takes_itemsTail (items : List String) (rest : Text) (depth : Nat) :
    Takes (Reader.after (Reader.literal [',']) (spaced (value depth))) (itemsTail items rest)
      (items.map .string) (itemsTail [] rest) := by
  induction items with
  | nil => exact .refl _
  | cons item items ih =>
    rw [itemsTail_cons]
    refine .head ?_ ?_ ih
    · have hcomma := literal_append [','] ("\n    ".toList ++ (quote item.toList ++ itemsTail items rest))
      rw [List.singleton_append] at hcomma
      rw [after_of_some hcomma, spaced_indented]
    · simp only [List.length_cons, List.length_append]
      omega

/-- The lines of a list, told by the commas at their ends or by those before them. -/
theorem flatMap_itemLine (item : String) (items : List String) (rest : Text) :
    '\n' :: ((item :: items).flatMap
        (fun item => "    ".toList ++ quote item.toList ++ ",\n".toList) ++ ']' :: rest) =
      "\n    ".toList ++ (quote item.toList ++ itemsTail items rest) := by
  have hindent : "\n    ".toList = '\n' :: "    ".toList := by decide
  have hcomma : ",\n".toList = [',', '\n'] := by decide
  have hlast : ",\n]".toList = [',', '\n', ']'] := by decide
  induction items generalizing item with
  | nil => simp [itemsTail, hindent, hcomma, hlast]
  | cons next items ih =>
    have htail := ih next
    rw [List.flatMap_cons, itemsTail_cons, ← htail, hindent, hcomma]
    simp

theorem writeList_lines (item next : String) (items : List String) (rest : Text) :
    writeList (item :: next :: items) ++ rest =
      '[' :: ("\n    ".toList ++ (quote item.toList ++ itemsTail (next :: items) rest)) := by
  have hlines : writeList (item :: next :: items) = '[' :: '\n' :: ((item :: next :: items).flatMap
      (fun item => "    ".toList ++ quote item.toList ++ ",\n".toList) ++ [']']) := by rfl
  rw [← flatMap_itemLine, hlines, List.cons_append, List.cons_append, List.append_assoc,
    List.singleton_append]

theorem arrayItems_nil (rest : Text) (depth : Nat) :
    arrayItems (value depth) (']' :: rest) = ([], ']' :: rest) := by
  have hnone : spaced (value depth) (']' :: rest) = none := by
    apply spaced_of_none
    rw [skipSpace_bracket, value_bracket]
  rw [arrayItems, separatedBy_of_none hnone]
  simp only [skipSpace_bracket]

theorem arrayItems_single (item : String) (rest : Text) (depth : Nat) :
    arrayItems (value depth) (quote item.toList ++ ']' :: rest) =
      ([.string item], ']' :: rest) := by
  have hitem : spaced (value depth) (quote item.toList ++ ']' :: rest) =
      some (.string item, ']' :: rest) :=
    @spaced_quote item [] _ (fun _ => rfl) (.inr (.inr rfl)) (skipSpace_bracket rest) depth
  have hend : Reader.after (Reader.literal [',']) (spaced (value depth)) (']' :: rest) = none :=
    after_of_none (literal_of_head? (by simp) (by simp))
  rw [arrayItems, separatedBy_of_takes hitem (.refl _) hend]
  rfl

theorem arrayItems_lines (item : String) (items : List String) (rest : Text) (depth : Nat) :
    arrayItems (value depth) ("\n    ".toList ++ (quote item.toList ++ itemsTail items rest)) =
      (.string item :: items.map .string, ']' :: rest) := by
  have hlast : itemsTail [] rest = ',' :: '\n' :: ']' :: rest := by rfl
  have hspace : skipSpace ('\n' :: ']' :: rest) = ']' :: rest := by
    rw [skipSpace_cons (.inr rfl), skipSpace_bracket]
  have hend : Reader.after (Reader.literal [',']) (spaced (value depth)) (itemsTail [] rest) =
      none := by
    have hcomma := literal_append [','] ('\n' :: ']' :: rest)
    rw [List.singleton_append] at hcomma
    rw [hlast, after_of_some hcomma]
    apply spaced_of_none
    rw [hspace, value_bracket]
  rw [arrayItems, separatedBy_of_takes (spaced_indented item items rest depth)
    (takes_itemsTail items rest depth) hend, hlast]
  simp only [hspace]

theorem value_list (items : List String) (rest : Text) (depth : Nat) :
    value (depth + 1) (writeList items ++ rest) = some (.array (items.map .string), rest) := by
  have harray {text : Text} {values : List Value}
      (h : arrayItems (value depth) text = (values, ']' :: rest)) :
      value (depth + 1) ('[' :: text) = some (.array values, rest) :=
    map_of_some (arrayRest_of_items h)
  match items with
  | [] => exact harray (arrayItems_nil rest depth)
  | [item] =>
    have hwrite : writeList [item] ++ rest = '[' :: (quote item.toList ++ ']' :: rest) := by
      simp [writeList]
    rw [hwrite]
    exact harray (arrayItems_single item rest depth)
  | item :: next :: items =>
    rw [writeList_lines]
    exact harray (arrayItems_lines item (next :: items) rest depth)

/-- What a key is set to is read as the value it stands for. -/
theorem value_write (setting : Setting) {rest : Text} (h : EndsValue rest) (depth : Nat) :
    value (depth + 1) (setting.write ++ rest) = some (setting.toValue, rest) := by
  cases setting with
  | string text => exact value_quote text h (depth + 1)
  | flag flag => exact value_flag flag rest (depth + 1)
  | list items => exact value_list items rest depth

end WrenDocs.Toml
