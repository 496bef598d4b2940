import WrenDocs.Json
import WrenDocs.Proofs.Reading
import WrenDocs.Proofs.Split
import WrenDocs.Toml.Setting

/-! JSON on one line reads back. A value is told from whatever text follows it, unless
it is a number and a digit follows; and it holds no newline, for strings escape it. -/
namespace WrenDocs.Json
open Toml (Reader)
open Toml.Reader

/-! ## Reading -/

/-- What a backslash stands for, with what follows it. -/
def escaped : Reader Char
  | '"' :: text => some ('"', text)
  | '\\' :: text => some ('\\', text)
  | '/' :: text => some ('/', text)
  | 'b' :: text => some ('\x08', text)
  | 'f' :: text => some ('\x0c', text)
  | 'n' :: text => some ('\n', text)
  | 'r' :: text => some ('\r', text)
  | 't' :: text => some ('\t', text)
  | 'u' :: text => Toml.codePoint 4 text
  | _ => none

/-- A text in quotes, in which the characters below U+0020 are escaped. -/
def quoted : Reader Text :=
  Reading.quoted escaped fun c => decide (c.toNat < 0x20)

/-- Values with commas between them, if there are any, up to a closing bracket. -/
def upTo {α : Type} (closing : Char) (read : Reader α) : Reader (List α) := fun text => do
  let (values, rest) := (separatedBy (literal [',']) read text).getD ([], text)
  let (_, rest) ← literal [closing] rest
  return (values, rest)

/-- A key and its value. -/
def member (read : Reader Json) : Reader (String × Json) := fun text => do
  let (key, rest) ← quoted text
  let (value, rest) ← after (literal [':']) read rest
  return ((String.ofList key, value), rest)

/-- A value that has no others inside it. -/
def scalar : Reader Json :=
  orElse (map (fun _ => null) (literal "null".toList)) <|
  orElse (map (fun _ => bool true) (literal "true".toList)) <|
  orElse (map (fun _ => bool false) (literal "false".toList)) <|
  orElse (map string quoted) (map number Reading.natural)

/-- A value inside which others are nested less deep than this. -/
def value : Nat → Reader Json
  | 0, _ => none
  | depth + 1, '[' :: text => map array (upTo ']' (value depth)) text
  | depth + 1, '{' :: text => map object (upTo '}' (member (value depth))) text
  | _ + 1, text => scalar text

/-- The value that a text is, if it is one. -/
def ofText? (text : Text) : Option Json :=
  match value (text.length + 1) text with
  | some (json, []) => some json
  | _ => none

/-! ## What a value is made of -/

/-- The values right inside a value. -/
def parts : Json → List Json
  | array items => items
  | object members => members.map Prod.snd
  | _ => []

/-- What holds of a value if it holds of its parts holds of all values. -/
theorem ofParts {holds : Json → Prop} (h : ∀ json, (∀ part ∈ json.parts, holds part) → holds json)
    (json : Json) : holds json := by
  refine h json fun part hpart => ?_
  have hlt : sizeOf part < sizeOf json := by
    cases json with
    | null | bool | number | string => simp [parts] at hpart
    | array items =>
      have hitem := List.sizeOf_lt_of_mem (show part ∈ items from hpart)
      simp only [array.sizeOf_spec]
      omega
    | object members =>
      obtain ⟨⟨key, value⟩, hmember, rfl⟩ := List.mem_map.mp hpart
      have hmember := List.sizeOf_lt_of_mem hmember
      simp only [object.sizeOf_spec, Prod.mk.sizeOf_spec] at hmember ⊢
      omega
  exact ofParts h part
termination_by sizeOf json

/-! ## Strings -/

theorem escaped_code {c : Char} {zeros : Nat} (h : zeros + (Nat.toDigits 16 c.toNat).length = 4)
    (rest : Text) :
    escaped ('u' :: (List.replicate zeros '0' ++ Nat.toDigits 16 c.toNat) ++ rest) =
      some (c, rest) := by
  have hdigits : ∀ d ∈ List.replicate zeros '0' ++ Nat.toDigits 16 c.toNat,
      Text.isHexDigit d = true := by
    intro d hd
    rcases List.mem_append.mp hd with hd | hd
    · rw [List.eq_of_mem_replicate hd]
      rfl
    · exact Reading.isHexDigit_of_mem_toDigits hd
  have hnumber := Reading.hexNumber_zeros zeros (Nat.toDigits 16 c.toNat)
  rw [Reading.hexNumber_toDigits] at hnumber
  have hcode := Reading.codePoint_append hdigits hnumber rest
  rw [List.length_append, List.length_replicate, h] at hcode
  exact hcode

theorem escapes_escapeChar :
    Reading.Escapes escapeChar escaped fun c => decide (c.toNat < 0x20) := by
  intro c
  have hdigits : '\n' ∉ Nat.toDigits 16 c.toNat := fun hmem =>
    absurd (Reading.isHexDigit_of_mem_toDigits hmem) (by decide)
  rw [escapeChar.eq_def]
  split
  case h_8 hquote hback _ _ hnewline _ _ =>
    split
    · rename_i hlt
      refine .inl ⟨'u' :: (List.replicate 3 '0' ++ Nat.toDigits 16 c.toNat), rfl, ?_, ?_⟩
      · simp [hdigits]
      · exact escaped_code (by rw [Nat.toDigits_of_lt_base hlt]; rfl)
    · rename_i hle
      split
      · rename_i hlt
        refine .inl ⟨'u' :: (List.replicate 2 '0' ++ Nat.toDigits 16 c.toNat), rfl, ?_, ?_⟩
        · simp [hdigits]
        · have hone : c.toNat / 16 = 1 := by omega
          refine escaped_code ?_
          rw [Nat.toDigits_of_base_le (by decide) (by omega), hone]
          rfl
      · rename_i hplain
        exact .inr ⟨rfl, hback, hquote, hnewline, by simpa using hplain⟩
  all_goals exact .inl ⟨_, rfl, by decide, fun rest => rfl⟩

theorem quoted_quote (text rest : Text) : quoted (quote text ++ rest) = some (text, rest) :=
  escapes_escapeChar.quoted_append text rest

theorem newline_not_mem_quote (text : Text) : '\n' ∉ quote text :=
  escapes_escapeChar.newline_not_mem text

/-! ## Values in a row -/

theorem separated_cons (separator text : Text) (texts : List Text) :
    separated separator (text :: texts) = text ++ texts.flatMap (separator ++ ·) := by
  induction texts generalizing text with
  | nil => simp [separated]
  | cons next texts ih => simp [separated, ih]

theorem length_le_of_mem (separator : Text) {text : Text} {texts : List Text} (h : text ∈ texts) :
    text.length ≤ (separated separator texts).length := by
  cases texts with
  | nil => simp at h
  | cons first texts =>
    rw [separated_cons, List.length_append]
    rcases List.mem_cons.mp h with rfl | h
    · omega
    · obtain ⟨before, behind, rfl⟩ := List.append_of_mem h
      simp only [List.flatMap_append, List.flatMap_cons, List.length_append]
      omega

theorem newline_not_mem_separated {texts : List Text} (h : ∀ text ∈ texts, '\n' ∉ text) :
    '\n' ∉ separated [','] texts := by
  cases texts with
  | nil => simp [separated]
  | cons text texts =>
    obtain ⟨htext, htexts⟩ := List.forall_mem_cons.mp h
    simpa [separated_cons, htext] using htexts

/-- Where a number ends, if one stands before. -/
def EndsNumber (rest : Text) : Prop :=
  ∀ c ∈ rest.head?, c.isDigit = false

theorem endsNumber_cons {c : Char} (h : c.isDigit = false) (rest : Text) : EndsNumber (c :: rest) := by
  simpa [EndsNumber] using h

theorem upTo_separated {α : Type} {closing : Char} {read : Reader α} {write : α → Text}
    {values : List α} (hcomma : closing ≠ ',') (hdigit : closing.isDigit = false)
    (hnone : ∀ rest, read (closing :: rest) = none)
    (hread : ∀ value ∈ values, ∀ rest, EndsNumber rest →
      read (write value ++ rest) = some (value, rest)) (rest : Text) :
    upTo closing read (separated [','] (values.map write) ++ closing :: rest) =
      some (values, rest) := by
  have hclose : literal [closing] (closing :: rest) = some ((), rest) := literal_append [closing] rest
  cases values with
  | nil =>
    have hempty : separatedBy (literal [',']) read (closing :: rest) = none :=
      separatedBy_of_none (hnone rest)
    simp only [upTo, List.map_nil, separated, List.nil_append, hempty, Option.getD_none, hclose]
    rfl
  | cons value values =>
    obtain ⟨hvalue, hvalues⟩ := List.forall_mem_cons.mp hread
    have hend : EndsNumber (closing :: rest) := endsNumber_cons hdigit rest
    have hothers : Takes (after (literal [',']) read)
        (values.flatMap (fun value => [','] ++ write value) ++ closing :: rest) values
        (closing :: rest) :=
      takes_flatMap EndsNumber (by simp) (fun _ _ => endsNumber_cons rfl _)
        (fun value hvalue rest hrest => by
          rw [List.append_assoc, after_of_some (literal_append [','] _)]
          exact hvalues value hvalue rest hrest) hend
    have hstop : after (literal [',']) read (closing :: rest) = none :=
      after_of_none (literal_of_head? (by simpa using hcomma) (by simp))
    have hfirst : EndsNumber (values.flatMap (fun value => [','] ++ write value) ++ closing :: rest) := by
      cases values with
      | nil => exact hend
      | cons next values => exact endsNumber_cons rfl _
    have hall := separatedBy_of_takes (hvalue _ hfirst) hothers hstop
    rw [upTo, List.map_cons, separated_cons, List.flatMap_map, List.append_assoc, hall]
    simp only [Option.getD_some, hclose]
    rfl

/-! ## Values -/

/-- A member on one line. -/
def compactMember (entry : String × Json) : Text :=
  quote entry.1.toList ++ ':' :: compact entry.2

theorem compactItems_eq (items : List Json) : compactItems items = items.map compact := by
  induction items with
  | nil => rfl
  | cons item items ih => rw [compactItems, ih, List.map_cons]

theorem compactMembers_eq (members : List (String × Json)) :
    compactMembers members = members.map compactMember := by
  induction members with
  | nil => rfl
  | cons entry members ih => rw [compactMembers, ih, List.map_cons, compactMember]

theorem compact_array (items : List Json) :
    (array items).compact = '[' :: separated [','] (items.map compact) ++ [']'] := by
  rw [compact, compactItems_eq]

theorem compact_object (members : List (String × Json)) :
    (object members).compact = '{' :: separated [','] (members.map compactMember) ++ ['}'] := by
  rw [compact, compactMembers_eq]

theorem length_lt_of_mem_parts {json part : Json} (h : part ∈ json.parts) :
    part.compact.length < json.compact.length := by
  cases json with
  | null | bool | number | string => simp [parts] at h
  | array items =>
    have hitem : part ∈ items := h
    have hitem := length_le_of_mem [','] (List.mem_map_of_mem (f := compact) hitem)
    rw [compact_array, List.length_append, List.length_cons]
    exact Nat.lt_add_right _ (Nat.lt_succ_of_le hitem)
  | object members =>
    obtain ⟨entry, hentry, rfl⟩ := List.mem_map.mp h
    have hmember := length_le_of_mem [','] (List.mem_map_of_mem (f := compactMember) hentry)
    rw [compactMember, List.length_append, List.length_cons] at hmember
    rw [compact_object, List.length_append, List.length_cons]
    omega

theorem member_compactMember {read : Reader Json} {entry : String × Json} {rest : Text}
    (h : read (entry.2.compact ++ rest) = some (entry.2, rest)) :
    member read (compactMember entry ++ rest) = some (entry, rest) := by
  have hcolon : literal [':'] (':' :: (entry.2.compact ++ rest)) = some ((), entry.2.compact ++ rest) :=
    literal_append [':'] _
  simp only [member, compactMember, List.append_assoc, List.cons_append, quoted_quote,
    Option.bind_eq_bind, Option.bind_some, after_of_some hcolon, h, String.ofList_toList]
  rfl

theorem value_of_head? {text : Text} (harray : text.head? ≠ some '[') (hobject : text.head? ≠ some '{')
    (depth : Nat) : value (depth + 1) text = scalar text := by
  rw [value.eq_def]
  split <;> simp_all

theorem scalar_quote (text rest : Text) : scalar (quote text ++ rest) = some (string text, rest) := by
  have hquoted := quoted_quote text rest
  rw [scalar, orElse_of_none rfl, orElse_of_none rfl, orElse_of_none rfl,
    orElse_of_some (map_of_some hquoted)]

theorem head?_toDigits {c : Char} (hc : c.isDigit = false) (n : Nat) (rest : Text) :
    (Nat.toDigits 10 n ++ rest).head? ≠ some c := by
  intro hhead
  rw [List.head?_append, Option.or_of_isSome (by simp [Nat.toDigits_ne_nil])] at hhead
  have hdigit := Nat.isDigit_of_mem_toDigits (by decide) (by decide) (List.mem_of_head? hhead)
  exact absurd (hc.symm.trans hdigit) (by simp)

theorem scalar_toDigits (n : Nat) {rest : Text} (h : EndsNumber rest) :
    scalar (Nat.toDigits 10 n ++ rest) = some (number n, rest) := by
  have hword {word : Text} {c : Char} (hhead : word.head? = some c) (hc : c.isDigit = false) :
      literal word (Nat.toDigits 10 n ++ rest) = none :=
    literal_of_head? (hhead ▸ head?_toDigits hc n rest) (by rintro rfl; cases hhead)
  have hquoted : quoted (Nat.toDigits 10 n ++ rest) = none :=
    Reading.quoted_of_head? (head?_toDigits rfl n rest)
  rw [scalar, orElse_of_none (map_of_none (hword rfl rfl)),
    orElse_of_none (map_of_none (hword rfl rfl)), orElse_of_none (map_of_none (hword rfl rfl)),
    orElse_of_none (map_of_none hquoted)]
  exact map_of_some (Reading.natural_toDigits n h)

/-- Where an array is closed no value begins. -/
theorem value_closing (depth : Nat) (rest : Text) : value depth (']' :: rest) = none := by
  cases depth with
  | zero => rfl
  | succ depth =>
    rw [value_of_head? (by simp) (by simp), scalar, orElse_of_none rfl, orElse_of_none rfl,
      orElse_of_none rfl, orElse_of_none rfl]
    exact map_of_none (Reading.natural_of_head? rfl rest)

/-- A value is read, however deep others are nested inside it. -/
theorem value_compact (json : Json) {depth : Nat} {rest : Text}
    (hdepth : json.compact.length < depth) (hrest : EndsNumber rest) :
    value depth (json.compact ++ rest) = some (json, rest) := by
  induction json using ofParts generalizing depth rest with
  | h json ih =>
    obtain ⟨depth, rfl⟩ := Nat.exists_eq_succ_of_ne_zero (Nat.ne_zero_of_lt hdepth)
    have hpart : ∀ part ∈ json.parts, ∀ rest, EndsNumber rest →
        value depth (part.compact ++ rest) = some (part, rest) := by
      intro part hpart rest hrest
      have hlt := length_lt_of_mem_parts hpart
      exact ih part hpart (by omega) hrest
    cases json with
    | null => rfl
    | bool flag => cases flag <;> rfl
    | number n =>
      rw [compact, value_of_head? (head?_toDigits rfl n rest) (head?_toDigits rfl n rest)]
      exact scalar_toDigits n hrest
    | string text => exact scalar_quote text rest
    | array items =>
      have hitems := upTo_separated (by decide) rfl (value_closing depth) hpart rest
      rw [compact_array, List.cons_append, List.cons_append, List.append_assoc]
      exact map_of_some hitems
    | object members =>
      have hmembers := upTo_separated (show '}' ≠ ',' by decide) rfl (fun _ => rfl)
        (fun entry hentry rest hrest => member_compactMember
          (hpart entry.2 (List.mem_map_of_mem hentry) rest hrest)) rest
      rw [compact_object, List.cons_append, List.cons_append, List.append_assoc]
      exact map_of_some hmembers

theorem ofText?_compact (json : Json) : ofText? json.compact = some json := by
  have hvalue := value_compact json (Nat.lt_succ_self _) (show EndsNumber [] by simp [EndsNumber])
  rw [List.append_nil] at hvalue
  rw [ofText?, hvalue]

theorem newline_not_mem_compact (json : Json) : '\n' ∉ json.compact := by
  induction json using ofParts with
  | h json ih =>
    cases json with
    | null => decide
    | bool flag => cases flag <;> decide
    | number n =>
      exact fun hmem => absurd (Nat.isDigit_of_mem_toDigits (by decide) (by decide) hmem) (by decide)
    | string text => exact newline_not_mem_quote text
    | array items =>
      have hitems : '\n' ∉ separated [','] (items.map compact) :=
        newline_not_mem_separated (List.forall_mem_map.mpr ih)
      simp [compact_array, hitems]
    | object members =>
      have hmembers : '\n' ∉ separated [','] (members.map compactMember) := by
        refine newline_not_mem_separated (List.forall_mem_map.mpr fun entry hentry => ?_)
        have hvalue := ih entry.2 (List.mem_map_of_mem hentry)
        simp [compactMember, newline_not_mem_quote, hvalue]
      simp [compact_object, hmembers]

end WrenDocs.Json
