import WrenDocs.Proofs.Toml.Quoted
import WrenDocs.Toml.Document

/-! Keys read back: a key in any of its three forms is the key, and a dotted header
is its parts. -/
namespace WrenDocs.Toml
open Reader Setting

theorem skipBlanks_of_head? {text : Text} (h : ∀ c ∈ text.head?, isBlank c = false) :
    skipBlanks text = text := by
  cases text with
  | nil => rfl
  | cons c text => simp [skipBlanks, h c rfl]

theorem of_isBareKeyChar {c : Char} (h : isBareKeyChar c = true) :
    c ≠ '"' ∧ c ≠ '\'' ∧ isBlank c = false := by
  refine ⟨?_, ?_, ?_⟩
  · rintro rfl
    simp [isBareKeyChar] at h
  · rintro rfl
    simp [isBareKeyChar] at h
  · rw [isBlank, Bool.or_eq_false_iff, beq_eq_false_iff_ne, beq_eq_false_iff_ne]
    constructor
    · rintro rfl
      simp [isBareKeyChar] at h
    · rintro rfl
      simp [isBareKeyChar] at h

theorem bareKey_append {key rest : Text} (hne : key ≠ []) (hkey : key.all isBareKeyChar = true)
    (hrest : ∀ c ∈ rest.head?, isBareKeyChar c = false) :
    bareKey (key ++ rest) = some (key, rest) := by
  have hstop : rest.takeWhile isBareKeyChar = [] := by
    cases rest with
    | nil => rfl
    | cons c rest => simp [hrest c rfl]
  have htake : (key ++ rest).takeWhile isBareKeyChar = key := by
    rw [List.takeWhile_append_of_pos (List.all_eq_true.mp hkey), hstop, List.append_nil]
  obtain ⟨c, tail, rfl⟩ := List.exists_cons_of_ne_nil hne
  simp only [bareKey, htake, List.drop_left]

theorem literal_key_plain {key : Text} (hcontrol : key.any isControl = false)
    (hquote : key.contains '\'' = false) : ∀ c ∈ key, c ≠ '\'' ∧ isControl c = false := by
  intro c hc
  refine ⟨?_, by simpa using List.any_eq_false.mp hcontrol c hc⟩
  rintro rfl
  simp [hc] at hquote

/-- The three forms of a key, each with what it takes to be chosen. -/
theorem writeKey_cases (key : Text) :
    (key ≠ [] ∧ key.all isBareKeyChar = true ∧ writeKey key = key) ∨
    writeKey key = quoteIn .basic key ∨
    ((∀ c ∈ key, c ≠ '\'' ∧ isControl c = false) ∧ writeKey key = quoteIn .literal key) := by
  simp only [writeKey]
  split
  · rename_i hbare
    exact .inl ⟨hbare.1, hbare.2, rfl⟩
  · split
    · exact .inr (.inl rfl)
    · split
      · rename_i hliteral
        simp only [Bool.and_eq_true, Bool.not_eq_true'] at hliteral
        exact .inr (.inr ⟨literal_key_plain hliteral.1 hliteral.2, rfl⟩)
      · exact .inr (.inl rfl)

theorem keyPart_writeKey (key : Text) {rest : Text}
    (hrest : ∀ c ∈ rest.head?, isBareKeyChar c = false) :
    keyPart (writeKey key ++ rest) = some (String.ofList key, skipBlanks rest) := by
  rcases writeKey_cases key with ⟨hne, hbare, heq⟩ | heq | ⟨hplain, heq⟩
  · rw [heq]
    obtain ⟨c, tail, rfl⟩ := List.exists_cons_of_ne_nil hne
    obtain ⟨hdouble, hsingle, hblank⟩ :=
      of_isBareKeyChar (List.all_eq_true.mp hbare c List.mem_cons_self)
    have hskip : skipBlanks (c :: tail ++ rest) = c :: tail ++ rest :=
      skipBlanks_of_head? (by simpa using hblank)
    have hbasic : basicString (c :: tail ++ rest) = none := by
      rw [List.cons_append, basicString]
      rintro text ⟨⟩
      exact hdouble rfl
    have hliteral : literalString (c :: tail ++ rest) = none := by
      rw [List.cons_append, literalString]
      rintro text ⟨⟩
      exact hsingle rfl
    rw [keyPart, hskip, orElse_of_none hbasic, orElse_of_none hliteral,
      bareKey_append hne hbare hrest, Option.map_some]
  · have hskip : skipBlanks (quoteIn .basic key ++ rest) = quoteIn .basic key ++ rest := rfl
    rw [heq, keyPart, hskip, orElse_of_some (basicString_quoteIn key rest), Option.map_some]
  · have hskip : skipBlanks (quoteIn .literal key ++ rest) = quoteIn .literal key ++ rest := rfl
    have hbasic : basicString (quoteIn .literal key ++ rest) = none := rfl
    rw [heq, keyPart, hskip, orElse_of_none hbasic,
      orElse_of_some (literalString_quoteIn hplain rest), Option.map_some]

/-- A dot and one more part of a key. -/
def dottedPart : Reader String :=
  Reader.after (Reader.literal ['.']) keyPart

theorem dottedPart_of_head? {text : Text} (h : text.head? ≠ some '.') : dottedPart text = none :=
  after_of_none (literal_of_head? h (by simp))

theorem dottedPart_dot (text : Text) : dottedPart ('.' :: text) = keyPart text :=
  after_of_some (literal_append ['.'] text)

/-- A key is its parts: the first, and one after each dot. -/
theorem keyPath_of_takes {text middle rest : Text} {first last : String} {others path : List String}
    (hfirst : keyPart text = some (first, middle)) (hothers : Takes dottedPart middle others rest)
    (hrest : rest.head? ≠ some '.') (hparts : first :: others = path ++ [last])
    (hlength : path.length + 1 < depthLimit) : keyPath text = some ((path, last), rest) := by
  have hseparated := separatedBy_of_takes hfirst hothers (dottedPart_of_head? hrest)
  have hshort : (path ++ [last]).length < depthLimit := by
    rw [List.length_append]
    exact hlength
  rw [keyPath, hseparated, Option.bind_some, hparts]
  simp only [if_pos hshort, List.getLast?_concat, List.dropLast_concat, Option.map_some]

/-- The key of a pair, up to the sign of equality. -/
theorem keyPath_key (key rest : Text) :
    keyPath (writeKey key ++ (" = ".toList ++ rest)) =
      some (([], String.ofList key), '=' :: ' ' :: rest) := by
  have hpart : keyPart (writeKey key ++ ' ' :: '=' :: ' ' :: rest) =
      some (String.ofList key, '=' :: ' ' :: rest) := keyPart_writeKey key (by simp [isBareKeyChar])
  exact keyPath_of_takes hpart (.refl _) (by simp) rfl (by decide)

/-! ## Headers -/

theorem writeHeader_cons (key : String) (keys : List String) :
    Section.writeHeader (key :: keys) =
      writeKey key.toList ++ keys.flatMap fun next => '.' :: writeKey next.toList := by
  induction keys generalizing key with
  | nil => simp [Section.writeHeader]
  | cons next keys ih => rw [Section.writeHeader, ih, List.flatMap_cons, List.cons_append]; simp

/-- The parts of a header after the first, and its closing bracket. -/
def headerTail (keys : List String) (rest : Text) : Text :=
  keys.flatMap (fun key => '.' :: writeKey key.toList) ++ ']' :: rest

theorem keyPart_headerTail (key : String) (keys : List String) (rest : Text) :
    keyPart (writeKey key.toList ++ headerTail keys rest) = some (key, headerTail keys rest) := by
  have hhead : ∀ c ∈ (headerTail keys rest).head?, isBareKeyChar c = false ∧ isBlank c = false := by
    cases keys <;> simp [headerTail, isBareKeyChar, isBlank]
  rw [keyPart_writeKey key.toList fun c hc => (hhead c hc).1,
    skipBlanks_of_head? fun c hc => (hhead c hc).2, String.ofList_toList]

theorem takes_dottedPart (keys : List String) (rest : Text) :
    Takes dottedPart (headerTail keys rest) keys (']' :: rest) := by
  induction keys with
  | nil => exact .refl _
  | cons key keys ih =>
    have htail : headerTail (key :: keys) rest =
        '.' :: (writeKey key.toList ++ headerTail keys rest) := by
      simp [headerTail]
    have hread : dottedPart (headerTail (key :: keys) rest) = some (key, headerTail keys rest) := by
      rw [htail, dottedPart_dot, keyPart_headerTail]
    refine .head hread ?_ ih
    rw [htail, List.length_cons, List.length_append]
    omega

/-- The parts of a header, up to its closing bracket. -/
theorem keyPath_writeHeader {path : List String} {last : String}
    (h : path.length + 1 < depthLimit) (rest : Text) :
    keyPath (Section.writeHeader (path ++ [last]) ++ ']' :: rest) =
      some ((path, last), ']' :: rest) := by
  obtain ⟨key, keys, hkeys⟩ := List.exists_cons_of_ne_nil (l := path ++ [last]) (by simp)
  rw [hkeys, writeHeader_cons, List.append_assoc]
  exact keyPath_of_takes (keyPart_headerTail key keys rest) (takes_dottedPart keys rest) (by simp)
    hkeys.symm h

end WrenDocs.Toml
