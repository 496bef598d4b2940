import WrenDocs.Toml.Reader

/-! Laws of readers. What `many` gives is told by the values one after the other,
each with the text it leaves to the next. -/
namespace WrenDocs.Toml.Reader

variable {α β : Type}

/-- Values taken off the front of a text one by one, and what they leave. -/
inductive Takes (read : Reader α) : Text → List α → Text → Prop where
  | refl (text : Text) : Takes read text [] text
  | head {text middle rest : Text} {value : α} {values : List α} :
      read text = some (value, middle) → middle.length < text.length →
      Takes read middle values rest → Takes read text (value :: values) rest

theorem Takes.append {read : Reader α} {text middle rest : Text} {first last : List α}
    (h : Takes read text first middle) (h' : Takes read middle last rest) :
    Takes read text (first ++ last) rest := by
  induction h with
  | refl => exact h'
  | head hread hlt _ ih => exact .head hread hlt (ih h')

theorem many_of_none {read : Reader α} {text : Text} (h : read text = none) :
    many read text = ([], text) := by
  rw [many, h]

/-- `many` gives all values up to where none stands. -/
theorem Takes.many_eq {read : Reader α} {text rest : Text} {values : List α}
    (h : Takes read text values rest) (hrest : read rest = none) :
    many read text = (values, rest) := by
  induction h with
  | refl => exact many_of_none hrest
  | head hread hlt _ ih =>
    rw [many, hread]
    simp only [if_pos hlt, ih hrest]

/-- Values written one after the other are read one after the other, if each can be
told from any text that may follow it. -/
theorem takes_flatMap (follows : Text → Prop) {read : Reader α} {write : α → Text}
    (hne : ∀ value, write value ≠ []) (hfollows : ∀ value rest, follows (write value ++ rest))
    {values : List α} (hread : ∀ value ∈ values, ∀ rest, follows rest →
      read (write value ++ rest) = some (value, rest))
    {rest : Text} (hrest : follows rest) :
    Takes read (values.flatMap write ++ rest) values rest := by
  induction values with
  | nil => exact .refl rest
  | cons value values ih =>
    obtain ⟨hvalue, hvalues⟩ := List.forall_mem_cons.mp hread
    have hlength := List.length_pos_iff.mpr (hne value)
    have hnext : follows (values.flatMap write ++ rest) := by
      cases values with
      | nil => exact hrest
      | cons next values => simpa using hfollows next (values.flatMap write ++ rest)
    rw [List.flatMap_cons, List.append_assoc]
    exact .head (hvalue _ hnext) (by simp only [List.length_append]; omega) (ih hvalues)

theorem orElse_of_some {first second : Reader α} {text : Text} {found : α × Text}
    (h : first text = some found) : orElse first second text = some found := by
  rw [orElse, h, Option.some_or]

theorem orElse_of_none {first second : Reader α} {text : Text} (h : first text = none) :
    orElse first second text = second text := by
  rw [orElse, h, Option.none_or]

theorem map_of_some {f : α → β} {read : Reader α} {text rest : Text} {value : α}
    (h : read text = some (value, rest)) : map f read text = some (f value, rest) := by
  rw [map, h, Option.map_some]

theorem map_of_none {f : α → β} {read : Reader α} {text : Text} (h : read text = none) :
    map f read text = none := by
  rw [map, h, Option.map_none]

theorem literal_append (expected rest : Text) :
    literal expected (expected ++ rest) = some ((), rest) := by
  simp [literal]

/-- A text that begins otherwise has not the expected beginning. -/
theorem literal_of_head? {expected text : Text} (h : text.head? ≠ expected.head?)
    (hne : expected ≠ []) : literal expected text = none := by
  obtain ⟨c, expected, rfl⟩ := List.exists_cons_of_ne_nil hne
  rw [literal, if_neg]
  cases text with
  | nil => simp
  | cons d text =>
    have hcd : c ≠ d := fun heq => h (by simp [heq])
    simp [hcd]

/-- A separator and one more value. -/
def after (separator : Reader Unit) (read : Reader α) : Reader α := fun text =>
  (separator text).bind fun found => read found.2

theorem after_of_none {separator : Reader Unit} {read : Reader α} {text : Text}
    (h : separator text = none) : after separator read text = none := by
  rw [after, h, Option.bind_none]

theorem after_of_some {separator : Reader Unit} {read : Reader α} {text rest : Text}
    (h : separator text = some ((), rest)) : after separator read text = read rest := by
  rw [after, h, Option.bind_some]

theorem separatedBy_of_none {separator : Reader Unit} {read : Reader α} {text : Text}
    (h : read text = none) : separatedBy separator read text = none := by
  rw [separatedBy, h, Option.map_none]

theorem separatedBy_of_takes {separator : Reader Unit} {read : Reader α} {text middle rest : Text}
    {first : α} {others : List α} (hfirst : read text = some (first, middle))
    (hothers : Takes (after separator read) middle others rest)
    (hrest : after separator read rest = none) :
    separatedBy separator read text = some (first :: others, rest) := by
  have hmany := hothers.many_eq hrest
  simp only [separatedBy, hfirst, Option.map_some]
  exact congrArg (fun found => some (first :: found.1, found.2)) hmany

/-! ## What values are read -/

/-- All values that a reader gives are of a kind. -/
def Gives (kind : α → Prop) (read : Reader α) : Prop :=
  ∀ text value rest, read text = some (value, rest) → kind value

variable {kind : α → Prop} {read : Reader α}

theorem Gives.orElse {first second : Reader α} (hfirst : Gives kind first)
    (hsecond : Gives kind second) : Gives kind (orElse first second) := by
  intro text value rest h
  rw [Reader.orElse, Option.or_eq_some_iff] at h
  rcases h with h | ⟨-, h⟩
  · exact hfirst text value rest h
  · exact hsecond text value rest h

theorem Gives.map {kind : β → Prop} {f : α → β} {earlier : α → Prop} (h : Gives earlier read)
    (hf : ∀ value, earlier value → kind (f value)) : Gives kind (map f read) := by
  intro text value rest hread
  rw [Reader.map, Option.map_eq_some_iff] at hread
  obtain ⟨⟨found, after⟩, hfound, heq⟩ := hread
  cases heq
  exact hf found (h text found after hfound)

theorem Gives.after (h : Gives kind read) (separator : Reader Unit) :
    Gives kind (after separator read) := by
  intro text value rest hread
  rw [Reader.after, Option.bind_eq_some_iff] at hread
  obtain ⟨found, -, hread⟩ := hread
  exact h found.2 value rest hread

theorem Gives.many (h : Gives kind read) (text : Text) :
    ∀ value ∈ (many read text).1, kind value := by
  fun_induction Reader.many read text with
  | case1 text hnone => simp
  | case2 text value rest hread hlt values last hmany ih =>
    rw [hmany] at ih
    intro found hfound
    rcases List.mem_cons.mp hfound with rfl | hfound
    · exact h text found rest hread
    · exact ih found hfound
  | case3 => simp

theorem Gives.separatedBy (h : Gives kind read) (separator : Reader Unit) :
    Gives (fun values => ∀ value ∈ values, kind value) (separatedBy separator read) := by
  intro text values rest hread
  rw [Reader.separatedBy, Option.map_eq_some_iff] at hread
  obtain ⟨⟨first, middle⟩, hfirst, heq⟩ := hread
  cases heq
  rw [List.forall_mem_cons]
  exact ⟨h text first middle hfirst, (h.after separator).many middle⟩

end WrenDocs.Toml.Reader
