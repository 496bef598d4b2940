import WrenDocs.Language
import WrenDocs.Proofs.Ascii
import Mathlib.Data.List.Forall2

/-! Names that are asked for. The case of ASCII letters does not count in them, nor does
the white space around them. -/
namespace WrenDocs.Text

/-! ## Case -/

/-- A capital ASCII letter, and the small one to it. -/
def IsCapitalOf (c d : Char) : Prop :=
  c.isUpper = true ∧ d.toNat = c.toNat + 32

/-- Two characters that ASCII case alone tells apart, if anything. -/
def SameLetter (c d : Char) : Prop :=
  c = d ∨ IsCapitalOf c d ∨ IsCapitalOf d c

instance (c d : Char) : Decidable (IsCapitalOf c d) :=
  inferInstanceAs (Decidable (_ ∧ _))

instance (c d : Char) : Decidable (SameLetter c d) :=
  inferInstanceAs (Decidable (_ ∨ _))

theorem isAscii_of_isUpper {c : Char} (h : c.isUpper = true) : isAscii c = true := by
  apply isAscii_of_isAlphanum
  rw [isAlphanum_eq, h]
  rfl

theorem isCapitalOf_toLower {c : Char} (h : c.isUpper = true) : IsCapitalOf c c.toLower := by
  have htable : ascii.all (fun c =>
      decide (c.isUpper = true → c.toLower.toNat = c.toNat + 32)) = true := by
    decide
  have hc := List.all_eq_true.mp htable c (mem_ascii (isAscii_of_isUpper h))
  exact ⟨h, of_decide_eq_true hc h⟩

theorem toLower_of_not_isUpper {c : Char} (h : ¬ c.isUpper = true) : c.toLower = c :=
  dif_neg fun hrange => h (decide_eq_true hrange)

/-- A small letter is no capital of another. -/
theorem not_isUpper_of_isCapitalOf {c d : Char} (h : IsCapitalOf c d) : ¬ d.isUpper = true := by
  intro hupper
  have hc := toNat_of_isUpper h.1
  have hd := toNat_of_isUpper hupper
  have hshift := h.2
  omega

theorem toLower_of_isCapitalOf {c d : Char} (h : IsCapitalOf c d) : c.toLower = d := by
  apply Char.toNat_inj.mp
  rw [(isCapitalOf_toLower h.1).2, h.2]

theorem toLower_eq_iff {c d : Char} : c.toLower = d.toLower ↔ SameLetter c d := by
  constructor
  · intro h
    by_cases hc : c.isUpper = true
    · by_cases hd : d.isUpper = true
      · left
        have hshift := (isCapitalOf_toLower hc).2
        rw [h, (isCapitalOf_toLower hd).2] at hshift
        exact Char.toNat_inj.mp (by omega)
      · right
        left
        rw [toLower_of_not_isUpper hd] at h
        exact h ▸ isCapitalOf_toLower hc
    · rw [toLower_of_not_isUpper hc] at h
      by_cases hd : d.isUpper = true
      · right
        right
        exact h ▸ isCapitalOf_toLower hd
      · left
        rwa [toLower_of_not_isUpper hd] at h
  · rintro (rfl | hcapital | hcapital)
    · rfl
    · rw [toLower_of_isCapitalOf hcapital,
        toLower_of_not_isUpper (not_isUpper_of_isCapitalOf hcapital)]
    · rw [toLower_of_isCapitalOf hcapital,
        toLower_of_not_isUpper (not_isUpper_of_isCapitalOf hcapital)]

theorem foldCase_eq_iff {text other : Text} :
    Language.foldCase text = Language.foldCase other ↔ List.Forall₂ SameLetter text other := by
  have hequal : Language.foldCase text = Language.foldCase other ↔
      List.Forall₂ Eq (Language.foldCase text) (Language.foldCase other) := by
    rw [List.forall₂_eq_eq_eq]
  rw [hequal, Language.foldCase, Language.foldCase, List.forall₂_map_left_iff,
    List.forall₂_map_right_iff]
  simp only [toLower_eq_iff]

/-! ## White space -/

/-- A text has nothing but white space around another. -/
def Surrounds (text core : Text) : Prop :=
  ∃ before after, text = before ++ core ++ after ∧
    (∀ c ∈ before, isWhiteSpace c = true) ∧ ∀ c ∈ after, isWhiteSpace c = true

/-- A text has no white space at its ends. -/
def IsTrimmed (text : Text) : Prop :=
  (∀ c, text.head? = some c → isWhiteSpace c = false) ∧
    ∀ c, text.getLast? = some c → isWhiteSpace c = false

theorem isWhiteSpace_of_mem_takeWhile {text : Text} {c : Char}
    (h : c ∈ text.takeWhile isWhiteSpace) : isWhiteSpace c = true :=
  List.all_eq_true.mp List.all_takeWhile c h

theorem isWhiteSpace_head?_dropWhile {text : Text} {c : Char}
    (h : (text.dropWhile isWhiteSpace).head? = some c) : isWhiteSpace c = false := by
  have hhead := List.head?_dropWhile_not isWhiteSpace text
  rwa [h] at hhead

theorem dropWhile_of_head? {text : Text} (h : ∀ c, text.head? = some c → isWhiteSpace c = false) :
    text.dropWhile isWhiteSpace = text := by
  cases text with
  | nil => rfl
  | cons c text => exact List.dropWhile_cons_of_neg (by simp [h c rfl])

/-- At its end a text is trimmed as its reverse is at the front. -/
theorem trimmed_append_end (text : Text) :
    (text.reverse.dropWhile isWhiteSpace).reverse ++
      (text.reverse.takeWhile isWhiteSpace).reverse = text := by
  rw [← List.reverse_append, List.takeWhile_append_dropWhile, List.reverse_reverse]

theorem surrounds_trim (text : Text) : Surrounds text (trim text) := by
  refine ⟨text.takeWhile isWhiteSpace,
    ((text.dropWhile isWhiteSpace).reverse.takeWhile isWhiteSpace).reverse, ?_, ?_, ?_⟩
  · rw [List.append_assoc, trim, trimmed_append_end, List.takeWhile_append_dropWhile]
  · intro c hc
    exact isWhiteSpace_of_mem_takeWhile hc
  · intro c hc
    exact isWhiteSpace_of_mem_takeWhile (List.mem_reverse.mp hc)

theorem isTrimmed_trim (text : Text) : IsTrimmed (trim text) := by
  constructor
  · intro c hc
    apply @isWhiteSpace_head?_dropWhile text c
    rw [← trimmed_append_end (text.dropWhile isWhiteSpace), List.head?_append]
    exact Option.or_eq_some_iff.mpr (.inl hc)
  · intro c hc
    rw [trim, List.getLast?_reverse] at hc
    exact isWhiteSpace_head?_dropWhile hc

/-- What surrounds a text is trimmed away, and its own white space at the ends with it. -/
theorem trim_of_surrounds {text core : Text} (h : Surrounds text core) : trim text = trim core := by
  obtain ⟨before, after, rfl, hbefore, hafter⟩ := h
  have hend (front : Text) :
      (front ++ after).reverse.dropWhile isWhiteSpace = front.reverse.dropWhile isWhiteSpace := by
    rw [List.reverse_append, List.dropWhile_append_of_pos]
    intro c hc
    exact hafter c (List.mem_reverse.mp hc)
  rw [trim, trim, List.append_assoc, List.dropWhile_append_of_pos hbefore, List.dropWhile_append]
  split
  · rename_i hblank
    rw [List.isEmpty_iff.mp hblank, ← List.append_nil after, List.dropWhile_append_of_pos hafter]
    rfl
  · rw [hend]

/-- Trimming finds the one text without white space at its ends that has nothing else
around it. -/
theorem trim_eq_iff {text core : Text} :
    trim text = core ↔ Surrounds text core ∧ IsTrimmed core := by
  constructor
  · rintro rfl
    exact ⟨surrounds_trim text, isTrimmed_trim text⟩
  · rintro ⟨hsurrounds, hhead, hlast⟩
    rw [trim_of_surrounds hsurrounds, trim, dropWhile_of_head? hhead, dropWhile_of_head?,
      List.reverse_reverse]
    intro c hc
    exact hlast c (by rwa [List.head?_reverse] at hc)

/-! ## Both -/

/-- Two texts that ASCII case and the white space around them alone tell apart. -/
def SameQuery (query other : Text) : Prop :=
  ∃ core core', Surrounds query core ∧ Surrounds other core' ∧ List.Forall₂ SameLetter core core'

theorem isWhiteSpace_toLower (c : Char) : isWhiteSpace c.toLower = isWhiteSpace c := by
  by_cases hupper : c.isUpper = true
  · have htable : ascii.all (fun c =>
        decide (c.isUpper = true → isWhiteSpace c.toLower = isWhiteSpace c)) = true := by
      decide
    have hc := List.all_eq_true.mp htable c (mem_ascii (isAscii_of_isUpper hupper))
    exact of_decide_eq_true hc hupper
  · rw [toLower_of_not_isUpper hupper]

/-- A text is trimmed as well before as after its capitals are made small. -/
theorem foldCase_trim (text : Text) :
    Language.foldCase (trim text) = trim (Language.foldCase text) := by
  have hspace : isWhiteSpace ∘ Char.toLower = isWhiteSpace := funext isWhiteSpace_toLower
  simp only [Language.foldCase, trim, List.dropWhile_map, ← List.map_reverse, hspace]

theorem foldCase_trim_of_sameQuery {query other : Text} (h : SameQuery query other) :
    Language.foldCase (trim query) = Language.foldCase (trim other) := by
  obtain ⟨core, core', hquery, hother, hletters⟩ := h
  rw [trim_of_surrounds hquery, trim_of_surrounds hother, foldCase_trim, foldCase_trim,
    foldCase_eq_iff.mpr hletters]

end WrenDocs.Text
