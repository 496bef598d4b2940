import WrenDocs.Text.Utf8

/-! A text cut at every occurrence of a separator, and put together again. -/
namespace WrenDocs.Text

/-- The parts between the separators; there is always one more part than there
are separators. -/
def splitOn (separator : Char) : Text → List Text
  | [] => [[]]
  | c :: text =>
    match splitOn separator text with
    | [] => [[c]]
    | part :: parts => if c = separator then [] :: part :: parts else (c :: part) :: parts

/-- The parts with the separator between them. -/
def joinWith (separator : Char) : List Text → Text
  | [] => []
  | [part] => part
  | part :: parts => part ++ separator :: joinWith separator parts

theorem splitOn_ne_nil (separator : Char) (text : Text) : splitOn separator text ≠ [] := by
  cases text with
  | nil => simp [splitOn]
  | cons c text =>
    unfold splitOn
    split
    · simp
    · split <;> simp

/-- The parts of a text make the text again. -/
theorem joinWith_splitOn (separator : Char) (text : Text) :
    joinWith separator (splitOn separator text) = text := by
  induction text with
  | nil => rfl
  | cons c text ih =>
    unfold splitOn
    split
    · rename_i hnil
      exact absurd hnil (splitOn_ne_nil separator text)
    · rename_i part parts hparts
      rw [hparts] at ih
      split
      · rename_i hc
        rw [joinWith, ih, hc, List.nil_append]
        simp
      · cases parts with
        | nil => simpa [joinWith] using ih
        | cons next parts => simpa [joinWith] using ih

end WrenDocs.Text
