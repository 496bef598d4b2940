import WrenDocs.Text.Utf8

/-! Wildcards: `*` stands for any part of a text, also the empty one, `?` for one
character, and any other character for itself. -/
namespace WrenDocs.Wildcard

/-- How far a pattern gets in a text before its next star. -/
inductive Progress where
  /-- The text is used up; tells whether nothing but stars is left. -/
  | ended (accepted : Bool)
  /-- A star is next, with the pattern after it and the text from there. -/
  | star (pattern text : Text)
  | mismatch
  deriving DecidableEq, Repr, Inhabited

/-- Follows a pattern and a text, character by character. -/
def walk (pattern : Text) : Text → Progress
  | [] => .ended (pattern.all (· == '*'))
  | c :: text =>
    match pattern with
    | [] => .mismatch
    | '*' :: pattern => .star pattern (c :: text)
    | p :: pattern => if p = '?' ∨ p = c then walk pattern text else .mismatch

/-- At a star the pattern has got shorter, and the text has not grown. -/
theorem length_of_walk_star {pattern text pattern' text' : Text}
    (h : walk pattern text = .star pattern' text') :
    pattern'.length < pattern.length ∧ text'.length ≤ text.length := by
  induction text generalizing pattern with
  | nil => simp [walk] at h
  | cons c text ih =>
    unfold walk at h
    split at h
    · simp at h
    · obtain ⟨rfl, rfl⟩ := Progress.star.inj h
      simp
    · split at h
      · have := ih h
        simp only [List.length_cons]
        omega
      · simp at h

/-- Whether a text matches a pattern that has a star before it. The star takes
as little as it can: one character more each time the match fails. A star that
comes later takes over, for what an earlier one could reach by taking more, the
later one reaches too. -/
def acceptsAfterStar (pattern text : Text) : Bool :=
  match _ : walk pattern text with
  | .ended accepted => accepted
  | .star pattern text => acceptsAfterStar pattern text
  | .mismatch =>
    match text with
    | [] => false
    | _ :: text => acceptsAfterStar pattern text
termination_by pattern.length + text.length
decreasing_by
  · have := length_of_walk_star ‹_›
    omega
  · simp only [List.length_cons]
    omega

/-- Whether all of a text matches a pattern. -/
def accepts (pattern text : Text) : Bool :=
  match walk pattern text with
  | .ended accepted => accepted
  | .star pattern text => acceptsAfterStar pattern text
  | .mismatch => false

end WrenDocs.Wildcard
