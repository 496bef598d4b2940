import WrenDocs.Config
import WrenDocs.Proofs.Split

/-! Silenced warnings. The names of warnings are the nodes of a hierarchy, written
with dots, and an entry silences the node it names with everything under it. -/
namespace WrenDocs.Config

/-- One name is under another if a dot follows the other in it, not just any text. -/
theorem isUnder_iff {entry name : Text} :
    isUnder entry name = true ↔ name = entry ∨ ∃ rest, name = entry ++ '.' :: rest := by
  simp only [isUnder, Bool.or_eq_true, beq_iff_eq, List.isPrefixOf_iff_prefix]
  apply or_congr_right
  constructor
  · rintro ⟨rest, rfl⟩
    exact ⟨rest, by simp⟩
  · rintro ⟨rest, rfl⟩
    exact ⟨rest, by simp⟩

/-- What is under a name begins with its components, each of them whole. -/
theorem isUnder_iff_components {entry name : Text} :
    isUnder entry name = true ↔ Text.splitOn '.' entry <+: Text.splitOn '.' name := by
  rw [isUnder_iff]
  constructor
  · rintro (rfl | ⟨rest, rfl⟩)
    · exact List.prefix_rfl
    · rw [Text.splitOn_append_cons]
      exact List.prefix_append ..
  · rintro ⟨more, hmore⟩
    have hname : name = entry ++ more.flatMap ('.' :: ·) := by
      rw [← Text.joinWith_splitOn '.' name, ← hmore,
        Text.joinWith_append '.' (Text.splitOn_ne_nil '.' entry), Text.joinWith_splitOn]
    cases more with
    | nil => exact .inl (by simpa using hname)
    | cons part more => exact .inr ⟨part ++ more.flatMap ('.' :: ·), by simpa using hname⟩

theorem isSuppressed_iff {config : Config} {warning : Text} : config.isSuppressed warning = true ↔
    ∃ entry ∈ config.suppressWarnings, isUnder entry.toList warning = true := by
  rw [isSuppressed, List.any_eq_true]

/-- **Silenced warnings follow the hierarchy.** A warning is silenced if and only if
the components of some entry are the first components of its name. So everything under
a silenced name is silenced with it, and no further entry takes this back. -/
theorem isSuppressed_follows_components (config : Config) (warning : Text) :
    (config.isSuppressed warning = true ↔ ∃ entry ∈ config.suppressWarnings,
      Text.splitOn '.' entry.toList <+: Text.splitOn '.' warning) ∧
    (config.isSuppressed warning = true →
      (∀ rest, config.isSuppressed (warning ++ '.' :: rest) = true) ∧
      ∀ entries, config.suppressWarnings ⊆ entries →
        { config with suppressWarnings := entries }.isSuppressed warning = true) := by
  constructor
  · simp only [isSuppressed_iff, isUnder_iff_components]
  · intro h
    obtain ⟨entry, hentry, hunder⟩ := isSuppressed_iff.mp h
    constructor
    · intro rest
      apply isSuppressed_iff.mpr
      refine ⟨entry, hentry, ?_⟩
      rw [isUnder_iff_components] at hunder ⊢
      rw [Text.splitOn_append_cons]
      exact hunder.trans (List.prefix_append ..)
    · intro entries hentries
      exact isSuppressed_iff.mpr ⟨entry, hentries hentry, hunder⟩

/-- An entry for `misc`, to which one is added that ends in a dot. -/
theorem isSuppressed_follows_components_of_misc :
    let config := { published with suppressWarnings := ["misc"] }
    config.isSuppressed "misc.other".toList = true ∧
    config.suppressWarnings ⊆ ["misc.", "misc"] ∧
    config.isSuppressed "misc.other..at".toList = true ∧
    { config with suppressWarnings := ["misc.", "misc"] }.isSuppressed "misc.other".toList = true := by
  intro config
  have hother : config.isSuppressed "misc.other".toList = true := by decide
  have hentries : config.suppressWarnings ⊆ ["misc.", "misc"] := List.subset_cons_self ..
  obtain ⟨hunder, hadded⟩ := (isSuppressed_follows_components config _).2 hother
  exact ⟨hother, hentries, hunder ".at".toList, hadded _ hentries⟩

end WrenDocs.Config
