import WrenDocs.Proofs.Command.Arguments

/-! What one argument does. An option chooses something or is refused, and anything else
is a path, whatever was taken in before. -/
namespace WrenDocs

def OutputFormat.name : OutputFormat → Text
  | html => "html".toList
  | json => "json".toList
  | spans => "spans".toList

theorem OutputFormat.ofName?_eq_some_iff {name : Text} {format : OutputFormat} :
    ofName? name = some format ↔ name = format.name := by
  constructor
  · intro h
    unfold ofName? at h
    repeat' split at h
    all_goals cases h
    all_goals assumption
  · rintro rfl
    cases format <;> rfl

namespace HighlightArguments

/-- What one option chooses. -/
inductive Choice where
  | format (format : OutputFormat)
  | config (path : Text)
  | language (name : Text)

def Choice.written : Choice → Text
  | format chosen => "--format=".toList ++ chosen.name
  | config path => "--config=".toList ++ path
  | language name => "--lang=".toList ++ name

def Choice.apply (parsed : HighlightArguments) : Choice → HighlightArguments
  | format chosen => { parsed with format := chosen }
  | config path => { parsed with config? := some path }
  | language name => { parsed with language? := some name }

def IsOption (argument : Text) : Prop :=
  argument.head? = some '-'

instance (argument : Text) : Decidable (IsOption argument) :=
  inferInstanceAs (Decidable (_ = _))

/-- An option that chooses nothing. -/
def IsOffending (argument : Text) : Prop :=
  IsOption argument ∧ ∀ choice : Choice, argument ≠ choice.written

/-- An error names an option, or the format that the option asks for. -/
inductive Names : UsageError → Text → Prop
  | format (name : Text) : Names (.unknownFormat name) ("--format=".toList ++ name)
  | option {argument : Text} : ¬ "--format=".toList <+: argument →
      Names (.unknownOption argument) argument

/-- An argument is an option that chooses something, a path, or refused. -/
theorem written_or_path_or_offending (argument : Text) :
    (∃ choice : Choice, argument = choice.written) ∨ ¬ IsOption argument ∨
      IsOffending argument := by
  by_cases hoption : IsOption argument
  · by_cases hchoice : ∃ choice : Choice, argument = choice.written
    · exact .inl hchoice
    · exact .inr (.inr ⟨hoption, fun choice heq => hchoice ⟨choice, heq⟩⟩)
  · exact .inr (.inl hoption)

theorem isOption_written (choice : Choice) : IsOption choice.written := by
  cases choice <;> rfl

theorem add_written (parsed : HighlightArguments) (choice : Choice) :
    parsed.add choice.written = .ok (choice.apply parsed) := by
  cases choice with
  | format format => cases format <;> rfl
  | config path => rfl
  | language name => rfl

/-- Options that are written alike choose alike. -/
theorem written_inj {choice other : Choice} (h : choice.written = other.written) :
    choice = other := by
  have happly : choice.apply initial = other.apply initial := by
    apply @Except.ok.inj UsageError
    rw [← add_written, ← add_written, h]
  cases choice <;> cases other <;> simp_all [Choice.apply, initial]

theorem names_unique {cause other : UsageError} {argument : Text} (h : Names cause argument)
    (hother : Names other argument) : cause = other := by
  cases h with
  | format name =>
    generalize hargument : "--format=".toList ++ name = argument at hother
    cases hother with
    | format other => rw [List.append_cancel_left hargument]
    | option hnot => exact absurd ⟨name, hargument⟩ hnot
  | option hnot =>
    cases hother with
    | format name => exact absurd (List.prefix_append ..) hnot
    | option _ => rfl

theorem add_offending (parsed : HighlightArguments) {argument : Text} (h : IsOffending argument) :
    ∃ cause, Names cause argument ∧ parsed.add argument = .error cause := by
  obtain ⟨hoption, hnone⟩ := h
  unfold add
  cases hformat : after? "--format=".toList argument with
  | some name =>
    obtain rfl := after?_eq_some_iff.mp hformat
    cases hname : OutputFormat.ofName? name with
    | some format =>
      obtain rfl := OutputFormat.ofName?_eq_some_iff.mp hname
      exact absurd rfl (hnone (.format format))
    | none => exact ⟨_, .format name, by simp only [hname]⟩
  | none =>
    cases hconfig : after? "--config=".toList argument with
    | some path => exact absurd (after?_eq_some_iff.mp hconfig) (hnone (.config path))
    | none =>
      cases hlanguage : after? "--lang=".toList argument with
      | some name => exact absurd (after?_eq_some_iff.mp hlanguage) (hnone (.language name))
      | none =>
        refine ⟨.unknownOption argument, .option ?_, if_pos hoption⟩
        rintro ⟨name, hname⟩
        rw [after?_eq_some_iff.mpr hname.symm] at hformat
        cases hformat

/-! ## What is refused -/

/-- Why an argument is refused, if it is. -/
def offence? (argument : Text) : Option UsageError :=
  match initial.add argument with
  | .ok _ => none
  | .error cause => some cause

theorem add_eq_error_iff {parsed : HighlightArguments} {argument : Text} {cause : UsageError} :
    parsed.add argument = .error cause ↔ IsOffending argument ∧ Names cause argument := by
  constructor
  · intro h
    obtain ⟨choice, rfl⟩ | hpath | hoffending := written_or_path_or_offending argument
    · rw [add_written] at h
      cases h
    · rw [add_path parsed hpath] at h
      cases h
    · obtain ⟨other, hnames, hother⟩ := add_offending parsed hoffending
      rw [h] at hother
      cases hother
      exact ⟨hoffending, hnames⟩
  · rintro ⟨hoffending, hnames⟩
    obtain ⟨other, hother, h⟩ := add_offending parsed hoffending
    rw [h, names_unique hnames hother]

theorem offence?_eq_some_iff {argument : Text} {cause : UsageError} :
    offence? argument = some cause ↔ IsOffending argument ∧ Names cause argument := by
  rw [← @add_eq_error_iff initial, offence?]
  cases initial.add argument <;> simp

theorem offence?_eq_none_iff {argument : Text} : offence? argument = none ↔ ¬ IsOffending argument := by
  rw [Option.eq_none_iff_forall_ne_some]
  constructor
  · intro h hoffending
    obtain ⟨cause, hnames, -⟩ := add_offending initial hoffending
    exact h cause (offence?_eq_some_iff.mpr ⟨hoffending, hnames⟩)
  · intro h cause hcause
    exact h (offence?_eq_some_iff.mp hcause).1

end HighlightArguments

end WrenDocs
