import WrenDocs.Command.Error

/-! The arguments of the highlight command. Options and paths may come in any
order; of options of one kind the last counts. -/
namespace WrenDocs

/-- How highlighted files are printed. -/
inductive OutputFormat where
  | html
  /-- One object for each file, on a line of its own. -/
  | json
  /-- One span on each line. -/
  | spans
  deriving DecidableEq, Repr, Inhabited

def OutputFormat.ofName? (name : Text) : Option OutputFormat :=
  if name = "html".toList then some .html
  else if name = "json".toList then some .json
  else if name = "spans".toList then some .spans
  else none

structure HighlightArguments where
  format : OutputFormat
  /-- The file with the settings, if one is named. -/
  config? : Option Text
  /-- The language of every file, if one is named. -/
  language? : Option Text
  paths : List Text
  deriving DecidableEq, Repr, Inhabited

namespace HighlightArguments

def initial : HighlightArguments :=
  ⟨.html, none, none, []⟩

/-- What follows a lead, if a text begins with it. -/
def after? (lead text : Text) : Option Text :=
  if lead.isPrefixOf text then some (text.drop lead.length) else none

/-- Takes in one argument. -/
def add (parsed : HighlightArguments) (argument : Text) :
    Except UsageError HighlightArguments :=
  match after? "--format=".toList argument with
  | some name =>
    match OutputFormat.ofName? name with
    | some format => .ok { parsed with format }
    | none => .error (.unknownFormat name)
  | none =>
    match after? "--config=".toList argument with
    | some path => .ok { parsed with config? := some path }
    | none =>
      match after? "--lang=".toList argument with
      | some language => .ok { parsed with language? := some language }
      | none =>
        if argument.head? = some '-' then .error (.unknownOption argument)
        else .ok { parsed with paths := parsed.paths ++ [argument] }

/-- The arguments of the command, at least one path among them. -/
def parse (arguments : List Text) : Except UsageError HighlightArguments := do
  let parsed ← arguments.foldlM add initial
  if parsed.paths.isEmpty then throw .noPaths
  return parsed

end HighlightArguments

end WrenDocs
