/-! The states of the classifier. Each has its own rules; they are entered and
left like brackets, so the open ones form a stack. -/
namespace WrenDocs

inductive Mode where
  /-- Code, at the top and again inside every `(`. -/
  | root
  /-- Inside a block comment. -/
  | comment
  /-- Inside double quotes. -/
  | stringDouble
  /-- Inside single quotes. -/
  | stringSingle
  /-- Markup between one tag and the next. -/
  | html
  /-- Code inside `%(` and `)` in a string. -/
  | interpolation
  /-- Code inside two opening and two closing braces. -/
  | htmlInterpolation
  deriving DecidableEq, Repr, Inhabited

namespace Mode

def all : List Mode :=
  [root, comment, stringDouble, stringSingle, html, interpolation, htmlInterpolation]

theorem mem_all (mode : Mode) : mode ∈ all := by
  cases mode <;> decide

instance decidableForall {holds : Mode → Prop} [DecidablePred holds] :
    Decidable (∀ mode, holds mode) :=
  decidable_of_iff (∀ mode ∈ all, holds mode)
    ⟨fun h mode => h mode mode.mem_all, fun h mode _ => h mode⟩

def name : Mode → String
  | root => "root"
  | comment => "comment"
  | stringDouble => "string_double"
  | stringSingle => "string_single"
  | html => "html"
  | interpolation => "interpolation"
  | htmlInterpolation => "html_interpolation"

def ofName? (name : String) : Option Mode :=
  all.find? fun mode => mode.name == name

theorem ofName?_name (mode : Mode) : ofName? mode.name = some mode := by
  cases mode <;> decide

end Mode

end WrenDocs
