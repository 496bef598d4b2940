import WrenDocs.Highlighted
import WrenDocs.Language

/-! How one file is highlighted: by the language found for it, or as plain text
where an unknown language is let pass. -/
namespace WrenDocs

/-- A language that nobody registered. -/
structure UnknownLanguage where
  language : Text
  deriving DecidableEq, Repr, Inhabited

def UnknownLanguage.message (cause : UnknownLanguage) : Text :=
  "no lexer for language `".toList ++ cause.language ++ ['`']

structure Highlighter where
  /-- The language, or nothing for plain text. -/
  language? : Option Language
  deriving DecidableEq, Repr, Inhabited

namespace Highlighter

/-- The highlighter of a language asked for by name. With `guess` an unknown
language is plain text instead of an error. -/
def forLanguage (name : Text) (guess : Bool) : Except UnknownLanguage Highlighter :=
  match Registry.builtin.find? name with
  | some language => .ok ⟨some language⟩
  | none => if guess then .ok ⟨none⟩ else .error ⟨name⟩

/-- The highlighter of the language that claims a path, or else of the language
asked for by name. -/
def forPath (path fallback : Text) (guess : Bool) : Except UnknownLanguage Highlighter :=
  match Registry.builtin.forPath? path with
  | some language => .ok ⟨some language⟩
  | none => forLanguage fallback guess

def highlight (highlighter : Highlighter) (source : Text) : Highlighted :=
  match highlighter.language? with
  | some _ => WrenDocs.highlight source
  | none => Highlighted.plain source

end Highlighter

end WrenDocs
