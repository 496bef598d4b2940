import WrenDocs.Path
import WrenDocs.Text.Space

/-! The languages that the program knows, found by name or by file name. -/
namespace WrenDocs

structure Language where
  name : String
  /-- Other names under which it is asked for. -/
  aliases : List String
  /-- Globs for the names of its files. -/
  filenames : List String
  url : String
  deriving DecidableEq, Repr, Inhabited

namespace Language

/-- Whether a glob claims a file name. A star stands only at the front, for at
least one character; any other glob is a file name. -/
def globAccepts (glob fileName : Text) : Bool :=
  match glob with
  | '*' :: suffix => decide (suffix.length < fileName.length) && suffix.isSuffixOf fileName
  | _ => glob == fileName

/-- Whether a language claims a file name. -/
def claims (language : Language) (fileName : Text) : Bool :=
  language.filenames.any fun glob => globAccepts glob.toList fileName

/-- A text with ASCII capitals made small. -/
def foldCase (text : Text) : Text :=
  text.map Char.toLower

/-- The keys under which a language is found by name. -/
def keys (language : Language) : List Text :=
  (language.name :: language.aliases).map fun name => foldCase name.toList

/-- The dialect of Wren that the classifier is for. -/
def wren : Language :=
  { name := "Wren"
    aliases := ["bialet"]
    filenames := ["*.wren"]
    url := "https://bialet.dev" }

end Language

/-- Languages in the order in which they were registered, and an index from keys
to languages, newest entries first. -/
structure Registry where
  languages : List Language
  index : List (Text × Language)
  deriving Repr, Inhabited

namespace Registry

def empty : Registry :=
  ⟨[], []⟩

/-- Adds a language. Its keys hide equal keys of earlier languages. -/
def register (registry : Registry) (language : Language) : Registry :=
  { languages := registry.languages ++ [language]
    index := language.keys.map (·, language) ++ registry.index }

def ofList (languages : List Language) : Registry :=
  languages.foldl register empty

/-- The language of a name, whatever the case of its ASCII letters and the white
space around it. -/
def find? (registry : Registry) (name : Text) : Option Language :=
  registry.index.lookup (Language.foldCase (Text.trim name))

/-- The first language that claims the file name of a path. -/
def forPath? (registry : Registry) (path : Text) : Option Language :=
  (Path.fileName? path).bind fun fileName =>
    registry.languages.find? fun language => language.claims fileName

/-- The languages built into the program. -/
def builtin : Registry :=
  ofList [Language.wren]

end Registry

end WrenDocs
