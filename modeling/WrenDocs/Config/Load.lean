import WrenDocs.Config.Read
import WrenDocs.FileSystem

/-! Settings from a file. -/
namespace WrenDocs

/-- Why settings cannot be loaded. -/
inductive ConfigError where
  | unreadable (path : Text) (cause : ReadError)
  /-- The file is no valid document, or holds what does not fit. -/
  | invalid (path : Text)
  deriving DecidableEq, Repr, Inhabited

/-- What is then said. Of a document that does not fit, where the fault lies and what it
is are left out. -/
def ConfigError.message : ConfigError → Text
  | unreadable path cause =>
    "failed to read ".toList ++ path ++ ": ".toList ++ cause.systemText
  | invalid path => "failed to parse ".toList ++ path ++ ": TOML parse error".toList

namespace Config

/-- The file name that is looked for in a directory. -/
def fileName : Text :=
  "bialetdoc.toml".toList

/-- The settings in a document that comes from such a path. -/
def parse (document origin : Text) : Except ConfigError Config :=
  match ofText? document with
  | some config => .ok config
  | none => .error (.invalid origin)

/-- The settings in a file. -/
def load (files : FileSystem) (path : Text) : Except ConfigError Config :=
  match files.readText path with
  | .ok document => parse document path
  | .error cause => .error (.unreadable path cause)

/-- The settings of a directory: those in its file, or the published ones if it
has no such file. -/
def loadOrPublished (files : FileSystem) (directory : Text) : Except ConfigError Config :=
  let path := Path.join directory fileName
  if files.isFile path then load files path else .ok published

end Config

end WrenDocs
