import WrenDocs.Path

/-! Files and directories as values. A file system is what a path leads to; a
tree gives one, and so does anything else that answers for the paths asked. Paths
and names are Unicode texts; a name whose bytes are not UTF-8 has no place here. -/
namespace WrenDocs

/-- Why a file cannot be read. -/
inductive ReadError where
  | notFound
  | permissionDenied
  | isADirectory
  | notADirectory
  /-- The bytes are not UTF-8. -/
  | invalidUtf8
  /-- Anything else, in the words of the system. -/
  | other (text : String)
  deriving DecidableEq, Repr, Inhabited

/-- A file with its bytes, a file that is there and cannot be read, or a directory
with its named entries. -/
inductive Entry where
  | file (contents : ByteArray)
  | unreadable (cause : ReadError)
  | directory (entries : List (String × Entry))
  deriving Inhabited

/-- What the system says. -/
def ReadError.systemText : ReadError → Text
  | notFound => "No such file or directory (os error 2)".toList
  | permissionDenied => "Permission denied (os error 13)".toList
  | isADirectory => "Is a directory (os error 21)".toList
  | notADirectory => "Not a directory (os error 20)".toList
  | invalidUtf8 => "stream did not contain valid UTF-8".toList
  | other text => text.toList

namespace Entry

def isDirectory : Entry → Bool
  | file _ | unreadable _ => false
  | directory _ => true

/-- The text of a file. -/
def readText : Entry → Except ReadError Text
  | directory _ => .error .isADirectory
  | unreadable cause => .error cause
  | file contents =>
    match String.fromUTF8? contents with
    | some text => .ok text.toList
    | none => .error .invalidUtf8

/-- Follows the parts of a path from an entry on; `above` are the directories
around it, innermost first, and beyond them lie directories of which nothing is
known. Any further part wants a directory, an empty one after a slash included. -/
def follow (above : List Entry) (here : Entry) : List Text → Except ReadError Entry
  | [] => .ok here
  | part :: parts =>
    match here with
    | file _ | unreadable _ => .error .notADirectory
    | directory entries =>
      if part = [] ∨ part = ['.'] then follow above here parts
      else if part = ['.', '.'] then
        match above with
        | [] => follow [] (directory []) parts
        | parent :: above => follow above parent parts
      else
        match entries.lookup (String.ofList part) with
        | none => .error .notFound
        | some entry => follow (here :: above) entry parts

/-- Puts an entry into a tree at a path of names; directories on the way come to
be where there are none. -/
def place (entry : Entry) : List String → Entry → Entry
  | [], _ => entry
  | name :: names, here =>
    let entries := match here with
      | directory entries => entries
      | file _ | unreadable _ => []
    let inner := (entries.lookup name).getD (directory [])
    directory (entries.filter (·.1 ≠ name) ++ [(name, place entry names inner)])

mutual

/-- Everything below an entry at such a path, with its own path. -/
def descendants (path : Text) : Entry → List (Text × Entry)
  | file _ | unreadable _ => []
  | directory entries => descendantsIn path entries

def descendantsIn (path : Text) : List (String × Entry) → List (Text × Entry)
  | [] => []
  | (name, entry) :: entries =>
    let inner := Path.join path name.toList
    (inner, entry) :: descendants inner entry ++ descendantsIn path entries

end

end Entry

/-- What each path leads to. -/
structure FileSystem where
  lookup : Text → Except ReadError Entry

namespace FileSystem

/-- The file system whose working directory is a tree. The empty path leads
nowhere; the root and what lies above the tree are directories of which nothing
is known. -/
def ofTree (root : Entry) : FileSystem where
  lookup
    | [] => .error .notFound
    | '/' :: path => Entry.follow [] (.directory []) (Text.splitOn '/' path)
    | path => Entry.follow [] root (Text.splitOn '/' path)

/-- A path and what it leads to, and every path below. -/
def withBelow (path : Text) : Except ReadError Entry → List (Text × Except ReadError Entry)
  | .ok entry => (path, .ok entry) :: (entry.descendants path).map fun found => (found.1, .ok found.2)
  | .error cause => [(path, .error cause)]

/-- The file system that knows these paths, and what is below them. -/
def ofList (known : List (Text × Except ReadError Entry)) : FileSystem :=
  let all := known.flatMap fun found => withBelow found.1 found.2
  { lookup := fun path => (all.lookup path).getD (.error .notFound) }

/-- The text of the file at a path. -/
def readText (files : FileSystem) (path : Text) : Except ReadError Text :=
  (files.lookup path).bind Entry.readText

def isDirectory (files : FileSystem) (path : Text) : Bool :=
  match files.lookup path with
  | .ok entry => entry.isDirectory
  | .error _ => false

/-- Whether a file is there, one that can be read or not. -/
def isFile (files : FileSystem) (path : Text) : Bool :=
  match files.lookup path with
  | .ok entry => !entry.isDirectory
  | .error _ => false

end FileSystem

end WrenDocs
