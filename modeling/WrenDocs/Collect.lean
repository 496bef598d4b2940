import WrenDocs.Config
import WrenDocs.FileSystem
import WrenDocs.Language

/-! The files that are highlighted when paths are named. A directory stands for
the sources below it in the order of their names, part by part; any other path
stands for itself. -/
namespace WrenDocs.Collect

/-- Whether an entry of a directory is passed over: hidden entries, build output
and what the settings exclude. -/
def isSkipped (config : Config) (name path : Text) : Bool :=
  name.head? == some '.' || name == "target".toList || config.isExcluded path

mutual

/-- The sources below an entry at such a path, as the names that lead to them. A file
that cannot be read is found like any other, so that reading it can fail. -/
def sourcesAt (config : Config) (path : Text) : Entry → List (List Text)
  | .file _ | .unreadable _ => if (Registry.builtin.forPath? path).isSome then [[]] else []
  | .directory entries => sourcesIn config path entries

/-- The sources below the entries of a directory at such a path. -/
def sourcesIn (config : Config) (directory : Text) : List (String × Entry) → List (List Text)
  | [] => []
  | (name, entry) :: entries =>
    let path := Path.join directory name.toList
    (if isSkipped config name.toList path then []
      else (sourcesAt config path entry).map (name.toList :: ·))
      ++ sourcesIn config directory entries

end

/-- Whether one list of names comes before another, name by name. -/
def isBefore (a b : List Text) : Bool :=
  a.lex b fun name other => name.lex other fun c d => decide (c < d)

/-- The sources below a directory, sorted by the names that lead to them. -/
def sourcesBelow (config : Config) (directory : Text) (entry : Entry) : List Text :=
  ((sourcesAt config directory entry).mergeSort fun a b => !isBefore b a).map
    fun names => names.foldl Path.join directory

/-- The files that a path stands for. -/
def expand (files : FileSystem) (config : Config) (path : Text) : List Text :=
  match files.lookup path with
  | .ok (.directory entries) => sourcesBelow config path (.directory entries)
  | _ => [path]

/-- The files that paths stand for, path by path. -/
def collect (files : FileSystem) (config : Config) (paths : List Text) : List Text :=
  paths.flatMap (expand files config)

end WrenDocs.Collect
