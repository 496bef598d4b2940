import WrenDocs.Command.Run

/-! The program. It takes in what the paths of its arguments lead to, and prints
what the run leaves behind. -/
namespace WrenDocs

/-- Why the machine could not read a file. -/
def readErrorOf : IO.Error → ReadError
  | .noFileOrDirectory .. => .notFound
  | .permissionDenied .. => .permissionDenied
  | .inappropriateType .. => .notADirectory
  | cause => .other (toString cause)

/-- What stands at a path of the machine, behind any links. A directory that cannot be
listed is one without entries; a name that is listed and leads nowhere is an entry all
the same. -/
partial def entryAt (path : String) : IO (Except ReadError Entry) := do
  if path.isEmpty then return .error .notFound
  let place := (← IO.currentDir) / path
  let found ←
    try place.metadata
    catch cause => return .error (readErrorOf cause)
  match found.type with
  | .dir =>
    let listed ← try place.readDir catch _ => pure #[]
    let mut entries : List (String × Entry) := []
    for inner in listed do
      match ← entryAt (path ++ "/" ++ inner.fileName) with
      | .ok entry => entries := (inner.fileName, entry) :: entries
      | .error cause => entries := (inner.fileName, .unreadable cause) :: entries
    return .ok (.directory entries)
  | _ =>
    try
      return .ok (.file (← IO.FS.readBinFile place))
    catch cause =>
      return .ok (.unreadable (readErrorOf cause))

end WrenDocs

open WrenDocs

def main (arguments : List String) : IO UInt32 := do
  let words := arguments.map String.toList
  let known ← (Command.pathsOf words).mapM fun path => do
    return (path, ← entryAt (String.ofList path))
  let outcome := Command.run (FileSystem.ofList known) words
  IO.print (String.ofList outcome.stdout)
  IO.eprint (String.ofList outcome.stderr)
  return outcome.exitCode.toUInt32
