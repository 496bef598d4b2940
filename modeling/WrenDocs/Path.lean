import WrenDocs.Text.Split

/-! Paths as texts. A path keeps the spelling it was given; what it names is read
off its components. -/
namespace WrenDocs.Path

/-- The components that name something: empty ones and `.` do not. -/
def components (path : Text) : List Text :=
  (Text.splitOn '/' path).filter fun part => part ≠ [] ∧ part ≠ ['.']

/-- The last component, unless it leads up. -/
def fileName? (path : Text) : Option Text :=
  match (components path).getLast? with
  | none => none
  | some name => if name = ['.', '.'] then none else some name

/-- What follows the last dot of the file name. A dot at the very front begins
no extension. -/
def extension? (path : Text) : Option Text := do
  let name ← fileName? path
  let after := (name.reverse.takeWhile (· != '.')).reverse
  let stem := name.take (name.length - after.length - 1)
  if after.length < name.length ∧ stem ≠ [] then some after else none

/-- A name inside a directory: one slash between the two, and none after a
directory that ends in a slash or is empty. -/
def join (directory name : Text) : Text :=
  match directory.getLast? with
  | none => name
  | some '/' => directory ++ name
  | some _ => directory ++ '/' :: name

/-- A path with `/` for every backslash. -/
def withSlashes (path : Text) : Text :=
  path.map fun c => if c = '\\' then '/' else c

end WrenDocs.Path
