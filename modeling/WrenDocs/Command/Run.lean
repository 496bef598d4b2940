import WrenDocs.Command.Render
import WrenDocs.Config.Write

/-! The command line: what a list of arguments prints, and with which code it
ends. -/
namespace WrenDocs

/-- What a run of the program leaves behind. -/
structure Outcome where
  stdout : Text
  stderr : Text
  exitCode : UInt8
  deriving DecidableEq, Repr, Inhabited

namespace Command

def usage : Text :=
  ("Bialet documentation tools\n" ++
    "\n" ++
    "Usage: bialetdoc <command> [options]\n" ++
    "\n" ++
    "Commands:\n" ++
    "  lex <file>                 Show the raw classifier spans of a file\n" ++
    "  highlight [opts] <paths>   Highlight files or directories\n" ++
    "  config [<file>]            Print the resolved configuration as JSON\n" ++
    "  help                       Show this message\n" ++
    "  version                    Show version information\n" ++
    "\n" ++
    "Set RUST_LOG (e.g. RUST_LOG=debug) for diagnostic logging.\n").toList

def highlightUsage : Text :=
  ("Usage: bialetdoc highlight [options] <paths...>\n" ++
    "\n" ++
    "Paths may be files or directories. Directories are searched for *.wren\n" ++
    "files, skipping hidden entries, target/ and exclude_patterns.\n" ++
    "\n" ++
    "Options:\n" ++
    "  --format=<fmt>    Output format: html (default), json, spans\n" ++
    "  --config=<file>   Configuration file (default: ./bialetdoc.toml if present)\n" ++
    "  --lang=<name>     Language for every file, instead of detecting by name\n").toList

def version : Text :=
  "bialetdoc 0.4.0\n".toList

/-- The lines with which a command fails. Wrong arguments point to the help. -/
def errorLines (cause : CommandError) : Text :=
  "error: ".toList ++ cause.message ++ ['\n'] ++
    match cause with
    | .usage _ => "Run 'bialetdoc help' for usage\n".toList
    | _ => []

/-- A run that only prints. -/
def printing (text : Text) : Outcome :=
  ⟨text, [], 0⟩

/-- A run that fails after it has printed something. -/
def failing (stdout stderr : Text) (cause : CommandError) : Outcome :=
  ⟨stdout, stderr ++ errorLines cause, 1⟩

/-- The tokens of a file, under a line with their number. -/
def lex (files : FileSystem) (path : Text) : Outcome :=
  match files.readText path with
  | .error cause => failing [] [] (.render (.unreadable path cause))
  | .ok source =>
    let listing := Listing.ofSource source
    printing ("Spans for '".toList ++ path ++ "' (".toList
      ++ Nat.toDigits 10 (Listing.lineCount listing) ++ " spans):\n".toList ++ listing)

/-- The settings of a file, or else of the working directory. -/
def settingsFor (files : FileSystem) (path? : Option Text) : Except ConfigError Config :=
  match path? with
  | some path => Config.load files path
  | none => Config.loadOrPublished files ['.']

/-- The settings as JSON. -/
def showConfig (files : FileSystem) (path? : Option Text) : Outcome :=
  match settingsFor files path? with
  | .error cause => failing [] [] (.config cause)
  | .ok config => printing (config.toJson.pretty ++ ['\n'])

/-- What one file prints. -/
def fileOutput : Except RenderError RenderedFile → Text
  | .ok rendered => rendered.text
  | .error _ => []

/-- What one file has said about it. -/
def fileMessages : Except RenderError RenderedFile → Text
  | .ok rendered =>
    rendered.warnings.flatMap fun warning => "warning: ".toList ++ warning ++ ['\n']
  | .error cause => "error: ".toList ++ cause.message ++ ['\n']

def isFailure : Except RenderError RenderedFile → Bool
  | .ok _ => false
  | .error _ => true

/-- All files, one after the other. A file that fails does not stop the others. -/
def highlightAll (files : FileSystem) (arguments : HighlightArguments) (config : Config) :
    Outcome :=
  let results := (Collect.collect files config arguments.paths).map
    (RenderedFile.ofPath files arguments config)
  let stdout := results.flatMap fileOutput
  let stderr := results.flatMap fileMessages
  let failed := results.countP isFailure
  if failed = 0 then ⟨stdout, stderr, 0⟩
  else failing stdout stderr (.failed failed results.length)

/-- The files that arguments name, highlighted. -/
def highlight (files : FileSystem) (arguments : List Text) : Outcome :=
  match HighlightArguments.parse arguments with
  | .error cause => failing [] [] (.usage cause)
  | .ok parsed =>
    match settingsFor files parsed.config? with
    | .error cause => failing [] [] (.config cause)
    | .ok config => highlightAll files parsed config

/-- The commands. -/
inductive Name where
  | lex
  | highlight
  | config
  | help
  | version
  deriving DecidableEq, Repr, Inhabited

/-- The command of a word. -/
def Name.ofWord? (word : Text) : Option Name :=
  if word = "lex".toList then some .lex
  else if word = "highlight".toList then some .highlight
  else if word = "config".toList then some .config
  else if ["help", "--help", "-h"].contains (String.ofList word) then some .help
  else if ["version", "--version", "-V"].contains (String.ofList word) then some .version
  else none

/-- What a command does with the arguments after it. -/
def perform (files : FileSystem) (arguments : List Text) : Name → Outcome
  | .lex =>
    match arguments with
    | [] => ⟨[], "Usage: bialetdoc lex <file>\n".toList, 1⟩
    | path :: _ => lex files path
  | .highlight =>
    match arguments with
    | [] => ⟨highlightUsage, [], 1⟩
    | first :: _ =>
      if first = "--help".toList ∨ first = "-h".toList then printing highlightUsage
      else highlight files arguments
  | .config => showConfig files arguments.head?
  | .help => printing usage
  | .version => printing version

/-- A run of the program. -/
def run (files : FileSystem) : List Text → Outcome
  | [] => ⟨usage, [], 1⟩
  | word :: arguments =>
    match Name.ofWord? word with
    | some name => perform files arguments name
    | none => ⟨usage, "Unknown command: ".toList ++ word ++ "\n\n".toList, 1⟩

/-- The paths at which a run may look; of a directory it also looks below. -/
def pathsOf : List Text → List Text
  | [] => []
  | word :: arguments =>
    let standard := Path.join ['.'] Config.fileName
    match Name.ofWord? word with
    | some .lex => arguments.take 1
    | some .highlight =>
      match HighlightArguments.parse arguments with
      | .ok parsed => parsed.config?.getD standard :: parsed.paths
      | .error _ => []
    | some .config => [arguments.head?.getD standard]
    | _ => []

end Command

end WrenDocs
