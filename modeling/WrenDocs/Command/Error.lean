import WrenDocs.Config.Load
import WrenDocs.Highlighter

/-! Why a command fails, and what it then says. Every path is a Unicode text, so
writing one as JSON cannot fail, and there is no error for that. -/
namespace WrenDocs

/-- What is wrong with the arguments of a command. -/
inductive UsageError where
  | unknownFormat (name : Text)
  | unknownOption (argument : Text)
  | noPaths
  deriving DecidableEq, Repr, Inhabited

def UsageError.message : UsageError → Text
  | unknownFormat name =>
    "unknown format '".toList ++ name ++ "' (expected html, json or spans)".toList
  | unknownOption argument => "unknown option: ".toList ++ argument
  | noPaths => "no input paths given".toList

/-- Why a file cannot be rendered. -/
inductive RenderError where
  | unreadable (path : Text) (cause : ReadError)
  | unknownLanguage (cause : UnknownLanguage)
  deriving DecidableEq, Repr, Inhabited

def RenderError.message : RenderError → Text
  | unreadable path .notFound => "cannot find file '".toList ++ path ++ ['\'']
  | unreadable path .permissionDenied =>
    "permission denied reading '".toList ++ path ++ ['\'']
  | unreadable path .invalidUtf8 =>
    '\'' :: path ++ "' contains invalid UTF-8 data".toList
  | unreadable path cause =>
    "error reading '".toList ++ path ++ "': ".toList ++ cause.systemText
  | unknownLanguage cause => cause.message

/-- Why a command fails. -/
inductive CommandError where
  | usage (cause : UsageError)
  | config (cause : ConfigError)
  | render (cause : RenderError)
  /-- So many of all files could not be highlighted. -/
  | failed (count total : Nat)
  deriving DecidableEq, Repr, Inhabited

def CommandError.message : CommandError → Text
  | usage cause => cause.message
  | config cause => cause.message
  | render cause => cause.message
  | failed count total =>
    Nat.toDigits 10 count ++ " of ".toList ++ Nat.toDigits 10 total
      ++ " files could not be highlighted".toList

end WrenDocs
