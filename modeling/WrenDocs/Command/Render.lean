import WrenDocs.Collect
import WrenDocs.Command.Arguments
import WrenDocs.Html
import WrenDocs.Json
import WrenDocs.Listing

/-! One file, highlighted and written in one of the output formats, with the
warnings that go with it. -/
namespace WrenDocs

/-- What is printed for a file, and what is said about it. -/
structure RenderedFile where
  text : Text
  warnings : List Text
  deriving DecidableEq, Repr, Inhabited

namespace RenderedFile

/-- The name of the warnings about a source that is not well formed. -/
def failureName : Text :=
  "misc.highlighting_failure".toList

/-- A warning about the file at a path. -/
def warning (path text : Text) : Text :=
  path ++ ": ".toList ++ text ++ " [".toList ++ failureName ++ "]".toList

/-- What a source that ends too early is inside of. Code inside code is only
ever opened by a parenthesis. -/
def openName : Mode → Text
  | .root => "an unclosed `(`".toList
  | mode => mode.name.toList

/-- The warnings about a highlighted file, unless they are silenced. -/
def warningsFor (config : Config) (path : Text) (highlighted : Highlighted) : List Text :=
  if config.isSuppressed failureName then []
  else
    (highlighted.unterminated?.map fun mode =>
      warning path ("input ends inside ".toList ++ openName mode)).toList
    ++ if highlighted.hasErrors then [warning path "could not classify some characters".toList]
      else []

/-- A file as HTML, under a comment with its path. -/
def html (path source : Text) (highlighted : Highlighted) : Text :=
  "<!-- ".toList ++ Html.escape path ++ " -->\n".toList
    ++ Html.render .standard source highlighted.spans

def spanToJson (span : Span) : Json :=
  .object
    [ ("start", .number span.start),
      ("end", .number span.stop),
      ("category", .string span.category.dottedName.toList) ]

/-- A file as a JSON object. -/
def toJson (path : Text) (language? : Option Language) (highlighted : Highlighted) : Json :=
  .object
    [ ("path", .string path),
      ("language", language?.elim .null fun language => .string language.name.toList),
      ("spans", .array (highlighted.spans.map spanToJson)),
      ("unterminated", highlighted.unterminated?.elim .null fun mode =>
        .string mode.name.toList) ]

/-- A file as a JSON object on one line. -/
def json (path : Text) (language? : Option Language) (highlighted : Highlighted) : Text :=
  (toJson path language? highlighted).compact ++ ['\n']

/-- A file as a listing, under a line with its path. -/
def listing (path source : Text) (highlighted : Highlighted) : Text :=
  "==> ".toList ++ path ++ " <==\n".toList ++ Listing.ofSpans source highlighted.spans

/-- The highlighter of a file: that of the language named for all files, or else
that of the path, or else that of the language in the settings. -/
def highlighterFor (arguments : HighlightArguments) (config : Config) (path : Text) :
    Except UnknownLanguage Highlighter :=
  let guess := config.highlightOptions.guessLang
  match arguments.language? with
  | some language => Highlighter.forLanguage language guess
  | none => Highlighter.forPath path config.highlightLanguage.toList guess

/-- A highlighted source in the output format that is asked for. -/
def ofSource (arguments : HighlightArguments) (config : Config) (path source : Text)
    (highlighter : Highlighter) : RenderedFile :=
  let highlighted := highlighter.highlight source
  { text := match arguments.format with
      | .html => html path source highlighted
      | .json => json path highlighter.language? highlighted
      | .spans => listing path source highlighted
    warnings := warningsFor config path highlighted }

/-- The file at a path. It is read before its language is looked for, so that it
cannot be read is said first. -/
def ofPath (files : FileSystem) (arguments : HighlightArguments) (config : Config)
    (path : Text) : Except RenderError RenderedFile := do
  let source ← (files.readText path).mapError (.unreadable path)
  let highlighter ← (highlighterFor arguments config path).mapError .unknownLanguage
  return ofSource arguments config path source highlighter

end RenderedFile

end WrenDocs
