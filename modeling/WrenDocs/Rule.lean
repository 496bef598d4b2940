import WrenDocs.Category
import WrenDocs.Mode
import WrenDocs.Pattern

/-! The rules of every mode, in order. The first rule that matches decides, not
the longest match: words stand before names, comments before operators, tags
before operators, and a longer escape after the shorter ones. -/
namespace WrenDocs

/-- What a rule does to the open modes. -/
inductive Action where
  | stay
  /-- Opens a mode. -/
  | push (mode : Mode)
  /-- Closes the current mode; at the bottom it closes nothing. -/
  | pop
  deriving DecidableEq, Repr, Inhabited

structure Rule where
  pattern : Pattern
  category : Category
  action : Action
  deriving DecidableEq, Repr, Inhabited

namespace Rule

def stay (pattern : Pattern) (category : Category) : Rule :=
  ⟨pattern, category, .stay⟩

def push (pattern : Pattern) (category : Category) (mode : Mode) : Rule :=
  ⟨pattern, category, .push mode⟩

def pop (pattern : Pattern) (category : Category) : Rule :=
  ⟨pattern, category, .pop⟩

end Rule

def keywords : List Text :=
  ["as", "break", "class", "construct", "continue", "else", "for", "foreign", "if", "import",
    "return", "static", "super", "this", "var", "while"].map String.toList

def constants : List Text :=
  ["true", "false", "null"].map String.toList

def wordOperators : List Text :=
  ["in", "is"].map String.toList

/-- The characters that a backslash escapes in a string. -/
def escapeChars : List Char :=
  ['\\', '%', '"', '0', 'a', 'b', 'e', 'f', 'n', 'r', 't', 'v']

/-- The rules of code. A `(` opens code of its own, so inside an interpolation
the matching `)` closes that code and not the interpolation. -/
def codeRules : List Rule :=
  [ .stay .space .whitespace,
    .push (.literal ['{', '{']) .stringInterpol .htmlInterpolation,
    .push .htmlTag .other .html,
    .stay (.literal "<!doctype html>".toList) .other,
    .stay (.oneOf [',', '\\', '[', ']', '{', '}']) .punctuation,
    .push (.literal ['(']) .punctuation .root,
    .pop (.literal [')']) .punctuation,
    .stay (.word keywords) .keyword,
    .stay (.word constants) .keywordConstant,
    .stay (.word wordOperators) .operatorWord,
    .push (.literal ['/', '*']) .commentMultiline .comment,
    .stay .lineComment .commentSingle,
    .stay .attributeLine .commentSpecial,
    .stay .operatorRun .operator,
    .stay .lowerName .name,
    .stay .upperName .nameClass,
    .stay .classVariable .nameVariableClass,
    .stay .instanceVariable .nameVariableInstance,
    .stay .hexNumber .numberHex,
    .stay .decimal .numberFloat,
    .stay .rawString .string,
    .push (.literal ['"']) .stringDouble .stringDouble,
    .push (.literal ['\'']) .stringSingle .stringSingle,
    .stay .query .stringBacktick ]

/-- The rules of a block comment, which nests. -/
def commentRules : List Rule :=
  [ .push (.literal ['/', '*']) .commentMultiline .comment,
    .pop (.literal ['*', '/']) .commentMultiline,
    .stay .commentText .commentMultiline ]

/-- The rules of a string between such quotes. -/
def stringRules (quote : Char) (category : Category) : List Rule :=
  [ .pop (.literal [quote]) category,
    .stay (.charEscape escapeChars) .stringEscape,
    .stay (.hexEscape 'x' 2) .stringEscape,
    .stay (.hexEscape 'u' 4) .stringEscape,
    .stay (.hexEscape 'U' 8) .stringEscape,
    .push (.literal ['%', '(']) .stringInterpol .interpolation,
    .stay (.stringText quote) category ]

/-- The rules of markup, which ends with the next tag. -/
def htmlRules : List Rule :=
  [ .pop .markupTag .other,
    .push (.literal ['{', '{']) .stringInterpol .htmlInterpolation,
    .stay .markupText .other ]

namespace Mode

/-- The rules that a mode has of its own. -/
def ownRules : Mode → List Rule
  | root => codeRules
  | comment => commentRules
  | stringDouble => stringRules '"' .stringDouble
  | stringSingle => stringRules '\'' .stringSingle
  | html => htmlRules
  | interpolation => [.pop (.literal [')']) .stringInterpol]
  | htmlInterpolation => [.pop (.literal ['}', '}']) .stringInterpol]

/-- The mode whose own rules are tried after those of this one. -/
def included? : Mode → Option Mode
  | interpolation | htmlInterpolation => some root
  | _ => none

/-- All rules of a mode in the order in which they are tried. -/
def rules (mode : Mode) : List Rule :=
  mode.ownRules ++ (mode.included?.map ownRules).getD []

end Mode

end WrenDocs
