/-! What a piece of source text is. The dotted names and the style classes are
read by style sheets and by other renderers, so both are fixed. -/
namespace WrenDocs

inductive Category where
  | whitespace
  | punctuation
  | keyword
  | keywordConstant
  | operator
  | operatorWord
  | name
  | nameClass
  | nameVariableClass
  | nameVariableInstance
  | numberHex
  | numberFloat
  | string
  | stringDouble
  | stringSingle
  | stringBacktick
  | stringEscape
  | stringInterpol
  | commentSingle
  | commentMultiline
  | commentSpecial
  | other
  | error
  deriving DecidableEq, Repr, Inhabited

namespace Category

/-- Every category, in the order of their codes. -/
def all : List Category :=
  [whitespace, punctuation, keyword, keywordConstant, operator, operatorWord, name, nameClass,
    nameVariableClass, nameVariableInstance, numberHex, numberFloat, string, stringDouble,
    stringSingle, stringBacktick, stringEscape, stringInterpol, commentSingle, commentMultiline,
    commentSpecial, other, error]

/-- The dotted name, from the family down. -/
def dottedName : Category → String
  | whitespace => "Whitespace"
  | punctuation => "Punctuation"
  | keyword => "Keyword"
  | keywordConstant => "Keyword.Constant"
  | operator => "Operator"
  | operatorWord => "Operator.Word"
  | name => "Name"
  | nameClass => "Name.Class"
  | nameVariableClass => "Name.Variable.Class"
  | nameVariableInstance => "Name.Variable.Instance"
  | numberHex => "Number.Hex"
  | numberFloat => "Number.Float"
  | string => "String"
  | stringDouble => "String.Double"
  | stringSingle => "String.Single"
  | stringBacktick => "String.Backtick"
  | stringEscape => "String.Escape"
  | stringInterpol => "String.Interpol"
  | commentSingle => "Comment.Single"
  | commentMultiline => "Comment.Multiline"
  | commentSpecial => "Comment.Special"
  | other => "Other"
  | error => "Error"

/-- The class that style sheets select. -/
def styleClass : Category → String
  | whitespace => "w"
  | punctuation => "p"
  | keyword => "k"
  | keywordConstant => "kc"
  | operator => "o"
  | operatorWord => "ow"
  | name => "n"
  | nameClass => "nc"
  | nameVariableClass => "vc"
  | nameVariableInstance => "vi"
  | numberHex => "mh"
  | numberFloat => "mf"
  | string => "s"
  | stringDouble => "s2"
  | stringSingle => "s1"
  | stringBacktick => "sb"
  | stringEscape => "se"
  | stringInterpol => "si"
  | commentSingle => "c1"
  | commentMultiline => "cm"
  | commentSpecial => "cs"
  | other => "x"
  | error => "err"

/-- The number a category is stored as; each family has a block of its own. -/
def code : Category → UInt8
  | whitespace => 0
  | punctuation => 1
  | keyword => 8
  | keywordConstant => 9
  | operator => 10
  | operatorWord => 11
  | name => 16
  | nameClass => 17
  | nameVariableClass => 18
  | nameVariableInstance => 19
  | numberHex => 24
  | numberFloat => 25
  | string => 32
  | stringDouble => 33
  | stringSingle => 34
  | stringBacktick => 35
  | stringEscape => 36
  | stringInterpol => 37
  | commentSingle => 48
  | commentMultiline => 49
  | commentSpecial => 50
  | other => 64
  | error => 255

/-- The nearest category above in the dotted hierarchy. The families of numbers
and comments have no category of their own, and neither has `Name.Variable`. -/
def parent? : Category → Option Category
  | keywordConstant => some keyword
  | operatorWord => some operator
  | nameClass | nameVariableClass | nameVariableInstance => some name
  | stringDouble | stringSingle | stringBacktick | stringEscape | stringInterpol => some string
  | _ => none

/-- The category of a dotted name. -/
def ofDottedName? (dotted : String) : Option Category :=
  all.find? fun category => category.dottedName == dotted

def isComment : Category → Bool
  | commentSingle | commentMultiline | commentSpecial => true
  | _ => false

/-- `String` and everything under it. -/
def isString (category : Category) : Bool :=
  category == string || category.parent? == some string

theorem ofDottedName?_dottedName (category : Category) :
    ofDottedName? category.dottedName = some category := by
  cases category <;> decide

end Category

end WrenDocs
