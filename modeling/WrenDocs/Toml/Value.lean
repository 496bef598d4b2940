import WrenDocs.Text.Utf8

/-! The values of a TOML document. -/
namespace WrenDocs.Toml

inductive Value where
  | string (value : String)
  | boolean (value : Bool)
  | integer (value : Int)
  /-- A float, as it is written. -/
  | float (written : String)
  /-- A date, a time or both, as it is written. -/
  | dateTime (written : String)
  | array (items : List Value)
  /-- Entries with different keys. -/
  | table (entries : List (String × Value))
  deriving Repr, Inhabited

/-- The entries of a table, in the order in which they were defined. -/
abbrev Table := List (String × Value)

end WrenDocs.Toml
