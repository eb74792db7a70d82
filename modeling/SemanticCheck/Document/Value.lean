/-!
Values of a settings document, written in TOML. Settings are made of texts, integers and booleans;
of fractions and dates only their presence is kept.
-/
namespace SemanticCheck.Document

/-- How a table came about, which decides what may still be added to it. -/
inductive TableForm
  /-- Written in braces, complete. -/
  | closed
  /-- Opened by its own header. -/
  | header
  /-- Mentioned only in the header of a table below it. -/
  | implied
  /-- Made by a dotted key. -/
  | dotted
  deriving DecidableEq, Inhabited, Repr

inductive Value
  | text (value : String)
  | integer (value : Int)
  | boolean (value : Bool)
  | fraction
  | moment
  | list (items : List Value)
  /-- A list of tables with one header for each, the newest last. -/
  | tables (elements : List (List (String × Value)))
  | table (form : TableForm) (fields : List (String × Value))
  deriving Inhabited

/-- The entries of a table in the order in which they were added. -/
abbrev Fields := List (String × Value)

end SemanticCheck.Document
