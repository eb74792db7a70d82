import SemanticCheck.Document.Value

/-!
Building tables. A dotted key goes through tables that it may make itself, a header through tables
that it may imply. No key is given twice, and a table is opened by a header only once.
-/
namespace SemanticCheck.Document

/-- A key with the names of the tables it goes through. -/
structure Key where
  parents : List String
  name : String
  deriving DecidableEq, Inhabited, Repr

def Key.path (k : Key) : List String := k.parents ++ [k.name]

namespace Fields

/-- Replaces the value of a key. -/
def put (fields : Fields) (name : String) (value : Value) : Fields :=
  fields.map fun entry => if entry.1 = name then (name, value) else entry

/-- Adds an entry with a new key. -/
def add? (fields : Fields) (name : String) (value : Value) : Option Fields :=
  if (fields.lookup name).isSome then none else some (fields ++ [(name, value)])

/-- Edits the table that a path leads to, making tables on the way. Complete tables cannot be
entered, nor can dotted keys enter a table that a header opened. A list of tables is entered at its
newest element. -/
def edit (dotted : Bool) (change : TableForm → Fields → Option Fields) :
    List String → TableForm → Fields → Option Fields
  | [], form, fields => change form fields
  | name :: path, _, fields =>
      match fields.lookup name with
      | none =>
          let form : TableForm := if dotted then .dotted else .implied
          (edit dotted change path form []).map fun inner => fields ++ [(name, .table form inner)]
      | some (.table form inner) =>
          if form = .closed ∨ (dotted = true ∧ form = .header) then none
          else (edit dotted change path form inner).map fun after => put fields name (.table form after)
      | some (.tables elements) =>
          elements.getLast?.bind fun newest =>
            (edit dotted change path .header newest).map fun after =>
              put fields name (.tables (elements.dropLast ++ [after]))
      | some _ => none

/-- Adds a key with its value below a table of the given form. A dotted key ends in a table made by
dotted keys. -/
def addPair (fields : Fields) (form : TableForm) (key : Key) (value : Value) : Option Fields :=
  edit true
    (fun last inner =>
      if decide (last = .dotted) = key.parents.isEmpty then none else inner.add? key.name value)
    key.parents form fields

/-- Opens a table by a header, unless it was made in another way than by headers below it. -/
def openTable (fields : Fields) (key : Key) : Option Fields :=
  edit false
    (fun _ inner =>
      match inner.lookup key.name with
      | none => some (inner ++ [(key.name, .table .header [])])
      | some (.table .implied entries) => some (inner.put key.name (.table .header entries))
      | some _ => none)
    key.parents .header fields

/-- Opens a new element of a list of tables. -/
def openElement (fields : Fields) (key : Key) : Option Fields :=
  edit false
    (fun _ inner =>
      match inner.lookup key.name with
      | none => some (inner ++ [(key.name, .tables [[]])])
      | some (.tables elements) => some (inner.put key.name (.tables (elements ++ [[]])))
      | some _ => none)
    key.parents .header fields

end Fields

/-- The complete table of the given entries. -/
def Value.ofPairs? (pairs : List (Key × Value)) : Option Value :=
  (pairs.foldlM (fun (fields : Fields) pair => fields.addPair .closed pair.1 pair.2) []).map
    (.table .closed)

end SemanticCheck.Document
