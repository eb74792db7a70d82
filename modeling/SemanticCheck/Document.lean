import SemanticCheck.Document.Statement

/-! Reading settings documents: statements are applied in order, each to the table opened last. The
checker does not depend on how its settings are written. -/
namespace SemanticCheck.Document

/-- What has been read so far, and the path of the table that keys go to. -/
structure Draft where
  fields : Fields := []
  header : List String := []
  deriving Inhabited

def Draft.apply (draft : Draft) : Statement → Option Draft
  | .pair key value =>
      (draft.fields.edit false (fun form inner => inner.addPair form key value) draft.header .header).map
        fun fields => { draft with fields }
  | .table key => (draft.fields.openTable key).map fun fields => ⟨fields, key.path⟩
  | .element key => (draft.fields.openElement key).map fun fields => ⟨fields, key.path⟩

/-- A mark for the order of bytes may stand before the text. -/
def dropByteOrderMark : List Char → List Char
  | '\uFEFF' :: rest => rest
  | cs => cs

/-- The entries of a document, if it is valid throughout. -/
def parse? (text : String) : Option Fields := do
  let statements ← Statement.scanAll (dropByteOrderMark text.toList)
  let draft ← statements.foldlM Draft.apply {}
  return draft.fields

end SemanticCheck.Document
