import SemanticCheck.SymbolTable

/-! The point of a program where a declaration stands, as far as its rules depend on it, and the last
step of every declaration. -/
namespace SemanticCheck

/-- What names stand for, which of them the current scope itself declares, and that scope. -/
structure Site where
  names : Names
  own : Names
  scope : ScopeId
  kind : ScopeKind

def SymbolTable.site (t : SymbolTable) : Site :=
  ⟨t.names, t.top.lookup, t.current, t.top.kind⟩

/-- A name can be declared once in a scope. -/
def Site.duplicateFaults (site : Site) (ident : Ident) : List Fault :=
  match site.own ident.name with
  | some existing =>
      [(Cause.duplicateSymbol ident.name existing.kind existing.location).fault ident.location]
  | none => []

/-- Declares a symbol in the current scope if the checks of its declaration let it through. -/
def SymbolTable.introduce {α : Type} (check : Site → Outcome α) (symbol : α → Symbol) :
    TableM (List Fault) α := do
  let a ← MonadExcept.ofExcept (check (← get).site)
  (declare (symbol a)).adaptExcept ([·])
  return a

end SemanticCheck
