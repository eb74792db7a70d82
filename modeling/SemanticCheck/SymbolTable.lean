import SemanticCheck.Outcome
import SemanticCheck.Scope

/-!
The scopes of a program and the one being analyzed. Scopes are numbered by position and never
removed, so a closed scope can still be asked for its symbols. A parent has a smaller number than
its children, which is why walking outwards ends. A call that fails hands the table back as well.
-/
namespace SemanticCheck

/-- Closing scopes in the wrong order is a mistake of the caller and not of the checked program. -/
inductive ScopeError
  | closingGlobal
  | notCurrent (closing current : ScopeId)
  deriving DecidableEq, Inhabited, Repr

structure SymbolTable where
  scopes : List Scope := [.root]
  current : ScopeId := 0
  deriving Inhabited

/-- Calls on a table. They may fail, and leave a table in either case. -/
abbrev TableM (ε α : Type) := EStateM ε SymbolTable α

namespace SymbolTable

def empty : SymbolTable := {}

def scope? (t : SymbolTable) (id : ScopeId) : Option Scope := t.scopes[id]?

/-- The scope being analyzed. -/
def top (t : SymbolTable) : Scope := (t.scope? t.current).getD .root

/-- Opens a child of the current scope and makes it current. -/
def push (t : SymbolTable) (kind : ScopeKind) : SymbolTable :=
  let id := t.scopes.length
  { scopes := t.scopes.modify t.current (·.addChild id) ++ [{ id, kind, parent := some t.current }]
    current := id }

/-- Closes the current scope. -/
def pop : TableM ScopeError Unit := do
  match (← get).top.parent with
  | some parent => modify ({ · with current := parent })
  | none => throw .closingGlobal

/-- Closes a scope, which has to be the current one. -/
def close (id : ScopeId) : TableM ScopeError Unit := do
  let t ← get
  if t.current = id then pop else throw (.notCurrent id t.current)

/-- Runs steps in a fresh child scope, which they have to leave current, and closes it again. -/
def within {α : Type} (kind : ScopeKind) (steps : TableM ScopeError α) : TableM ScopeError α := do
  modify (·.push kind)
  let inner ← get
  let a ← steps
  close inner.current
  return a

/-- Adds a symbol to the current scope, where its name must be free. -/
def declare (symbol : Symbol) : TableM Fault Unit := do
  let t ← get
  if symbol.scope = t.current then
    match t.top.lookup symbol.name with
    | some existing =>
        throw ((Cause.duplicateSymbol symbol.name existing.kind existing.location).fault symbol.location)
    | none => set { t with scopes := t.scopes.modify t.current (·.insert symbol) }
  else throw ((Cause.foreignScope symbol.name symbol.scope t.current).fault symbol.location)

/-- The symbol of that name in the given scope or the nearest scope around it. -/
def lookupFrom (t : SymbolTable) (name : String) (id : ScopeId) : Option Symbol :=
  match t.scope? id with
  | none => none
  | some scope =>
      match scope.lookup name with
      | some symbol => some symbol
      | none =>
          match scope.parent with
          | some parent => if parent < id then t.lookupFrom name parent else none
          | none => none
termination_by id

/-- What names stand for at the point being analyzed. -/
def names (t : SymbolTable) : Names := fun name => t.lookupFrom name t.current

/-- Looks in exactly one scope. -/
def lookupIn (t : SymbolTable) (name : String) (id : ScopeId) : Option Symbol :=
  (t.scope? id).bind (·.lookup name)

/-- The symbols of a scope, none if there is no such scope. -/
def symbolsIn (t : SymbolTable) (id : ScopeId) : List Symbol :=
  match t.scope? id with
  | some scope => scope.symbols
  | none => []

end SymbolTable

end SemanticCheck
