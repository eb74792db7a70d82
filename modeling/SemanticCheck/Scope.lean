import SemanticCheck.Symbol

/-! A scope: one lexical region with the symbols declared directly in it. -/
namespace SemanticCheck

/-- Symbols stand in the order of their declaration, children in the order of their opening. The
index tells at which place among the symbols a name stands, the newest entry first. -/
structure Scope where
  id : ScopeId
  kind : ScopeKind
  parent : Option ScopeId
  children : List ScopeId := []
  symbols : List Symbol := []
  index : List (String × Nat) := []
  deriving Inhabited

namespace Scope

/-- The outermost scope before anything is declared. -/
def root : Scope := { id := 0, kind := .global, parent := none }

/-- The symbol of that name declared in this very scope, found through the index. -/
def lookup (s : Scope) (name : String) : Option Symbol :=
  (s.index.lookup name).bind fun place => s.symbols[place]?

def addChild (s : Scope) (child : ScopeId) : Scope := { s with children := s.children ++ [child] }

/-- The caller has made sure that the name is free. -/
def insert (s : Scope) (symbol : Symbol) : Scope :=
  { s with
    symbols := s.symbols ++ [symbol]
    index := (symbol.name, s.symbols.length) :: s.index }

end Scope

end SemanticCheck
