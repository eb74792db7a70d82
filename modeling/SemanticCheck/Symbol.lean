import SemanticCheck.Ty
import SemanticCheck.Tree.Program

/-! What a name can stand for: a variable with its type, or a function with its signature. -/
namespace SemanticCheck

/-- Scopes are numbered in the order in which they are opened. -/
abbrev ScopeId := Nat

inductive ScopeKind
  | global
  | module
  | function
  | block
  deriving DecidableEq, Inhabited, Repr

namespace ScopeKind

/-- Only what is declared at the top level can be seen from outside. -/
def allowsExports : ScopeKind → Bool
  | .global | .module => true
  | .function | .block => false

def text : ScopeKind → String
  | .global => "global"
  | .module => "module"
  | .function => "function"
  | .block => "block"

end ScopeKind

inductive SymbolKind
  | var
  | function
  deriving DecidableEq, Inhabited, Repr

def SymbolKind.text : SymbolKind → String
  | .var => "variable"
  | .function => "function"

/-- The value of a constant is kept when its initializer can be computed while checking. -/
structure VariableSymbol where
  name : String
  ty : Ty
  scope : ScopeId
  location : Location := .unknown
  storage : Option Storage := none
  isConst : Bool := false
  constantValue : Option Int64 := none
  deriving Inhabited

structure ParameterSymbol where
  name : String
  ty : Ty
  optional : Bool := false
  default? : Option Expr := none
  location : Location := .unknown
  deriving Inhabited

structure FunctionSymbol where
  name : String
  params : List ParameterSymbol := []
  result : Ty
  scope : ScopeId
  location : Location := .unknown
  isCallback : Bool := false
  isExported : Bool := false
  deriving Inhabited

namespace FunctionSymbol

/-- How many arguments a direct call has to pass at least. -/
def requiredParams (f : FunctionSymbol) : Nat := f.params.countP (!·.optional)

/-- The shape of the function when its name is used as a value. -/
def signature (f : FunctionSymbol) : Signature := ⟨f.params.map (·.ty), f.result⟩

end FunctionSymbol

inductive Symbol
  | var (symbol : VariableSymbol)
  | function (symbol : FunctionSymbol)
  deriving Inhabited

namespace Symbol

def name : Symbol → String
  | .var v => v.name
  | .function f => f.name

def kind : Symbol → SymbolKind
  | .var _ => .var
  | .function _ => .function

def location : Symbol → Location
  | .var v => v.location
  | .function f => f.location

def scope : Symbol → ScopeId
  | .var v => v.scope
  | .function f => f.scope

def var? : Symbol → Option VariableSymbol
  | .var v => some v
  | .function _ => none

def function? : Symbol → Option FunctionSymbol
  | .function f => some f
  | .var _ => none

end Symbol

/-- What each name stands for at one point of a program. The rules for expressions and types see
the declared symbols only through this. -/
abbrev Names := String → Option Symbol

namespace Names

def var? (names : Names) (name : String) : Option VariableSymbol := (names name).bind Symbol.var?

def function? (names : Names) (name : String) : Option FunctionSymbol := (names name).bind Symbol.function?

/-- The function an expression refers to when it is nothing but a function's name. -/
def reference? (names : Names) (e : Expr) : Option FunctionSymbol :=
  e.ident?.bind fun ident => names.function? ident.name

end Names

end SemanticCheck
