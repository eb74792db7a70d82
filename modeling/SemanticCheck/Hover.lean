import SemanticCheck.Report
import SemanticCheck.Tree.Visit

/-! Hovering: what the name at a byte offset stands for at the top level of the program. -/
namespace SemanticCheck

structure Hover where
  contents : String
  location : Location
  deriving DecidableEq, Inhabited, Repr

def ParameterSymbol.describe (p : ParameterSymbol) : String :=
  p.name ++ (if p.optional then "?" else "") ++ ": " ++ p.ty.text

/-- The function's head as it could be written. -/
def FunctionSymbol.describe (f : FunctionSymbol) : String :=
  (if f.isExported then "export " else "") ++ (if f.isCallback then "callback " else "") ++
    "function " ++ f.name ++ "(" ++ ", ".intercalate (f.params.map ParameterSymbol.describe) ++ "): " ++
    f.result.text

/-- The variable's declaration as it could be written, with its value if that is known. -/
def VariableSymbol.describe (v : VariableSymbol) : String :=
  (if v.isConst then "const " else "let ") ++ v.name ++ ": " ++ v.ty.text ++
    v.storage.elim "" (fun storage => " " ++ storage.text) ++
    v.constantValue.elim "" (fun value => s!" = {value.toInt}")

def Symbol.describe : Symbol → String
  | .var v => v.describe
  | .function f => f.describe

/-- Names that are not visible at the top level have no description. -/
def Analysis.hover (a : Analysis) (program : Program) (offset : Nat) : Option Hover := do
  let ident ← program.identAt? offset
  let symbol ← a.table.lookupFrom ident.name a.topLevelScope
  return ⟨symbol.describe, ident.location⟩

end SemanticCheck
