import SemanticCheck.Declaration.Site
import SemanticCheck.Resolution
import SemanticCheck.Store

/-!
Declaring variables. The type is the written one, which the initializer has to fit, or else that of
the initializer. Every fault is reported, and a variable is declared only when there is none.
-/
namespace SemanticCheck

namespace VariableDecl

/-- The written type, if there is one and it is known. -/
def absorbWritten (decl : VariableDecl) (names : Names) : List Fault × Option Ty :=
  match decl.typeExpr with
  | some typeExpr => Outcome.absorb [] (typeExpr.resolve names)
  | none => ([], none)

/-- The type of the variable, given the written one if that is known. The initializer is checked, and
so is having a type at all. A function reference as initializer passes the gate even when the type is
taken from it. -/
def absorbType (decl : VariableDecl) (settings : AnalysisSettings) (infer : Inference) (names : Names)
    (found : List Fault) (written : Option Ty) : List Fault × Option Ty :=
  match decl.typeExpr, decl.initializer with
  | none, none => (found ++ [(Cause.typeNotGiven decl.name.name).fault decl.location], none)
  | some _, none => (found, written)
  | some _, some value =>
      match written with
      | some ty =>
          ((Outcome.absorb found (infer.store settings names ty value decl.location)).1, some ty)
      | none => (found, none)
  | none, some value =>
      match Outcome.absorb found (infer names value) with
      | (found, none) => (found, none)
      | (found, some ty) =>
          (if ty.isCallback then
              (Outcome.absorb found (infer.store settings names ty value decl.location)).1
            else found, some ty)

def constantFaults (decl : VariableDecl) : List Fault :=
  if decl.constant && decl.initializer.isNone then
    [(Cause.constantWithoutValue decl.name.name).fault decl.location]
  else []

def voidFaults (decl : VariableDecl) (ty? : Option Ty) : List Fault :=
  if ty?.any Ty.isVoid then [(Cause.voidVariable decl.name.name).fault decl.location] else []

/-- The value to remember: that of a numeric constant, when it can be folded. -/
def foldedValue (decl : VariableDecl) (names : Names) (ty : Ty) : Option Int64 :=
  if decl.constant && ty.isNumeric then
    decl.initializer.bind fun value => (value.fold names).toOption
  else none

/-- The symbol that the declaration introduces. -/
def symbol (decl : VariableDecl) (settings : AnalysisSettings) (infer : Inference) (site : Site) :
    Outcome VariableSymbol :=
  let (found, written) := decl.absorbWritten site.names
  let (found, ty?) :=
    decl.absorbType settings infer site.names (found ++ site.duplicateFaults decl.name) written
  match Outcome.finish (found ++ decl.constantFaults ++ decl.voidFaults ty?) ty? with
  | .error faults => .error faults
  | .ok none => Outcome.refuse (.typeNotDetermined decl.name.name) decl.location
  | .ok (some ty) =>
      .ok { name := decl.name.name, ty, scope := site.scope, location := decl.location
            storage := decl.storage, isConst := decl.constant
            constantValue := decl.foldedValue site.names ty }

end VariableDecl

/-- Declares a variable in the current scope. -/
def SymbolTable.declareVariable (settings : AnalysisSettings) (infer : Inference)
    (decl : VariableDecl) : TableM (List Fault) VariableSymbol :=
  introduce (decl.symbol settings infer) .var

end SemanticCheck
