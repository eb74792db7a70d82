import SemanticCheck.Outcome
import SemanticCheck.Settings
import SemanticCheck.Ty.Assignable

/-!
Function references and calls. The bare name of a function is a reference to it. Only functions
declared as callbacks may be stored or passed, even where another one has a fitting signature: their
shape is the one a hardware vector can hold.
-/
namespace SemanticCheck

/-- The gate for storing a function in a slot of type `target`. -/
def FunctionSymbol.gate (settings : AnalysisSettings) (target : Ty) (f : FunctionSymbol)
    (location : Location) : Outcome Unit :=
  match target.signature? with
  | none => Outcome.refuse (.functionAsValue target f.name f.signature) location
  | some slot =>
      if f.isCallback then
        if slot.accepts settings.callbackWidening f.signature then .ok ()
        else Outcome.refuse (.signatureMismatch slot f.name f.signature) location
      else Outcome.refuse (.notDeclaredCallback f.name) location

/-- An argument with the result of inferring its type. -/
structure Argument where
  expr : Expr
  ty : Outcome Ty

namespace Argument

/-- Checks an argument for a parameter. Function references pass the gate, any other argument needs a
type that can be stored in the parameter. -/
def check (settings : AnalysisSettings) (names : Names) (callee : String) (position : Nat)
    (param : Ty) (found : List Fault) (arg : Argument) : List Fault :=
  match names.reference? arg.expr with
  | some f => (Outcome.absorb found (f.gate settings param arg.expr.location)).1
  | none =>
      match Outcome.absorb found arg.ty with
      | (found, none) => found
      | (found, some ty) =>
          if param.accepts settings.callbackWidening ty then found
          else found ++ [(Cause.argumentMismatch position callee param ty).fault arg.expr.location]

/-- Checks all arguments in order. Positions count from the given one. -/
def checkFrom (settings : AnalysisSettings) (names : Names) (callee : String) :
    Nat → List Fault → List Ty → List Argument → List Fault
  | position, found, param :: params, arg :: args =>
      checkFrom settings names callee (position + 1)
        (arg.check settings names callee position param found) params args
  | _, found, _, _ => found

end Argument

/-- A direct call. Trailing optional parameters may be left out. -/
def FunctionSymbol.call (settings : AnalysisSettings) (names : Names) (f : FunctionSymbol)
    (args : List Argument) (location : Location) : Outcome Ty :=
  if f.requiredParams ≤ args.length ∧ args.length ≤ f.params.length then
    Outcome.finish (Argument.checkFrom settings names f.name 1 [] (f.params.map (·.ty)) args) f.result
  else
    Outcome.refuse (.argumentCount f.name f.requiredParams f.params.length args.length) location

/-- A call through a variable. The function behind it is not known, so every parameter is passed. -/
def VariableSymbol.call (settings : AnalysisSettings) (names : Names) (v : VariableSymbol)
    (args : List Argument) (location : Location) : Outcome Ty :=
  match v.ty.signature? with
  | none => Outcome.refuse (.notCallable v.name v.ty) location
  | some slot =>
      if args.length = slot.arity then
        Outcome.finish (Argument.checkFrom settings names v.name 1 [] slot.params args) slot.result
      else Outcome.refuse (.slotArgumentCount v.name slot.arity args.length) location

end SemanticCheck
