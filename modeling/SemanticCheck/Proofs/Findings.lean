import SemanticCheck.Declaration.Function
import SemanticCheck.Declaration.Variable

/-!
What the checks find, part by part. A check hands on to each of its parts what was found before it.
Here the faults of every part stand by themselves, and a check finds those of its parts one after
another.
-/
namespace SemanticCheck

theorem Outcome.absorb_ok {α : Type} (found : List Fault) (a : α) :
    Outcome.absorb found (.ok a) = (found, some a) := by
  rw [Outcome.absorb, Outcome.faults, Outcome.value?, List.append_nil]

theorem Outcome.missing_or_known {α β : Type} (o : Outcome α) (p : Outcome β) :
    (Outcome.value? o = none ∨ Outcome.value? p = none) ∨ ∃ a b, o = .ok a ∧ p = .ok b := by
  cases o with
  | error found => exact .inl (.inl rfl)
  | ok a =>
      cases p with
      | error found => exact .inl (.inr rfl)
      | ok b => exact .inr ⟨a, b, rfl, rfl⟩

/-- Parts that add their own faults to those found before are gone through independently. -/
theorem Outcome.gather_eq {α β : Type} {part : List Fault → β → List Fault × Option α}
    {own : β → List Fault} {value : β → Option α}
    (each : ∀ found b, part found b = (found ++ own b, value b)) (found : List Fault)
    (parts : List β) :
    Outcome.gather part found parts = (found ++ parts.flatMap own, parts.filterMap value) := by
  induction parts generalizing found with
  | nil => simp [Outcome.gather]
  | cons b rest ih =>
      simp only [Outcome.gather, each, ih, List.flatMap_cons, List.append_assoc, List.filterMap_cons]
      cases value b <;> rfl

namespace Argument

/-- What is wrong with an argument for a parameter. -/
def faults (settings : AnalysisSettings) (names : Names) (callee : String) (position : Nat)
    (param : Ty) (arg : Argument) : List Fault :=
  match names.reference? arg.expr with
  | some f => Outcome.faults (f.gate settings param arg.expr.location)
  | none =>
      match arg.ty with
      | .error found => found
      | .ok ty =>
          if param.accepts settings.callbackWidening ty then []
          else [(Cause.argumentMismatch position callee param ty).fault arg.expr.location]

/-- The faults of all arguments in order. -/
def faultsFrom (settings : AnalysisSettings) (names : Names) (callee : String) :
    Nat → List Ty → List Argument → List Fault
  | position, param :: params, arg :: args =>
      arg.faults settings names callee position param ++
        faultsFrom settings names callee (position + 1) params args
  | _, _, _ => []

variable (settings : AnalysisSettings) (names : Names) (callee : String)

theorem check_eq (position : Nat) (param : Ty) (found : List Fault) (arg : Argument) :
    arg.check settings names callee position param found =
      found ++ arg.faults settings names callee position param := by
  unfold check faults
  cases names.reference? arg.expr with
  | some f => rfl
  | none =>
      cases arg.ty with
      | error more => rfl
      | ok ty =>
          simp only [Outcome.absorb_ok]
          by_cases fits : param.accepts settings.callbackWidening ty = true
          · simp [fits]
          · simp [fits]

theorem checkFrom_eq (position : Nat) (found : List Fault) (params : List Ty) (args : List Argument) :
    checkFrom settings names callee position found params args =
      found ++ faultsFrom settings names callee position params args := by
  induction params generalizing position found args with
  | nil => simp [checkFrom, faultsFrom]
  | cons param params ih =>
      cases args with
      | nil => simp [checkFrom, faultsFrom]
      | cons arg args => rw [checkFrom, faultsFrom, check_eq, ih, List.append_assoc]

end Argument

theorem FunctionSymbol.call_eq (settings : AnalysisSettings) (names : Names) (f : FunctionSymbol)
    (args : List Argument) (l : Location) :
    f.call settings names args l =
      if f.requiredParams ≤ args.length ∧ args.length ≤ f.params.length then
        Outcome.finish (Argument.faultsFrom settings names f.name 1 (f.params.map (·.ty)) args) f.result
      else Outcome.refuse (.argumentCount f.name f.requiredParams f.params.length args.length) l := by
  rw [FunctionSymbol.call, Argument.checkFrom_eq, List.nil_append]

theorem VariableSymbol.call_eq (settings : AnalysisSettings) (names : Names) (v : VariableSymbol)
    (args : List Argument) (l : Location) :
    v.call settings names args l =
      match v.ty.signature? with
      | none => Outcome.refuse (.notCallable v.name v.ty) l
      | some slot =>
          if args.length = slot.arity then
            Outcome.finish (Argument.faultsFrom settings names v.name 1 slot.params args) slot.result
          else Outcome.refuse (.slotArgumentCount v.name slot.arity args.length) l := by
  unfold VariableSymbol.call
  cases v.ty.signature? with
  | none => rfl
  | some slot => simp only [Argument.checkFrom_eq, List.nil_append]

theorem BinaryOp.infer_ok (settings : AnalysisSettings) (op : BinaryOp) (l : Location) (lhs rhs : Ty) :
    op.infer settings l (.ok lhs) (.ok rhs) =
      match op.result? settings lhs rhs with
      | some result => .ok result
      | none => Outcome.refuse (.binaryOperands op lhs rhs) l := rfl

/-- An operator with an operand that has no type finds what its operands find. -/
theorem BinaryOp.infer_of_failed (settings : AnalysisSettings) (op : BinaryOp) (l : Location)
    {lhs rhs : Outcome Ty} (failed : Outcome.value? lhs = none ∨ Outcome.value? rhs = none) :
    op.infer settings l lhs rhs =
      Outcome.finish (Outcome.faults lhs ++ Outcome.faults rhs) .void := by
  cases lhs with
  | error found => rfl
  | ok left =>
      cases rhs with
      | error found => rfl
      | ok right => simp [Outcome.value?] at failed

theorem Ty.index_eq (target position : Expr) (targetTy positionTy : Outcome Ty) :
    Ty.index target position targetTy positionTy =
      Outcome.finish
        (Outcome.faults targetTy ++ Outcome.faults positionTy ++
          Ty.positionFaults position.location (Outcome.value? positionTy) ++
          (Ty.element target position (Outcome.value? targetTy)).1)
        (Ty.element target position (Outcome.value? targetTy)).2 := rfl

theorem Ty.ofParts_eq (params : List (Outcome Ty)) (result : Outcome Ty) :
    Ty.ofParts params result =
      Outcome.finish (params.flatMap Outcome.faults ++ Outcome.faults result)
        (.callback (params.filterMap Outcome.value?) ((Outcome.value? result).getD .void)) := by
  have absorbed (found : List Fault) (part : Outcome Ty) :
      Outcome.absorb found part = (found ++ Outcome.faults part, Outcome.value? part) := rfl
  rw [Ty.ofParts, Outcome.gather_eq absorbed]
  rfl

namespace Parameter

/-- The faults of a parameter's type, or else of its default value. -/
def faults (settings : AnalysisSettings) (names : Names) (p : Parameter) : List Fault :=
  match p.typeExpr.resolve names with
  | .error found => found
  | .ok ty =>
      match p.default? with
      | some value =>
          Outcome.faults (Inference.store (Expr.infer settings) settings names ty value value.location)
      | none => []

/-- The parameter, if its type is known. -/
def known? (names : Names) (p : Parameter) : Option ParameterSymbol :=
  (Outcome.value? (p.typeExpr.resolve names)).map fun ty =>
    { name := p.name.name, ty, optional := p.isOptional, default? := p.default?, location := p.location }

theorem resolve_eq (settings : AnalysisSettings) (names : Names) (found : List Fault) (p : Parameter) :
    p.resolve settings names found = (found ++ p.faults settings names, p.known? names) := by
  unfold resolve faults known?
  cases p.typeExpr.resolve names with
  | error more => rfl
  | ok ty =>
      simp only [Outcome.absorb_ok, Outcome.value?, Option.map_some]
      cases p.default? with
      | none => simp
      | some value => rfl

end Parameter

namespace FunctionDecl

def paramFaults (decl : FunctionDecl) (settings : AnalysisSettings) (names : Names) : List Fault :=
  decl.params.flatMap fun p => p.faults settings names

/-- The parameters whose types are known. -/
def paramSymbols (decl : FunctionDecl) (names : Names) : List ParameterSymbol :=
  decl.params.filterMap fun p => p.known? names

def resultFaults (decl : FunctionDecl) (names : Names) : List Fault :=
  Outcome.faults (TypeExpr.resolveResult names decl.result)

/-- The result type; void also stands for one that is not known. -/
def resultTy (decl : FunctionDecl) (names : Names) : Ty :=
  (Outcome.value? (TypeExpr.resolveResult names decl.result)).getD .void

def callbackFaults (decl : FunctionDecl) (settings : AnalysisSettings) (names : Names) : List Fault :=
  if decl.callback then decl.shapeFaults settings (decl.paramSymbols names) (decl.resultTy names)
  else []

/-- All faults of the declaration. -/
def faults (decl : FunctionDecl) (settings : AnalysisSettings) (site : Site) : List Fault :=
  decl.paramFaults settings site.names ++ decl.resultFaults site.names ++
    site.duplicateFaults decl.name ++ decl.callbackFaults settings site.names ++
    decl.nameFaults ++ decl.orderFaults ++ decl.exportFaults site.kind ++ decl.namelessFaults

theorem symbol_eq (decl : FunctionDecl) (settings : AnalysisSettings) (site : Site) :
    decl.symbol settings site =
      Outcome.finish (decl.faults settings site)
        { name := decl.name.name, params := decl.paramSymbols site.names
          result := decl.resultTy site.names, scope := site.scope, location := decl.location
          isCallback := decl.callback, isExported := decl.exported } := by
  rw [symbol, Outcome.gather_eq (Parameter.resolve_eq settings site.names)]
  rfl

end FunctionDecl

namespace VariableDecl

/-- The written type, if there is one. -/
def written (decl : VariableDecl) (names : Names) : Option (Outcome Ty) :=
  decl.typeExpr.map (·.resolve names)

def typeExprFaults (decl : VariableDecl) (names : Names) : List Fault :=
  match decl.written names with
  | some outcome => Outcome.faults outcome
  | none => []

/-- The type of the variable, with the faults of its initializer or of having no type at all. -/
def typed (decl : VariableDecl) (settings : AnalysisSettings) (infer : Inference) (names : Names) :
    List Fault × Option Ty :=
  match decl.written names, decl.initializer with
  | none, none => ([(Cause.typeNotGiven decl.name.name).fault decl.location], none)
  | some outcome, none => ([], Outcome.value? outcome)
  | some (.error _), some _ => ([], none)
  | some (.ok ty), some value =>
      (Outcome.faults (infer.store settings names ty value decl.location), some ty)
  | none, some value =>
      match infer names value with
      | .error found => (found, none)
      | .ok ty =>
          (if ty.isCallback then Outcome.faults (infer.store settings names ty value decl.location)
            else [], some ty)

/-- All faults of the declaration. -/
def faults (decl : VariableDecl) (settings : AnalysisSettings) (infer : Inference) (site : Site) :
    List Fault :=
  decl.typeExprFaults site.names ++ site.duplicateFaults decl.name ++
    (decl.typed settings infer site.names).1 ++ decl.constantFaults ++
    decl.voidFaults (decl.typed settings infer site.names).2

theorem absorbWritten_eq (decl : VariableDecl) (names : Names) :
    decl.absorbWritten names =
      (decl.typeExprFaults names, (decl.written names).bind Outcome.value?) := by
  unfold absorbWritten typeExprFaults written
  cases decl.typeExpr <;> rfl

theorem absorbType_eq (decl : VariableDecl) (settings : AnalysisSettings) (infer : Inference)
    (names : Names) (found : List Fault) :
    decl.absorbType settings infer names found ((decl.written names).bind Outcome.value?) =
      (found ++ (decl.typed settings infer names).1, (decl.typed settings infer names).2) := by
  unfold absorbType typed written
  cases decl.typeExpr with
  | none =>
      cases decl.initializer with
      | none => rfl
      | some value =>
          simp only [Option.map_none]
          cases infer names value with
          | error more => rfl
          | ok ty =>
              simp only [Outcome.absorb_ok]
              by_cases callback : ty.isCallback = true
              · simp [callback, Outcome.absorb]
              · simp [callback]
  | some typeExpr =>
      simp only [Option.map_some, Option.bind_some]
      cases decl.initializer with
      | none => simp
      | some value =>
          cases typeExpr.resolve names with
          | error more => simp [Outcome.value?]
          | ok ty => rfl

theorem symbol_eq (decl : VariableDecl) (settings : AnalysisSettings) (infer : Inference)
    (site : Site) :
    decl.symbol settings infer site =
      match Outcome.finish (decl.faults settings infer site)
          (decl.typed settings infer site.names).2 with
      | .error faults => .error faults
      | .ok none => Outcome.refuse (.typeNotDetermined decl.name.name) decl.location
      | .ok (some ty) =>
          .ok { name := decl.name.name, ty, scope := site.scope, location := decl.location
                storage := decl.storage, isConst := decl.constant
                constantValue := decl.foldedValue site.names ty } := by
  rw [symbol, absorbWritten_eq]
  simp only [absorbType_eq]
  rfl

end VariableDecl

end SemanticCheck
