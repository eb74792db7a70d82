import SemanticCheck.Analysis
import SemanticCheck.Proofs.Findings

/-!
Scope numbers are bookkeeping. No rule for constants, types, expressions, stores or declarations
reads the scope number of a symbol, so what the rules say does not change when every symbol that a
name may stand for loses its number.
-/
namespace SemanticCheck

def VariableSymbol.unscoped (v : VariableSymbol) : VariableSymbol := { v with scope := 0 }

def FunctionSymbol.unscoped (f : FunctionSymbol) : FunctionSymbol := { f with scope := 0 }

def Symbol.unscoped : Symbol → Symbol
  | .var v => .var v.unscoped
  | .function f => .function f.unscoped

/-- The same meaning of names with symbols that have lost their scope numbers. -/
def Names.unscoped (names : Names) : Names := fun name => (names name).map Symbol.unscoped

def Site.unscoped (site : Site) : Site := ⟨site.names.unscoped, site.own.unscoped, 0, site.kind⟩

@[simp] theorem Symbol.name_unscoped (x : Symbol) : x.unscoped.name = x.name := by
  cases x <;> rfl

@[simp] theorem Symbol.kind_unscoped (x : Symbol) : x.unscoped.kind = x.kind := by
  cases x <;> rfl

@[simp] theorem Symbol.location_unscoped (x : Symbol) : x.unscoped.location = x.location := by
  cases x <;> rfl

@[simp] theorem Symbol.ty_unscoped (x : Symbol) : x.unscoped.ty = x.ty := by
  cases x <;> rfl

@[simp] theorem Symbol.function?_unscoped (x : Symbol) :
    x.unscoped.function? = x.function?.map FunctionSymbol.unscoped := by
  cases x <;> rfl

@[simp] theorem Names.constant_unscoped (names : Names) (i : Ident) :
    names.unscoped.constant i = names.constant i := by
  unfold Names.constant Names.unscoped
  cases names i.name with
  | none => rfl
  | some x => cases x <;> rfl

@[simp] theorem Expr.fold_unscoped (names : Names) : (e : Expr) →
    e.fold names.unscoped = e.fold names
  | .number _ _ | .boolean _ _ | .text _ _ | .call _ _ _ | .index _ _ _ => rfl
  | .ident i => names.constant_unscoped i
  | .unary _ operand _ => by
      rw [Expr.fold, Expr.fold_unscoped names operand, Expr.fold]
  | .binary _ lhs rhs _ => by
      rw [Expr.fold, Expr.fold_unscoped names lhs, Expr.fold_unscoped names rhs, Expr.fold]

@[simp] theorem VariableDecl.isFolded_unscoped (decl : VariableDecl) (names : Names) :
    decl.isFolded names.unscoped = decl.isFolded names := by
  simp only [VariableDecl.isFolded, Expr.fold_unscoped]

@[simp] theorem Ty.ofArray_unscoped (names : Names) (element : Ty) (size : Expr) (l : Location) :
    Ty.ofArray names.unscoped element size l = Ty.ofArray names element size l := by
  simp only [Ty.ofArray, Expr.fold_unscoped]

mutual

@[simp] theorem TypeExpr.resolve_unscoped (names : Names) : (a : TypeExpr) →
    a.resolve names.unscoped = a.resolve names
  | .named _ => rfl
  | .array element size l => by
      simp only [TypeExpr.resolve, TypeExpr.resolve_unscoped names element, Ty.ofArray_unscoped]
  | .callback params (some result) _ => by
      simp only [TypeExpr.resolve, TypeExpr.resolveAll_unscoped names params,
        TypeExpr.resolve_unscoped names result]
  | .callback params none _ => by
      simp only [TypeExpr.resolve, TypeExpr.resolveAll_unscoped names params]

theorem TypeExpr.resolveAll_unscoped (names : Names) : (params : List TypeExpr) →
    TypeExpr.resolveAll names.unscoped params = TypeExpr.resolveAll names params
  | [] => rfl
  | a :: rest => by
      simp only [TypeExpr.resolveAll, TypeExpr.resolve_unscoped names a,
        TypeExpr.resolveAll_unscoped names rest]

end

@[simp] theorem TypeExpr.resolveResult_unscoped (names : Names) (result : Option TypeExpr) :
    TypeExpr.resolveResult names.unscoped result = TypeExpr.resolveResult names result := by
  cases result with
  | none => rfl
  | some a => exact a.resolve_unscoped names

@[simp] theorem Names.reference?_unscoped (names : Names) (e : Expr) :
    names.unscoped.reference? e = (names.reference? e).map FunctionSymbol.unscoped := by
  unfold Names.reference? Names.function? Names.unscoped
  cases e.ident? with
  | none => rfl
  | some i =>
      cases h : names i.name with
      | none => simp [h]
      | some x => simp [h]

@[simp] theorem Argument.faults_unscoped (settings : AnalysisSettings) (names : Names)
    (callee : String) (position : Nat) (param : Ty) (arg : Argument) :
    arg.faults settings names.unscoped callee position param =
      arg.faults settings names callee position param := by
  unfold Argument.faults
  rw [Names.reference?_unscoped]
  cases names.reference? arg.expr <;> rfl

@[simp] theorem Argument.faultsFrom_unscoped (settings : AnalysisSettings) (names : Names)
    (callee : String) (position : Nat) (params : List Ty) (args : List Argument) :
    Argument.faultsFrom settings names.unscoped callee position params args =
      Argument.faultsFrom settings names callee position params args := by
  induction params generalizing position args with
  | nil => cases args <;> rfl
  | cons param params ih =>
      cases args with
      | nil => rfl
      | cons arg args => simp only [Argument.faultsFrom, Argument.faults_unscoped, ih]

@[simp] theorem FunctionSymbol.call_unscoped (settings : AnalysisSettings) (names : Names)
    (f : FunctionSymbol) (args : List Argument) (l : Location) :
    f.unscoped.call settings names.unscoped args l = f.call settings names args l := by
  rw [FunctionSymbol.call_eq, FunctionSymbol.call_eq, Argument.faultsFrom_unscoped]
  rfl

@[simp] theorem VariableSymbol.call_unscoped (settings : AnalysisSettings) (names : Names)
    (v : VariableSymbol) (args : List Argument) (l : Location) :
    v.unscoped.call settings names.unscoped args l = v.call settings names args l := by
  simp only [VariableSymbol.call_eq, Argument.faultsFrom_unscoped]
  rfl

@[simp] theorem Names.call_unscoped (settings : AnalysisSettings) (names : Names) (callee : Expr)
    (args : List Argument) (l : Location) :
    names.unscoped.call settings callee args l = names.call settings callee args l := by
  unfold Names.call
  cases callee.ident? with
  | none => rfl
  | some i =>
      have lookup : names.unscoped i.name = (names i.name).map Symbol.unscoped := rfl
      simp only [lookup]
      cases names i.name with
      | none => rfl
      | some x =>
          cases x with
          | var v => exact v.call_unscoped settings names args l
          | function f => exact f.call_unscoped settings names args l

@[simp] theorem Names.typeOf_unscoped (names : Names) (i : Ident) :
    names.unscoped.typeOf i = names.typeOf i := by
  unfold Names.typeOf Names.unscoped
  cases names i.name with
  | none => rfl
  | some x => simp

mutual

@[simp] theorem Expr.infer_unscoped (settings : AnalysisSettings) (names : Names) : (e : Expr) →
    e.infer settings names.unscoped = e.infer settings names
  | .number _ _ | .boolean _ _ | .text _ _ => rfl
  | .ident i => names.typeOf_unscoped i
  | .unary _ operand _ => by
      simp only [Expr.infer, Expr.infer_unscoped settings names operand]
  | .binary _ lhs rhs _ => by
      simp only [Expr.infer, Expr.infer_unscoped settings names lhs,
        Expr.infer_unscoped settings names rhs]
  | .call _ args _ => by
      simp only [Expr.infer, Expr.inferAll_unscoped settings names args, Names.call_unscoped]
  | .index target position _ => by
      simp only [Expr.infer, Expr.infer_unscoped settings names target,
        Expr.infer_unscoped settings names position]

theorem Expr.inferAll_unscoped (settings : AnalysisSettings) (names : Names) : (args : List Expr) →
    Expr.inferAll settings names.unscoped args = Expr.inferAll settings names args
  | [] => rfl
  | e :: rest => by
      simp only [Expr.inferAll, Expr.infer_unscoped settings names e,
        Expr.inferAll_unscoped settings names rest]

end

@[simp] theorem Inference.store_unscoped (settings : AnalysisSettings) (names : Names) (target : Ty)
    (value : Expr) (l : Location) :
    Inference.store (Expr.infer settings) settings names.unscoped target value l =
      Inference.store (Expr.infer settings) settings names target value l := by
  unfold Inference.store
  rw [Names.reference?_unscoped, Expr.infer_unscoped]
  cases names.reference? value <;> rfl

@[simp] theorem Inference.assign_unscoped (settings : AnalysisSettings) (names : Names)
    (a : Assignment) :
    Inference.assign (Expr.infer settings) settings names.unscoped a =
      Inference.assign (Expr.infer settings) settings names a := by
  have lookup : names.unscoped a.target.name = (names a.target.name).map Symbol.unscoped := rfl
  simp only [Inference.assign, lookup, Inference.store_unscoped]
  cases names a.target.name with
  | none => rfl
  | some x => cases x <;> rfl

@[simp] theorem Expr.conditionFaults_unscoped (settings : AnalysisSettings) (names : Names)
    (condition : Expr) :
    condition.conditionFaults settings names.unscoped = condition.conditionFaults settings names := by
  simp only [Expr.conditionFaults, Expr.infer_unscoped]

@[simp] theorem returnFaults_unscoped (settings : AnalysisSettings) (names : Names)
    (result : Option Ty) (value : Option Expr) (l : Location) :
    returnFaults settings names.unscoped result value l = returnFaults settings names result value l := by
  simp only [returnFaults, Expr.infer_unscoped, Inference.store_unscoped]

@[simp] theorem Site.duplicateFaults_unscoped (site : Site) (i : Ident) :
    site.unscoped.duplicateFaults i = site.duplicateFaults i := by
  have lookup : site.unscoped.own i.name = (site.own i.name).map Symbol.unscoped := rfl
  simp only [Site.duplicateFaults, lookup]
  cases site.own i.name with
  | none => rfl
  | some x => simp

namespace VariableDecl

variable (decl : VariableDecl) (settings : AnalysisSettings)

@[simp] theorem typed_unscoped (names : Names) :
    decl.typed settings (Expr.infer settings) names.unscoped =
      decl.typed settings (Expr.infer settings) names := by
  simp only [typed, written, TypeExpr.resolve_unscoped, Expr.infer_unscoped, Inference.store_unscoped]

@[simp] theorem faults_unscoped (site : Site) :
    decl.faults settings (Expr.infer settings) site.unscoped =
      decl.faults settings (Expr.infer settings) site := by
  have names : site.unscoped.names = site.names.unscoped := rfl
  simp only [faults, typeExprFaults, written, names, typed_unscoped, Site.duplicateFaults_unscoped,
    TypeExpr.resolve_unscoped]

/-- Without scope numbers a declaration introduces the same variable without its number. -/
theorem symbol_unscoped (site : Site) :
    decl.symbol settings (Expr.infer settings) site.unscoped =
      (decl.symbol settings (Expr.infer settings) site).map VariableSymbol.unscoped := by
  have names : site.unscoped.names = site.names.unscoped := rfl
  simp only [symbol_eq, faults_unscoped, names, typed_unscoped, foldedValue, Expr.fold_unscoped]
  cases Outcome.finish (decl.faults settings (Expr.infer settings) site)
      (decl.typed settings (Expr.infer settings) site.names).2 with
  | error found => rfl
  | ok ty? => cases ty? <;> rfl

end VariableDecl

@[simp] theorem Parameter.faults_unscoped (settings : AnalysisSettings) (names : Names)
    (p : Parameter) : p.faults settings names.unscoped = p.faults settings names := by
  simp only [Parameter.faults, TypeExpr.resolve_unscoped, Inference.store_unscoped]

namespace FunctionDecl

variable (decl : FunctionDecl) (settings : AnalysisSettings)

@[simp] theorem paramSymbols_unscoped (names : Names) :
    decl.paramSymbols names.unscoped = decl.paramSymbols names := by
  simp only [paramSymbols, Parameter.known?, TypeExpr.resolve_unscoped]

@[simp] theorem resultTy_unscoped (names : Names) :
    decl.resultTy names.unscoped = decl.resultTy names := by
  simp only [resultTy, TypeExpr.resolveResult_unscoped]

@[simp] theorem faults_unscoped (site : Site) :
    decl.faults settings site.unscoped = decl.faults settings site := by
  have names : site.unscoped.names = site.names.unscoped := rfl
  have kind : site.unscoped.kind = site.kind := rfl
  simp only [faults, paramFaults, resultFaults, callbackFaults, names, kind, paramSymbols_unscoped,
    resultTy_unscoped, Parameter.faults_unscoped, TypeExpr.resolveResult_unscoped,
    Site.duplicateFaults_unscoped]

theorem symbol_unscoped (site : Site) :
    decl.symbol settings site.unscoped = (decl.symbol settings site).map FunctionSymbol.unscoped := by
  have names : site.unscoped.names = site.names.unscoped := rfl
  simp only [symbol_eq, faults_unscoped, names, paramSymbols_unscoped, resultTy_unscoped]
  cases decl.faults settings site <;> rfl

end FunctionDecl

end SemanticCheck
