import Mathlib.Data.Option.Basic
import SemanticCheck.Proofs.Account
import SemanticCheck.Proofs.Signature

/-!
Checks without placeholders. A check goes on after a part of it has failed, to find what is wrong with
the other parts: void stands for a type that is not known, and a parameter whose type is not known is
left out. Here the same rules are read strictly: without a value for a part there is none for the whole.
A part that failed has told of a fault, so no placeholder gets further than the check that made it, and
checks succeed with exactly the values of the strict reading.
-/
namespace SemanticCheck

open Outcome (Explained)

/-- The gate for storing a function. -/
def FunctionSymbol.gate? (settings : AnalysisSettings) (target : Ty) (f : FunctionSymbol) :
    Option Unit := do
  let slot ← target.signature?
  guard (f.isCallback ∧ slot.accepts settings.callbackWidening f.signature)

/-- Storing a value, whose type is needed unless it is a function reference. -/
def Expr.store? (settings : AnalysisSettings) (names : Names) (slot : Ty) (e : Expr) (ty? : Option Ty) :
    Option Unit :=
  match names.reference? e with
  | some f => f.gate? settings slot
  | none => do
      let ty ← ty?
      guard (slot.accepts settings.callbackWidening ty)

def Expr.storeAll? (settings : AnalysisSettings) (names : Names) :
    List Ty → List (Expr × Option Ty) → Option Unit
  | slot :: slots, (e, ty?) :: args => do
      e.store? settings names slot ty?
      storeAll? settings names slots args
  | _, _ => some ()

def FunctionSymbol.call? (settings : AnalysisSettings) (names : Names) (f : FunctionSymbol)
    (args : List (Expr × Option Ty)) : Option Ty := do
  guard (f.requiredParams ≤ args.length ∧ args.length ≤ f.params.length)
  Expr.storeAll? settings names (f.params.map (·.ty)) args
  return f.result

def VariableSymbol.call? (settings : AnalysisSettings) (names : Names) (v : VariableSymbol)
    (args : List (Expr × Option Ty)) : Option Ty := do
  let slot ← v.ty.signature?
  guard (args.length = slot.arity)
  Expr.storeAll? settings names slot.params args
  return slot.result

def Names.call? (settings : AnalysisSettings) (names : Names) (callee : Expr)
    (args : List (Expr × Option Ty)) : Option Ty := do
  let i ← callee.ident?
  match ← names i.name with
  | .function f => f.call? settings names args
  | .var v => v.call? settings names args

/-- The element of an array at a position of the given type. -/
def Ty.elementAt? : Ty → Expr → Ty → Option Ty
  | .array element size, position, place => do
      guard (place.isNumeric ∧ position.outOfBounds? size = none)
      return element
  | _, _, _ => none

mutual

/-- The type of an expression whose parts have types. -/
def Expr.ty? (settings : AnalysisSettings) (names : Names) : Expr → Option Ty
  | .number value location => Outcome.value? (Ty.ofLiteral value location)
  | .boolean _ _ => some .boolean
  | .text _ _ => some .string
  | .ident i => (names i.name).map Symbol.ty
  | .unary op operand _ => do
      let ty ← operand.ty? settings names
      op.result? ty
  | .binary op lhs rhs _ => do
      let left ← lhs.ty? settings names
      let right ← rhs.ty? settings names
      op.result? settings left right
  | .call callee args _ => names.call? settings callee (tys? settings names args)
  | .index target position _ => do
      let ty ← target.ty? settings names
      let place ← position.ty? settings names
      ty.elementAt? position place

def Expr.tys? (settings : AnalysisSettings) (names : Names) : List Expr → List (Expr × Option Ty)
  | [] => []
  | e :: rest => (e, e.ty? settings names) :: tys? settings names rest

end

/-- The array type with a folded size. -/
def Ty.array? (names : Names) (element : Ty) (size : Expr) : Option Ty := do
  guard (¬ element.isVoid)
  let count ← (size.fold names).toOption
  guard (0 ≤ count.toInt ∧ count.toInt ≤ wordMax)
  return .array element count.toInt.toNat

mutual

/-- The type that is written, if all of it is known. -/
def TypeExpr.ty? (names : Names) : TypeExpr → Option Ty
  | .named i => (Primitive.ofName? i.name).map .primitive
  | .array element size _ => do
      let ty ← element.ty? names
      ty.array? names size
  | .callback params (some result) _ => do
      let tys ← tys? names params
      let ty ← result.ty? names
      return .callback tys ty
  | .callback params none _ => do
      let tys ← tys? names params
      return .callback tys .void

def TypeExpr.tys? (names : Names) : List TypeExpr → Option (List Ty)
  | [] => some []
  | a :: rest => do
      let ty ← a.ty? names
      let tys ← tys? names rest
      return ty :: tys

end

def TypeExpr.resultTy? (names : Names) : Option TypeExpr → Option Ty
  | some a => a.ty? names
  | none => some .void

def Inference.assign? (infer : Inference) (settings : AnalysisSettings) (names : Names) (a : Assignment) :
    Option Unit := do
  match ← names a.target.name with
  | .function _ => none
  | .var v =>
      guard (¬ v.isConst)
      a.value.store? settings names v.ty (Outcome.value? (infer names a.value))

def Parameter.symbol? (settings : AnalysisSettings) (names : Names) (p : Parameter) :
    Option ParameterSymbol := do
  let ty ← p.typeExpr.ty? names
  if let some value := p.default? then
    value.store? settings names ty (value.ty? settings names)
  return { name := p.name.name, ty, optional := p.isOptional, default? := p.default?
           location := p.location }

/-- What a function with known types is faulted for. -/
def FunctionDecl.faultsOf (decl : FunctionDecl) (settings : AnalysisSettings) (site : Site)
    (params : List ParameterSymbol) (result : Ty) : List Fault :=
  site.duplicateFaults decl.name ++
    (if decl.callback then decl.shapeFaults settings params result else []) ++
    decl.nameFaults ++ decl.orderFaults ++ decl.exportFaults site.kind ++ decl.namelessFaults

def FunctionDecl.symbol? (decl : FunctionDecl) (settings : AnalysisSettings) (site : Site) :
    Option FunctionSymbol := do
  let params ← decl.params.mapM (Parameter.symbol? settings site.names)
  let result ← TypeExpr.resultTy? site.names decl.result
  guard (decl.faultsOf settings site params result = [])
  return { name := decl.name.name, params, result, scope := site.scope, location := decl.location
           isCallback := decl.callback, isExported := decl.exported }

def VariableDecl.ty? (decl : VariableDecl) (settings : AnalysisSettings) (infer : Inference)
    (names : Names) : Option Ty :=
  match decl.typeExpr, decl.initializer with
  | none, none => none
  | some a, none => a.ty? names
  | some a, some value => do
      let ty ← a.ty? names
      value.store? settings names ty (Outcome.value? (infer names value))
      return ty
  | none, some value => do
      let ty ← Outcome.value? (infer names value)
      if ty.isCallback then
        value.store? settings names ty (some ty)
        return ty
      else return ty

/-- What a variable of a known type is faulted for. -/
def VariableDecl.faultsOf (decl : VariableDecl) (site : Site) (ty : Ty) : List Fault :=
  site.duplicateFaults decl.name ++ decl.constantFaults ++ decl.voidFaults (some ty)

def VariableDecl.symbol? (decl : VariableDecl) (settings : AnalysisSettings) (infer : Inference)
    (site : Site) : Option VariableSymbol := do
  let ty ← decl.ty? settings infer site.names
  guard (decl.faultsOf site ty = [])
  return { name := decl.name.name, ty, scope := site.scope, location := decl.location
           storage := decl.storage, isConst := decl.constant
           constantValue := decl.foldedValue site.names ty }

namespace Outcome

variable {α β : Type} {o : Outcome α} {found : List Fault}

@[simp] theorem faults_ok (a : α) : faults (.ok a : Outcome α) = [] := rfl

@[simp] theorem faults_error (found : List Fault) : faults (.error found : Outcome α) = found := rfl

@[simp] theorem value?_ok (a : α) : value? (.ok a : Outcome α) = some a := rfl

@[simp] theorem value?_error (found : List Fault) : value? (.error found : Outcome α) = none := rfl

@[simp] theorem value?_refuse (cause : Cause) (l : Location) :
    value? (refuse cause l : Outcome α) = none := rfl

theorem value?_map (o : Outcome α) (f : α → β) : value? (o.map f) = (value? o).map f := by
  cases o with
  | ok a => rfl
  | error found => rfl

theorem value?_finish (found : List Fault) (a : α) :
    value? (finish found a) = if found = [] then some a else none := by
  cases found with
  | nil => rfl
  | cons fault rest => rfl

/-- A check that finds faults exactly where a strict one does not pass. -/
theorem value?_finish_of_iff {passed : Option Unit} (same : found = [] ↔ passed = some ()) (a : α) :
    value? (finish found a) = passed.bind fun _ => some a := by
  rw [value?_finish]
  cases passed with
  | none => simp [same]
  | some u => simp [same]

/-- An explained failure is known by its faults as well as by its missing value. -/
theorem Explained.faults_eq_nil_iff (h : Explained o) : faults o = [] ↔ (value? o).isSome = true := by
  cases o with
  | ok a => simp
  | error found =>
      have told := h.faults_ne_nil rfl
      simp [told]

theorem Explained.passed_iff {o : Outcome Unit} (h : Explained o) :
    faults o = [] ↔ value? o = some () := by
  rw [h.faults_eq_nil_iff]
  cases value? o with
  | none => simp
  | some u => simp

theorem value?_eq_ite (o : Outcome α) : value? o = if faults o = [] then value? o else none := by
  cases o with
  | ok a => rfl
  | error found => rw [value?_error, ite_self]

/-- Absorbing a failure keeps its faults, and whatever is found around it the enclosing check fails. -/
theorem Explained.finish_absorb (h : Explained o) (failed : o = .error found)
    (before after : List Fault) (b : β) :
    (absorb before o).2 = none ∧
      Outcome.finish ((absorb before o).1 ++ after) b = .error (before ++ found ++ after) := by
  have told := h.faults_ne_nil failed
  subst failed
  refine ⟨rfl, ?_⟩
  rw [finish_eq_error_iff]
  simp [absorb, told]

/-- If values are missing only where there are faults, then leaving the missing ones out is the same as
going through the parts strictly. -/
theorem mapM_eq_filterMap {parts : List β} {found : β → List Fault} {value strict : β → Option α}
    (same : ∀ part ∈ parts, strict part = if found part = [] then value part else none)
    (told : ∀ part ∈ parts, found part = [] → (value part).isSome = true) :
    parts.mapM strict =
      if parts.flatMap found = [] then some (parts.filterMap value) else none := by
  induction parts with
  | nil => rfl
  | cons part rest ih =>
      rw [List.forall_mem_cons] at same told
      rw [List.mapM_cons, ih same.2 told.2, same.1, List.flatMap_cons]
      by_cases clean : found part = []
      · -- nothing was found, so the value is there and `filterMap` keeps it
        obtain ⟨a, known⟩ := Option.isSome_iff_exists.mp (told.1 clean)
        rw [if_pos clean, known, clean, List.nil_append, List.filterMap_cons_some known]
        by_cases others : rest.flatMap found = []
        · simp [others]
        · simp [others]
      · simp [clean]

end Outcome

variable {settings : AnalysisSettings} {names : Names}

theorem FunctionSymbol.value?_gate (f : FunctionSymbol) (target : Ty) (l : Location) :
    Outcome.value? (f.gate settings target l) = f.gate? settings target := by
  unfold FunctionSymbol.gate FunctionSymbol.gate?
  cases target.signature? with
  | none => rfl
  | some slot =>
      by_cases declared : f.isCallback = true
      · by_cases fits : slot.accepts settings.callbackWidening f.signature = true
        · simp [declared, fits, guard]
        · simp [declared, fits, guard]
      · simp [declared, guard]

theorem Inference.value?_store (infer : Inference) (target : Ty) (value : Expr) (l : Location) :
    Outcome.value? (infer.store settings names target value l) =
      value.store? settings names target (Outcome.value? (infer names value)) := by
  unfold Inference.store Expr.store?
  cases names.reference? value with
  | some f => exact f.value?_gate target l
  | none =>
      cases infer names value with
      | error found => rfl
      | ok source =>
          by_cases fits : target.accepts settings.callbackWidening source = true
          · simp [fits, guard]
          · simp [fits, guard]

theorem Inference.value?_assign (infer : Inference) (a : Assignment) :
    Outcome.value? (infer.assign settings names a) = infer.assign? settings names a := by
  unfold Inference.assign Inference.assign?
  cases names a.target.name with
  | none => rfl
  | some x =>
      cases x with
      | function f => rfl
      | var v =>
          by_cases constant : v.isConst = true
          · simp [constant, guard]
          · simp [constant, guard, Inference.value?_store]

/-- Storing a value tells of no fault exactly when it passes strictly. -/
theorem Inference.Explains.faults_store_eq_nil_iff {infer : Inference} (explains : infer.Explains)
    (settings : AnalysisSettings) (names : Names) (target : Ty) (value : Expr) (l : Location) :
    Outcome.faults (infer.store settings names target value l) = [] ↔
      value.store? settings names target (Outcome.value? (infer names value)) = some () := by
  rw [(explains.store settings names target value l).passed_iff, Inference.value?_store]

/-- What a strict call knows of an argument. -/
def Argument.told (arg : Argument) : Expr × Option Ty := (arg.expr, Outcome.value? arg.ty)

theorem Argument.faults_eq_nil_iff_store? {arg : Argument} (explained : Explained arg.ty)
    (callee : String) (position : Nat) (param : Ty) :
    arg.faults settings names callee position param = [] ↔
      arg.expr.store? settings names param (Outcome.value? arg.ty) = some () := by
  unfold Argument.faults Expr.store?
  cases names.reference? arg.expr with
  | some f =>
      have gated := f.gate_explained settings param arg.expr.location
      dsimp only
      rw [gated.passed_iff, f.value?_gate]
  | none =>
      cases typed : arg.ty with
      | error found => simp [explained.faults_ne_nil typed]
      | ok ty =>
          by_cases fits : param.accepts settings.callbackWidening ty = true
          · simp [fits, guard]
          · simp [fits, guard]

theorem Argument.faultsFrom_eq_nil_iff_storeAll? (settings : AnalysisSettings) (names : Names)
    {args : List Argument} (explained : ∀ arg ∈ args, Explained arg.ty) (callee : String) (first : Nat)
    (params : List Ty) :
    Argument.faultsFrom settings names callee first params args = [] ↔
      Expr.storeAll? settings names params (args.map Argument.told) = some () := by
  induction args generalizing first params with
  | nil => cases params <;> simp [Argument.faultsFrom, Expr.storeAll?]
  | cons arg rest ih =>
      rw [List.forall_mem_cons] at explained
      cases params with
      | nil => simp [Argument.faultsFrom, Expr.storeAll?]
      | cons param params =>
          rw [Argument.faultsFrom, List.append_eq_nil_iff, ih explained.2,
            faults_eq_nil_iff_store? explained.1, List.map_cons, Argument.told, Expr.storeAll?]
          cases arg.expr.store? settings names param (Outcome.value? arg.ty) with
          | none => simp
          | some u => simp

theorem FunctionSymbol.value?_call (f : FunctionSymbol) {args : List Argument}
    (explained : ∀ arg ∈ args, Explained arg.ty) (l : Location) :
    Outcome.value? (f.call settings names args l) =
      f.call? settings names (args.map Argument.told) := by
  have same := Argument.faultsFrom_eq_nil_iff_storeAll? settings names explained f.name 1
    (f.params.map (·.ty))
  rw [FunctionSymbol.call_eq, FunctionSymbol.call?, List.length_map]
  by_cases count : f.requiredParams ≤ args.length ∧ args.length ≤ f.params.length
  · rw [if_pos count, Outcome.value?_finish_of_iff same]
    simp [guard, count]
  · simp [count, guard]

theorem VariableSymbol.value?_call (v : VariableSymbol) {args : List Argument}
    (explained : ∀ arg ∈ args, Explained arg.ty) (l : Location) :
    Outcome.value? (v.call settings names args l) =
      v.call? settings names (args.map Argument.told) := by
  rw [VariableSymbol.call_eq, VariableSymbol.call?, List.length_map]
  cases v.ty.signature? with
  | none => rfl
  | some slot =>
      have same := Argument.faultsFrom_eq_nil_iff_storeAll? settings names explained v.name 1 slot.params
      by_cases count : args.length = slot.arity
      · simp only [if_pos count, Outcome.value?_finish_of_iff same]
        simp [guard, count]
      · simp [count, guard]

theorem Names.value?_call (names : Names) (callee : Expr) {args : List Argument}
    (explained : ∀ arg ∈ args, Explained arg.ty) (l : Location) :
    Outcome.value? (names.call settings callee args l) =
      names.call? settings callee (args.map Argument.told) := by
  unfold Names.call Names.call?
  cases callee.ident? with
  | none => rfl
  | some i =>
      cases stands : names i.name with
      | none => simp [stands]
      | some x =>
          cases x with
          | function f => simp [stands, f.value?_call explained]
          | var v => simp [stands, v.value?_call explained]

theorem BinaryOp.value?_infer (op : BinaryOp) {lhs rhs : Outcome Ty} (hl : Explained lhs)
    (hr : Explained rhs) (l : Location) :
    Outcome.value? (op.infer settings l lhs rhs) =
      (Outcome.value? lhs).bind fun left => (Outcome.value? rhs).bind fun right =>
        op.result? settings left right := by
  -- void stands for the result of an operand that failed, but the faults of the operand are there too
  cases lhs with
  | error found =>
      rw [op.infer_of_failed settings l (.inl rfl), Outcome.value?_finish]
      simp [hl.faults_ne_nil rfl]
  | ok left =>
      cases rhs with
      | error found =>
          rw [op.infer_of_failed settings l (.inr rfl), Outcome.value?_finish]
          simp [hr.faults_ne_nil rfl]
      | ok right =>
          rw [BinaryOp.infer_ok]
          cases known : op.result? settings left right <;> simp [known]

theorem Ty.value?_index {o p : Outcome Ty} (ho : Explained o) (hp : Explained p) (target position : Expr) :
    Outcome.value? (Ty.index target position o p) =
      (Outcome.value? o).bind fun ty => (Outcome.value? p).bind fun place =>
        ty.elementAt? position place := by
  rw [Ty.index_eq, Outcome.value?_finish]
  -- void stands for the element of a target that failed, but the faults of the target are there too
  cases o with
  | error found => simp [ho.faults_ne_nil rfl]
  | ok ty =>
      cases p with
      | error found => simp [hp.faults_ne_nil rfl]
      | ok place =>
          cases ty with
          | array element size =>
              by_cases numeric : place.isNumeric = true
              · cases bounds : position.outOfBounds? size with
                | none => simp [Ty.positionFaults, Ty.element, Ty.elementAt?, numeric, bounds, guard]
                | some value =>
                    simp [Ty.positionFaults, Ty.element, Ty.elementAt?, numeric, bounds, guard]
              · simp [Ty.positionFaults, Ty.elementAt?, numeric, guard]
          | primitive scalar => simp [Ty.element, Ty.elementAt?]
          | callback params result => simp [Ty.element, Ty.elementAt?]

theorem Inference.Explains.arguments {infer : Inference} (explains : infer.Explains) (names : Names)
    (args : List Expr) : ∀ arg ∈ infer.arguments names args, Explained arg.ty := by
  intro arg member
  obtain ⟨e, -, rfl⟩ := List.mem_map.mp member
  exact explains names e

theorem Inference.told_arguments (infer : Inference) (names : Names) (args : List Expr) :
    (infer.arguments names args).map Argument.told =
      args.map fun e => (e, Outcome.value? (infer names e)) := by
  rw [Inference.arguments, List.map_map]
  rfl

mutual

theorem Expr.value?_infer (e : Expr) :
    Outcome.value? (e.infer settings names) = e.ty? settings names := by
  cases e with
  | number value l => rfl
  | boolean value l => rfl
  | text value l => rfl
  | ident i =>
      rw [Expr.infer, Expr.ty?, Names.typeOf]
      cases names i.name with
      | none => rfl
      | some x => rfl
  | unary op operand l =>
      rw [Expr.infer, Expr.ty?, ← value?_infer operand]
      cases operand.infer settings names with
      | error found => rfl
      | ok ty =>
          simp only [UnaryOp.infer]
          cases known : op.result? ty <;> simp [known]
  | binary op lhs rhs l =>
      rw [Expr.infer, Expr.ty?, ← value?_infer lhs, ← value?_infer rhs]
      exact op.value?_infer (lhs.infer_explained settings names)
        (rhs.infer_explained settings names) l
  | call callee args l =>
      have explains : Inference.Explains (Expr.infer settings) := Expr.infer_explained settings
      rw [Expr.infer, Expr.ty?, ← told_inferAll args, Expr.inferAll_eq_arguments]
      exact names.value?_call callee (explains.arguments names args) l
  | index target position l =>
      rw [Expr.infer, Expr.ty?, ← value?_infer target, ← value?_infer position]
      exact Ty.value?_index (target.infer_explained settings names)
        (position.infer_explained settings names) target position

theorem Expr.told_inferAll (args : List Expr) :
    (Expr.inferAll settings names args).map Argument.told = Expr.tys? settings names args := by
  cases args with
  | nil => rfl
  | cons e rest =>
      rw [Expr.inferAll, Expr.tys?, List.map_cons, told_inferAll rest, ← value?_infer e]
      rfl

end

theorem Ty.value?_ofArray (element : Ty) (size : Expr) (l : Location) :
    Outcome.value? (Ty.ofArray names element size l) = element.array? names size := by
  unfold Ty.ofArray Ty.array?
  by_cases empty : element.isVoid = true
  · simp [empty, guard]
  · cases size.fold names with
    | error fault => simp [empty, guard, Except.toOption]
    | ok count =>
        by_cases negative : count.toInt < 0
        · have outside : ¬ 0 ≤ count.toInt := by omega
          simp [empty, guard, Except.toOption, negative, outside]
        · by_cases large : (wordMax : Int) < count.toInt
          · have outside : ¬ count.toInt ≤ wordMax := by omega
            simp [empty, guard, Except.toOption, negative, large, outside]
          · have inside : 0 ≤ count.toInt ∧ count.toInt ≤ wordMax := by omega
            simp [empty, guard, Except.toOption, negative, large, inside]

theorem Ty.value?_ofParts {params : List (Outcome Ty)} {result : Outcome Ty}
    (each : ∀ o ∈ params, Explained o) (last : Explained result) :
    Outcome.value? (Ty.ofParts params result) =
      (params.mapM Outcome.value?).bind fun tys => (Outcome.value? result).bind fun ty =>
        some (.callback tys ty) := by
  have strict : params.mapM Outcome.value? =
      if params.flatMap Outcome.faults = [] then some (params.filterMap Outcome.value?) else none := by
    apply Outcome.mapM_eq_filterMap
    · intro o _
      exact o.value?_eq_ite
    · intro o member
      exact (each o member).faults_eq_nil_iff.mp
  rw [Ty.ofParts_eq, Outcome.value?_finish, strict]
  by_cases clean : params.flatMap Outcome.faults = []
  · cases result with
    | ok ty => simp [clean]
    | error found => simp [last.faults_ne_nil rfl]
  · simp [clean]

mutual

theorem TypeExpr.value?_resolve (a : TypeExpr) :
    Outcome.value? (a.resolve names) = a.ty? names := by
  cases a with
  | named i =>
      rw [TypeExpr.resolve, TypeExpr.ty?, Ty.ofIdent]
      cases Primitive.ofName? i.name with
      | none => rfl
      | some scalar => rfl
  | array element size l =>
      rw [TypeExpr.resolve, TypeExpr.ty?, ← value?_resolve element]
      cases element.resolve names with
      | error found => rfl
      | ok ty => exact ty.value?_ofArray size l
  | callback params result l =>
      have each := TypeExpr.resolveAll_explained names params
      cases result with
      | none =>
          rw [TypeExpr.resolve, TypeExpr.ty?, ← mapM_resolveAll params, Ty.value?_ofParts each (.ok _)]
          rfl
      | some result =>
          rw [TypeExpr.resolve, TypeExpr.ty?, ← mapM_resolveAll params, ← value?_resolve result]
          exact Ty.value?_ofParts each (result.resolve_explained names)

theorem TypeExpr.mapM_resolveAll (params : List TypeExpr) :
    (TypeExpr.resolveAll names params).mapM Outcome.value? = TypeExpr.tys? names params := by
  cases params with
  | nil => rfl
  | cons a rest =>
      rw [TypeExpr.resolveAll, TypeExpr.tys?, List.mapM_cons, mapM_resolveAll rest, value?_resolve a]

end

theorem TypeExpr.value?_resolveResult (result : Option TypeExpr) :
    Outcome.value? (TypeExpr.resolveResult names result) = TypeExpr.resultTy? names result := by
  cases result with
  | none => rfl
  | some a => exact a.value?_resolve

theorem TypeExpr.resolveResult_explained (names : Names) (result : Option TypeExpr) :
    Explained (TypeExpr.resolveResult names result) := by
  cases result with
  | none => exact .ok _
  | some a => exact a.resolve_explained names

theorem Parameter.symbol?_eq_ite (p : Parameter) :
    p.symbol? settings names =
      if p.faults settings names = [] then p.known? names else none := by
  unfold Parameter.faults Parameter.known? Parameter.symbol?
  rw [← TypeExpr.value?_resolve]
  cases resolved : p.typeExpr.resolve names with
  | error found => simp
  | ok ty =>
      cases given : p.default? with
      | none => simp
      | some value =>
          have explains : Inference.Explains (Expr.infer settings) := Expr.infer_explained settings
          simp only [explains.faults_store_eq_nil_iff, Expr.value?_infer]
          cases passed : value.store? settings names ty (value.ty? settings names) with
          | none => simp [passed]
          | some u => simp [passed]

theorem FunctionDecl.mapM_symbol? (decl : FunctionDecl) :
    decl.params.mapM (Parameter.symbol? settings names) =
      if decl.paramFaults settings names = [] then some (decl.paramSymbols names) else none := by
  apply Outcome.mapM_eq_filterMap
  · intro p _
    exact p.symbol?_eq_ite
  · intro p _ clean
    rw [Parameter.known?_of_clean clean]
    rfl

theorem FunctionDecl.faults_eq_nil_iff (decl : FunctionDecl) (site : Site) :
    decl.faults settings site = [] ↔
      decl.paramFaults settings site.names = [] ∧ decl.resultFaults site.names = [] ∧
        decl.faultsOf settings site (decl.paramSymbols site.names)
          (decl.resultTy site.names) = [] := by
  simp only [FunctionDecl.faults, FunctionDecl.faultsOf, FunctionDecl.callbackFaults,
    List.append_eq_nil_iff, and_assoc]

theorem FunctionDecl.value?_symbol (decl : FunctionDecl) (site : Site) :
    Outcome.value? (decl.symbol settings site) = decl.symbol? settings site := by
  have explained := TypeExpr.resolveResult_explained site.names decl.result
  rw [FunctionDecl.symbol_eq, Outcome.value?_finish, FunctionDecl.symbol?, FunctionDecl.mapM_symbol?,
    ← TypeExpr.value?_resolveResult]
  simp only [FunctionDecl.faults_eq_nil_iff, FunctionDecl.resultFaults, FunctionDecl.resultTy]
  by_cases params : decl.paramFaults settings site.names = []
  · cases resolved : TypeExpr.resolveResult site.names decl.result with
    | error found => simp [explained.faults_ne_nil resolved]
    | ok ty =>
        by_cases own : decl.faultsOf settings site (decl.paramSymbols site.names) ty = []
        · simp [params, own, guard]
        · simp [params, own, guard]
  · simp [params]

/-- The type of a variable, with all faults that have to do with it. -/
theorem VariableDecl.ty?_eq_ite (decl : VariableDecl) {infer : Inference} (explains : infer.Explains) :
    decl.ty? settings infer names =
      if decl.typeExprFaults names ++ (decl.typed settings infer names).1 = [] then
        (decl.typed settings infer names).2
      else none := by
  unfold VariableDecl.ty? VariableDecl.typeExprFaults VariableDecl.typed VariableDecl.written
  cases decl.typeExpr with
  | none =>
      cases decl.initializer with
      | none => simp
      | some value =>
          have explained := explains names value
          cases inferred : infer names value with
          | error found => simp [inferred, explained.faults_ne_nil inferred]
          | ok ty =>
              have stored := explains.faults_store_eq_nil_iff settings names ty value decl.location
              rw [inferred, Outcome.value?_ok] at stored
              by_cases callback : ty.isCallback = true
              · cases passed : value.store? settings names ty (some ty) with
                | none => simp [inferred, callback, stored, passed]
                | some u => simp [inferred, callback, stored, passed]
              · simp [inferred, callback]
  | some a =>
      rw [Option.map_some]
      cases resolved : a.resolve names with
      | error found =>
          have told := (a.resolve_explained names).faults_ne_nil resolved
          cases decl.initializer with
          | none => simp [← a.value?_resolve, resolved]
          | some value => simp [← a.value?_resolve, resolved]
      | ok ty =>
          cases decl.initializer with
          | none => simp [← a.value?_resolve, resolved]
          | some value =>
              have stored := explains.faults_store_eq_nil_iff settings names ty value decl.location
              cases passed : value.store? settings names ty (Outcome.value? (infer names value)) with
              | none => simp [← a.value?_resolve, resolved, stored, passed]
              | some u => simp [← a.value?_resolve, resolved, stored, passed]

theorem VariableDecl.faults_eq_nil_iff {decl : VariableDecl} {infer : Inference} {site : Site} {ty : Ty}
    (typed : (decl.typed settings infer site.names).2 = some ty) :
    decl.faults settings infer site = [] ↔
      decl.typeExprFaults site.names ++ (decl.typed settings infer site.names).1 = [] ∧
        decl.faultsOf site ty = [] := by
  simp only [VariableDecl.faults, VariableDecl.faultsOf, typed, List.append_eq_nil_iff]
  grind

theorem VariableDecl.value?_symbol (decl : VariableDecl) {infer : Inference} (explains : infer.Explains)
    (site : Site) :
    Outcome.value? (decl.symbol settings infer site) = decl.symbol? settings infer site := by
  rw [VariableDecl.symbol_eq, VariableDecl.symbol?, decl.ty?_eq_ite explains]
  cases typed : (decl.typed settings infer site.names).2 with
  | none =>
      -- a declaration without faults and without a type is refused
      cases decl.faults settings infer site with
      | nil => simp [Outcome.finish]
      | cons fault rest => simp [Outcome.finish]
  | some ty =>
      -- the type may be known though its initializer does not fit, so faults have the last word
      have faultless := VariableDecl.faults_eq_nil_iff typed
      cases found : decl.faults settings infer site with
      | nil =>
          obtain ⟨known, own⟩ := faultless.mp found
          simp [Outcome.finish, known, own, guard]
      | cons fault rest =>
          rw [found] at faultless
          by_cases known : decl.typeExprFaults site.names ++ (decl.typed settings infer site.names).1 = []
          · have own : decl.faultsOf site ty ≠ [] := by
              intro none
              exact List.cons_ne_nil fault rest (faultless.mpr ⟨known, none⟩)
            simp [Outcome.finish, known, own, guard]
          · simp [Outcome.finish, known]

/-- What can be asked about a piece of a program, with the kind of its answer. -/
inductive Check : Type → Type
  | infer (e : Expr) : Check Ty
  | resolve (a : TypeExpr) : Check Ty
  | arrayOf (element : Ty) (size : Expr) (l : Location) : Check Ty
  | store (target : Ty) (value : Expr) (l : Location) : Check Unit
  | assign (a : Assignment) : Check Unit
  | gate (f : FunctionSymbol) (target : Ty) (l : Location) : Check Unit
  | call (f : FunctionSymbol) (args : List Expr) (l : Location) : Check Ty
  | callSlot (v : VariableSymbol) (args : List Expr) (l : Location) : Check Ty
  | declareFunction (decl : FunctionDecl) : Check (FunctionSymbol × SymbolTable)
  | declareVariable (decl : VariableDecl) : Check (VariableSymbol × SymbolTable)

namespace Check

variable {α : Type}

/-- The check on a table. Values are typed by the given inference. -/
def run (settings : AnalysisSettings) (infer : Inference) (t : SymbolTable) : Check α → Outcome α
  | .infer e => e.infer settings t.names
  | .resolve a => a.resolve t.names
  | .arrayOf element size l => Ty.ofArray t.names element size l
  | .store target value l => infer.store settings t.names target value l
  | .assign a => infer.assign settings t.names a
  | .gate f target l => f.gate settings target l
  | .call f args l => f.call settings t.names (infer.arguments t.names args) l
  | .callSlot v args l => v.call settings t.names (infer.arguments t.names args) l
  | .declareFunction decl => SymbolTable.answerOf (t.declareFunction settings decl)
  | .declareVariable decl => SymbolTable.answerOf (t.declareVariable settings infer decl)

/-- The answer of the strict reading. -/
def strict? (settings : AnalysisSettings) (infer : Inference) (t : SymbolTable) : Check α → Option α
  | .infer e => e.ty? settings t.names
  | .resolve a => a.ty? t.names
  | .arrayOf element size _ => element.array? t.names size
  | .store target value _ =>
      value.store? settings t.names target (Outcome.value? (infer t.names value))
  | .assign a => infer.assign? settings t.names a
  | .gate f target _ => f.gate? settings target
  | .call f args _ =>
      f.call? settings t.names (args.map fun e => (e, Outcome.value? (infer t.names e)))
  | .callSlot v args _ =>
      v.call? settings t.names (args.map fun e => (e, Outcome.value? (infer t.names e)))
  | .declareFunction decl => (decl.symbol? settings t.site).map fun f => (f, t.add (.function f))
  | .declareVariable decl => (decl.symbol? settings infer t.site).map fun v => (v, t.add (.var v))

theorem run_explained {infer : Inference} (explains : infer.Explains) (settings : AnalysisSettings)
    (t : SymbolTable) (c : Check α) :
    Explained (c.run settings infer t) := by
  cases c with
  | infer e => exact e.infer_explained settings t.names
  | resolve a => exact a.resolve_explained t.names
  | arrayOf element size l => exact Ty.ofArray_explained t.names element size l
  | store target value l => exact explains.store settings t.names target value l
  | assign a => exact explains.assign settings t.names a
  | gate f target l => exact f.gate_explained settings target l
  | call f args l => exact f.call_explained settings t.names _ l
  | callSlot v args l => exact v.call_explained settings t.names _ l
  | declareFunction decl =>
      rw [run, SymbolTable.declareFunction_eq, SymbolTable.answerOf_receive]
      exact (decl.symbol_explained settings t.site).map _
  | declareVariable decl =>
      rw [run, SymbolTable.declareVariable_eq, SymbolTable.answerOf_receive]
      exact (decl.symbol_explained settings infer t.site).map _

theorem value?_run {infer : Inference} (explains : infer.Explains) (settings : AnalysisSettings)
    (t : SymbolTable) (c : Check α) :
    Outcome.value? (c.run settings infer t) = c.strict? settings infer t := by
  cases c with
  | infer e => exact e.value?_infer
  | resolve a => exact a.value?_resolve
  | arrayOf element size l => exact element.value?_ofArray size l
  | store target value l => exact infer.value?_store target value l
  | assign a => exact infer.value?_assign a
  | gate f target l => exact f.value?_gate target l
  | call f args l =>
      rw [run, f.value?_call (explains.arguments t.names args), infer.told_arguments]
      rfl
  | callSlot v args l =>
      rw [run, v.value?_call (explains.arguments t.names args), infer.told_arguments]
      rfl
  | declareFunction decl =>
      rw [run, SymbolTable.declareFunction_eq, SymbolTable.answerOf_receive, Outcome.value?_map,
        decl.value?_symbol]
      rfl
  | declareVariable decl =>
      rw [run, SymbolTable.declareVariable_eq, SymbolTable.answerOf_receive, Outcome.value?_map,
        decl.value?_symbol explains]
      rfl

/-- Values may be typed by any inference that explains its failures, as the one of expressions does. Then
a failed check has faults to tell, and they make every check fail that absorbs it. So placeholders are
never seen: a check succeeds with an answer exactly when the strict reading gives that answer. -/
theorem failures_told_and_values_strict (settings : AnalysisSettings) (infer : Inference)
    (explains : infer.Explains) (t : SymbolTable) (α : Type) (c : Check α) :
    (∀ found, c.run settings infer t = .error found →
      found ≠ [] ∧ ∀ (β : Type) (before after : List Fault) (b : β),
        let absorbed := Outcome.absorb before (c.run settings infer t)
        absorbed.2 = none ∧
          Outcome.finish (absorbed.1 ++ after) b = .error (before ++ found ++ after)) ∧
    ∀ a, c.run settings infer t = .ok a ↔ c.strict? settings infer t = some a := by
  have explained := run_explained explains settings t c
  refine ⟨?_, ?_⟩
  · intro found failed
    refine ⟨explained.faults_ne_nil failed, ?_⟩
    intro β before after b
    exact explained.finish_absorb failed before after b
  · intro a
    rw [← value?_run explains settings t c]
    cases c.run settings infer t with
    | ok x => simp
    | error found => simp

/-- A callback with two misspelt types. Without the parameter, and with void for the result, it could be
declared. -/
def misspelt : FunctionDecl :=
  { FunctionDecl.ofName "tick" with
    callback := true
    params := [.ofName "line" (.ofName "bite"), .ofName "count" (.ofName "byte")]
    result := some (.ofName "wort") }

theorem misspelt_told :
    let infer : Inference := Expr.infer {}
    let outcome := (Check.declareFunction misspelt).run {} infer .empty
    infer.Explains ∧
    (∃ found, outcome = .error found ∧
      found.map Fault.message = ["unknown type 'bite'", "unknown type 'wort'"] ∧ found ≠ [] ∧
      Outcome.finish ((Outcome.absorb [] outcome).1 ++ []) Ty.void = .error ([] ++ found ++ [])) ∧
    ∀ a, outcome = .ok a ↔ (Check.declareFunction misspelt).strict? {} infer .empty = some a := by
  intro infer outcome
  have explains : infer.Explains := Expr.infer_explained {}
  obtain ⟨told, strict⟩ :=
    failures_told_and_values_strict {} infer explains .empty _ (.declareFunction misspelt)
  refine ⟨explains, ⟨_, rfl, rfl, ?_⟩, strict⟩
  obtain ⟨nonempty, fails⟩ := told _ rfl
  exact ⟨nonempty, (fails Ty [] [] .void).2⟩

end Check

end SemanticCheck
