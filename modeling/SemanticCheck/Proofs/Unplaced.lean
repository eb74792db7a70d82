import Mathlib.Data.List.Forall2
import SemanticCheck.Analysis
import SemanticCheck.Proofs.Findings

/-!
Places are for the reader. The rules carry the places of nodes into symbols and faults and never ask for
one, so nodes without places have the same values, types and symbols, and their faults say the same.
-/
namespace SemanticCheck

def Ident.unplaced (i : Ident) : Ident := { name := i.name }

mutual

def Expr.unplaced : Expr → Expr
  | .number value _ => .number value .unknown
  | .boolean value _ => .boolean value .unknown
  | .text value _ => .text value .unknown
  | .ident i => .ident i.unplaced
  | .unary op operand _ => .unary op operand.unplaced .unknown
  | .binary op lhs rhs _ => .binary op lhs.unplaced rhs.unplaced .unknown
  | .call callee args _ => .call callee.unplaced (allUnplaced args) .unknown
  | .index target position _ => .index target.unplaced position.unplaced .unknown

def Expr.allUnplaced : List Expr → List Expr
  | [] => []
  | e :: rest => e.unplaced :: allUnplaced rest

end

mutual

def TypeExpr.unplaced : TypeExpr → TypeExpr
  | .named i => .named i.unplaced
  | .array element size _ => .array element.unplaced size.unplaced .unknown
  | .callback params (some result) _ => .callback (allUnplaced params) (some result.unplaced) .unknown
  | .callback params none _ => .callback (allUnplaced params) none .unknown

def TypeExpr.allUnplaced : List TypeExpr → List TypeExpr
  | [] => []
  | a :: rest => a.unplaced :: allUnplaced rest

end

def Parameter.unplaced (p : Parameter) : Parameter :=
  { p with
    name := p.name.unplaced
    typeExpr := p.typeExpr.unplaced
    default? := p.default?.map Expr.unplaced
    location := .unknown }

def VariableDecl.unplaced (decl : VariableDecl) : VariableDecl :=
  { decl with
    name := decl.name.unplaced
    typeExpr := decl.typeExpr.map TypeExpr.unplaced
    initializer := decl.initializer.map Expr.unplaced
    location := .unknown }

def Assignment.unplaced (a : Assignment) : Assignment :=
  { target := a.target.unplaced, value := a.value.unplaced }

mutual

def Stmt.unplaced : Stmt → Stmt
  | .declare decl => .declare decl.unplaced
  | .assign a => .assign a.unplaced
  | .expr e => .expr e.unplaced
  | .ret value _ => .ret (value.map Expr.unplaced) .unknown
  | .branch condition yes (some no) _ =>
      .branch condition.unplaced yes.unplaced (some no.unplaced) .unknown
  | .branch condition yes none _ => .branch condition.unplaced yes.unplaced none .unknown
  | .loop condition body _ => .loop condition.unplaced body.unplaced .unknown
  | .block b => .block b.unplaced

def Block.unplaced : Block → Block
  | .mk statements _ => .mk (Stmt.allUnplaced statements) .unknown

def Stmt.allUnplaced : List Stmt → List Stmt
  | [] => []
  | s :: rest => s.unplaced :: Stmt.allUnplaced rest

end

def FunctionDecl.unplaced (decl : FunctionDecl) : FunctionDecl :=
  { decl with
    name := decl.name.unplaced
    params := decl.params.map Parameter.unplaced
    result := decl.result.map TypeExpr.unplaced
    body := decl.body.map Block.unplaced
    location := .unknown }

def Item.unplaced : Item → Item
  | .function decl => .function decl.unplaced
  | .var decl => .var decl.unplaced

def Program.unplaced (program : Program) : Program :=
  { module? := program.module?.map Ident.unplaced, items := program.items.map Item.unplaced }

def VariableSymbol.unplaced (v : VariableSymbol) : VariableSymbol := { v with location := .unknown }

def ParameterSymbol.unplaced (p : ParameterSymbol) : ParameterSymbol :=
  { p with default? := p.default?.map Expr.unplaced, location := .unknown }

def FunctionSymbol.unplaced (f : FunctionSymbol) : FunctionSymbol :=
  { f with params := f.params.map ParameterSymbol.unplaced, location := .unknown }

def Symbol.unplaced : Symbol → Symbol
  | .var v => .var v.unplaced
  | .function f => .function f.unplaced

def Names.unplaced (names : Names) : Names := fun name => (names name).map Symbol.unplaced

theorem Names.unplaced_name (names : Names) (i : Ident) :
    names.unplaced i.unplaced.name = (names i.name).map Symbol.unplaced := rfl

theorem Stmt.allUnplaced_eq_map (statements : List Stmt) :
    Stmt.allUnplaced statements = statements.map Stmt.unplaced := by
  induction statements with
  | nil => rfl
  | cons s rest ih => rw [Stmt.allUnplaced, ih, List.map_cons]

@[simp] theorem Symbol.name_unplaced (x : Symbol) : x.unplaced.name = x.name := by
  cases x <;> rfl

@[simp] theorem Symbol.kind_unplaced (x : Symbol) : x.unplaced.kind = x.kind := by
  cases x <;> rfl

@[simp] theorem FunctionSymbol.signature_unplaced (f : FunctionSymbol) :
    f.unplaced.signature = f.signature := by
  simp only [FunctionSymbol.signature, FunctionSymbol.unplaced, List.map_map]
  rfl

@[simp] theorem Symbol.ty_unplaced (x : Symbol) : x.unplaced.ty = x.ty := by
  cases x with
  | var v => rfl
  | function f => exact congrArg Signature.ty f.signature_unplaced

/-- The kind of a fault, its message and how many suggestions it has, without the place and the texts
of the suggestions, which may name places. -/
def Fault.wording (fault : Fault) : FaultKind × String × Nat :=
  (fault.kind, fault.message, fault.suggestions.length)

/-- The faults say the same, one by one. -/
def SameWording (found found' : List Fault) : Prop :=
  found.map Fault.wording = found'.map Fault.wording

namespace SameWording

variable {found found' more more' : List Fault}

theorem nil : SameWording [] [] := rfl

theorem append (h : SameWording found found') (k : SameWording more more') :
    SameWording (found ++ more) (found' ++ more') := by
  unfold SameWording at h k ⊢
  rw [List.map_append, List.map_append, h, k]

theorem ite {c : Prop} [Decidable c] (h : SameWording found found') (k : SameWording more more') :
    SameWording (if c then found else more) (if c then found' else more') := by
  split
  · exact h
  · exact k

theorem eq_nil_iff (h : SameWording found found') : found = [] ↔ found' = [] := by
  rw [← List.map_eq_nil_iff (f := Fault.wording), h, List.map_eq_nil_iff]

end SameWording

/-- Both succeed with related values, or both fail with related errors. -/
inductive Alike {ε α : Type} (Errors : ε → ε → Prop) (Values : α → α → Prop) :
    Except ε α → Except ε α → Prop
  | ok {a a' : α} : Values a a' → Alike Errors Values (.ok a) (.ok a')
  | error {e e' : ε} : Errors e e' → Alike Errors Values (.error e) (.error e')

/-- The outcomes say the same. -/
abbrev Outcome.Echoes {α : Type} (Values : α → α → Prop) : Outcome α → Outcome α → Prop :=
  Alike SameWording Values

/-- The constants have the same value or the faults say the same. -/
abbrev FoldsAlike : Except Fault Int64 → Except Fault Int64 → Prop :=
  Alike (fun fault fault' => fault.wording = fault'.wording) Eq

namespace Outcome.Echoes

variable {α : Type} {Values : α → α → Prop} {o o' : Outcome α} {found found' : List Fault} {a a' : α}

theorem faults (h : Outcome.Echoes Values o o') : SameWording (Outcome.faults o) (Outcome.faults o') := by
  cases h with
  | ok _ => exact .nil
  | error same => exact same

theorem finish (h : SameWording found found') (values : Values a a') :
    Outcome.Echoes Values (Outcome.finish found a) (Outcome.finish found' a') := by
  cases found with
  | nil =>
      rw [h.eq_nil_iff.mp rfl]
      exact .ok values
  | cons fault rest =>
      cases found' with
      | nil => cases h
      | cons fault' rest' => exact .error h

theorem mono {Values' : α → α → Prop} (h : Outcome.Echoes Values o o')
    (values : ∀ a a', Values a a' → Values' a a') : Outcome.Echoes Values' o o' := by
  cases h with
  | ok same => exact .ok (values _ _ same)
  | error same => exact .error same

theorem value?_eq (h : Outcome.Echoes Eq o o') :
    Outcome.value? o = Outcome.value? o' := by
  cases h with
  | ok same => rw [same]
  | error _ => rfl

end Outcome.Echoes

theorem UnaryOp.fold_alike (op : UnaryOp) (l l' : Location) (a : Int64) :
    FoldsAlike (op.fold l a) (op.fold l' a) := by
  unfold UnaryOp.fold
  split
  · split
    · exact .ok rfl
    · exact .error rfl
  · exact .ok rfl
  · exact .error rfl

theorem BinaryOp.fold_alike (op : BinaryOp) (l l' : Location) (a b : Int64) :
    FoldsAlike (op.fold l a b) (op.fold l' a b) := by
  unfold BinaryOp.fold
  split
  · exact .error rfl
  · split
    · exact .ok rfl
    · exact .error rfl

theorem Names.constant_alike (names : Names) (i : Ident) :
    FoldsAlike (names.constant i) (names.unplaced.constant i.unplaced) := by
  unfold Names.constant
  rw [names.unplaced_name]
  cases names i.name with
  | none => exact .error rfl
  | some x =>
      have value : x.unplaced.var?.bind (·.constantValue) = x.var?.bind (·.constantValue) := by
        cases x <;> rfl
      simp only [Option.map_some, value, Symbol.kind_unplaced]
      split
      · exact .ok rfl
      · exact .error rfl

theorem Expr.fold_alike (names : Names) :
    (e : Expr) → FoldsAlike (e.fold names) (e.unplaced.fold names.unplaced)
  | .number _ _ => .ok rfl
  | .boolean _ _ | .text _ _ | .call _ _ _ | .index _ _ _ => .error rfl
  | .ident i => names.constant_alike i
  | .unary op operand l => by
      have inner := operand.fold_alike names
      simp only [Expr.unplaced, Expr.fold]
      generalize operand.fold names = o, operand.unplaced.fold names.unplaced = o' at inner ⊢
      cases inner with
      | ok same =>
          subst same
          exact op.fold_alike _ _ _
      | error same => exact .error same
  | .binary op lhs rhs l => by
      have left := lhs.fold_alike names
      have right := rhs.fold_alike names
      simp only [Expr.unplaced, Expr.fold]
      split
      · generalize lhs.fold names = o, lhs.unplaced.fold names.unplaced = o' at left ⊢
        generalize rhs.fold names = p, rhs.unplaced.fold names.unplaced = p' at right ⊢
        cases left with
        | error same => exact .error same
        | ok same =>
            subst same
            cases right with
            | error same => exact .error same
            | ok same =>
                subst same
                exact op.fold_alike _ _ _ _
      · exact .error rfl

theorem VariableDecl.isFolded_unplaced (decl : VariableDecl) (names : Names) :
    decl.unplaced.isFolded names.unplaced = decl.isFolded names := by
  unfold VariableDecl.isFolded VariableDecl.unplaced
  cases decl.initializer with
  | none => rfl
  | some value =>
      have folds := value.fold_alike names
      simp only [Option.map_some, Option.any_some]
      generalize value.fold names = o, value.unplaced.fold names.unplaced = o' at folds ⊢
      cases folds <;> rfl

theorem Ty.ofArray_echoes (names : Names) (element : Ty) (size : Expr) (l l' : Location) :
    Outcome.Echoes Eq (Ty.ofArray names element size l)
      (Ty.ofArray names.unplaced element size.unplaced l') := by
  have folds := size.fold_alike names
  unfold Ty.ofArray
  split
  · exact .error rfl
  · generalize size.fold names = o, size.unplaced.fold names.unplaced = o' at folds ⊢
    cases folds with
    | error same => exact .error (congrArg ([·]) same)
    | ok same =>
        subst same
        simp only
        split
        · exact .error rfl
        · split
          · exact .error rfl
          · exact .ok rfl

section Parts

variable {params params' : List (Outcome Ty)} (h : List.Forall₂ (Outcome.Echoes Eq) params params')
include h

theorem SameWording.flatMap_faults :
    SameWording (params.flatMap Outcome.faults) (params'.flatMap Outcome.faults) := by
  induction h with
  | nil => exact .nil
  | cons first _ ih => exact first.faults.append ih

theorem Ty.ofParts_echoes {result result' : Outcome Ty} (k : Outcome.Echoes Eq result result') :
    Outcome.Echoes Eq (Ty.ofParts params result) (Ty.ofParts params' result') := by
  have known : params.filterMap Outcome.value? = params'.filterMap Outcome.value? := by
    induction h with
    | nil => rfl
    | cons first _ ih => rw [List.filterMap_cons, List.filterMap_cons, first.value?_eq, ih]
  rw [Ty.ofParts_eq, Ty.ofParts_eq]
  refine .finish ((SameWording.flatMap_faults h).append k.faults) ?_
  rw [known, k.value?_eq]

end Parts

mutual

theorem TypeExpr.resolve_echoes (names : Names) :
    (a : TypeExpr) → Outcome.Echoes Eq (a.resolve names) (a.unplaced.resolve names.unplaced)
  | .named i => by
      have name : i.unplaced.name = i.name := rfl
      simp only [TypeExpr.unplaced, TypeExpr.resolve, Ty.ofIdent, name]
      split
      · exact .ok rfl
      · exact .error rfl
  | .array element size l => by
      have inner := element.resolve_echoes names
      simp only [TypeExpr.unplaced, TypeExpr.resolve]
      generalize element.resolve names = o, element.unplaced.resolve names.unplaced = o' at inner ⊢
      cases inner with
      | ok same =>
          subst same
          exact Ty.ofArray_echoes _ _ _ _ _
      | error same => exact .error same
  | .callback params (some result) l =>
      Ty.ofParts_echoes (TypeExpr.resolveAll_echoes names params) (result.resolve_echoes names)
  | .callback params none l => Ty.ofParts_echoes (TypeExpr.resolveAll_echoes names params) (.ok rfl)

theorem TypeExpr.resolveAll_echoes (names : Names) :
    (params : List TypeExpr) → List.Forall₂ (Outcome.Echoes Eq) (TypeExpr.resolveAll names params)
      (TypeExpr.resolveAll names.unplaced (TypeExpr.allUnplaced params))
  | [] => .nil
  | a :: rest => .cons (a.resolve_echoes names) (TypeExpr.resolveAll_echoes names rest)

end

theorem TypeExpr.resolveResult_echoes (names : Names) (result : Option TypeExpr) :
    Outcome.Echoes Eq (TypeExpr.resolveResult names result)
      (TypeExpr.resolveResult names.unplaced (result.map TypeExpr.unplaced)) := by
  cases result with
  | none => exact .ok rfl
  | some a => exact a.resolve_echoes names

theorem Names.reference?_unplaced (names : Names) (e : Expr) :
    names.unplaced.reference? e.unplaced = (names.reference? e).map FunctionSymbol.unplaced := by
  cases e with
  | ident i =>
      simp only [Names.reference?, Expr.unplaced, Expr.ident?, Option.bind_some, Names.function?,
        names.unplaced_name]
      cases names i.name with
      | none => rfl
      | some x => cases x <;> rfl
  | _ => rfl

theorem FunctionSymbol.gate_echoes (settings : AnalysisSettings) (target : Ty) (f : FunctionSymbol)
    (l l' : Location) :
    Outcome.Echoes Eq (f.gate settings target l) (f.unplaced.gate settings target l') := by
  have name : f.unplaced.name = f.name := rfl
  have declared : f.unplaced.isCallback = f.isCallback := rfl
  simp only [FunctionSymbol.gate, name, declared, FunctionSymbol.signature_unplaced]
  split
  · exact .error rfl
  · split
    · split
      · exact .ok rfl
      · exact .error rfl
    · exact .error rfl

/-- The same argument without its place, typed alike. -/
structure Argument.Echoes (arg arg' : Argument) : Prop where
  expr_eq : arg'.expr = arg.expr.unplaced
  ty : Outcome.Echoes Eq arg.ty arg'.ty

section Calls

variable {settings : AnalysisSettings} {names : Names}

theorem Argument.Echoes.faults {arg arg' : Argument} (h : arg.Echoes arg') (callee : String)
    (position : Nat) (param : Ty) :
    SameWording (arg.faults settings names callee position param)
      (arg'.faults settings names.unplaced callee position param) := by
  obtain ⟨e, ty⟩ := arg
  obtain ⟨_, ty'⟩ := arg'
  obtain ⟨rfl, typed⟩ := h
  simp only [Argument.faults, names.reference?_unplaced]
  cases names.reference? e with
  | some f => exact (f.gate_echoes settings param _ _).faults
  | none =>
      cases typed with
      | error same => exact same
      | ok same =>
          subst same
          exact .ite .nil rfl

theorem Argument.faultsFrom_echoes {args args' : List Argument}
    (h : List.Forall₂ Argument.Echoes args args') (callee : String) (position : Nat) (params : List Ty) :
    SameWording (Argument.faultsFrom settings names callee position params args)
      (Argument.faultsFrom settings names.unplaced callee position params args') := by
  induction h generalizing position params with
  | nil => cases params <;> exact .nil
  | cons first _ ih =>
      cases params with
      | nil => exact .nil
      | cons param params => exact (first.faults callee position param).append (ih (position + 1) params)

theorem FunctionSymbol.call_echoes {args args' : List Argument}
    (h : List.Forall₂ Argument.Echoes args args') (f : FunctionSymbol) (l l' : Location) :
    Outcome.Echoes Eq (f.call settings names args l)
      (f.unplaced.call settings names.unplaced args' l') := by
  have required : f.unplaced.requiredParams = f.requiredParams := by
    simp only [FunctionSymbol.requiredParams, FunctionSymbol.unplaced, List.countP_map]
    rfl
  have total : f.unplaced.params.length = f.params.length := List.length_map _
  have types : f.unplaced.params.map (·.ty) = f.params.map (·.ty) :=
    congrArg Signature.params f.signature_unplaced
  simp only [FunctionSymbol.call_eq, required, total, types, ← h.length_eq]
  split
  · exact .finish (Argument.faultsFrom_echoes h _ _ _) rfl
  · exact .error rfl

theorem VariableSymbol.call_echoes {args args' : List Argument}
    (h : List.Forall₂ Argument.Echoes args args') (v : VariableSymbol) (l l' : Location) :
    Outcome.Echoes Eq (v.call settings names args l)
      (v.unplaced.call settings names.unplaced args' l') := by
  have ty : v.unplaced.ty = v.ty := rfl
  simp only [VariableSymbol.call_eq, ty, ← h.length_eq]
  split
  · exact .error rfl
  · split
    · exact .finish (Argument.faultsFrom_echoes h _ _ _) rfl
    · exact .error rfl

theorem Names.call_echoes {args args' : List Argument} (h : List.Forall₂ Argument.Echoes args args')
    (callee : Expr) (l l' : Location) :
    Outcome.Echoes Eq (names.call settings callee args l)
      (names.unplaced.call settings callee.unplaced args' l') := by
  cases callee with
  | ident i =>
      simp only [Names.call, Expr.unplaced, Expr.ident?, names.unplaced_name]
      cases names i.name with
      | none => exact .error rfl
      | some x =>
          cases x with
          | function f => exact f.call_echoes h _ _
          | var v => exact v.call_echoes h _ _
  | _ => exact .error rfl

theorem UnaryOp.infer_echoes (op : UnaryOp) (l l' : Location) {operand operand' : Outcome Ty}
    (h : Outcome.Echoes Eq operand operand') :
    Outcome.Echoes Eq (op.infer l operand) (op.infer l' operand') := by
  cases h with
  | error same => exact .error same
  | ok same =>
      subst same
      simp only [UnaryOp.infer]
      split
      · exact .ok rfl
      · exact .error rfl

theorem BinaryOp.infer_echoes (op : BinaryOp) (l l' : Location) {lhs lhs' rhs rhs' : Outcome Ty}
    (h : Outcome.Echoes Eq lhs lhs') (k : Outcome.Echoes Eq rhs rhs') :
    Outcome.Echoes Eq (op.infer settings l lhs rhs) (op.infer settings l' lhs' rhs') := by
  cases h with
  | error left => exact .finish (left.append k.faults) rfl
  | ok left =>
      cases k with
      | error right => exact .finish right rfl
      | ok right =>
          subst left right
          rw [BinaryOp.infer_ok, BinaryOp.infer_ok]
          split
          · exact .ok rfl
          · exact .error rfl

theorem Expr.outOfBounds?_unplaced (size : Nat) (e : Expr) :
    e.unplaced.outOfBounds? size = e.outOfBounds? size := by
  cases e <;> rfl

theorem Ty.index_echoes (target position : Expr) {targetTy targetTy' positionTy positionTy' : Outcome Ty}
    (h : Outcome.Echoes Eq targetTy targetTy') (k : Outcome.Echoes Eq positionTy positionTy') :
    Outcome.Echoes Eq (Ty.index target position targetTy positionTy)
      (Ty.index target.unplaced position.unplaced targetTy' positionTy') := by
  have numeric : SameWording (Ty.positionFaults position.location (Outcome.value? positionTy))
      (Ty.positionFaults position.unplaced.location (Outcome.value? positionTy')) := by
    cases k with
    | error _ => exact .nil
    | ok same =>
        subst same
        exact .ite .nil rfl
  have element : SameWording (Ty.element target position (Outcome.value? targetTy)).1
        (Ty.element target.unplaced position.unplaced (Outcome.value? targetTy')).1 ∧
      (Ty.element target position (Outcome.value? targetTy)).2 =
        (Ty.element target.unplaced position.unplaced (Outcome.value? targetTy')).2 := by
    rw [h.value?_eq]
    cases Outcome.value? targetTy' with
    | none => exact ⟨.nil, rfl⟩
    | some ty =>
        cases ty with
        | array element size =>
            simp only [Ty.element, position.outOfBounds?_unplaced]
            cases position.outOfBounds? size with
            | none => exact ⟨.nil, rfl⟩
            | some value => exact ⟨rfl, rfl⟩
        | primitive p => exact ⟨rfl, rfl⟩
        | callback params result => exact ⟨rfl, rfl⟩
  exact .finish (((h.faults.append k.faults).append numeric).append element.1) element.2

end Calls

mutual

theorem Expr.infer_echoes (settings : AnalysisSettings) (names : Names) :
    (e : Expr) → Outcome.Echoes Eq (e.infer settings names) (e.unplaced.infer settings names.unplaced)
  | .number value l => by
      simp only [Expr.unplaced, Expr.infer, Ty.ofLiteral]
      split
      · exact .ok rfl
      · split
        · exact .ok rfl
        · exact .error rfl
  | .boolean _ _ => .ok rfl
  | .text _ _ => .ok rfl
  | .ident i => by
      simp only [Expr.unplaced, Expr.infer, Names.typeOf, names.unplaced_name]
      cases names i.name with
      | none => exact .error rfl
      | some x => exact .ok x.ty_unplaced.symm
  | .unary op operand l => op.infer_echoes l _ (operand.infer_echoes settings names)
  | .binary op lhs rhs l =>
      op.infer_echoes l _ (lhs.infer_echoes settings names) (rhs.infer_echoes settings names)
  | .call callee args l => Names.call_echoes (Expr.inferAll_echoes settings names args) callee l _
  | .index target position l =>
      Ty.index_echoes target position (target.infer_echoes settings names)
        (position.infer_echoes settings names)

theorem Expr.inferAll_echoes (settings : AnalysisSettings) (names : Names) :
    (args : List Expr) → List.Forall₂ Argument.Echoes (Expr.inferAll settings names args)
      (Expr.inferAll settings names.unplaced (Expr.allUnplaced args))
  | [] => .nil
  | e :: rest => .cons ⟨rfl, e.infer_echoes settings names⟩ (Expr.inferAll_echoes settings names rest)

end

section Stores

variable (settings : AnalysisSettings) (names : Names)

theorem Inference.store_echoes (target : Ty) (value : Expr) (l l' : Location) :
    Outcome.Echoes Eq (Inference.store (Expr.infer settings) settings names target value l)
      (Inference.store (Expr.infer settings) settings names.unplaced target value.unplaced l') := by
  have inferred := value.infer_echoes settings names
  simp only [Inference.store, names.reference?_unplaced]
  cases names.reference? value with
  | some f => exact f.gate_echoes settings target _ _
  | none =>
      simp only [Option.map_none]
      generalize value.infer settings names = o, value.unplaced.infer settings names.unplaced = o'
        at inferred ⊢
      cases inferred with
      | error same => exact .error same
      | ok same =>
          subst same
          simp only
          split
          · exact .ok rfl
          · exact .error rfl

theorem Inference.assign_echoes (a : Assignment) :
    Outcome.Echoes Eq (Inference.assign (Expr.infer settings) settings names a)
      (Inference.assign (Expr.infer settings) settings names.unplaced a.unplaced) := by
  have lookup : names.unplaced a.unplaced.target.name = (names a.target.name).map Symbol.unplaced :=
    names.unplaced_name a.target
  simp only [Inference.assign, lookup]
  cases names a.target.name with
  | none => exact .error rfl
  | some x =>
      cases x with
      | function f => exact .error rfl
      | var v =>
          have constant : v.unplaced.isConst = v.isConst := rfl
          simp only [Option.map_some, Symbol.unplaced, constant]
          split
          · exact .error rfl
          · exact Inference.store_echoes settings names v.ty a.value _ _

theorem Expr.conditionFaults_sameWording (e : Expr) :
    SameWording (e.conditionFaults settings names)
      (e.unplaced.conditionFaults settings names.unplaced) := by
  have inferred := e.infer_echoes settings names
  unfold Expr.conditionFaults
  generalize e.infer settings names = o, e.unplaced.infer settings names.unplaced = o' at inferred ⊢
  cases inferred with
  | error same => exact same
  | ok same =>
      subst same
      exact .ite .nil rfl

theorem returnFaults_sameWording (result : Option Ty) (value : Option Expr) (l l' : Location) :
    SameWording (returnFaults settings names result value l)
      (returnFaults settings names.unplaced result (value.map Expr.unplaced) l') := by
  cases result with
  | none => rfl
  | some ty =>
      cases value with
      | none => exact .ite .nil rfl
      | some e =>
          exact .ite ((e.infer_echoes settings names).faults.append rfl)
            (Inference.store_echoes settings names ty e _ _).faults

end Stores

end SemanticCheck
