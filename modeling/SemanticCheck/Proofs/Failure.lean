import SemanticCheck.Proofs.Findings

/-!
Failures say why. A check that fails reports at least one fault, so a check without faults has
succeeded: larger checks may ask for the faults of their parts only.
-/
namespace SemanticCheck

namespace Outcome

variable {α : Type} {o : Outcome α}

/-- The outcome is not a failure without a fault. -/
def Explained (o : Outcome α) : Prop := o ≠ .error []

theorem Explained.ok (a : α) : Explained (.ok a : Outcome α) := nofun

theorem Explained.refuse (cause : Cause) (l : Location) :
    Explained (refuse cause l : Outcome α) := nofun

theorem Explained.finish (found : List Fault) (a : α) : Explained (finish found a) := by
  cases found with
  | nil => exact .ok a
  | cons fault rest => nofun

/-- Failing with the faults of an explained failure is explained. -/
theorem Explained.of_error {β : Type} {found : List Fault} (h : Explained o) (failed : o = .error found) :
    Explained (.error found : Outcome β) := by
  intro same
  cases same
  exact h failed

theorem Explained.map {β : Type} (h : Explained o) (f : α → β) : Explained (o.map f) := by
  cases o with
  | ok a => exact .ok (f a)
  | error found => exact h.of_error rfl

theorem Explained.eq_ok (h : Explained o) (clean : faults o = []) : ∃ a, o = .ok a := by
  cases o with
  | ok a => exact ⟨a, rfl⟩
  | error found =>
      cases clean
      exact absurd rfl h

theorem Explained.faults_ne_nil (h : Explained o) {found : List Fault} (failed : o = .error found) :
    found ≠ [] := by
  rintro rfl
  exact h failed

end Outcome

open Outcome (Explained)

theorem Ty.ofArray_explained (names : Names) (element : Ty) (size : Expr) (l : Location) :
    Explained (Ty.ofArray names element size l) := by
  unfold Ty.ofArray
  split
  · exact .refuse _ _
  · split
    · nofun
    · split
      · exact .refuse _ _
      · split
        · exact .refuse _ _
        · exact .ok _

theorem TypeExpr.resolve_explained (names : Names) : (a : TypeExpr) → Explained (a.resolve names)
  | .named i => by
      unfold TypeExpr.resolve Ty.ofIdent
      split
      · exact .ok _
      · exact .refuse _ _
  | .array element size l => by
      have inner := TypeExpr.resolve_explained names element
      unfold TypeExpr.resolve
      split
      · exact Ty.ofArray_explained _ _ _ _
      · next failed => exact inner.of_error failed
  | .callback params (some result) l => .finish _ _
  | .callback params none l => .finish _ _

theorem TypeExpr.resolveAll_explained (names : Names) (params : List TypeExpr) :
    ∀ o ∈ TypeExpr.resolveAll names params, Explained o := by
  rw [TypeExpr.resolveAll_eq_map]
  intro o member
  obtain ⟨a, -, rfl⟩ := List.mem_map.mp member
  exact a.resolve_explained names

theorem FunctionSymbol.call_explained (settings : AnalysisSettings) (names : Names)
    (f : FunctionSymbol) (args : List Argument) (l : Location) :
    Explained (f.call settings names args l) := by
  unfold FunctionSymbol.call
  split
  · exact .finish _ _
  · exact .refuse _ _

theorem VariableSymbol.call_explained (settings : AnalysisSettings) (names : Names)
    (v : VariableSymbol) (args : List Argument) (l : Location) :
    Explained (v.call settings names args l) := by
  unfold VariableSymbol.call
  split
  · exact .refuse _ _
  · split
    · exact .finish _ _
    · exact .refuse _ _

theorem Names.call_explained (settings : AnalysisSettings) (names : Names) (callee : Expr)
    (args : List Argument) (l : Location) : Explained (names.call settings callee args l) := by
  unfold Names.call
  split
  · exact .refuse _ _
  · split
    · exact FunctionSymbol.call_explained _ _ _ _ _
    · exact VariableSymbol.call_explained _ _ _ _ _
    · exact .refuse _ _

theorem UnaryOp.infer_explained (op : UnaryOp) (l : Location) {operand : Outcome Ty}
    (h : Explained operand) : Explained (op.infer l operand) := by
  cases operand with
  | error found => exact h
  | ok ty =>
      simp only [UnaryOp.infer]
      split
      · exact .ok _
      · exact .refuse _ _

theorem BinaryOp.infer_explained (settings : AnalysisSettings) (op : BinaryOp) (l : Location)
    (lhs rhs : Outcome Ty) : Explained (op.infer settings l lhs rhs) := by
  obtain failed | ⟨left, right, rfl, rfl⟩ := Outcome.missing_or_known lhs rhs
  · rw [op.infer_of_failed settings l failed]
    exact .finish _ _
  · rw [BinaryOp.infer_ok]
    split
    · exact .ok _
    · exact .refuse _ _

theorem Expr.infer_explained (settings : AnalysisSettings) (names : Names) :
    (e : Expr) → Explained (e.infer settings names)
  | .number value l => by
      unfold Expr.infer Ty.ofLiteral
      split
      · exact .ok _
      · split
        · exact .ok _
        · exact .refuse _ _
  | .boolean _ _ => .ok _
  | .text _ _ => .ok _
  | .ident i => by
      unfold Expr.infer Names.typeOf
      split
      · exact .ok _
      · exact .refuse _ _
  | .unary op operand l => op.infer_explained l (Expr.infer_explained settings names operand)
  | .binary op lhs rhs l => op.infer_explained settings l _ _
  | .call callee args l => names.call_explained settings callee _ l
  | .index target position l => .finish _ _

/-- An operator has a type only if both operands have one: what stands for a missing type comes with a
fault. -/
theorem Expr.operands_of_infer {settings : AnalysisSettings} {names : Names} {op : BinaryOp}
    {lhs rhs : Expr} {l : Location} {ty : Ty}
    (h : op.infer settings l (lhs.infer settings names) (rhs.infer settings names) = .ok ty) :
    ∃ left right, lhs.infer settings names = .ok left ∧ rhs.infer settings names = .ok right ∧
      op.result? settings left right = some ty := by
  obtain failed | ⟨left, right, typedLeft, typedRight⟩ :=
    Outcome.missing_or_known (lhs.infer settings names) (rhs.infer settings names)
  · rw [op.infer_of_failed settings l failed, Outcome.finish_eq_ok_iff, List.append_eq_nil_iff] at h
    obtain ⟨left, typedLeft⟩ := (lhs.infer_explained settings names).eq_ok h.1.1
    obtain ⟨right, typedRight⟩ := (rhs.infer_explained settings names).eq_ok h.1.2
    simp [Outcome.value?, typedLeft, typedRight] at failed
  · rw [typedLeft, typedRight, BinaryOp.infer_ok] at h
    refine ⟨left, right, typedLeft, typedRight, ?_⟩
    split at h
    · next result =>
        cases h
        exact result
    · cases h

theorem FunctionSymbol.gate_explained (settings : AnalysisSettings) (target : Ty) (f : FunctionSymbol)
    (l : Location) : Explained (f.gate settings target l) := by
  unfold FunctionSymbol.gate
  split
  · exact .refuse _ _
  · split
    · split
      · exact .ok _
      · exact .refuse _ _
    · exact .refuse _ _

/-- An inference that explains its failures. -/
def Inference.Explains (infer : Inference) : Prop := ∀ names e, Explained (infer names e)

theorem Inference.Explains.store {infer : Inference} (explains : infer.Explains)
    (settings : AnalysisSettings) (names : Names) (target : Ty) (value : Expr) (l : Location) :
    Explained (infer.store settings names target value l) := by
  have inferred := explains names value
  unfold Inference.store
  split
  · exact FunctionSymbol.gate_explained _ _ _ _
  · split
    · next failed => exact inferred.of_error failed
    · split
      · exact .ok _
      · exact .refuse _ _

theorem Inference.Explains.assign {infer : Inference} (explains : infer.Explains)
    (settings : AnalysisSettings) (names : Names) (a : Assignment) :
    Explained (infer.assign settings names a) := by
  unfold Inference.assign
  split
  · exact .refuse _ _
  · exact .refuse _ _
  · split
    · exact .refuse _ _
    · exact explains.store _ _ _ _ _

theorem Inference.store_explained (settings : AnalysisSettings) (names : Names) (target : Ty)
    (value : Expr) (l : Location) :
    Explained (Inference.store (Expr.infer settings) settings names target value l) :=
  Explains.store (Expr.infer_explained settings) settings names target value l

theorem VariableDecl.symbol_explained (decl : VariableDecl) (settings : AnalysisSettings)
    (infer : Inference) (site : Site) : Explained (decl.symbol settings infer site) := by
  have finished := Explained.finish (decl.faults settings infer site)
    (decl.typed settings infer site.names).2
  rw [VariableDecl.symbol_eq]
  split
  · next failed => exact finished.of_error failed
  · exact .refuse _ _
  · exact .ok _

theorem FunctionDecl.symbol_explained (decl : FunctionDecl) (settings : AnalysisSettings)
    (site : Site) : Explained (decl.symbol settings site) :=
  .finish _ _

end SemanticCheck
