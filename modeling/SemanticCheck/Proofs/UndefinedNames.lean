import SemanticCheck.Proofs.DirectCall
import SemanticCheck.Proofs.History
import SemanticCheck.Proofs.ReadingOrder

/-!
Undefined names in expressions. Faults travel up from the parts of an expression in different ways: some
rules stop at a part that failed, others go on and add faults of their own, and void stands for the type
of what failed. No undefined name gets lost on the way and none is told twice: as long as calls are made
to what can be called, with numbers of arguments that fit, there is one fault for each identifier that
stands for nothing, in reading order.
-/
namespace SemanticCheck

/-- Every call of the expression, at any depth, names a function or a slot and passes a number of
arguments that it admits. -/
inductive Expr.CallsFit (t : SymbolTable) : Expr → Prop
  | number {n l} : CallsFit t (.number n l)
  | boolean {b l} : CallsFit t (.boolean b l)
  | text {s l} : CallsFit t (.text s l)
  | ident {i} : CallsFit t (.ident i)
  | unary {op operand l} : CallsFit t operand → CallsFit t (.unary op operand l)
  | binary {op lhs rhs l} : CallsFit t lhs → CallsFit t rhs → CallsFit t (.binary op lhs rhs l)
  | index {target position l} : CallsFit t target → CallsFit t position →
      CallsFit t (.index target position l)
  | call {i f args l} : t.Nearest i.name (.function f) → f.InWindow args.length →
      (∀ e ∈ args, CallsFit t e) → CallsFit t (.call (.ident i) args l)
  | callSlot {i v params result args l} : t.Nearest i.name (.var v) → v.ty = .callback params result →
      args.length = params.length → (∀ e ∈ args, CallsFit t e) → CallsFit t (.call (.ident i) args l)

/-- The fault that tells of an identifier that stands for nothing. -/
def Ident.undefined (i : Ident) : Fault :=
  { kind := .undefinedSymbol, message := s!"reference to undefined identifier '{i.name}'"
    location := i.location }

namespace Fault

/-- The faults that tell of undefined names. -/
def undefined (found : List Fault) : List Fault := found.filter (·.kind = .undefinedSymbol)

@[simp] theorem undefined_nil : undefined [] = [] := rfl

@[simp] theorem undefined_append (found more : List Fault) :
    undefined (found ++ more) = undefined found ++ undefined more := List.filter_append ..

theorem undefined_of_cause {cause : Cause} {l : Location} (other : cause.kind ≠ .undefinedSymbol) :
    undefined [cause.fault l] = [] := by
  simp [undefined, Cause.fault, other]

end Fault

variable {settings : AnalysisSettings} {names : Names}

namespace Expr

/-- The identifiers that stand for nothing, from left to right. -/
def unknown (names : Names) (e : Expr) : List Ident :=
  (Node.idents e.nodes).filter fun i => (names i.name).isNone

@[simp] theorem unknown_ident (i : Ident) :
    (Expr.ident i).unknown names = if (names i.name).isNone then [i] else [] := by
  simp [unknown, Expr.nodes, Node.ident?, List.filter_cons]

@[simp] theorem unknown_unary (op : UnaryOp) (operand : Expr) (l : Location) :
    (Expr.unary op operand l).unknown names = operand.unknown names := by
  simp [unknown, Expr.nodes, Node.ident?]

@[simp] theorem unknown_binary (op : BinaryOp) (lhs rhs : Expr) (l : Location) :
    (Expr.binary op lhs rhs l).unknown names = lhs.unknown names ++ rhs.unknown names := by
  simp [unknown, Expr.nodes, Node.ident?]

@[simp] theorem unknown_index (target position : Expr) (l : Location) :
    (Expr.index target position l).unknown names = target.unknown names ++ position.unknown names := by
  simp [unknown, Expr.nodes, Node.ident?]

@[simp] theorem unknown_call (callee : Expr) (args : List Expr) (l : Location) :
    (Expr.call callee args l).unknown names =
      callee.unknown names ++ args.flatMap (Expr.unknown names) := by
  simp [unknown, Expr.nodes, Node.ident?, Expr.allNodes_eq_flatMap, List.filter_flatMap]
  rfl

end Expr

theorem UnaryOp.undefined_infer (op : UnaryOp) (l : Location) (operand : Outcome Ty) :
    Fault.undefined (Outcome.faults (op.infer l operand)) = Fault.undefined (Outcome.faults operand) := by
  cases operand with
  | error found => rfl
  | ok ty =>
      simp only [UnaryOp.infer]
      split
      · rfl
      · exact Fault.undefined_of_cause (by simp [Cause.kind])

theorem BinaryOp.undefined_infer (op : BinaryOp) (l : Location) (lhs rhs : Outcome Ty) :
    Fault.undefined (Outcome.faults (op.infer settings l lhs rhs)) =
      Fault.undefined (Outcome.faults lhs) ++ Fault.undefined (Outcome.faults rhs) := by
  obtain failed | ⟨left, right, rfl, rfl⟩ := Outcome.missing_or_known lhs rhs
  · rw [op.infer_of_failed settings l failed, Outcome.faults_finish, Fault.undefined_append]
  · rw [BinaryOp.infer_ok]
    split
    · rfl
    · exact Fault.undefined_of_cause (by simp [Cause.kind])

theorem Ty.undefined_positionFaults (l : Location) (position : Option Ty) :
    Fault.undefined (Ty.positionFaults l position) = [] := by
  unfold Ty.positionFaults
  split
  · split
    · rfl
    · exact Fault.undefined_of_cause (by simp [Cause.kind])
  · rfl

theorem Ty.undefined_element (target position : Expr) (ty? : Option Ty) :
    Fault.undefined (Ty.element target position ty?).1 = [] := by
  unfold Ty.element
  split
  · split
    · exact Fault.undefined_of_cause (by simp [Cause.kind])
    · rfl
  · exact Fault.undefined_of_cause (by simp [Cause.kind])
  · rfl

theorem Ty.undefined_index (target position : Expr) (targetTy positionTy : Outcome Ty) :
    Fault.undefined (Outcome.faults (Ty.index target position targetTy positionTy)) =
      Fault.undefined (Outcome.faults targetTy) ++ Fault.undefined (Outcome.faults positionTy) := by
  rw [Ty.index_eq, Outcome.faults_finish]
  simp only [Fault.undefined_append, Ty.undefined_positionFaults, Ty.undefined_element, List.append_nil]

theorem FunctionSymbol.undefined_gate (f : FunctionSymbol) (target : Ty) (l : Location) :
    Fault.undefined (Outcome.faults (f.gate settings target l)) = [] := by
  unfold FunctionSymbol.gate
  split
  · exact Fault.undefined_of_cause (by simp [Cause.kind])
  · split
    · split
      · rfl
      · exact Fault.undefined_of_cause (by simp [Cause.kind])
    · exact Fault.undefined_of_cause (by simp [Cause.kind])

/-- The undefined names that inference tells of are those of the expression. -/
def Expr.Tells (settings : AnalysisSettings) (names : Names) (e : Expr) : Prop :=
  Fault.undefined (Outcome.faults (e.infer settings names)) = (e.unknown names).map Ident.undefined

theorem Expr.Tells.argument {e : Expr} (tells : e.Tells settings names) (callee : String)
    (position : Nat) (param : Ty) :
    Fault.undefined (Argument.faults settings names callee position param ⟨e, e.infer settings names⟩) =
      (e.unknown names).map Ident.undefined := by
  unfold Expr.Tells at tells
  unfold Argument.faults
  cases reference : names.reference? e with
  | some f =>
      obtain ⟨i, rfl, stands⟩ := Names.reference?_eq_some_iff.mp reference
      simp [stands, FunctionSymbol.undefined_gate]
  | none =>
      cases typed : e.infer settings names with
      | error found =>
          rw [typed] at tells
          exact tells
      | ok ty =>
          rw [← tells, typed]
          dsimp only
          split
          · rfl
          · exact Fault.undefined_of_cause (by simp [Cause.kind])

theorem Argument.undefined_faultsFrom {args : List Expr} (each : ∀ e ∈ args, e.Tells settings names)
    (callee : String) (first : Nat) {params : List Ty} (enough : args.length ≤ params.length) :
    Fault.undefined
        (Argument.faultsFrom settings names callee first params (Expr.inferAll settings names args)) =
      (args.flatMap (Expr.unknown names)).map Ident.undefined := by
  induction args generalizing first params with
  | nil =>
      rw [Expr.inferAll, Argument.faultsFrom]
      · rfl
      · nofun
  | cons e rest ih =>
      obtain ⟨own, others⟩ := List.forall_mem_cons.mp each
      cases params with
      | nil => cases enough
      | cons param params =>
          rw [Expr.inferAll, Argument.faultsFrom, Fault.undefined_append, own.argument,
            ih others _ (Nat.le_of_succ_le_succ enough), List.flatMap_cons, List.map_append]

/-- The induction is on how calls fit: the names that they call are known, and each argument has a
parameter, so that it is looked at. -/
theorem Expr.CallsFit.tells {t : SymbolTable} (h : t.WellFormed) {e : Expr} (fits : e.CallsFit t) :
    e.Tells settings t.names := by
  unfold Expr.Tells
  induction fits with
  | @number n l =>
      unfold Expr.infer Ty.ofLiteral
      split
      · rfl
      · split
        · rfl
        · exact Fault.undefined_of_cause (by simp [Cause.kind])
  | boolean => rfl
  | text => rfl
  | @ident i =>
      rw [Expr.infer, Names.typeOf, Expr.unknown_ident]
      cases t.names i.name with
      | none => rfl
      | some x => rfl
  | unary _ ih => rw [Expr.infer, UnaryOp.undefined_infer, ih, Expr.unknown_unary]
  | binary _ _ left right =>
      rw [Expr.infer, BinaryOp.undefined_infer, left, right, Expr.unknown_binary, List.map_append]
  | index _ _ target position =>
      rw [Expr.infer, Ty.undefined_index, target, position, Expr.unknown_index, List.map_append]
  | @call i f args l nearest window _ each =>
      have stands := h.names_eq_some_iff.mpr nearest
      have enough : args.length ≤ (f.params.map (·.ty)).length := by
        rw [List.length_map]
        exact window.2
      rw [Expr.infer, Expr.unknown_call, Expr.unknown_ident, stands]
      simp only [Names.call, Expr.ident?, stands, FunctionSymbol.call_eq, Expr.length_inferAll,
        if_pos (FunctionSymbol.inWindow_iff.mp window), Outcome.faults_finish]
      exact Argument.undefined_faultsFrom each f.name 1 enough
  | @callSlot i v params result args l nearest slot count _ each =>
      have stands := h.names_eq_some_iff.mpr nearest
      rw [Expr.infer, Expr.unknown_call, Expr.unknown_ident, stands]
      simp only [Names.call, Expr.ident?, stands, VariableSymbol.call_eq, slot, Ty.signature?,
        Signature.arity, Expr.length_inferAll, if_pos count, Outcome.faults_finish]
      exact Argument.undefined_faultsFrom each v.name 1 (Nat.le_of_eq count)

/-- On every table that a history built, the faults of an expression that tell of undefined names are
those of the identifiers that stand for nothing, one for each and in reading order. So inference fails
if there is any. -/
theorem Expr.undefined_names_told (settings : AnalysisSettings) (earlier : List Action) (e : Expr)
    (fits : e.CallsFit (Action.runAll earlier .empty)) :
    let t := Action.runAll earlier .empty
    (∃ unknown : List Ident,
      Ident.Listed (fun a i => e.At a i ∧ ∀ x, ¬ t.Nearest i.name x) unknown ∧
      Fault.undefined (Outcome.faults (e.infer settings t.names)) = unknown.map Ident.undefined) ∧
    ∀ a i, e.At a i → (∀ x, ¬ t.Nearest i.name x) →
      ∃ found, e.infer settings t.names = .error found := by
  intro t
  have h : t.WellFormed := (Action.runAll_later earlier .empty).wellFormed
  have tells : e.Tells settings t.names := fits.tells h
  have listed : Ident.Listed (fun a i => e.At a i ∧ ∀ x, ¬ t.Nearest i.name x) (e.unknown t.names) := by
    apply (e.listed.filter _).congr
    intro a i
    rw [Option.isNone_iff_eq_none, h.names_eq_none_iff]
  refine ⟨⟨e.unknown t.names, listed, tells⟩, ?_⟩
  intro a i stands undefined
  have member : i ∈ e.unknown t.names := listed.mem_iff.mpr ⟨a, stands, undefined⟩
  cases inferred : e.infer settings t.names with
  | error found => exact ⟨found, rfl⟩
  | ok ty =>
      rw [Expr.Tells, inferred] at tells
      rw [List.map_eq_nil_iff.mp tells.symm] at member
      cases member

/-- A function of two bytes. -/
def FunctionSymbol.blend : FunctionSymbol :=
  { name := "blend", params := [{ name := "over", ty := .byte }, { name := "under", ty := .byte }]
    result := .byte, scope := 0 }

/-- A name added to an element of what the function returns. The name is also the position of the
element; neither it nor those in the arguments are declared. -/
def Expr.astray : Expr :=
  .applyBinary .add (.ident ⟨"x", .span 0 1⟩)
    (.elementOf
      (.callOf "blend" [.ident ⟨"y", .span 10 11⟩, .applyUnary .neg (.ident ⟨"z", .span 14 15⟩)])
      (.ident ⟨"x", .span 17 18⟩))

theorem Expr.astray_names_told :
    let t := Action.runAll [.call (.declare (.function .blend))] .empty
    astray.CallsFit t ∧
    Fault.undefined (Outcome.faults (astray.infer {} t.names)) =
      [Ident.undefined ⟨"x", .span 0 1⟩, Ident.undefined ⟨"y", .span 10 11⟩,
        Ident.undefined ⟨"z", .span 14 15⟩, Ident.undefined ⟨"x", .span 17 18⟩] ∧
    ∃ found, astray.infer {} t.names = .error found := by
  intro t
  have nearest : ∀ name, (∃ x, t.Nearest name x) ↔ name = "blend" := by
    intro name
    constructor
    · rintro ⟨x, here⟩
      cases here with
      | here found member named =>
          cases found
          cases List.mem_singleton.mp member
          exact named.symm
      | outside found _ around =>
          cases found
          cases around
    · rintro rfl
      exact ⟨.function .blend, .here rfl List.mem_cons_self rfl⟩
  have fits : astray.CallsFit t := by
    refine .binary .ident (.index (.call (f := .blend) (.here rfl List.mem_cons_self rfl) ?_ ?_) .ident)
    · exact ⟨by decide, by decide⟩
    · intro e member
      rcases List.mem_pair.mp member with rfl | rfl
      · exact .ident
      · exact .unary .ident
  obtain ⟨⟨unknown, listed, told⟩, fails⟩ := undefined_names_told {} _ astray fits
  have expected : Ident.Listed (fun a i => astray.At a i ∧ ∀ x, ¬ t.Nearest i.name x)
      ((Node.idents astray.nodes).filter fun i => i.name ≠ "blend") :=
    (astray.listed.filter _).congr (by simp [← nearest])
  rw [listed.unique expected] at told
  refine ⟨fits, told, fails [0] _ (.lhs .ident) ?_⟩
  intro x near
  exact absurd ((nearest "x").mp ⟨x, near⟩) (by decide)

end SemanticCheck
