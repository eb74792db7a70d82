import SemanticCheck.Proofs.Findings
import SemanticCheck.Proofs.Lexical

/-!
Ordinary faults. A fault of kind `invalidScope` is about the place of a declaration or a statement and
not about what it says. No rule for constants, types, expressions or stores finds one, and neither
does the check of a program, whose items stand at the top level and whose statements stand in
functions.
-/
namespace SemanticCheck

/-- None of the faults is about a misplaced declaration or statement. -/
def Ordinary (found : List Fault) : Prop := ∀ fault ∈ found, fault.kind ≠ .invalidScope

namespace Ordinary

variable {found more : List Fault} {α : Type}

theorem nil : Ordinary [] := nofun

theorem told {cause : Cause} {l : Location} (h : decide (cause.kind = .invalidScope) = false) :
    Ordinary [cause.fault l] := by
  intro fault member
  rw [List.mem_singleton.mp member]
  exact of_decide_eq_false h

theorem append (h : Ordinary found) (k : Ordinary more) : Ordinary (found ++ more) :=
  List.forall_mem_append.mpr ⟨h, k⟩

theorem flatMap {items : List α} {faults : α → List Fault} (h : ∀ a ∈ items, Ordinary (faults a)) :
    Ordinary (items.flatMap faults) := by
  intro fault member
  obtain ⟨a, ha, hf⟩ := List.mem_flatMap.mp member
  exact h a ha fault hf

theorem finish (h : Ordinary found) (a : α) : Ordinary (Outcome.faults (Outcome.finish found a)) := by
  rw [Outcome.faults_finish]
  exact h

theorem of_error {o : Outcome α} (h : Ordinary (Outcome.faults o)) (failed : o = .error found) :
    Ordinary found := by
  rw [failed] at h
  exact h

end Ordinary

theorem UnaryOp.fold_ordinary {op : UnaryOp} {l : Location} {a : Int64} {fault : Fault}
    (failed : op.fold l a = .error fault) : fault.kind ≠ .invalidScope := by
  unfold UnaryOp.fold at failed
  split at failed
  · split at failed
    · cases failed
    · cases failed
      nofun
  · cases failed
  · cases failed
    nofun

theorem BinaryOp.fold_ordinary {op : BinaryOp} {l : Location} {a b : Int64} {fault : Fault}
    (failed : op.fold l a b = .error fault) : fault.kind ≠ .invalidScope := by
  unfold BinaryOp.fold at failed
  split at failed
  · cases failed
    nofun
  · split at failed
    · cases failed
    · cases failed
      nofun

theorem Names.constant_ordinary {names : Names} {i : Ident} {fault : Fault}
    (failed : names.constant i = .error fault) : fault.kind ≠ .invalidScope := by
  unfold Names.constant at failed
  split at failed
  · cases failed
    nofun
  · split at failed
    · cases failed
    · cases failed
      nofun

theorem Expr.fold_ordinary (names : Names) :
    (e : Expr) → ∀ fault, e.fold names = .error fault → fault.kind ≠ .invalidScope
  | .number _ _, _, failed => nomatch failed
  | .boolean _ _, _, failed | .text _ _, _, failed | .call _ _ _, _, failed
  | .index _ _ _, _, failed => by
      cases failed
      nofun
  | .ident i, _, failed => Names.constant_ordinary failed
  | .unary op operand l, fault, failed => by
      have inner := operand.fold_ordinary names
      unfold Expr.fold at failed
      split at failed
      · exact UnaryOp.fold_ordinary failed
      · next found stuck =>
          cases failed
          exact inner fault stuck
  | .binary op lhs rhs l, fault, failed => by
      have left := lhs.fold_ordinary names
      have right := rhs.fold_ordinary names
      unfold Expr.fold at failed
      split at failed
      · split at failed
        · next found stuck =>
            cases failed
            exact left fault stuck
        · split at failed
          · next found stuck =>
              cases failed
              exact right fault stuck
          · exact BinaryOp.fold_ordinary failed
      · cases failed
        nofun

theorem Ty.ofArray_ordinary (names : Names) (element : Ty) (size : Expr) (l : Location) :
    Ordinary (Outcome.faults (Ty.ofArray names element size l)) := by
  unfold Ty.ofArray
  split
  · exact .told rfl
  · split
    · next failed =>
        intro fault member
        rw [List.mem_singleton.mp member]
        exact size.fold_ordinary names _ failed
    · split
      · exact .told rfl
      · split
        · exact .told rfl
        · exact .nil

mutual

theorem TypeExpr.resolve_ordinary (names : Names) :
    (a : TypeExpr) → Ordinary (Outcome.faults (a.resolve names))
  | .named i => by
      unfold TypeExpr.resolve Ty.ofIdent
      split
      · exact .nil
      · exact .told rfl
  | .array element size l => by
      have inner := element.resolve_ordinary names
      unfold TypeExpr.resolve
      split
      · exact Ty.ofArray_ordinary _ _ _ _
      · next failed => exact inner.of_error failed
  | .callback params (some result) l => by
      rw [TypeExpr.resolve, Ty.ofParts_eq]
      exact .finish ((TypeExpr.resolveAll_ordinary names params).append (result.resolve_ordinary names)) _
  | .callback params none l => by
      rw [TypeExpr.resolve, Ty.ofParts_eq]
      exact .finish ((TypeExpr.resolveAll_ordinary names params).append .nil) _

theorem TypeExpr.resolveAll_ordinary (names : Names) :
    (params : List TypeExpr) →
      Ordinary ((TypeExpr.resolveAll names params).flatMap Outcome.faults)
  | [] => .nil
  | a :: rest => (a.resolve_ordinary names).append (TypeExpr.resolveAll_ordinary names rest)

end

theorem TypeExpr.resolveResult_ordinary (names : Names) (result : Option TypeExpr) :
    Ordinary (Outcome.faults (TypeExpr.resolveResult names result)) := by
  cases result with
  | none => exact .nil
  | some a => exact a.resolve_ordinary names

theorem FunctionSymbol.gate_ordinary (settings : AnalysisSettings) (target : Ty) (f : FunctionSymbol)
    (l : Location) : Ordinary (Outcome.faults (f.gate settings target l)) := by
  unfold FunctionSymbol.gate
  split
  · exact .told rfl
  · split
    · split
      · exact .nil
      · exact .told rfl
    · exact .told rfl

section Calls

variable {settings : AnalysisSettings} {names : Names}

theorem Argument.faults_ordinary {arg : Argument} (h : Ordinary (Outcome.faults arg.ty))
    (callee : String) (position : Nat) (param : Ty) :
    Ordinary (arg.faults settings names callee position param) := by
  unfold Argument.faults
  split
  · exact FunctionSymbol.gate_ordinary _ _ _ _
  · split
    · next failed => exact h.of_error failed
    · split
      · exact .nil
      · exact .told rfl

theorem Argument.faultsFrom_ordinary (callee : String) (position : Nat) (params : List Ty)
    {args : List Argument} (h : ∀ arg ∈ args, Ordinary (Outcome.faults arg.ty)) :
    Ordinary (Argument.faultsFrom settings names callee position params args) := by
  induction params generalizing position args with
  | nil => cases args <;> exact .nil
  | cons param params ih =>
      cases args with
      | nil => exact .nil
      | cons arg args =>
          obtain ⟨first, others⟩ := List.forall_mem_cons.mp h
          exact (Argument.faults_ordinary first callee position param).append (ih (position + 1) others)

theorem Names.call_ordinary {args : List Argument}
    (h : ∀ arg ∈ args, Ordinary (Outcome.faults arg.ty)) (callee : Expr) (l : Location) :
    Ordinary (Outcome.faults (names.call settings callee args l)) := by
  unfold Names.call
  split
  · exact .told rfl
  · split
    · rw [FunctionSymbol.call_eq]
      split
      · exact .finish (Argument.faultsFrom_ordinary _ _ _ h) _
      · exact .told rfl
    · rw [VariableSymbol.call_eq]
      split
      · exact .told rfl
      · split
        · exact .finish (Argument.faultsFrom_ordinary _ _ _ h) _
        · exact .told rfl
    · exact .told rfl

theorem UnaryOp.infer_ordinary (op : UnaryOp) (l : Location) {operand : Outcome Ty}
    (h : Ordinary (Outcome.faults operand)) : Ordinary (Outcome.faults (op.infer l operand)) := by
  cases operand with
  | error found => exact h
  | ok ty =>
      simp only [UnaryOp.infer]
      split
      · exact .nil
      · exact .told rfl

theorem BinaryOp.infer_ordinary (op : BinaryOp) (l : Location) {lhs rhs : Outcome Ty}
    (hl : Ordinary (Outcome.faults lhs)) (hr : Ordinary (Outcome.faults rhs)) :
    Ordinary (Outcome.faults (op.infer settings l lhs rhs)) := by
  obtain failed | ⟨left, right, rfl, rfl⟩ := Outcome.missing_or_known lhs rhs
  · rw [op.infer_of_failed settings l failed]
    exact .finish (hl.append hr) _
  · rw [BinaryOp.infer_ok]
    split
    · exact .nil
    · exact .told rfl

theorem Ty.index_ordinary (target position : Expr) {targetTy positionTy : Outcome Ty}
    (ht : Ordinary (Outcome.faults targetTy)) (hp : Ordinary (Outcome.faults positionTy)) :
    Ordinary (Outcome.faults (Ty.index target position targetTy positionTy)) := by
  have numeric : Ordinary (Ty.positionFaults position.location (Outcome.value? positionTy)) := by
    unfold Ty.positionFaults
    split
    · split
      · exact .nil
      · exact .told rfl
    · exact .nil
  have element : Ordinary (Ty.element target position (Outcome.value? targetTy)).1 := by
    unfold Ty.element
    split
    · split
      · exact .told rfl
      · exact .nil
    · exact .told rfl
    · exact .nil
  exact .finish (((ht.append hp).append numeric).append element) _

end Calls

mutual

theorem Expr.infer_ordinary (settings : AnalysisSettings) (names : Names) :
    (e : Expr) → Ordinary (Outcome.faults (e.infer settings names))
  | .number value l => by
      unfold Expr.infer Ty.ofLiteral
      split
      · exact .nil
      · split
        · exact .nil
        · exact .told rfl
  | .boolean _ _ => .nil
  | .text _ _ => .nil
  | .ident i => by
      unfold Expr.infer Names.typeOf
      split
      · exact .nil
      · exact .told rfl
  | .unary op operand l => op.infer_ordinary l (operand.infer_ordinary settings names)
  | .binary op lhs rhs l =>
      op.infer_ordinary l (lhs.infer_ordinary settings names) (rhs.infer_ordinary settings names)
  | .call callee args l => Names.call_ordinary (Expr.inferAll_ordinary settings names args) callee l
  | .index target position l =>
      Ty.index_ordinary target position (target.infer_ordinary settings names)
        (position.infer_ordinary settings names)

theorem Expr.inferAll_ordinary (settings : AnalysisSettings) (names : Names) :
    (args : List Expr) → ∀ arg ∈ Expr.inferAll settings names args, Ordinary (Outcome.faults arg.ty)
  | [] => nofun
  | e :: rest =>
      List.forall_mem_cons.mpr
        ⟨e.infer_ordinary settings names, Expr.inferAll_ordinary settings names rest⟩

end

section Stores

variable (settings : AnalysisSettings) (names : Names)

theorem Inference.store_ordinary (target : Ty) (value : Expr) (l : Location) :
    Ordinary (Outcome.faults
      (Inference.store (Expr.infer settings) settings names target value l)) := by
  have inferred := value.infer_ordinary settings names
  unfold Inference.store
  split
  · exact FunctionSymbol.gate_ordinary _ _ _ _
  · split
    · next failed => exact inferred.of_error failed
    · split
      · exact .nil
      · exact .told rfl

theorem Inference.assign_ordinary (a : Assignment) :
    Ordinary (Outcome.faults (Inference.assign (Expr.infer settings) settings names a)) := by
  unfold Inference.assign
  split
  · exact .told rfl
  · exact .told rfl
  · split
    · exact .told rfl
    · exact Inference.store_ordinary _ _ _ _ _

theorem Expr.conditionFaults_ordinary (condition : Expr) :
    Ordinary (condition.conditionFaults settings names) := by
  have inferred := condition.infer_ordinary settings names
  unfold Expr.conditionFaults
  split
  · next failed => exact inferred.of_error failed
  · split
    · exact .nil
    · exact .told rfl

/-- No return within a function is misplaced. -/
theorem returnFaults_ordinary (ty : Ty) (value : Option Expr) (l : Location) :
    Ordinary (returnFaults settings names (some ty) value l) := by
  cases value with
  | none =>
      simp only [returnFaults]
      split
      · exact .nil
      · exact .told rfl
  | some e =>
      simp only [returnFaults]
      split
      · exact (e.infer_ordinary settings names).append (.told rfl)
      · exact Inference.store_ordinary _ _ _ _ _

end Stores

theorem Site.duplicateFaults_ordinary (site : Site) (i : Ident) : Ordinary (site.duplicateFaults i) := by
  unfold Site.duplicateFaults
  split
  · exact .told rfl
  · exact .nil

namespace VariableDecl

variable (decl : VariableDecl) (settings : AnalysisSettings)

theorem typeExprFaults_ordinary (names : Names) : Ordinary (decl.typeExprFaults names) := by
  unfold typeExprFaults written
  cases decl.typeExpr with
  | none => exact .nil
  | some a => exact a.resolve_ordinary names

theorem typed_ordinary (names : Names) :
    Ordinary (decl.typed settings (Expr.infer settings) names).1 := by
  unfold typed
  split
  · exact .told rfl
  · exact .nil
  · exact .nil
  · exact Inference.store_ordinary _ _ _ _ _
  · next value _ _ =>
      have inferred := value.infer_ordinary settings names
      split
      · next failed => exact inferred.of_error failed
      · dsimp only
        split
        · exact Inference.store_ordinary _ _ _ _ _
        · exact .nil

theorem faults_ordinary (site : Site) : Ordinary (decl.faults settings (Expr.infer settings) site) := by
  have constant : Ordinary decl.constantFaults := by
    unfold constantFaults
    split
    · exact .told rfl
    · exact .nil
  have void (ty? : Option Ty) : Ordinary (decl.voidFaults ty?) := by
    unfold voidFaults
    split
    · exact .told rfl
    · exact .nil
  unfold faults
  refine .append (.append (.append (.append ?_ ?_) ?_) constant) (void _)
  · exact decl.typeExprFaults_ordinary site.names
  · exact site.duplicateFaults_ordinary decl.name
  · exact decl.typed_ordinary settings site.names

theorem symbol_ordinary (site : Site) :
    Ordinary (Outcome.faults (decl.symbol settings (Expr.infer settings) site)) := by
  have found := (decl.faults_ordinary settings site).finish
    (decl.typed settings (Expr.infer settings) site.names).2
  rw [symbol_eq]
  split
  · next failed => exact found.of_error failed
  · exact .told rfl
  · exact .nil

end VariableDecl

theorem Parameter.faults_ordinary (p : Parameter) (settings : AnalysisSettings) (names : Names) :
    Ordinary (p.faults settings names) := by
  have written := p.typeExpr.resolve_ordinary names
  unfold Parameter.faults
  split
  · next failed => exact written.of_error failed
  · split
    · exact Inference.store_ordinary _ _ _ _ _
    · exact .nil

namespace FunctionDecl

theorem shapeFaults_ordinary (decl : FunctionDecl) (settings : AnalysisSettings)
    (params : List ParameterSymbol) (result : Ty) :
    Ordinary (decl.shapeFaults settings params result) := by
  unfold shapeFaults
  refine .append (.append ?_ ?_) ?_
  · split
    · exact .told rfl
    · exact .nil
  · intro fault member
    obtain ⟨p, -, rfl⟩ := List.mem_map.mp member
    nofun
  · split
    · exact .nil
    · exact .told rfl

theorem nameFaultsFrom_ordinary (function : String) (seen : List (String × Location))
    (params : List Parameter) : Ordinary (nameFaultsFrom function seen params) := by
  induction params generalizing seen with
  | nil => exact .nil
  | cons p rest ih =>
      unfold nameFaultsFrom
      split
      · exact .append (.told rfl) (ih seen)
      · exact ih _

theorem orderFaultsFrom_ordinary (first : Option Parameter) (params : List Parameter) :
    Ordinary (orderFaultsFrom first params) := by
  induction params generalizing first with
  | nil => exact .nil
  | cons p rest ih =>
      unfold orderFaultsFrom
      split
      · exact ih _
      · refine .append ?_ (ih _)
        split
        · exact .told rfl
        · exact .nil

/-- No function is misplaced where exports are allowed. -/
theorem faults_ordinary (decl : FunctionDecl) (settings : AnalysisSettings) (site : Site)
    (exportable : site.kind.allowsExports) : Ordinary (decl.faults settings site) := by
  have callback : Ordinary (decl.callbackFaults settings site.names) := by
    unfold callbackFaults
    split
    · exact decl.shapeFaults_ordinary settings _ _
    · exact .nil
  have placed : decl.exportFaults site.kind = [] := by
    simp [exportFaults, exportable]
  have nameless : Ordinary decl.namelessFaults := by
    unfold namelessFaults
    split
    · exact .told rfl
    · exact .nil
  unfold faults
  rw [placed]
  refine .append (.append (.append (.append (.append (.append (.append ?_ ?_) ?_) callback) ?_) ?_) .nil)
    nameless
  · exact .flatMap fun p _ => p.faults_ordinary settings site.names
  · exact TypeExpr.resolveResult_ordinary site.names decl.result
  · exact site.duplicateFaults_ordinary decl.name
  · exact nameFaultsFrom_ordinary _ _ _
  · exact orderFaultsFrom_ordinary _ _

theorem symbol_ordinary (decl : FunctionDecl) (settings : AnalysisSettings) (site : Site)
    (exportable : site.kind.allowsExports) : Ordinary (Outcome.faults (decl.symbol settings site)) := by
  rw [symbol_eq]
  exact (decl.faults_ordinary settings site exportable).finish _

end FunctionDecl

namespace Environment

theorem checkVariable_ordinary (env : Environment) (settings : AnalysisSettings) (decl : VariableDecl) :
    Ordinary (env.checkVariable settings decl).2 := by
  have declared := decl.symbol_ordinary settings env.site
  unfold checkVariable
  split
  · exact .nil
  · next failed => exact declared.of_error failed

theorem bindParams_ordinary (env : Environment) (params : List ParameterSymbol) :
    Ordinary (env.bindParams params).2 := by
  induction params generalizing env with
  | nil => exact .nil
  | cons p rest ih =>
      unfold bindParams
      split
      · exact ih _
      · exact (env.site.duplicateFaults_ordinary _).append (ih env)

end Environment

mutual

theorem Stmt.checkIn_ordinary (settings : AnalysisSettings) (ty : Ty) :
    (s : Stmt) → (env : Environment) → Ordinary (s.checkIn settings (some ty) env).2
  | .declare decl, env => env.checkVariable_ordinary settings decl
  | .assign a, env => Inference.assign_ordinary settings env.names a
  | .expr e, env => e.infer_ordinary settings env.names
  | .ret value l, env => returnFaults_ordinary settings env.names ty value l
  | .branch condition yes (some no) _, env =>
      ((condition.conditionFaults_ordinary settings env.names).append
        (yes.checkIn_ordinary settings ty env)).append (no.checkIn_ordinary settings ty env)
  | .branch condition yes none _, env =>
      (condition.conditionFaults_ordinary settings env.names).append
        (yes.checkIn_ordinary settings ty env)
  | .loop condition body _, env =>
      (condition.conditionFaults_ordinary settings env.names).append
        (body.checkIn_ordinary settings ty env)
  | .block b, env => b.checkIn_ordinary settings ty env

theorem Block.checkIn_ordinary (settings : AnalysisSettings) (ty : Ty) :
    (b : Block) → (env : Environment) → Ordinary (b.checkIn settings (some ty) env)
  | .mk statements _, env => Stmt.checkAllIn_ordinary settings ty statements (env.enter .block)

theorem Stmt.checkAllIn_ordinary (settings : AnalysisSettings) (ty : Ty) :
    (statements : List Stmt) → (env : Environment) →
      Ordinary (Stmt.checkAllIn settings (some ty) statements env).2
  | [], _ => .nil
  | s :: rest, env =>
      (s.checkIn_ordinary settings ty env).append (Stmt.checkAllIn_ordinary settings ty rest _)

end

/-- A body is checked with the result type of its function at hand. -/
theorem FunctionSymbol.checkBodyIn_ordinary (settings : AnalysisSettings) (f : FunctionSymbol)
    (body : Block) (env : Environment) : Ordinary (f.checkBodyIn settings body env) :=
  ((env.enter .function).bindParams_ordinary f.params).append
    (Stmt.checkAllIn_ordinary settings f.result body.statements _)

section Passes

variable {env : Environment}

theorem Item.declareIn_ordinary (settings : AnalysisSettings) (item : Item)
    (exportable : env.top.kind.allowsExports) : Ordinary (item.declareIn settings env).2.2 := by
  cases item with
  | function decl =>
      have declared := decl.symbol_ordinary settings env.site exportable
      simp only [Item.declareIn]
      split
      · exact .nil
      · next failed => exact declared.of_error failed
  | var decl =>
      simp only [Item.declareIn]
      split
      · exact env.checkVariable_ordinary settings decl
      · exact .nil

theorem Item.completeIn_ordinary (settings : AnalysisSettings) (item : Item) (standing : Standing)
    (env : Environment) : Ordinary (item.completeIn settings env standing).2 := by
  unfold Item.completeIn
  split
  · exact env.checkVariable_ordinary settings _
  · split
    · exact FunctionSymbol.checkBodyIn_ordinary settings _ _ env
    · exact .nil
  · exact .nil

/-- Items are declared in the frame that is innermost, which stays of its kind. -/
theorem Item.kind_top_declareIn (settings : AnalysisSettings) (item : Item) (env : Environment) :
    (item.declareIn settings env).1.top.kind = env.top.kind := by
  cases item with
  | function decl =>
      simp only [Item.declareIn]
      split
      · exact env.kind_top_bind _
      · rfl
  | var decl =>
      simp only [Item.declareIn, Environment.checkVariable]
      split
      · split
        · exact env.kind_top_bind _
        · rfl
      · rfl

namespace Environment

theorem declareItems_ordinary (settings : AnalysisSettings) (items : List Item)
    (exportable : env.top.kind.allowsExports) :
    ∀ entry ∈ (declareItems settings items env).2, Ordinary entry.2.2 := by
  induction items generalizing env with
  | nil =>
      intro entry member
      cases member
  | cons item rest ih =>
      -- the kind of the innermost frame is what the induction carries
      have next : (item.declareIn settings env).1.top.kind.allowsExports := by
        rw [item.kind_top_declareIn settings env]
        exact exportable
      exact List.forall_mem_cons.mpr ⟨item.declareIn_ordinary settings exportable, ih next⟩

theorem completeItems_ordinary (settings : AnalysisSettings)
    {declared : List (Item × Standing × List Fault)} (h : ∀ entry ∈ declared, Ordinary entry.2.2)
    (env : Environment) : ∀ block ∈ (completeItems settings declared env).2, Ordinary block := by
  induction declared generalizing env with
  | nil =>
      intro block member
      cases member
  | cons entry rest ih =>
      obtain ⟨item, standing, faults⟩ := entry
      obtain ⟨first, others⟩ := List.forall_mem_cons.mp h
      have block := Ordinary.append first (item.completeIn_ordinary settings standing env)
      exact List.forall_mem_cons.mpr ⟨block, ih others _⟩

theorem analyzeItems_ordinary (settings : AnalysisSettings) (items : List Item)
    (exportable : env.top.kind.allowsExports) :
    ∀ block ∈ (analyzeItems settings items env).2, Ordinary block :=
  completeItems_ordinary settings (declareItems_ordinary settings items exportable) _

end Environment

end Passes

/-- Nothing in a program is misplaced. -/
theorem Program.checkLexically_ordinary (settings : AnalysisSettings) (program : Program) :
    ∀ block ∈ program.checkLexically settings, Ordinary block := by
  unfold Program.checkLexically
  split
  · exact Environment.analyzeItems_ordinary settings program.items rfl
  · exact Environment.analyzeItems_ordinary settings program.items rfl

end SemanticCheck
