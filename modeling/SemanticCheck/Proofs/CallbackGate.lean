import SemanticCheck.Proofs.ValueUse
import SemanticCheck.Tree.Shorthand

/-!
The callback gate. In a program without faults, a function's name stands as a value only where the
function is declared as a callback and the slot is a callback type that accepts its signature. Every
kind of slot has a check of its own; each is shown to keep the gate, and arguments are followed into
every expression.
-/
namespace SemanticCheck

variable {settings : AnalysisSettings} {names : Names}

/-- A value that is the bare name of a function is that of a callback, and its slot can hold it. -/
def ValueUse.Gated (settings : AnalysisSettings) (u : ValueUse) : Prop :=
  ∀ i f, u.value = .ident i → u.names i.name = some (.function f) →
    f.isCallback = true ∧
      ∃ slot : Signature, u.slot = some slot.ty ∧
        slot.accepts settings.callbackWidening f.signature = true

def AllGated (settings : AnalysisSettings) (uses : List ValueUse) : Prop :=
  ∀ u ∈ uses, u.Gated settings

namespace AllGated

variable {uses more : List ValueUse}

theorem nil : AllGated settings [] := List.forall_mem_nil _

theorem append (h : AllGated settings uses) (k : AllGated settings more) :
    AllGated settings (uses ++ more) :=
  List.forall_mem_append.mpr ⟨h, k⟩

theorem of_eq_nil (h : uses = []) : AllGated settings uses := h ▸ nil

theorem usesOf {α : Type} {of : α → List ValueUse} {o : Option α}
    (h : ∀ a, o = some a → AllGated settings (of a)) : AllGated settings (usesOf of o) := by
  cases o with
  | none => exact nil
  | some a => exact h a rfl

end AllGated

theorem Names.reference?_eq_some_iff {e : Expr} {f : FunctionSymbol} :
    names.reference? e = some f ↔ ∃ i, e = .ident i ∧ names i.name = some (.function f) := by
  cases e with
  | ident i =>
      simp only [Names.reference?, Expr.ident?, Option.bind_some, Names.function?]
      cases stands : names i.name with
      | none => simp [stands]
      | some x => cases x <;> simp [stands, Symbol.function?]
  | _ => simp [Names.reference?, Expr.ident?]

theorem FunctionSymbol.gate_eq_ok_iff {target : Ty} {f : FunctionSymbol} {l : Location} :
    f.gate settings target l = .ok () ↔
      f.isCallback = true ∧ ∃ slot : Signature, target = slot.ty ∧
        slot.accepts settings.callbackWidening f.signature = true := by
  unfold FunctionSymbol.gate
  cases target with
  | primitive p => simp [Ty.signature?, Outcome.refuse, Signature.ty]
  | array element size => simp [Ty.signature?, Outcome.refuse, Signature.ty]
  | callback params result =>
      simp only [Ty.signature?]
      constructor
      · intro passed
        split at passed
        · next declared =>
            split at passed
            · next fits => exact ⟨declared, _, rfl, fits⟩
            · cases passed
        · cases passed
      · rintro ⟨declared, ⟨ps, r⟩, same, fits⟩
        cases same
        rw [if_pos declared, if_pos fits]

/-- What a check of a value for a slot comes down to: a function passes the gate, and any other
value has a type. -/
structure Expr.Stored (settings : AnalysisSettings) (names : Names) (slot : Ty) (e : Expr) : Prop where
  gate : ∀ f, names.reference? e = some f → ∃ l, f.gate settings slot l = .ok ()
  typed : names.reference? e = none → ∃ ty, e.infer settings names = .ok ty

/-- A stored value keeps the gate, if its arguments do. -/
theorem Expr.Stored.allGated {slot : Ty} {e : Expr} (h : e.Stored settings names slot)
    (inside : ∀ {ty}, e.infer settings names = .ok ty → AllGated settings (e.uses names)) :
    AllGated settings (e.storedUses names (some slot)) := by
  refine List.forall_mem_cons.mpr ⟨?_, ?_⟩
  · intro i f here stands
    obtain ⟨l, passed⟩ := h.gate f (Names.reference?_eq_some_iff.mpr ⟨i, here, stands⟩)
    obtain ⟨declared, signature, same, fits⟩ := FunctionSymbol.gate_eq_ok_iff.mp passed
    exact ⟨declared, signature, congrArg some same, fits⟩
  · cases reference : names.reference? e with
    | some f =>
        obtain ⟨i, rfl, -⟩ := Names.reference?_eq_some_iff.mp reference
        exact AllGated.nil
    | none =>
        obtain ⟨ty, typed⟩ := h.typed reference
        exact inside typed

theorem Inference.stored_of_store {slot : Ty} {e : Expr} {l : Location}
    (clean : Outcome.faults (Inference.store (Expr.infer settings) settings names slot e l) = []) :
    e.Stored settings names slot := by
  obtain ⟨⟨⟩, passed⟩ := (Inference.store_explained settings names slot e l).eq_ok clean
  unfold Inference.store at passed
  constructor
  · intro f reference
    rw [reference] at passed
    exact ⟨l, passed⟩
  · intro reference
    simp only [reference] at passed
    cases typed : e.infer settings names with
    | error found =>
        rw [typed] at passed
        cases passed
    | ok ty => exact ⟨ty, rfl⟩

theorem Argument.stored_of_faults {slot : Ty} {e : Expr} {callee : String} {position : Nat}
    (clean : Argument.faults settings names callee position slot ⟨e, e.infer settings names⟩ = []) :
    e.Stored settings names slot := by
  unfold Argument.faults at clean
  constructor
  · intro f reference
    simp only [reference] at clean
    obtain ⟨⟨⟩, passed⟩ := (FunctionSymbol.gate_explained settings slot f e.location).eq_ok clean
    exact ⟨_, passed⟩
  · intro reference
    simp only [reference] at clean
    cases typed : e.infer settings names with
    | error found =>
        simp only [typed] at clean
        exact absurd clean ((e.infer_explained settings names).faults_ne_nil typed)
    | ok ty => exact ⟨ty, rfl⟩

theorem UnaryOp.operand_of_infer {op : UnaryOp} {l : Location} {operand : Outcome Ty} {ty : Ty}
    (h : op.infer l operand = .ok ty) : ∃ inner, operand = .ok inner := by
  cases operand with
  | error found => cases h
  | ok inner => exact ⟨inner, rfl⟩

/-- A call that has a type names its callee, and its arguments fit the slots they are passed to. -/
theorem Names.fits_of_call {callee : Expr} {args : List Argument} {l : Location} {ty : Ty}
    (h : names.call settings callee args l = .ok ty) :
    (∃ i, callee = .ident i) ∧ args.length ≤ (names.slots callee).length ∧
      ∃ name, Argument.faultsFrom settings names name 1 (names.slots callee) args = [] := by
  cases callee with
  | ident i =>
      refine ⟨⟨i, rfl⟩, ?_⟩
      simp only [Names.call, Expr.ident?] at h
      split at h
      · next f stands =>
          have slots : names.slots (.ident i) = f.params.map (·.ty) := by
            simp only [Names.slots, Expr.ident?, Option.bind_some, stands]
          rw [FunctionSymbol.call_eq] at h
          split at h
          · next count =>
              rw [slots, List.length_map]
              exact ⟨count.2, f.name, (Outcome.finish_eq_ok_iff.mp h).1⟩
          · cases h
      · next v stands =>
          rw [VariableSymbol.call_eq] at h
          split at h
          · cases h
          · next slot shape =>
              have slots : names.slots (.ident i) = slot.params := by
                simp only [Names.slots, Expr.ident?, Option.bind_some, stands, shape, Option.elim_some]
              split at h
              · next count =>
                  rw [slots]
                  exact ⟨Nat.le_of_eq count, v.name, (Outcome.finish_eq_ok_iff.mp h).1⟩
              · cases h
      · cases h
  | _ => cases h

theorem Expr.length_inferAll (settings : AnalysisSettings) (names : Names) (args : List Expr) :
    (Expr.inferAll settings names args).length = args.length := by
  rw [Expr.inferAll_eq_arguments, Inference.arguments, List.length_map]

mutual

/-- An expression that has a type passes functions through the gate only, at any depth. -/
theorem Expr.uses_gated :
    (e : Expr) → {ty : Ty} → e.infer settings names = .ok ty → AllGated settings (e.uses names)
  | .number _ _, _, _ | .boolean _ _, _, _ | .text _ _, _, _ | .ident _, _, _ => .nil
  | .unary op operand l, _, h => by
      obtain ⟨inner, typed⟩ := UnaryOp.operand_of_infer h
      exact operand.uses_gated typed
  | .binary op lhs rhs l, _, h => by
      obtain ⟨left, right, typedLeft, typedRight, -⟩ := Expr.operands_of_infer h
      exact (lhs.uses_gated typedLeft).append (rhs.uses_gated typedRight)
  | .call callee args l, _, h => by
      obtain ⟨⟨i, rfl⟩, count, name, clean⟩ := Names.fits_of_call h
      rw [Expr.length_inferAll] at count
      exact Expr.argumentUses_gated args count clean
  | .index target position l, _, h => by
      simp only [Expr.infer, Ty.index_eq, Outcome.finish_eq_ok_iff, List.append_eq_nil_iff] at h
      obtain ⟨left, typedTarget⟩ := (target.infer_explained settings names).eq_ok h.1.1.1.1
      obtain ⟨right, typedPosition⟩ := (position.infer_explained settings names).eq_ok h.1.1.1.2
      exact (target.uses_gated typedTarget).append (position.uses_gated typedPosition)

theorem Expr.argumentUses_gated :
    (args : List Expr) → {slots : List Ty} → {name : String} → {first : Nat} →
      args.length ≤ slots.length →
      Argument.faultsFrom settings names name first slots (Expr.inferAll settings names args) = [] →
      AllGated settings (Expr.argumentUses names args slots)
  | [], _, _, _, _, _ => .nil
  | e :: rest, slot :: slots, _, _, count, clean => by
      obtain ⟨here, later⟩ := List.append_eq_nil_iff.mp clean
      have stored := (Argument.stored_of_faults here).allGated fun typed => e.uses_gated typed
      exact stored.append (Expr.argumentUses_gated rest (Nat.le_of_succ_le_succ count) later)

end

theorem Expr.uses_gated_of_clean {e : Expr} (clean : Outcome.faults (e.infer settings names) = []) :
    AllGated settings (e.uses names) := by
  obtain ⟨ty, typed⟩ := (e.infer_explained settings names).eq_ok clean
  exact e.uses_gated typed

theorem Expr.Stored.gated {slot : Ty} {e : Expr} (h : e.Stored settings names slot) :
    AllGated settings (e.storedUses names (some slot)) :=
  h.allGated fun typed => e.uses_gated typed

theorem Expr.uses_eq_nil_of_fold : (e : Expr) → {a : Int64} → e.fold names = .ok a → e.uses names = []
  | .number _ _, _, _ | .ident _, _, _ => rfl
  | .unary op operand l, _, h => by
      unfold Expr.fold at h
      split at h
      · next inner folded => exact operand.uses_eq_nil_of_fold folded
      · cases h
  | .binary op lhs rhs l, _, h => by
      unfold Expr.fold at h
      split at h
      · split at h
        · cases h
        · next left foldedLeft =>
            split at h
            · cases h
            · next right foldedRight =>
                rw [Expr.uses, lhs.uses_eq_nil_of_fold foldedLeft, rhs.uses_eq_nil_of_fold foldedRight]
                rfl
      · cases h

theorem Ty.uses_size_of_ofArray {element ty : Ty} {size : Expr} {l : Location}
    (h : Ty.ofArray names element size l = .ok ty) : size.uses names = [] := by
  unfold Ty.ofArray at h
  split at h
  · cases h
  · split at h
    · cases h
    · next count folded => exact size.uses_eq_nil_of_fold folded

mutual

theorem TypeExpr.uses_eq_nil :
    (a : TypeExpr) → Outcome.faults (a.resolve names) = [] → a.uses names = []
  | .named i, _ => rfl
  | .array element size l, clean => by
      obtain ⟨ty, resolved⟩ := ((TypeExpr.array element size l).resolve_explained names).eq_ok clean
      unfold TypeExpr.resolve at resolved
      split at resolved
      · next inner known =>
          have elements := element.uses_eq_nil (congrArg Outcome.faults known)
          rw [TypeExpr.uses, elements, Ty.uses_size_of_ofArray resolved]
          rfl
      · cases resolved
  | .callback params (some result) l, clean => by
      simp only [TypeExpr.resolve, Ty.ofParts_eq, Outcome.faults_finish, List.append_eq_nil_iff] at clean
      rw [TypeExpr.uses, TypeExpr.allUses_eq_nil params clean.1, result.uses_eq_nil clean.2]
      rfl
  | .callback params none l, clean => by
      simp only [TypeExpr.resolve, Ty.ofParts_eq, Outcome.faults_finish, List.append_eq_nil_iff] at clean
      rw [TypeExpr.uses, TypeExpr.allUses_eq_nil params clean.1]

theorem TypeExpr.allUses_eq_nil :
    (params : List TypeExpr) → (TypeExpr.resolveAll names params).flatMap Outcome.faults = [] →
      TypeExpr.allUses names params = []
  | [], _ => rfl
  | a :: rest, clean => by
      simp only [TypeExpr.resolveAll, List.flatMap_cons, List.append_eq_nil_iff] at clean
      rw [TypeExpr.allUses, a.uses_eq_nil clean.1, TypeExpr.allUses_eq_nil rest clean.2]
      rfl

end

/-- A function's name has a callback type. -/
theorem Names.isCallback_of_reference? {e : Expr} {f : FunctionSymbol} {ty : Ty}
    (reference : names.reference? e = some f) (typed : e.infer settings names = .ok ty) :
    ty.isCallback = true := by
  obtain ⟨i, rfl, stands⟩ := Names.reference?_eq_some_iff.mp reference
  simp only [Expr.infer, Names.typeOf, stands] at typed
  cases typed
  rfl

/-- An initializer without faults is stored in the variable, whether or not the type is written. -/
theorem VariableDecl.stored_of_typed {decl : VariableDecl} {value : Expr}
    (given : decl.initializer = some value) (written : decl.typeExprFaults names = [])
    (clean : (decl.typed settings (Expr.infer settings) names).1 = []) :
    ∃ ty, (decl.typed settings (Expr.infer settings) names).2 = some ty ∧
      value.Stored settings names ty := by
  unfold VariableDecl.typeExprFaults VariableDecl.written at written
  unfold VariableDecl.typed VariableDecl.written at clean ⊢
  rw [given] at clean ⊢
  cases declared : decl.typeExpr with
  | some a =>
      simp only [declared, Option.map_some] at written clean ⊢
      obtain ⟨ty, resolved⟩ := (a.resolve_explained names).eq_ok written
      simp only [resolved] at clean ⊢
      exact ⟨ty, rfl, Inference.stored_of_store clean⟩
  | none =>
      simp only [declared, Option.map_none] at clean ⊢
      cases typed : value.infer settings names with
      | error found =>
          simp only [typed] at clean
          exact absurd clean ((value.infer_explained settings names).faults_ne_nil typed)
      | ok ty =>
          simp only [typed] at clean ⊢
          refine ⟨ty, rfl, ?_⟩
          by_cases callback : ty.isCallback
          · rw [if_pos callback] at clean
            exact Inference.stored_of_store clean
          · -- a value that names a function has a callback type
            exact ⟨fun f reference => absurd (Names.isCallback_of_reference? reference typed) callback,
              fun _ => ⟨ty, typed⟩⟩

theorem VariableDecl.uses_gated {decl : VariableDecl} {site : Site}
    (clean : decl.faults settings (Expr.infer settings) site = []) :
    AllGated settings (decl.uses settings site.names) := by
  simp only [VariableDecl.faults, List.append_eq_nil_iff] at clean
  obtain ⟨⟨⟨⟨written, -⟩, typed⟩, -⟩, -⟩ := clean
  refine AllGated.append (.usesOf fun a declared => ?_) (.usesOf fun value given => ?_)
  · simp only [VariableDecl.typeExprFaults, VariableDecl.written, declared, Option.map_some] at written
    exact .of_eq_nil (a.uses_eq_nil written)
  · obtain ⟨ty, slot, stored⟩ := VariableDecl.stored_of_typed given written typed
    rw [slot]
    exact stored.gated

theorem Parameter.uses_gated {p : Parameter} (clean : p.faults settings names = []) :
    AllGated settings (p.uses names) := by
  unfold Parameter.faults at clean
  cases resolved : p.typeExpr.resolve names with
  | error found =>
      simp only [resolved] at clean
      exact absurd clean ((p.typeExpr.resolve_explained names).faults_ne_nil resolved)
  | ok ty =>
      simp only [resolved] at clean
      have size := p.typeExpr.uses_eq_nil (congrArg Outcome.faults resolved)
      refine AllGated.append (.of_eq_nil size) (.usesOf fun value given => ?_)
      simp only [given] at clean
      rw [resolved]
      exact (Inference.stored_of_store clean).gated

theorem FunctionDecl.signatureUses_gated {decl : FunctionDecl} {site : Site}
    (clean : decl.faults settings site = []) : AllGated settings (decl.signatureUses site.names) := by
  simp only [FunctionDecl.faults, List.append_eq_nil_iff] at clean
  obtain ⟨⟨⟨⟨⟨⟨⟨params, result⟩, -⟩, -⟩, -⟩, -⟩, -⟩, -⟩ := clean
  refine AllGated.append ?_ (.usesOf fun a written => ?_)
  · intro u used
    obtain ⟨p, member, used⟩ := List.mem_flatMap.mp used
    exact Parameter.uses_gated (List.flatMap_eq_nil_iff.mp params p member) u used
  · simp only [FunctionDecl.resultFaults, written, TypeExpr.resolveResult] at result
    exact .of_eq_nil (a.uses_eq_nil result)

section Statements

variable {t after : SymbolTable} {result : Option Ty}

theorem VariableDecl.uses_gated_of_check {decl : VariableDecl}
    (clean : (t.checkVariable settings decl).2 = []) : AllGated settings (decl.uses settings t.names) := by
  rw [SymbolTable.checkVariable_eq] at clean
  cases found : decl.symbol settings (Expr.infer settings) t.site with
  | error faults =>
      simp only [found] at clean
      exact absurd clean ((decl.symbol_explained _ _ _).faults_ne_nil found)
  | ok v => exact VariableDecl.uses_gated (VariableDecl.symbol_eq_ok_iff.mp found).1

theorem Assignment.uses_gated {a : Assignment}
    (clean : Outcome.faults (Inference.assign (Expr.infer settings) settings names a) = []) :
    AllGated settings (a.value.storedUses names ((names.var? a.target.name).map (·.ty))) := by
  unfold Inference.assign at clean
  split at clean
  · cases clean
  · cases clean
  · next v stands =>
      split at clean
      · cases clean
      · have slot : (names.var? a.target.name).map (·.ty) = some v.ty := by
          rw [Names.var?, stands]
          rfl
        rw [slot]
        exact (Inference.stored_of_store clean).gated

theorem returnUses_gated {value : Option Expr} {l : Location}
    (clean : returnFaults settings names result value l = []) :
    AllGated settings (usesOf (Expr.storedUses names result) value) := by
  refine .usesOf fun e given => ?_
  cases result with
  | none => cases clean
  | some ty =>
      simp only [returnFaults, given] at clean
      split at clean
      · -- a void function returns no value
        exact absurd (List.append_eq_nil_iff.mp clean).2 (List.cons_ne_nil _ _)
      · exact (Inference.stored_of_store clean).gated

theorem Expr.uses_gated_of_condition {e : Expr} (clean : e.conditionFaults settings names = []) :
    AllGated settings (e.uses names) := by
  unfold Expr.conditionFaults at clean
  split at clean
  · next failed => exact absurd clean ((e.infer_explained settings names).faults_ne_nil failed)
  · next ty typed => exact e.uses_gated typed

theorem Progress.faults_eq {faults found : List Fault} (ran : (.ok faults t : Progress) = .ok found after) :
    faults = found :=
  (EStateM.Result.ok.inj ran).1

mutual

theorem Stmt.uses_gated :
    (s : Stmt) → {t after : SymbolTable} → s.check settings result t = .ok [] after →
      AllGated settings (s.uses settings result t)
  | .declare decl, _, _, ran => VariableDecl.uses_gated_of_check (Progress.faults_eq ran)
  | .assign a, _, _, ran => Assignment.uses_gated (Progress.faults_eq ran)
  | .expr e, _, _, ran => Expr.uses_gated_of_clean (Progress.faults_eq ran)
  | .ret value l, _, _, ran => returnUses_gated (Progress.faults_eq ran)
  | .branch condition yes (some no) l, t, after, ran => by
      obtain ⟨_, _, _, ranYes, ranNo, clean⟩ := Stmt.check_branch_eq_ok_iff.mp ran
      simp only [List.nil_eq, List.append_eq_nil_iff] at clean
      obtain ⟨⟨ofCondition, rfl⟩, rfl⟩ := clean
      rw [Stmt.uses, ranYes]
      exact ((Expr.uses_gated_of_condition ofCondition).append (Block.uses_gated yes ranYes)).append
        (Block.uses_gated no ranNo)
  | .branch condition yes none l, t, after, ran => by
      obtain ⟨_, ranYes, clean⟩ := Stmt.check_when_eq_ok_iff.mp ran
      obtain ⟨ofCondition, rfl⟩ := List.append_eq_nil_iff.mp clean.symm
      exact (Expr.uses_gated_of_condition ofCondition).append (Block.uses_gated yes ranYes)
  | .loop condition body l, t, after, ran => by
      obtain ⟨_, ranBody, clean⟩ := Stmt.check_loop_eq_ok_iff.mp ran
      obtain ⟨ofCondition, rfl⟩ := List.append_eq_nil_iff.mp clean.symm
      exact (Expr.uses_gated_of_condition ofCondition).append (Block.uses_gated body ranBody)
  | .block b, _, _, ran => Block.uses_gated b ran

theorem Block.uses_gated :
    (b : Block) → {t after : SymbolTable} → b.check settings result t = .ok [] after →
      AllGated settings (b.uses settings result t)
  | .mk statements l, t, after, ran => by
      obtain ⟨inner, ran, -⟩ := Block.check_eq_ok_iff.mp ran
      exact Stmt.allUses_gated statements ran

theorem Stmt.allUses_gated :
    (statements : List Stmt) → {t after : SymbolTable} →
      Stmt.checkAll settings result statements t = .ok [] after →
      AllGated settings (Stmt.allUses settings result statements t)
  | [], _, _, _ => .nil
  | s :: rest, t, after, ran => by
      obtain ⟨_, _, _, first, second, clean⟩ := Stmt.checkAll_cons_eq_ok_iff.mp ran
      obtain ⟨rfl, rfl⟩ := List.append_eq_nil_iff.mp clean.symm
      rw [Stmt.allUses, first]
      exact (Stmt.uses_gated s first).append (Stmt.allUses_gated rest second)

end

theorem FunctionSymbol.bodyUses_gated {f : FunctionSymbol} {body : Block}
    (ran : f.checkBody settings body t = .ok [] after) :
    AllGated settings (f.bodyUses settings t body) := by
  obtain ⟨_, _, statements, -, clean⟩ := FunctionSymbol.checkBody_eq_ok_iff.mp ran
  obtain ⟨-, rfl⟩ := List.append_eq_nil_iff.mp clean.symm
  exact Stmt.allUses_gated body.statements statements

end Statements

section Items

variable {t after : SymbolTable}

theorem Item.declareUses_gated {item : Item} (clean : (item.declare settings t).2.2 = []) :
    AllGated settings (item.declareUses settings t) := by
  cases item with
  | function decl =>
      obtain ⟨f, found, -⟩ := Item.declare_function_of_clean clean
      exact FunctionDecl.signatureUses_gated (FunctionDecl.symbol_eq_ok_iff.mp found).1
  | var decl =>
      simp only [Item.declare, Item.declareUses] at clean ⊢
      split at clean
      · next folded =>
          rw [if_pos folded]
          exact VariableDecl.uses_gated_of_check clean
      · next pending =>
          rw [if_neg pending]
          exact .nil

theorem Item.completeUses_gated {item : Item} {standing : Standing}
    (ran : item.complete settings standing t = .ok [] after) :
    AllGated settings (item.completeUses settings t standing) := by
  unfold Item.completeUses
  split
  · exact VariableDecl.uses_gated_of_check (Progress.faults_eq ran)
  · next decl f =>
      refine .usesOf fun body given => ?_
      simp only [Item.complete, given] at ran
      exact FunctionSymbol.bodyUses_gated ran
  · exact .nil

theorem declareUses_gated (items : List Item) {t : SymbolTable}
    (clean : ∀ entry ∈ (declareItems settings items t).2, entry.2.2 = []) :
    AllGated settings (declareUses settings items t) := by
  induction items generalizing t with
  | nil => exact .nil
  | cons item rest ih =>
      simp only [declareItems_cons, List.forall_mem_cons] at clean
      exact (Item.declareUses_gated clean.1).append (ih clean.2)

/-- The second pass reports the faults of both, so without faults it vouches for both. -/
theorem completeUses_gated {entries : List (Item × Standing × List Fault)} {t after : SymbolTable}
    {blocks : List (List Fault)} (ran : completeItems settings entries t = .ok blocks after)
    (clean : blocks.flatten = []) :
    (∀ entry ∈ entries, entry.2.2 = []) ∧ AllGated settings (completeUses settings entries t) := by
  induction entries generalizing t blocks with
  | nil => exact ⟨List.forall_mem_nil _, .nil⟩
  | cons entry rest ih =>
      obtain ⟨item, standing, faults⟩ := entry
      obtain ⟨more, later, next, first, second, rfl⟩ := completeItems_cons_eq_ok_iff.mp ran
      simp only [List.flatten_cons, List.append_eq_nil_iff] at clean
      obtain ⟨⟨rfl, rfl⟩, behind⟩ := clean
      obtain ⟨accepted, gated⟩ := ih second behind
      refine ⟨List.forall_mem_cons.mpr ⟨rfl, accepted⟩, ?_⟩
      rw [completeUses, first]
      exact (Item.completeUses_gated first).append gated

end Items

/-- In a program without faults every value that names a function keeps the gate, and these are all
the values that the program holds. -/
theorem Program.function_values_gated (settings : AnalysisSettings) (program : Program) (a : Analysis)
    (ran : program.analyze settings = .ok a) (clean : a.faults = []) :
    (∀ u ∈ program.uses settings, u.Gated settings) ∧
      ((program.uses settings).map ValueUse.value).Perm program.values := by
  obtain ⟨after, passes, -, -⟩ := Program.analyze_eq_ok_iff.mp ran
  obtain ⟨accepted, second⟩ := completeUses_gated passes clean
  refine ⟨(declareUses_gated program.items accepted).append second, ?_⟩
  rw [Program.uses, List.map_append]
  exact map_value_uses_perm program.items accepted _

/-- A callback that is stored in a variable whose type is taken from it, stored there again, and
passed on in a call inside a sum. -/
def Program.installing : Program :=
  { items :=
      [.var ((VariableDecl.ofName "active" none).withValue (.ofName "irq")),
       .function (FunctionDecl.ofName "irq").asCallback,
       .function (((FunctionDecl.ofName "install").withParam
         (.ofName "handler" (.ofCallback [] none))).returning (.ofName "byte")),
       .function ((FunctionDecl.ofName "main").withBody
         [.setVariable "active" (.ofName "irq"),
          .expr (.applyBinary .add (.callOf "install" [.ofName "irq"]) (.ofInt 1))])] }

theorem Program.installing_values_gated :
    ∃ a, installing.analyze {} = .ok a ∧ a.faults = [] ∧
      (∀ u ∈ installing.uses {}, u.Gated {}) ∧
      ((installing.uses {}).map ValueUse.value).Perm [.ofName "irq", .ofName "irq", .ofName "irq"] := by
  obtain ⟨a, ran, blocks, -⟩ := installing.analyze_eq_ok {}
  have clean : a.faults = [] := by
    rw [Analysis.faults, blocks]
    rfl
  have written : installing.values = [.ofName "irq", .ofName "irq", .ofName "irq"] := rfl
  have kept := Program.function_values_gated {} installing a ran clean
  rw [written] at kept
  exact ⟨a, ran, clean, kept⟩

end SemanticCheck
