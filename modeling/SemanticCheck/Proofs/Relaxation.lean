import SemanticCheck.Proofs.BodyTyping
import SemanticCheck.Proofs.FunctionShape
import SemanticCheck.Proofs.IndirectCall
import SemanticCheck.Proofs.Lockstep

/-!
Looser settings. Letting callbacks have more parameters, or letting slots widen what they pass, takes
nothing back: whatever is accepted stays accepted and keeps its type. So a program without faults has
none under looser settings either, and its table is the same.
-/
namespace SemanticCheck

/-- The second settings allow whatever the first ones allow. -/
structure AnalysisSettings.Relaxes (strict lenient : AnalysisSettings) : Prop where
  limit : strict.maxCallbackParams ≤ lenient.maxCallbackParams
  widening : strict.callbackWidening = true → lenient.callbackWidening = true

variable {strict lenient : AnalysisSettings} {names : Names}

section Slots

variable {narrow wide : Bool} (wider : narrow = true → wide = true)
include wider

theorem Ty.canPass_relaxed {passed declared : Ty} (h : Ty.canPass narrow passed declared = true) :
    Ty.canPass wide passed declared = true := by
  cases wide with
  | false =>
      cases narrow with
      | false => exact h
      | true => exact absurd (wider rfl) Bool.false_ne_true
  | true =>
      obtain rfl | ⟨p, d, rfl, rfl, widens⟩ := Ty.canPass_cases h
      · cases passed with
        | primitive p => simp [Ty.canPass, Primitive.widensTo]
        | array element size => simp [Ty.canPass]
        | callback params result => simp [Ty.canPass]
      · exact widens

theorem Signature.accepts_relaxed {slot function : Signature}
    (h : slot.accepts narrow function = true) : slot.accepts wide function = true := by
  obtain ⟨arity, params, result⟩ := Signature.accepts_iff.mp h
  refine Signature.accepts_iff.mpr ⟨arity, ?_, result⟩
  intro pair member
  exact Ty.canPass_relaxed wider (params pair member)

theorem Ty.accepts_relaxed {target source : Ty} (h : target.accepts narrow source = true) :
    target.accepts wide source = true := by
  unfold Ty.accepts at h ⊢
  rw [Bool.or_eq_true] at h ⊢
  refine h.imp id ?_
  intro fits
  split at fits
  · exact fits
  · exact fits
  · exact Signature.accepts_relaxed wider fits
  · exact fits

end Slots

theorem FunctionSymbol.gate_relaxed (h : strict.Relaxes lenient) {f : FunctionSymbol} {target : Ty}
    {l : Location} (passed : f.gate strict target l = .ok ()) : f.gate lenient target l = .ok () := by
  obtain ⟨declared, slot, shape, fits⟩ := FunctionSymbol.gate_eq_ok_iff.mp passed
  exact FunctionSymbol.gate_eq_ok_iff.mpr
    ⟨declared, slot, shape, Signature.accepts_relaxed h.widening fits⟩

theorem BinaryOp.result?_relaxed (h : strict.Relaxes lenient) {op : BinaryOp} {lhs rhs ty : Ty}
    (result : op.result? strict lhs rhs = some ty) : op.result? lenient lhs rhs = some ty := by
  have comparable : ((decide (op = .eq) || decide (op = .notEq)) &&
        (lhs.accepts strict.callbackWidening rhs || rhs.accepts strict.callbackWidening lhs)) = true →
      ((decide (op = .eq) || decide (op = .notEq)) &&
        (lhs.accepts lenient.callbackWidening rhs || rhs.accepts lenient.callbackWidening lhs)) = true := by
    rw [Bool.and_eq_true, Bool.and_eq_true, Bool.or_eq_true (lhs.accepts _ _),
      Bool.or_eq_true (lhs.accepts _ _)]
    rintro ⟨equality, fits⟩
    exact ⟨equality, fits.imp (Ty.accepts_relaxed h.widening) (Ty.accepts_relaxed h.widening)⟩
  unfold BinaryOp.result? at result ⊢
  split at result
  · next arithmetic =>
      rw [if_pos arithmetic]
      exact result
  · next other =>
      rw [if_neg other]
      split
      · -- whatever else the operator is, it yields a boolean
        split at result
        · exact result
        · split at result
          · exact result
          · split at result
            · exact result
            · cases result
      · next different =>
          rw [if_neg fun same => different (comparable same)] at result
          exact result

section Calls

variable {args args' : List Argument}

/-- A call gets its type from the callee, once its arguments are counted and fit. -/
theorem Names.call_relaxed {callee : Expr} {l : Location} {ty : Ty}
    (length : args'.length = args.length)
    (clean : ∀ name first params, Argument.faultsFrom strict names name first params args = [] →
      Argument.faultsFrom lenient names name first params args' = [])
    (typed : names.call strict callee args l = .ok ty) : names.call lenient callee args' l = .ok ty := by
  unfold Names.call at typed ⊢
  cases named : callee.ident? with
  | none =>
      rw [named] at typed
      cases typed
  | some i =>
      simp only [named] at typed ⊢
      cases stands : names i.name with
      | none =>
          rw [stands] at typed
          cases typed
      | some x =>
          rw [stands] at typed
          cases x with
          | function f =>
              simp only [FunctionSymbol.call_eq, length] at typed ⊢
              split at typed
              · next count =>
                  obtain ⟨fits, rfl⟩ := Outcome.finish_eq_ok_iff.mp typed
                  rw [if_pos count]
                  exact Outcome.finish_eq_ok_iff.mpr ⟨clean _ _ _ fits, rfl⟩
              · cases typed
          | var v =>
              obtain ⟨slot, shape, count, fits, rfl⟩ := VariableSymbol.call_eq_ok_iff.mp typed
              exact VariableSymbol.call_eq_ok_iff.mpr
                ⟨slot, shape, length.trans count, clean _ _ _ fits, rfl⟩

end Calls

mutual

theorem Expr.infer_relaxed (h : strict.Relaxes lenient) :
    (e : Expr) → {ty : Ty} → e.infer strict names = .ok ty → e.infer lenient names = .ok ty
  | .number _ _, _, typed => typed
  | .boolean _ _, _, typed => typed
  | .text _ _, _, typed => typed
  | .ident _, _, typed => typed
  | .unary op operand l, _, typed => by
      obtain ⟨inner, known⟩ := UnaryOp.operand_of_infer typed
      rw [Expr.infer, operand.infer_relaxed h known, ← known]
      exact typed
  | .binary op lhs rhs l, _, typed => by
      obtain ⟨left, right, knownLeft, knownRight, result⟩ := Expr.operands_of_infer typed
      rw [Expr.infer, lhs.infer_relaxed h knownLeft, rhs.infer_relaxed h knownRight,
        BinaryOp.infer_ok, BinaryOp.result?_relaxed h result]
  | .call callee args l, _, typed => by
      refine Names.call_relaxed ?_ ?_ typed
      · rw [Expr.length_inferAll, Expr.length_inferAll]
      · intro name first params
        exact Expr.arguments_relaxed h args
  | .index target position l, _, typed => by
      have parts := typed
      simp only [Expr.infer, Ty.index_eq, Outcome.finish_eq_ok_iff, List.append_eq_nil_iff] at parts
      obtain ⟨left, knownLeft⟩ := (target.infer_explained strict names).eq_ok parts.1.1.1.1
      obtain ⟨right, knownRight⟩ := (position.infer_explained strict names).eq_ok parts.1.1.1.2
      rw [Expr.infer, target.infer_relaxed h knownLeft, position.infer_relaxed h knownRight,
        ← knownLeft, ← knownRight]
      exact typed

theorem Expr.arguments_relaxed (h : strict.Relaxes lenient) :
    (args : List Expr) → {name : String} → {first : Nat} → {params : List Ty} →
      Argument.faultsFrom strict names name first params (Expr.inferAll strict names args) = [] →
      Argument.faultsFrom lenient names name first params (Expr.inferAll lenient names args) = []
  | [], _, _, [], _ => rfl
  | [], _, _, _ :: _, _ => rfl
  | _ :: _, _, _, [], _ => rfl
  | e :: rest, name, first, param :: params, clean => by
      obtain ⟨here, later⟩ := List.append_eq_nil_iff.mp clean
      refine List.append_eq_nil_iff.mpr ⟨?_, Expr.arguments_relaxed h rest later⟩
      have typed {ty : Ty} (known : e.infer strict names = .ok ty) := e.infer_relaxed h known
      unfold Argument.faults at here ⊢
      cases reference : names.reference? e with
      | some f =>
          simp only [reference] at here ⊢
          obtain ⟨⟨⟩, passed⟩ := (FunctionSymbol.gate_explained strict param f e.location).eq_ok here
          rw [FunctionSymbol.gate_relaxed h passed]
          rfl
      | none =>
          simp only [reference] at here ⊢
          cases known : e.infer strict names with
          | error found =>
              simp only [known] at here
              exact absurd here ((e.infer_explained strict names).faults_ne_nil known)
          | ok ty =>
              simp only [known] at here
              simp only [typed known]
              split at here
              · next fits => rw [if_pos (Ty.accepts_relaxed h.widening fits)]
              · cases here

end

section Stores

variable (h : strict.Relaxes lenient)
include h

theorem Expr.Storable.relaxed {slot : Ty} {e : Expr} (storable : e.Storable strict names slot) :
    e.Storable lenient names slot := by
  cases storable with
  | reference stands declared fits =>
      exact .reference stands declared (Signature.accepts_relaxed h.widening fits)
  | value free typed fits =>
      exact .value free (Expr.infer_relaxed h _ typed) (Ty.accepts_relaxed h.widening fits)

theorem Inference.store_relaxed {slot : Ty} {e : Expr} {l : Location}
    (clean : Outcome.faults (Inference.store (Expr.infer strict) strict names slot e l) = []) :
    Outcome.faults (Inference.store (Expr.infer lenient) lenient names slot e l) = [] :=
  Expr.storable_iff_clean.mp ((Expr.storable_iff_clean.mpr clean).relaxed h)

theorem Inference.assign_relaxed {a : Assignment}
    (clean : Outcome.faults (Inference.assign (Expr.infer strict) strict names a) = []) :
    Outcome.faults (Inference.assign (Expr.infer lenient) lenient names a) = [] := by
  obtain ⟨v, stands, free, storable⟩ := Assignment.storable_iff_clean.mpr clean
  exact Assignment.storable_iff_clean.mp ⟨v, stands, free, storable.relaxed h⟩

theorem Expr.typed_relaxed {e : Expr} (clean : Outcome.faults (e.infer strict names) = []) :
    Outcome.faults (e.infer lenient names) = [] := by
  obtain ⟨ty, typed⟩ := Expr.typed_iff_clean.mpr clean
  exact Expr.typed_iff_clean.mp ⟨ty, e.infer_relaxed h typed⟩

theorem Expr.conditionFaults_relaxed {e : Expr} (clean : e.conditionFaults strict names = []) :
    e.conditionFaults lenient names = [] :=
  Expr.boolean_iff_clean.mp (e.infer_relaxed h (Expr.boolean_iff_clean.mpr clean))

theorem returnFaults_relaxed {result : Option Ty} {value : Option Expr} {l : Location}
    (clean : returnFaults strict names result value l = []) :
    returnFaults lenient names result value l = [] := by
  cases result with
  | none => cases clean
  | some ty =>
      cases value with
      | none => exact returnNothing_iff_clean.mp (returnNothing_iff_clean.mpr clean)
      | some e =>
          obtain ⟨proper, storable⟩ := returnValue_iff_clean.mpr clean
          exact returnValue_iff_clean.mp ⟨proper, storable.relaxed h⟩

theorem VariableDecl.typed_relaxed {decl : VariableDecl}
    (clean : (decl.typed strict (Expr.infer strict) names).1 = []) :
    decl.typed lenient (Expr.infer lenient) names = decl.typed strict (Expr.infer strict) names := by
  unfold VariableDecl.typed at clean ⊢
  split at clean
  · cases clean
  · rfl
  · rfl
  · next ty value _ _ =>
      have fits : Outcome.faults (Inference.store (Expr.infer strict) strict names ty value decl.location) =
        [] := clean
      rw [fits, Inference.store_relaxed h fits]
  · next value _ given =>
      cases known : value.infer strict names with
      | error found =>
          simp only [known] at clean
          exact absurd clean ((value.infer_explained strict names).faults_ne_nil known)
      | ok ty =>
          simp only [known] at clean
          simp only [value.infer_relaxed h known]
          split at clean
          · next callback => rw [if_pos callback, if_pos callback, clean, Inference.store_relaxed h clean]
          · next plain => rw [if_neg plain, if_neg plain]

theorem VariableDecl.symbol_relaxed {decl : VariableDecl} {site : Site} {v : VariableSymbol}
    (declared : decl.symbol strict (Expr.infer strict) site = .ok v) :
    decl.symbol lenient (Expr.infer lenient) site = .ok v := by
  obtain ⟨clean, ty, typed, rfl⟩ := VariableDecl.symbol_eq_ok_iff.mp declared
  have same : decl.typed lenient (Expr.infer lenient) site.names =
      decl.typed strict (Expr.infer strict) site.names := by
    apply VariableDecl.typed_relaxed h
    simp only [VariableDecl.faults, List.append_eq_nil_iff] at clean
    exact clean.1.1.2
  refine VariableDecl.symbol_eq_ok_iff.mpr ⟨?_, ty, same ▸ typed, rfl⟩
  rw [VariableDecl.faults, same]
  exact clean

theorem Parameter.faults_relaxed {p : Parameter} (clean : p.faults strict names = []) :
    p.faults lenient names = [] := by
  unfold Parameter.faults at clean ⊢
  cases resolved : p.typeExpr.resolve names with
  | error found =>
      rw [resolved] at clean
      exact clean
  | ok ty =>
      rw [resolved] at clean
      cases given : p.default? with
      | none => rfl
      | some value =>
          rw [given] at clean
          exact Inference.store_relaxed h clean

theorem FunctionDecl.callbackFaults_relaxed {decl : FunctionDecl}
    (clean : decl.callbackFaults strict names = []) : decl.callbackFaults lenient names = [] := by
  unfold FunctionDecl.callbackFaults at clean ⊢
  split at clean
  · next callback =>
      obtain ⟨count, params, result⟩ := FunctionDecl.shapeFaults_eq_nil_iff.mp clean
      rw [if_pos callback]
      exact FunctionDecl.shapeFaults_eq_nil_iff.mpr ⟨Nat.le_trans count h.limit, params, result⟩
  · next plain => rw [if_neg plain]

theorem FunctionDecl.symbol_relaxed {decl : FunctionDecl} {site : Site} {f : FunctionSymbol}
    (declared : decl.symbol strict site = .ok f) : decl.symbol lenient site = .ok f := by
  obtain ⟨clean, rfl⟩ := FunctionDecl.symbol_eq_ok_iff.mp declared
  refine FunctionDecl.symbol_eq_ok_iff.mpr ⟨?_, rfl⟩
  simp only [FunctionDecl.faults, List.append_eq_nil_iff, FunctionDecl.paramFaults,
    List.flatMap_eq_nil_iff] at clean ⊢
  obtain ⟨⟨⟨⟨⟨⟨⟨params, result⟩, free⟩, shape⟩, rest⟩, order⟩, exported⟩, named⟩ := clean
  exact ⟨⟨⟨⟨⟨⟨⟨fun p member => Parameter.faults_relaxed h (params p member), result⟩, free⟩,
    FunctionDecl.callbackFaults_relaxed h shape⟩, rest⟩, order⟩, exported⟩, named⟩

end Stores

/-- The same program under other settings, followed as long as it has no fault. -/
def AnalysisSettings.relaxation (strict lenient : AnalysisSettings) : Variation where
  settings := strict
  other := lenient
  nodes := .same
  param := id
  function := id
  Tables t t' := t' = t
  Followed found := found = []
  Alike _ found' := found' = []

theorem AnalysisSettings.Relaxes.lockstep (h : strict.Relaxes lenient) :
    (strict.relaxation lenient).Lockstep where
  followed_append := List.append_eq_nil_iff.mp
  alike_nil := rfl
  alike_append := by
    rintro _ _ _ _ rfl rfl
    rfl
  result_eq _ := rfl
  params_eq f := (List.map_id f.params).symm
  push := by
    rintro _ t kind rfl
    rfl
  close := by
    rintro _ t _ after outer kind rfl rfl closed
    exact ⟨outer, closed, rfl⟩
  assign := by
    rintro _ t a rfl
    exact Inference.assign_relaxed h
  infer := by
    rintro _ t e rfl
    exact Expr.typed_relaxed h
  condition := by
    rintro _ t e rfl
    exact Expr.conditionFaults_relaxed h
  result := by
    rintro _ t ty value l rfl
    change _ → returnFaults lenient t.names ty (value.map id) l = []
    rw [Option.map_id]
    exact returnFaults_relaxed h
  var := by
    rintro _ t decl rfl
    refine ⟨fun v declared => ⟨v, VariableDecl.symbol_relaxed h declared, rfl⟩, ?_⟩
    rintro found failed clean
    exact absurd clean ((decl.symbol_explained strict _ t.site).faults_ne_nil failed)
  isFolded_eq := by
    rintro _ t decl rfl
    rfl
  signature := by
    rintro _ t decl rfl
    refine ⟨fun f declared => ⟨f, FunctionDecl.symbol_relaxed h declared, rfl, rfl⟩, ?_⟩
    rintro found failed clean
    exact absurd clean ((decl.symbol_explained strict t.site).faults_ne_nil failed)
  duplicate := by
    rintro _ t p rfl
    refine ⟨fun next added => ⟨next, added, rfl⟩, ?_⟩
    rintro found failed clean
    exact absurd clean ((Outcome.Explained.finish _ _).faults_ne_nil failed)

/-- A program without faults stays without faults when callbacks may have more parameters and when
slots may widen what they pass, and it keeps its table. -/
theorem Program.analyze_relaxed (program : Program) (n m : Nat) (w w' : Bool) (more : n ≤ m)
    (wider : w = true → w' = true) (a : Analysis) (ran : program.analyze ⟨n, w⟩ = .ok a)
    (clean : a.faults = []) :
    ∃ b, program.analyze ⟨m, w'⟩ = .ok b ∧ b.faults = [] ∧ b.table = a.table := by
  have h : AnalysisSettings.Relaxes ⟨n, w⟩ ⟨m, w'⟩ := ⟨more, wider⟩
  obtain ⟨b, ran', table, faults, -⟩ := Program.analyze_lockstep h.lockstep rfl rfl
    (Rewriting.map_item_same program.items).symm ran (List.flatten_eq_nil_iff.mp clean)
  exact ⟨b, ran', faults, table⟩

/-- A callback with as many parameters as are allowed, stored in a slot and called through it. -/
def Program.dispatching : Program :=
  { items :=
      [.var ((VariableDecl.ofName "onTick"
         (some (.ofCallback [.ofName "byte", .ofName "word"] none))).withValue (.ofName "tick")),
       .function (((FunctionDecl.ofName "tick").withParam (.ofName "step" (.ofName "byte"))).withParam
         (.ofName "count" (.ofName "word"))).asCallback,
       .function ((FunctionDecl.ofName "main").withBody
         [.expr (.callOf "onTick" [.ofInt 1, .ofInt 300])])] }

theorem Program.dispatching_relaxed :
    ∃ a b, dispatching.analyze ⟨2, false⟩ = .ok a ∧ a.faults = [] ∧
      dispatching.analyze ⟨5, true⟩ = .ok b ∧ b.faults = [] ∧ b.table = a.table := by
  obtain ⟨a, ran, blocks, -⟩ := dispatching.analyze_eq_ok ⟨2, false⟩
  have clean : a.faults = [] := by
    rw [Analysis.faults, blocks]
    rfl
  obtain ⟨b, ran', kept⟩ :=
    Program.analyze_relaxed dispatching 2 5 false true (by decide) (fun _ => rfl) a ran clean
  exact ⟨a, b, ran, clean, ran', kept⟩

end SemanticCheck
