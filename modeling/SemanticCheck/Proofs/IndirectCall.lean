import SemanticCheck.Proofs.CallbackGate

/-!
Calls through slots. A slot does not say which function it holds, so a call through it is checked
against the slot alone. That is enough: whatever function the gate lets into the slot accepts the
same arguments in a direct call, and yields the same type. Parameters may differ from those of the
slot only where a byte becomes a word, and an argument widens along with them.
-/
namespace SemanticCheck

variable {settings : AnalysisSettings} {names : Names} {widening : Bool}

theorem Primitive.widensTo_trans {a b c : Primitive} (h : a.widensTo b = true)
    (k : b.widensTo c = true) : a.widensTo c = true := by
  revert h k
  cases a <;> cases b <;> cases c <;> decide

/-- Behind a slot stands the same parameter type, or a scalar that the passed one widens to. -/
theorem Ty.canPass_cases {passed declared : Ty} (h : Ty.canPass widening passed declared = true) :
    passed = declared ∨
      ∃ p d, passed = .primitive p ∧ declared = .primitive d ∧ p.widensTo d = true := by
  unfold Ty.canPass at h
  split at h
  · next p d =>
      refine .inr ⟨p, d, rfl, rfl, ?_⟩
      split at h
      · exact h
      · have same : p = d := of_decide_eq_true h
        simp [Primitive.widensTo, same]
  · exact .inl (of_decide_eq_true h)

/-- Only scalars are stored in a scalar. -/
theorem Ty.accepts_primitive_iff {p : Primitive} {source : Ty} :
    (Ty.primitive p).accepts widening source = true ↔
      ∃ s, source = .primitive s ∧ s.widensTo p = true := by
  cases source with
  | primitive s =>
      simp only [Ty.accepts, Ty.primitive.injEq, Primitive.widensTo, Bool.or_eq_true,
        decide_eq_true_eq, exists_eq_left']
      constructor
      · rintro (rfl | fits)
        · exact .inl rfl
        · exact fits
      · exact .inr
  | array element size => simp [Ty.accepts]
  | callback params result => simp [Ty.accepts]

/-- What may be passed to the slot may be passed on to the parameter behind it. -/
theorem Ty.accepts_of_canPass {passed declared source : Ty}
    (pass : Ty.canPass widening passed declared = true)
    (fits : passed.accepts widening source = true) : declared.accepts widening source = true := by
  obtain rfl | ⟨p, d, rfl, rfl, wider⟩ := Ty.canPass_cases pass
  · exact fits
  · obtain ⟨s, rfl, narrow⟩ := Ty.accepts_primitive_iff.mp fits
    exact Ty.accepts_primitive_iff.mpr ⟨s, rfl, Primitive.widensTo_trans narrow wider⟩

/-- No function is stored in a scalar, so for references the parameter is that of the slot. -/
theorem FunctionSymbol.gate_of_canPass {f : FunctionSymbol} {passed declared : Ty} {l : Location}
    (pass : Ty.canPass settings.callbackWidening passed declared = true)
    (passed_ok : f.gate settings passed l = .ok ()) : f.gate settings declared l = .ok () := by
  obtain rfl | ⟨p, d, rfl, -, -⟩ := Ty.canPass_cases pass
  · exact passed_ok
  · cases passed_ok

namespace Argument

/-- An argument that fits the slot's parameter fits the one behind it, in a call of whatever name. -/
theorem faults_of_canPass {arg : Argument} {passed declared : Ty} {slot callee : String} {i : Nat}
    (pass : Ty.canPass settings.callbackWidening passed declared = true)
    (clean : arg.faults settings names slot i passed = []) :
    arg.faults settings names callee i declared = [] := by
  unfold Argument.faults at clean ⊢
  split
  · next f reference =>
      simp only [reference] at clean
      obtain ⟨⟨⟩, through⟩ := (FunctionSymbol.gate_explained settings passed f _).eq_ok clean
      rw [FunctionSymbol.gate_of_canPass pass through]
      rfl
  · next reference =>
      simp only [reference] at clean
      split
      · next failed =>
          simp only [failed] at clean
          exact clean
      · next ty typed =>
          simp only [typed] at clean
          split at clean
          · next fits => rw [if_pos (Ty.accepts_of_canPass pass fits)]
          · cases clean

theorem faultsFrom_of_canPass {slot callee : String} {args : List Argument} {i : Nat}
    {passed declared : List Ty} (arity : passed.length = declared.length)
    (pass : ∀ pair ∈ passed.zip declared,
      Ty.canPass settings.callbackWidening pair.1 pair.2 = true)
    (clean : faultsFrom settings names slot i passed args = []) :
    faultsFrom settings names callee i declared args = [] := by
  induction args generalizing i passed declared with
  | nil => cases declared <;> rfl
  | cons arg rest ih =>
      cases passed with
      | nil =>
          cases declared with
          | nil => rfl
          | cons d ds => cases arity
      | cons p ps =>
          cases declared with
          | nil => cases arity
          | cons d ds =>
              obtain ⟨here, later⟩ := List.append_eq_nil_iff.mp clean
              rw [List.zip_cons_cons, List.forall_mem_cons] at pass
              refine List.append_eq_nil_iff.mpr ⟨faults_of_canPass pass.1 here, ?_⟩
              exact ih (Nat.succ.inj arity) pass.2 later

end Argument

/-- What it takes for a function to be accepted by a slot. -/
theorem Signature.accepts_iff {slot function : Signature} :
    slot.accepts widening function = true ↔
      slot.arity = function.arity ∧
      (∀ pair ∈ slot.params.zip function.params, Ty.canPass widening pair.1 pair.2 = true) ∧
      slot.result = function.result := by
  simp only [Signature.accepts, Bool.and_eq_true, decide_eq_true_eq, List.all_eq_true, and_assoc]

/-- A call through a variable succeeds when the variable is a slot, every parameter is given, and
every argument fits. -/
theorem VariableSymbol.call_eq_ok_iff {v : VariableSymbol} {args : List Argument} {l : Location}
    {result : Ty} :
    v.call settings names args l = .ok result ↔
      ∃ slot : Signature, v.ty = slot.ty ∧ args.length = slot.arity ∧
        Argument.faultsFrom settings names v.name 1 slot.params args = [] ∧ result = slot.result := by
  rw [VariableSymbol.call_eq]
  cases v.ty with
  | primitive p => simp [Ty.signature?, Outcome.refuse, Signature.ty]
  | array element size => simp [Ty.signature?, Outcome.refuse, Signature.ty]
  | callback params res =>
      simp only [Ty.signature?]
      constructor
      · intro ran
        split at ran
        · next count =>
            obtain ⟨clean, rfl⟩ := Outcome.finish_eq_ok_iff.mp ran
            exact ⟨_, rfl, count, clean, rfl⟩
        · cases ran
      · rintro ⟨⟨ps, r⟩, same, count, clean, rfl⟩
        cases same
        rw [if_pos count]
        exact Outcome.finish_eq_ok_iff.mpr ⟨clean, rfl⟩

/-- A direct call that gives every parameter succeeds when every argument fits. -/
theorem FunctionSymbol.call_of_clean {f : FunctionSymbol} {args : List Argument} {l : Location}
    (count : args.length = f.params.length)
    (clean : Argument.faultsFrom settings names f.name 1 (f.params.map (·.ty)) args = []) :
    f.call settings names args l = .ok f.result := by
  have required : f.requiredParams ≤ args.length := by
    rw [count]
    exact List.countP_le_length
  rw [FunctionSymbol.call_eq, if_pos ⟨required, Nat.le_of_eq count⟩]
  exact Outcome.finish_eq_ok_iff.mpr ⟨clean, rfl⟩

/-- If the gate lets a function into a variable and a call through the variable has a type, then the
same call of the function itself has that type, however the arguments are typed. -/
theorem FunctionSymbol.call_of_slot_call (settings : AnalysisSettings) (t : SymbolTable)
    (infer : Inference) (v : VariableSymbol) (f : FunctionSymbol) (args : List Expr) (result : Ty)
    (stored through direct : Location) (gate : f.gate settings v.ty stored = .ok ())
    (called : v.call settings t.names (infer.arguments t.names args) through = .ok result) :
    f.call settings t.names (infer.arguments t.names args) direct = .ok result := by
  obtain ⟨-, slot, held, fits⟩ := FunctionSymbol.gate_eq_ok_iff.mp gate
  obtain ⟨arity, pass, results⟩ := Signature.accepts_iff.mp fits
  obtain ⟨same, holds, count, clean, rfl⟩ := VariableSymbol.call_eq_ok_iff.mp called
  obtain rfl : same = slot := by
    rw [held] at holds
    cases same
    cases slot
    cases holds
    rfl
  rw [results]
  apply FunctionSymbol.call_of_clean
  · rw [count, arity, Signature.arity, FunctionSymbol.signature, List.length_map]
  · exact Argument.faultsFrom_of_canPass arity pass clean

/-- Settings under which a slot that passes a byte may hold a function that takes a word. -/
def AnalysisSettings.lenient : AnalysisSettings := { callbackWidening := true }

/-- A slot that passes two bytes. -/
def VariableSymbol.tickSlot : VariableSymbol :=
  { name := "onTick", ty := .callback [.byte, .byte] .boolean, scope := 0 }

/-- A handler that takes a word, and a byte that it can do without. -/
def FunctionSymbol.tickHandler : FunctionSymbol :=
  { name := "tick"
    params := [{ name := "count", ty := .word }, { name := "step", ty := .byte, optional := true }]
    result := .boolean, scope := 0, isCallback := true }

theorem FunctionSymbol.tickHandler_call :
    let args := Inference.arguments (Expr.infer .lenient) SymbolTable.empty.names [.ofInt 7, .ofInt 1]
    tickHandler.gate .lenient VariableSymbol.tickSlot.ty .unknown = .ok () ∧
      VariableSymbol.tickSlot.call .lenient SymbolTable.empty.names args .unknown = .ok .boolean ∧
      tickHandler.call .lenient SymbolTable.empty.names args .unknown = .ok .boolean := by
  intro args
  have gate : tickHandler.gate .lenient VariableSymbol.tickSlot.ty .unknown = .ok () := rfl
  have called : VariableSymbol.tickSlot.call .lenient SymbolTable.empty.names args .unknown =
      .ok .boolean := rfl
  exact ⟨gate, called, call_of_slot_call .lenient .empty _ _ _ _ _ _ _ _ gate called⟩

end SemanticCheck
