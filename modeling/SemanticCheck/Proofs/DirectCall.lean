import SemanticCheck.Proofs.FunctionShape
import SemanticCheck.Proofs.Typing

/-!
Direct calls. A call is accepted when its number of arguments lies between the number of required
parameters and that of all parameters, and every argument passes for the parameter at its position;
the faults of a call are those of its arguments, one after the other. Counting required parameters
says little by itself. It does for a declared function, whose optional parameters come last: the
parameters that a call leaves out are then optional ones.
-/
namespace SemanticCheck

variable {settings : AnalysisSettings} {names : Names} {infer : Inference}

namespace Inference

/-- What passes for a parameter, when types are found in the given way: a function that is declared as
a callback, if the parameter is a slot that accepts its signature, or an expression that is not the
name of a function, if it has a type that the parameter accepts. -/
inductive Passes (infer : Inference) (settings : AnalysisSettings) (names : Names) : Ty → Expr → Prop
  | reference {i : Ident} {f : FunctionSymbol} {slot : Signature} :
      names i.name = some (.function f) → f.isCallback = true →
      slot.accepts settings.callbackWidening f.signature = true →
      Passes infer settings names slot.ty (.ident i)
  | value {param found : Ty} {e : Expr} :
      (∀ i f, e = .ident i → names i.name ≠ some (.function f)) →
      infer names e = .ok found → param.accepts settings.callbackWidening found = true →
      Passes infer settings names param e

/-- What the argument at a position, counted from one, is faulted for by itself. -/
inductive Objects (infer : Inference) (settings : AnalysisSettings) (names : Names) (callee : String)
    (position : Nat) (param : Ty) : Expr → List Fault → Prop
  | reference {i : Ident} {f : FunctionSymbol} : names i.name = some (.function f) →
      Objects infer settings names callee position param (.ident i)
        (Outcome.faults (f.gate settings param i.location))
  | untyped {e : Expr} {found : List Fault} :
      (∀ i f, e = .ident i → names i.name ≠ some (.function f)) → infer names e = .error found →
      Objects infer settings names callee position param e found
  | mismatch {e : Expr} {found : Ty} :
      (∀ i f, e = .ident i → names i.name ≠ some (.function f)) → infer names e = .ok found →
      param.accepts settings.callbackWidening found = false →
      Objects infer settings names callee position param e
        [{ kind := .typeMismatch
           message := s!"argument {position} of '{callee}' expects '{param.text}', found '{found.text}'"
           location := e.location }]
  | fits {e : Expr} {found : Ty} :
      (∀ i f, e = .ident i → names i.name ≠ some (.function f)) → infer names e = .ok found →
      param.accepts settings.callbackWidening found = true →
      Objects infer settings names callee position param e []

variable {callee : String} {position : Nat} {param : Ty} {e : Expr}

theorem objects_faults :
    infer.Objects settings names callee position param e
      (Argument.faults settings names callee position param ⟨e, infer names e⟩) := by
  unfold Argument.faults
  cases reference : names.reference? e with
  | some f =>
      obtain ⟨i, rfl, stands⟩ := Names.reference?_eq_some_iff.mp reference
      exact .reference stands
  | none =>
      have free := Names.reference?_eq_none_iff.mp reference
      cases typed : infer names e with
      | error found => exact .untyped free typed
      | ok found =>
          by_cases accepted : param.accepts settings.callbackWidening found = true
          · simp only [if_pos accepted]
            exact .fits free typed accepted
          · simp only [if_neg accepted]
            exact .mismatch free typed (Bool.eq_false_iff.mpr accepted)

/-- Where failures say why, only what passes is not faulted. -/
theorem passes_iff_faults (explained : Outcome.Explained (infer names e)) :
    infer.Passes settings names param e ↔
      Argument.faults settings names callee position param ⟨e, infer names e⟩ = [] := by
  unfold Argument.faults
  constructor
  · intro passes
    cases passes with
    | @reference i f slot stands declared accepted =>
        have gate : f.gate settings slot.ty i.location = .ok () :=
          FunctionSymbol.gate_eq_ok_iff.mpr ⟨declared, slot, rfl, accepted⟩
        simp only [Names.reference?_eq_some_iff.mpr ⟨i, rfl, stands⟩, Expr.location, gate,
          Outcome.faults]
    | value free typed accepted =>
        simp only [Names.reference?_eq_none_iff.mpr free, typed, if_pos accepted]
  · intro clean
    cases reference : names.reference? e with
    | some f =>
        simp only [reference] at clean
        obtain ⟨⟨⟩, passed⟩ := (FunctionSymbol.gate_explained settings param f _).eq_ok clean
        obtain ⟨i, rfl, stands⟩ := Names.reference?_eq_some_iff.mp reference
        obtain ⟨declared, slot, rfl, accepted⟩ := FunctionSymbol.gate_eq_ok_iff.mp passed
        exact .reference stands declared accepted
    | none =>
        simp only [reference] at clean
        cases typed : infer names e with
        | error found =>
            simp only [typed] at clean
            exact absurd clean (explained.faults_ne_nil typed)
        | ok found =>
            simp only [typed] at clean
            split at clean
            · next accepted => exact .value (Names.reference?_eq_none_iff.mp reference) typed accepted
            · cases clean

end Inference

namespace Argument

variable {callee : String} {first i : Nat} {params : List Ty} {args : List Argument}

/-- The faults of each argument by itself. -/
def blocksFrom (settings : AnalysisSettings) (names : Names) (callee : String) (first : Nat)
    (params : List Ty) (args : List Argument) : List (List Fault) :=
  ((params.zip args).zipIdx first).map fun ((param, arg), position) =>
    arg.faults settings names callee position param

theorem flatten_blocksFrom :
    (blocksFrom settings names callee first params args).flatten =
      faultsFrom settings names callee first params args := by
  induction params generalizing first args with
  | nil => rfl
  | cons param params ih =>
      cases args with
      | nil => rfl
      | cons arg args =>
          rw [faultsFrom, ← ih]
          rfl

theorem length_blocksFrom (enough : args.length ≤ params.length) :
    (blocksFrom settings names callee first params args).length = args.length := by
  simp [blocksFrom, enough]

theorem getElem?_blocksFrom {param : Ty} {arg : Argument} (slot : params[i]? = some param)
    (given : args[i]? = some arg) :
    (blocksFrom settings names callee first params args)[i]? =
      some (arg.faults settings names callee (first + i) param) := by
  have pair : (params.zip args)[i]? = some (param, arg) :=
    List.getElem?_zip_eq_some.mpr ⟨slot, given⟩
  simp [blocksFrom, pair]

end Argument

/-- If optional parameters come last, a required one has only required ones before it. -/
theorem ParameterSymbol.lt_countP_of_required {params : List ParameterSymbol}
    (trailing : params.Pairwise fun p q => p.optional = true → q.optional = true) {i : Nat}
    {p : ParameterSymbol} (found : params[i]? = some p) (required : p.optional = false) :
    i < params.countP (!·.optional) := by
  induction params generalizing i with
  | nil => cases found
  | cons q rest ih =>
      obtain ⟨later, trailing⟩ := List.pairwise_cons.mp trailing
      cases i with
      | zero =>
          cases found
          rw [List.countP_cons_of_pos (by simp [required])]
          exact Nat.succ_pos _
      | succ i =>
          have member : p ∈ rest := List.mem_of_getElem? found
          have before : q.optional = false := by
            apply Bool.eq_false_iff.mpr
            intro optional
            rw [later p member optional] at required
            cases required
          rw [List.countP_cons_of_pos (by simp [before])]
          exact Nat.succ_lt_succ (ih trailing found)

namespace FunctionSymbol

variable {f : FunctionSymbol} {args : List Expr} {l : Location}

/-- As many arguments as there are required parameters, at least, and no more than parameters. -/
def InWindow (f : FunctionSymbol) (count : Nat) : Prop :=
  (f.params.filter (!·.optional)).length ≤ count ∧ count ≤ f.params.length

theorem inWindow_iff {count : Nat} :
    f.InWindow count ↔ f.requiredParams ≤ count ∧ count ≤ f.params.length := by
  rw [InWindow, requiredParams, List.countP_eq_length_filter]

/-- If optional parameters come last, a fitting number of arguments reaches every required one. -/
theorem lt_of_required {count i : Nat} {p : ParameterSymbol}
    (trailing : f.params.Pairwise fun p q => p.optional = true → q.optional = true)
    (window : f.InWindow count) (slot : f.params[i]? = some p) (required : p.optional = false) :
    i < count :=
  Nat.lt_of_lt_of_le (ParameterSymbol.lt_countP_of_required trailing slot required)
    (inWindow_iff.mp window).1

/-- The faults of a call with a fitting number of arguments, one block for each argument. -/
theorem faults_call (window : f.InWindow args.length) :
    ∃ blocks : List (List Fault),
      Outcome.faults (f.call settings names (infer.arguments names args) l) = blocks.flatten ∧
      blocks.length = args.length ∧
      ∀ (i : Nat) p e, f.params[i]? = some p → args[i]? = some e →
        blocks[i]? = some (Argument.faults settings names f.name (i + 1) p.ty ⟨e, infer names e⟩) := by
  have length_eq : (infer.arguments names args).length = args.length := List.length_map ..
  refine ⟨Argument.blocksFrom settings names f.name 1 (f.params.map (·.ty))
    (infer.arguments names args), ?_, ?_, ?_⟩
  · rw [call_eq, length_eq, if_pos (inWindow_iff.mp window), Outcome.faults_finish,
      Argument.flatten_blocksFrom]
  · rw [Argument.length_blocksFrom, length_eq]
    rw [length_eq, List.length_map]
    exact window.2
  · intro i p e slot given
    rw [Nat.add_comm i 1]
    apply Argument.getElem?_blocksFrom
    · rw [List.getElem?_map, slot, Option.map_some]
    · rw [Inference.arguments, List.getElem?_map, given, Option.map_some]

/-- A call has the result type exactly when the number of arguments fits and none is faulted. -/
theorem call_eq_ok_iff_clean {ty : Ty} :
    f.call settings names (infer.arguments names args) l = .ok ty ↔
      ty = f.result ∧ f.InWindow args.length ∧
        ∀ (i : Nat) p e, f.params[i]? = some p → args[i]? = some e →
          Argument.faults settings names f.name (i + 1) p.ty ⟨e, infer names e⟩ = [] := by
  have length_eq : (infer.arguments names args).length = args.length := List.length_map ..
  constructor
  · intro accepted
    obtain ⟨count, -, rfl⟩ := call_eq_ok_iff.mp accepted
    have window : f.InWindow args.length := inWindow_iff.mpr (length_eq ▸ count)
    refine ⟨rfl, window, ?_⟩
    intro i p e slot given
    obtain ⟨blocks, flat, -, own⟩ := faults_call (l := l) window
    rw [accepted] at flat
    exact List.flatten_eq_nil_iff.mp flat.symm _ (List.mem_of_getElem? (own i p e slot given))
  · rintro ⟨rfl, window, clean⟩
    obtain ⟨blocks, flat, count, own⟩ := faults_call (l := l) window
    have empty : blocks.flatten = [] := by
      apply List.flatten_eq_nil_iff.mpr
      intro block member
      obtain ⟨i, bound, rfl⟩ := List.getElem_of_mem member
      have given := List.getElem?_eq_getElem (count ▸ bound)
      have slot := List.getElem?_eq_getElem (Nat.lt_of_lt_of_le (count ▸ bound) window.2)
      have found := own i _ _ slot given
      rw [clean i _ _ slot given, List.getElem?_eq_getElem bound] at found
      exact Option.some.inj found
    rw [empty] at flat
    obtain ⟨ty, accepted⟩ := (call_explained settings names f _ l).eq_ok flat
    rw [accepted, (call_eq_ok_iff.mp accepted).2.2]

/-- Direct calls, when the types of arguments are found in any way whose failures say why. -/
theorem direct_calls_checked (settings : AnalysisSettings) (t : SymbolTable) (infer : Inference)
    (f : FunctionSymbol) (args : List Expr) (l : Location)
    (explained : ∀ e ∈ args, Outcome.Explained (infer t.names e)) :
    let outcome := f.call settings t.names (infer.arguments t.names args) l
    (∀ ty, outcome = .ok ty ↔ ty = f.result ∧ f.InWindow args.length ∧
      ∀ (i : Nat) p e, f.params[i]? = some p → args[i]? = some e →
        infer.Passes settings t.names p.ty e) ∧
    (f.InWindow args.length →
      ∃ blocks : List (List Fault), Outcome.faults outcome = blocks.flatten ∧
        blocks.length = args.length ∧
        ∀ (i : Nat) p e, f.params[i]? = some p → args[i]? = some e →
          ∃ own, blocks[i]? = some own ∧
            infer.Objects settings t.names f.name (i + 1) p.ty e own) ∧
    ∀ (other : AnalysisSettings) (table after : SymbolTable) (decl : FunctionDecl),
      table.declareFunction other decl = .ok f after →
      (∀ ty, outcome = .ok ty →
        ∀ (i : Nat) p, f.params[i]? = some p → args.length ≤ i → p.optional = true) ∧
      ∀ count, f.InWindow count →
        ∀ (i : Nat) p, f.params[i]? = some p → p.optional = false → i < count := by
  intro outcome
  refine ⟨?_, ?_, ?_⟩
  · intro ty
    refine call_eq_ok_iff_clean.trans (and_congr_right' (and_congr_right' ?_))
    refine forall₅_congr fun i p e slot given => ?_
    exact (Inference.passes_iff_faults (explained e (List.mem_of_getElem? given))).symm
  · intro window
    obtain ⟨blocks, flat, count, own⟩ := faults_call (l := l) window
    refine ⟨blocks, flat, count, ?_⟩
    intro i p e slot given
    exact ⟨_, own i p e slot given, Inference.objects_faults⟩
  · intro other table after decl declared
    obtain ⟨symbol, -⟩ := SymbolTable.declareFunction_eq_ok_iff.mp declared
    have trailing := FunctionDecl.trailing_params_of_symbol symbol
    refine ⟨?_, fun count window i p => lt_of_required trailing window⟩
    intro ty accepted i p slot left
    obtain ⟨-, window, -⟩ := call_eq_ok_iff_clean.mp accepted
    apply Bool.of_not_eq_false
    intro required
    have early := lt_of_required trailing window slot required
    omega

end FunctionSymbol

/-- The declaration of the installer, with an optional parameter at its end. -/
def FunctionDecl.installer : FunctionDecl :=
  ((((FunctionDecl.ofName "install").withParam
    (.ofName "handler" (.ofCallback [.ofName "byte", .ofName "byte"] (some (.ofName "boolean"))))).withParam
      (.ofName "delay" (.ofName "word"))).withParam
        (Parameter.ofName "priority" (.ofName "byte")).markOptional).returning (.ofName "byte")

/-- A call without a priority, and one whose arguments are faulted for three different reasons. -/
theorem FunctionSymbol.installer_calls_checked :
    let names := SymbolTable.installing.names
    let infer := Expr.infer .lenient
    let call := fun args => installer.call .lenient names (Inference.arguments infer names args) .unknown
    let objects := Inference.Objects infer .lenient names "install"
    (∃ after, SymbolTable.empty.declareFunction {} .installer = .ok installer after) ∧
    call [.ofName "tick", .ofInt 7] = .ok .byte ∧
    (∀ (i : Nat) p, installer.params[i]? = some p → 2 ≤ i → p.optional = true) ∧
    ∃ first second third,
      Outcome.faults (call [.ofName "install", .ofBool true, .ofName "urgent"]) =
        first ++ second ++ third ∧
      objects 1 VariableSymbol.tickSlot.ty (.ofName "install") first ∧
      objects 2 .word (.ofBool true) second ∧ objects 3 .byte (.ofName "urgent") third := by
  intro names infer call objects
  have explained : ∀ args : List Expr, ∀ e ∈ args, Outcome.Explained (infer names e) :=
    fun _ e _ => e.infer_explained .lenient names
  have declared : SymbolTable.empty.declareFunction {} .installer = .ok installer _ := rfl
  obtain ⟨accepts, -, left⟩ := direct_calls_checked .lenient .installing infer installer
    [.ofName "tick", .ofInt 7] .unknown (explained _)
  obtain ⟨-, faulted, -⟩ := direct_calls_checked .lenient .installing infer installer
    [.ofName "install", .ofBool true, .ofName "urgent"] .unknown (explained _)
  have tick : names "tick" = some (.function .tickHandler) := by
    apply (Action.runAll_later _ .empty).wellFormed.names_eq_some_iff.mpr
    refine .outside rfl ?_ rfl (.here rfl (by exact .tail _ (.head _)) rfl)
    intro y own
    rw [List.mem_singleton.mp own]
    decide
  have accepted : call [.ofName "tick", .ofInt 7] = .ok .byte := by
    refine (accepts .byte).mpr ⟨rfl, ⟨by decide, by decide⟩, ?_⟩
    rintro (_ | _ | i) p e slot given
    · cases slot
      cases given
      exact @Inference.Passes.reference _ _ _ _ _ ⟨[.byte, .byte], .boolean⟩ tick rfl rfl
    · cases slot
      cases given
      exact .value nofun rfl rfl
    · cases given
  have optional := (left {} .empty _ .installer declared).1 _ accepted
  refine ⟨⟨_, declared⟩, accepted, optional, ?_⟩
  obtain ⟨blocks, flat, count, each⟩ := faulted ⟨by decide, by decide⟩
  obtain ⟨first, at0, own0⟩ := each 0 _ _ rfl rfl
  obtain ⟨second, at1, own1⟩ := each 1 _ _ rfl rfl
  obtain ⟨third, at2, own2⟩ := each 2 _ _ rfl rfl
  refine ⟨first, second, third, ?_, own0, own1, own2⟩
  rw [flat]
  match blocks, count with
  | [a, b, c], _ =>
      cases at0
      cases at1
      cases at2
      simp

end SemanticCheck
