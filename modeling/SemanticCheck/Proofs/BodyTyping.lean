import SemanticCheck.Proofs.Account
import SemanticCheck.Proofs.CallbackGate

/-!
Well-typed statements. The rules say which statements may follow one another in a function with a
given result, on a table that variable declarations extend and that blocks leave as it was. Checking
statements goes on after a fault and keeps the scopes it has closed; it finds nothing exactly when
the rules apply.
-/
namespace SemanticCheck

/-- What a slot can take: a function that is declared as a callback, if the slot accepts its
signature, or a value that is not the name of a function, if the slot accepts its type. -/
inductive Expr.Storable (settings : AnalysisSettings) (names : Names) : Ty → Expr → Prop
  | reference {i : Ident} {f : FunctionSymbol} {slot : Signature} :
      names i.name = some (.function f) → f.isCallback = true →
      slot.accepts settings.callbackWidening f.signature = true →
      Storable settings names slot.ty (.ident i)
  | value {slot source : Ty} {e : Expr} :
      (∀ i f, e = .ident i → names i.name ≠ some (.function f)) →
      e.infer settings names = .ok source → slot.accepts settings.callbackWidening source = true →
      Storable settings names slot e

mutual

/-- The statement may stand on the first table and leaves the second for what follows it. -/
inductive Stmt.Typed (settings : AnalysisSettings) (result : Ty) :
    SymbolTable → Stmt → SymbolTable → Prop
  | declare {t decl v next} : t.declareVariable settings (Expr.infer settings) decl = .ok v next →
      Stmt.Typed settings result t (.declare decl) next
  | assign {t a v} : t.names a.target.name = some (.var v) → v.isConst = false →
      a.value.Storable settings t.names v.ty → Stmt.Typed settings result t (.assign a) t
  | expr {t e ty} : e.infer settings t.names = .ok ty → Stmt.Typed settings result t (.expr e) t
  | retNothing {t l} : result = .void → Stmt.Typed settings result t (.ret none l) t
  | retValue {t e l} : result ≠ .void → e.Storable settings t.names result →
      Stmt.Typed settings result t (.ret (some e) l) t
  | branch {t condition yes l} : condition.infer settings t.names = .ok .boolean →
      Block.Typed settings result t yes → Stmt.Typed settings result t (.branch condition yes none l) t
  | branchElse {t condition yes no l} : condition.infer settings t.names = .ok .boolean →
      Block.Typed settings result t yes → Block.Typed settings result t no →
      Stmt.Typed settings result t (.branch condition yes (some no) l) t
  | loop {t condition body l} : condition.infer settings t.names = .ok .boolean →
      Block.Typed settings result t body → Stmt.Typed settings result t (.loop condition body l) t
  | block {t b} : Block.Typed settings result t b → Stmt.Typed settings result t (.block b) t

/-- The statements of a block stand in a scope of their own. -/
inductive Block.Typed (settings : AnalysisSettings) (result : Ty) : SymbolTable → Block → Prop
  | mk {t statements l inner} : Stmt.AllTyped settings result (t.push .block) statements inner →
      Block.Typed settings result t (.mk statements l)

inductive Stmt.AllTyped (settings : AnalysisSettings) (result : Ty) :
    SymbolTable → List Stmt → SymbolTable → Prop
  | nil {t} : Stmt.AllTyped settings result t [] t
  | cons {t s next rest after} : Stmt.Typed settings result t s next →
      Stmt.AllTyped settings result next rest after → Stmt.AllTyped settings result t (s :: rest) after

end

variable {settings : AnalysisSettings} {names : Names} {result : Ty}

theorem Names.reference?_eq_none_iff {e : Expr} :
    names.reference? e = none ↔ ∀ i f, e = .ident i → names i.name ≠ some (.function f) := by
  constructor
  · intro missing i f here stands
    have found := Names.reference?_eq_some_iff.mpr ⟨i, here, stands⟩
    rw [missing] at found
    cases found
  · intro free
    cases found : names.reference? e with
    | none => rfl
    | some f =>
        obtain ⟨i, here, stands⟩ := Names.reference?_eq_some_iff.mp found
        exact absurd stands (free i f here)

theorem Expr.storable_iff {slot : Ty} {e : Expr} {l : Location} :
    e.Storable settings names slot ↔
      Inference.store (Expr.infer settings) settings names slot e l = .ok () := by
  unfold Inference.store
  constructor
  · intro storable
    cases storable with
    | reference stands declared fits =>
        rw [Names.reference?_eq_some_iff.mpr ⟨_, rfl, stands⟩]
        exact FunctionSymbol.gate_eq_ok_iff.mpr ⟨declared, _, rfl, fits⟩
    | value free typed fits =>
        simp only [Names.reference?_eq_none_iff.mpr free, typed, if_pos fits]
  · intro stored
    split at stored
    · next f found =>
        obtain ⟨i, rfl, stands⟩ := Names.reference?_eq_some_iff.mp found
        obtain ⟨declared, signature, rfl, fits⟩ := FunctionSymbol.gate_eq_ok_iff.mp stored
        exact .reference stands declared fits
    · next free =>
        split at stored
        · cases stored
        · next source typed =>
            split at stored
            · next fits => exact .value (Names.reference?_eq_none_iff.mp free) typed fits
            · cases stored

theorem Expr.storable_iff_clean {slot : Ty} {e : Expr} {l : Location} :
    e.Storable settings names slot ↔
      Outcome.faults (Inference.store (Expr.infer settings) settings names slot e l) = [] := by
  rw [Expr.storable_iff (l := l)]
  constructor
  · intro stored
    rw [stored]
    rfl
  · intro clean
    obtain ⟨⟨⟩, stored⟩ := (Inference.store_explained settings names slot e l).eq_ok clean
    exact stored

theorem Expr.typed_iff_clean {e : Expr} :
    (∃ ty, e.infer settings names = .ok ty) ↔ Outcome.faults (e.infer settings names) = [] := by
  constructor
  · rintro ⟨ty, typed⟩
    rw [typed]
    rfl
  · exact (e.infer_explained settings names).eq_ok

theorem Assignment.storable_iff_clean {a : Assignment} :
    (∃ v, names a.target.name = some (.var v) ∧ v.isConst = false ∧
        a.value.Storable settings names v.ty) ↔
      Outcome.faults (Inference.assign (Expr.infer settings) settings names a) = [] := by
  unfold Inference.assign
  cases stands : names a.target.name with
  | none => simp [Outcome.refuse, Outcome.faults]
  | some x =>
      cases x with
      | function f => simp [Outcome.refuse, Outcome.faults]
      | var v =>
          simp only [Option.some.injEq, Symbol.var.injEq, exists_eq_left']
          cases constant : v.isConst with
          | true => simp [Outcome.refuse, Outcome.faults]
          | false => simp [Expr.storable_iff_clean (l := a.location)]

theorem Expr.boolean_iff_clean {e : Expr} :
    e.infer settings names = .ok .boolean ↔ e.conditionFaults settings names = [] := by
  unfold Expr.conditionFaults
  cases typed : e.infer settings names with
  | error found =>
      have some_fault := (e.infer_explained settings names).faults_ne_nil typed
      simp [some_fault]
  | ok ty => simp

theorem Ty.isVoid_iff {ty : Ty} : ty.isVoid = true ↔ ty = .void := by
  cases ty <;> simp [Ty.isVoid, Ty.primitive?, Ty.void]

theorem returnNothing_iff_clean {l : Location} :
    result = .void ↔ returnFaults settings names (some result) none l = [] := by
  rw [← Ty.isVoid_iff]
  simp [returnFaults]

theorem returnValue_iff_clean {e : Expr} {l : Location} :
    result ≠ .void ∧ e.Storable settings names result ↔
      returnFaults settings names (some result) (some e) l = [] := by
  rw [ne_eq, ← Ty.isVoid_iff, Expr.storable_iff_clean (l := l)]
  simp only [returnFaults]
  cases result.isVoid with
  | true => simp
  | false => simp

theorem SymbolTable.checkVariable_of_ok {t next : SymbolTable} {decl : VariableDecl}
    {v : VariableSymbol}
    (declared : t.declareVariable settings (Expr.infer settings) decl = .ok v next) :
    t.checkVariable settings decl = (next, []) := by
  rw [SymbolTable.checkVariable, declared]

theorem SymbolTable.declareVariable_of_check {t : SymbolTable} {decl : VariableDecl}
    (clean : (t.checkVariable settings decl).2 = []) :
    ∃ v next, t.declareVariable settings (Expr.infer settings) decl = .ok v next := by
  cases declared : t.declareVariable settings (Expr.infer settings) decl with
  | ok v next => exact ⟨v, next, rfl⟩
  | error found left =>
      have refused := (SymbolTable.declareVariable_eq_error_iff.mp declared).1
      have explained := decl.symbol_explained settings (Expr.infer settings) t.site
      rw [SymbolTable.checkVariable_of_error declared] at clean
      exact absurd clean (explained.faults_ne_nil refused)

mutual

/-- A block that is left has no part in the environment any more, so the table that the rules pass on and
the one that checking passes on stand for the same. -/
theorem Stmt.clean_of_typed :
    (s : Stmt) → {t next : SymbolTable} → t.WellFormed → s.Typed settings result t next →
      t.Leads next (s.checkIn settings (some result) t.environment).1 ∧
        (s.checkIn settings (some result) t.environment).2 = []
  | .declare decl, t, next, h, .declare declared => by
      obtain ⟨after, ran, leads⟩ := SymbolTable.checkVariable_follows h settings decl
      rw [SymbolTable.checkVariable_of_ok declared] at ran
      obtain ⟨clean, rfl⟩ := EStateM.Result.ok.inj ran
      exact ⟨leads, clean.symm⟩
  | .assign a, t, _, h, .assign stands free storable => by
      refine ⟨.refl h, ?_⟩
      simp only [Stmt.checkIn, t.names_environment, Inference.assign_unscoped]
      exact Assignment.storable_iff_clean.mp ⟨_, stands, free, storable⟩
  | .expr e, t, _, h, .expr typed => by
      refine ⟨.refl h, ?_⟩
      simp only [Stmt.checkIn, t.names_environment, Expr.infer_unscoped]
      exact Expr.typed_iff_clean.mp ⟨_, typed⟩
  | .ret none l, t, _, h, .retNothing void => by
      refine ⟨.refl h, ?_⟩
      simp only [Stmt.checkIn, t.names_environment, returnFaults_unscoped]
      exact returnNothing_iff_clean.mp void
  | .ret (some e) l, t, _, h, .retValue proper storable => by
      refine ⟨.refl h, ?_⟩
      simp only [Stmt.checkIn, t.names_environment, returnFaults_unscoped]
      exact returnValue_iff_clean.mp ⟨proper, storable⟩
  | .branch condition yes none l, t, _, h, .branch boolean typed => by
      refine ⟨.refl h, ?_⟩
      simp only [Stmt.checkIn, t.names_environment, Expr.conditionFaults_unscoped,
        Expr.boolean_iff_clean.mp boolean, Block.clean_of_typed yes h typed, List.append_nil]
  | .branch condition yes (some no) l, t, _, h, .branchElse boolean typedYes typedNo => by
      refine ⟨.refl h, ?_⟩
      simp only [Stmt.checkIn, t.names_environment, Expr.conditionFaults_unscoped,
        Expr.boolean_iff_clean.mp boolean, Block.clean_of_typed yes h typedYes,
        Block.clean_of_typed no h typedNo, List.append_nil]
  | .loop condition body l, t, _, h, .loop boolean typed => by
      refine ⟨.refl h, ?_⟩
      simp only [Stmt.checkIn, t.names_environment, Expr.conditionFaults_unscoped,
        Expr.boolean_iff_clean.mp boolean, Block.clean_of_typed body h typed, List.append_nil]
  | .block b, t, _, h, .block typed => ⟨.refl h, Block.clean_of_typed b h typed⟩

theorem Block.clean_of_typed :
    (b : Block) → {t : SymbolTable} → t.WellFormed → b.Typed settings result t →
      b.checkIn settings (some result) t.environment = []
  | .mk statements l, t, h, .mk typed => by
      have inner := (Stmt.clean_of_allTyped statements (h.push .block) typed).2
      rw [h.environment_push] at inner
      exact inner

theorem Stmt.clean_of_allTyped :
    (statements : List Stmt) → {t after : SymbolTable} → t.WellFormed →
      Stmt.AllTyped settings result t statements after →
      t.Leads after (Stmt.checkAllIn settings (some result) statements t.environment).1 ∧
        (Stmt.checkAllIn settings (some result) statements t.environment).2 = []
  | [], t, _, h, .nil => ⟨.refl h, rfl⟩
  | s :: rest, t, after, h, .cons typed others => by
      obtain ⟨leads, clean⟩ := Stmt.clean_of_typed s h typed
      obtain ⟨leadsRest, cleanRest⟩ := Stmt.clean_of_allTyped rest leads.wellFormed others
      rw [leads.environment_eq] at leadsRest cleanRest
      refine ⟨leads.trans leadsRest, ?_⟩
      simp only [Stmt.checkAllIn, clean, cleanRest, List.append_nil]

end

mutual

theorem Stmt.typed_of_clean :
    (s : Stmt) → {t : SymbolTable} → t.WellFormed →
      (s.checkIn settings (some result) t.environment).2 = [] → ∃ next, s.Typed settings result t next
  | .declare decl, t, h, clean => by
      obtain ⟨after, ran, -⟩ := SymbolTable.checkVariable_follows h settings decl
      have same := (EStateM.Result.ok.inj ran).1
      obtain ⟨v, next, declared⟩ := SymbolTable.declareVariable_of_check (same.trans clean)
      exact ⟨next, .declare declared⟩
  | .assign a, t, h, clean => by
      simp only [Stmt.checkIn, t.names_environment, Inference.assign_unscoped] at clean
      obtain ⟨v, stands, free, storable⟩ := Assignment.storable_iff_clean.mpr clean
      exact ⟨t, .assign stands free storable⟩
  | .expr e, t, h, clean => by
      simp only [Stmt.checkIn, t.names_environment, Expr.infer_unscoped] at clean
      obtain ⟨ty, typed⟩ := Expr.typed_iff_clean.mpr clean
      exact ⟨t, .expr typed⟩
  | .ret none l, t, h, clean => by
      simp only [Stmt.checkIn, t.names_environment, returnFaults_unscoped] at clean
      exact ⟨t, .retNothing (returnNothing_iff_clean.mpr clean)⟩
  | .ret (some e) l, t, h, clean => by
      simp only [Stmt.checkIn, t.names_environment, returnFaults_unscoped] at clean
      obtain ⟨proper, storable⟩ := returnValue_iff_clean.mpr clean
      exact ⟨t, .retValue proper storable⟩
  | .branch condition yes none l, t, h, clean => by
      simp only [Stmt.checkIn, t.names_environment, Expr.conditionFaults_unscoped,
        List.append_eq_nil_iff] at clean
      exact ⟨t, .branch (Expr.boolean_iff_clean.mpr clean.1) (Block.typed_of_clean yes h clean.2)⟩
  | .branch condition yes (some no) l, t, h, clean => by
      simp only [Stmt.checkIn, t.names_environment, Expr.conditionFaults_unscoped,
        List.append_eq_nil_iff] at clean
      exact ⟨t, .branchElse (Expr.boolean_iff_clean.mpr clean.1.1)
        (Block.typed_of_clean yes h clean.1.2) (Block.typed_of_clean no h clean.2)⟩
  | .loop condition body l, t, h, clean => by
      simp only [Stmt.checkIn, t.names_environment, Expr.conditionFaults_unscoped,
        List.append_eq_nil_iff] at clean
      exact ⟨t, .loop (Expr.boolean_iff_clean.mpr clean.1) (Block.typed_of_clean body h clean.2)⟩
  | .block b, t, h, clean => ⟨t, .block (Block.typed_of_clean b h clean)⟩

theorem Block.typed_of_clean :
    (b : Block) → {t : SymbolTable} → t.WellFormed →
      b.checkIn settings (some result) t.environment = [] → b.Typed settings result t
  | .mk statements l, t, h, clean => by
      rw [Block.checkIn, ← h.environment_push] at clean
      obtain ⟨inner, typed⟩ := Stmt.allTyped_of_clean statements (h.push .block) clean
      exact .mk typed

theorem Stmt.allTyped_of_clean :
    (statements : List Stmt) → {t : SymbolTable} → t.WellFormed →
      (Stmt.checkAllIn settings (some result) statements t.environment).2 = [] →
      ∃ after, Stmt.AllTyped settings result t statements after
  | [], t, h, _ => ⟨t, .nil⟩
  | s :: rest, t, h, clean => by
      obtain ⟨first, others⟩ := List.append_eq_nil_iff.mp clean
      obtain ⟨next, typed⟩ := Stmt.typed_of_clean s h first
      have leads := (Stmt.clean_of_typed s h typed).1
      rw [← leads.environment_eq] at others
      obtain ⟨after, typedRest⟩ := Stmt.allTyped_of_clean rest leads.wellFormed others
      exact ⟨after, .cons typed typedRest⟩

end

/-- Inside a function, checking statements gets through, and it finds nothing exactly when they are
well-typed. -/
theorem Stmt.checkAll_clean_iff_typed (settings : AnalysisSettings) (result : Ty) (t : SymbolTable)
    (h : t.WellFormed) (statements : List Stmt) :
    ∃ after found, Stmt.checkAll settings (some result) statements t = .ok found after ∧
      (found = [] ↔ ∃ reached, Stmt.AllTyped settings result t statements reached) := by
  obtain ⟨after, ran, -⟩ := Stmt.checkAll_follows settings (some result) statements h
  refine ⟨after, _, ran, ?_⟩
  constructor
  · exact Stmt.allTyped_of_clean statements h
  · rintro ⟨reached, typed⟩
    exact (Stmt.clean_of_allTyped statements h typed).2

/-- A word that hides a byte of the same name inside a loop, so that the byte can be returned. -/
def Stmt.hidingByte : List Stmt :=
  [.declare ((VariableDecl.ofName "n" none).withValue (.ofInt 1)),
   .repeatWhile (.ofBool true)
     [.declare ((VariableDecl.ofName "n" none).withValue (.ofInt 300)),
      .setVariable "n" (.ofInt 301)],
   .returnValue (some (.ofName "n"))]

theorem Stmt.hidingByte_typed :
    (SymbolTable.empty.push .function).WellFormed ∧
    ∃ after found,
      Stmt.checkAll {} (some .byte) hidingByte (SymbolTable.empty.push .function) = .ok found after ∧
      found = [] ∧
      ∃ reached, Stmt.AllTyped {} .byte (SymbolTable.empty.push .function) hidingByte reached := by
  have h := SymbolTable.WellFormed.empty.push .function
  obtain ⟨after, found, ran, typed⟩ := Stmt.checkAll_clean_iff_typed {} .byte _ h hidingByte
  obtain ⟨_, same, -⟩ := Stmt.checkAll_follows {} (some .byte) hidingByte h
  have clean : found = [] := by
    rw [ran] at same
    cases same
    rw [SymbolTable.WellFormed.empty.environment_push, SymbolTable.environment_empty]
    rfl
  exact ⟨h, after, found, ran, clean, typed.mp clean⟩

end SemanticCheck
