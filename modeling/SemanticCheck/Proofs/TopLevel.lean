import SemanticCheck.Proofs.Passes

/-!
The scope of a program's items. Up to their order its symbols are determined by what its names stand
for, and in the finished table they are those that the two passes left there.
-/
namespace SemanticCheck

/-- The scope number is all that a symbol loses. -/
theorem Symbol.eq_of_unscoped {x y : Symbol} (same : x.unscoped = y.unscoped)
    (scope : x.scope = y.scope) : x = y := by
  cases x with
  | var v =>
      cases y with
      | function g => cases same
      | var w =>
          cases v
          cases w
          simp_all [Symbol.unscoped, VariableSymbol.unscoped, Symbol.scope]
  | function f =>
      cases y with
      | var w => cases same
      | function g =>
          cases f
          cases g
          simp_all [Symbol.unscoped, FunctionSymbol.unscoped, Symbol.scope]

namespace Scope

variable {s s' : Scope} {i : ScopeId}

theorem Formed.mem_of_frame {x : Symbol} (h : s.Formed i) (k : s'.Formed i) (same : s.frame = s'.frame)
    (member : x ∈ s.symbols) : x ∈ s'.symbols := by
  have found : s.lookup x.name = some x := h.indexed.lookup_eq_some_iff.mpr ⟨member, rfl⟩
  have frames : (s.lookup x.name).map Symbol.unscoped = (s'.lookup x.name).map Symbol.unscoped :=
    congrFun (congrArg Frame.names same) x.name
  rw [found, Option.map_some] at frames
  obtain ⟨y, hy, unscoped⟩ := Option.map_eq_some_iff.mp frames.symm
  have there := (k.indexed.lookup_eq_some_iff.mp hy).1
  have scopes : y.scope = x.scope := (k.owned y there).trans (h.owned x member).symm
  rw [← Symbol.eq_of_unscoped unscoped scopes]
  exact there

theorem Formed.nodup_symbols (h : s.Formed i) : s.symbols.Nodup := by
  refine List.Pairwise.of_map Symbol.name ?_ h.indexed.nodup_names
  intro x y different same
  exact different (congrArg Symbol.name same)

/-- Two scopes of one number in which names stand for the same have the same symbols. -/
theorem Formed.symbols_perm (h : s.Formed i) (k : s'.Formed i) (same : s.frame = s'.frame) :
    s.symbols.Perm s'.symbols := by
  rw [List.perm_ext_iff_of_nodup h.nodup_symbols k.nodup_symbols]
  intro x
  exact ⟨h.mem_of_frame k same, k.mem_of_frame h same.symm⟩

/-- A scope in which names stand for what they stood for has got no further symbol. -/
theorem Grows.symbols_eq (grows : s.Grows s') (h : s.Formed i) (k : s'.Formed i)
    (same : s'.frame = s.frame) : s'.symbols = s.symbols :=
  (grows.symbols.eq_of_length (h.symbols_perm k same.symm).length_eq).symm

end Scope

namespace SymbolTable

variable {t after : SymbolTable}

theorem WellFormed.top_formed (h : t.WellFormed) : t.top.Formed t.current := h.formed h.scope?_current

theorem WellFormed.frame_top (h : t.WellFormed) : t.top.frame = t.environment.top := by
  rw [h.environment_eq]
  rfl

theorem WellFormed.symbolsIn_current (h : t.WellFormed) : t.symbolsIn t.current = t.top.symbols := by
  rw [symbolsIn, h.scope?_current]

theorem top_push (t : SymbolTable) (kind : ScopeKind) : (t.push kind).top = t.fresh kind := by
  rw [top, current_push, scope?_push_length]
  rfl

theorem WellFormed.top_add (h : t.WellFormed) (x : Symbol) : (t.add x).top = t.top.insert x := by
  rw [top, current_add, h.scope?_add]
  rfl

theorem scopes_of_close {id : ScopeId} (closed : t.close id = .ok () after) :
    after.scopes = t.scopes := by
  obtain ⟨-, p, -, rfl⟩ := close_eq_ok_iff.mp closed
  rfl

/-- Tables that stand for the same environment have the same symbols in their current scopes. -/
theorem WellFormed.symbols_perm (h : t.WellFormed) (k : after.WellFormed)
    (current : t.current = after.current) (same : t.environment = after.environment) :
    t.top.symbols.Perm after.top.symbols := by
  have frames : t.top.frame = after.top.frame := by rw [h.frame_top, k.frame_top, same]
  exact h.top_formed.symbols_perm (current ▸ k.top_formed) frames

theorem Follows.leads {α : Type} {run : EStateM.Result ScopeError SymbolTable α} {a : α}
    {expected : Environment × α} (follows : t.Follows run expected) (ran : run = .ok a after) :
    t.Leads after expected.1 := by
  obtain ⟨reached, same, leads⟩ := follows
  rw [ran] at same
  cases same
  exact leads

/-- Steps that end in the environment they began in leave the symbols of the current scope alone. -/
theorem Leads.symbols_eq (h : t.WellFormed) (leads : t.Leads after t.environment) :
    after.top.symbols = t.top.symbols := by
  obtain ⟨s, found, grows⟩ := leads.persists _ _ h.scope?_current
  rw [← leads.current_eq, leads.wellFormed.scope?_current] at found
  cases found
  have frames : after.top.frame = t.top.frame := by
    rw [leads.wellFormed.frame_top, h.frame_top, leads.environment_eq]
  exact grows.symbols_eq h.top_formed (leads.current_eq ▸ leads.wellFormed.top_formed) frames

end SymbolTable

namespace Program

variable {settings : AnalysisSettings} {program : Program} {a : Analysis}

theorem scopes_of_leave {after outer : SymbolTable} (left : program.leave after = .ok () outer) :
    outer.scopes = after.scopes := by
  unfold leave at left
  cases named : program.module? with
  | none =>
      rw [named] at left
      cases left
      rfl
  | some name =>
      rw [named] at left
      exact SymbolTable.scopes_of_close left

theorem moduleScope_getD (program : Program) :
    program.moduleScope.getD 0 = program.topTable.current := by
  unfold moduleScope topTable
  cases program.module? <;> rfl

/-- The finished table is that of the two passes, the faults are those of the lexical checker, and the
symbols of the top-level scope are those of the scope that was current in the passes. -/
theorem analyze_top (ran : program.analyze settings = .ok a) :
    ∃ after, analyzeItems settings program.items program.topTable = .ok a.blocks after ∧
      program.topTable.Leads after
        (Environment.analyzeItems settings program.items program.topTable.environment).1 ∧
      a.blocks = (Environment.analyzeItems settings program.items program.topTable.environment).2 ∧
      a.table.scopes = after.scopes ∧ a.topLevelScope = after.current ∧
      a.table.symbolsIn a.topLevelScope = after.top.symbols := by
  obtain ⟨after, passes, left, scope⟩ := analyze_eq_ok_iff.mp ran
  obtain ⟨reached, same, leads⟩ :=
    analyzeItems_follows settings program.items program.topTable_wellFormed
  rw [passes] at same
  obtain ⟨blocks, rfl⟩ := EStateM.Result.ok.inj same
  have scopes := scopes_of_leave left
  have top : a.topLevelScope = after.current := by
    rw [Analysis.topLevelScope, scope, moduleScope_getD, leads.current_eq]
  refine ⟨after, passes, leads, blocks, scopes, top, ?_⟩
  rw [top, ← leads.wellFormed.symbolsIn_current]
  simp only [SymbolTable.symbolsIn, SymbolTable.scope?, scopes]

/-- Programs whose items are declared on the same table and end in the same environment have the same
symbols at the top level. -/
theorem symbols_perm_of_environment {other : Program} {b : Analysis}
    (ranA : program.analyze settings = .ok a) (ranB : other.analyze settings = .ok b)
    (start : program.topTable = other.topTable)
    (same : (Environment.analyzeItems settings program.items other.topTable.environment).1 =
      (Environment.analyzeItems settings other.items other.topTable.environment).1) :
    a.topLevelScope = b.topLevelScope ∧
      (a.table.symbolsIn a.topLevelScope).Perm (b.table.symbolsIn b.topLevelScope) := by
  obtain ⟨afterA, -, leadsA, -, -, topA, symbolsA⟩ := analyze_top ranA
  obtain ⟨afterB, -, leadsB, -, -, topB, symbolsB⟩ := analyze_top ranB
  rw [start] at leadsA
  have current : afterA.current = afterB.current := leadsA.current_eq.trans leadsB.current_eq.symm
  have environment : afterA.environment = afterB.environment :=
    leadsA.environment_eq.trans (same.trans leadsB.environment_eq.symm)
  refine ⟨topA.trans (current.trans topB.symm), ?_⟩
  rw [symbolsA, symbolsB]
  exact leadsA.wellFormed.symbols_perm leadsB.wellFormed current environment

end Program

end SemanticCheck
