import SemanticCheck.Proofs.History

/-!
Declarations are all or nothing. A declaration collects the faults of all its checks before it touches
the table. If there is any, the table stays as it was; if there is none, registering the symbol cannot
fail any more, and the table gains this one symbol, which changes nothing but what its own name stands
for.
-/
namespace SemanticCheck

namespace SymbolTable

variable {t after : SymbolTable} {x : Symbol}

/-- The second table is the first with one more symbol, the last one of the current scope. -/
structure Gains (t : SymbolTable) (x : Symbol) (after : SymbolTable) : Prop where
  owned : x.scope = t.current
  current_eq : after.current = t.current
  length_eq : after.scopes.length = t.scopes.length
  others : ∀ i, i ≠ t.current → after.scope? i = t.scope? i
  appended : ∃ s, t.scope? t.current = some s ∧ after.scope? t.current = some { s with
    symbols := s.symbols ++ [x]
    index := (x.name, s.symbols.length) :: s.index }
  found : after.names x.name = some x
  unchanged : ∀ name i, name ≠ x.name → after.lookupFrom name i = t.lookupFrom name i

theorem WellFormed.names_add (h : t.WellFormed) (admits : t.Admits x) :
    (t.add x).names x.name = some x := by
  have own := (h.formed h.scope?_current).indexed.lookup_insert admits.free x.name
  rw [if_pos rfl] at own
  rw [names, current_add, lookupFrom]
  simp only [h.scope?_add, own]

/-- No other name stands for anything else than before, in whatever scope. -/
theorem WellFormed.lookupFrom_add (h : t.WellFormed) (admits : t.Admits x) {name : String}
    (other : name ≠ x.name) (i : ScopeId) : (t.add x).lookupFrom name i = t.lookupFrom name i := by
  have alike : ∀ j, ((t.add x).scope? j).map (fun s => (s.lookup name, s.parent)) =
      (t.scope? j).map fun s => ((s.lookup name).map id, s.parent) := by
    intro j
    simp only [Option.map_id_fun, id_eq]
    by_cases top : j = t.current
    · subst top
      have own := (h.formed h.scope?_current).indexed.lookup_insert admits.free name
      rw [if_neg other.symm] at own
      rw [h.scope?_add, h.scope?_current, Option.map_some, Option.map_some, own]
      rfl
    · rw [scope?_add_of_ne t x top]
  rw [lookupFrom_of_alike alike, Option.map_id_fun, id_eq]

theorem WellFormed.gains (h : t.WellFormed) (admits : t.Admits x) : t.Gains x (t.add x) where
  owned := admits.here
  current_eq := rfl
  length_eq := length_add t x
  others _ other := scope?_add_of_ne t x other
  appended := ⟨t.top, h.scope?_current, h.scope?_add x⟩
  found := h.names_add admits
  unchanged _ i other := h.lookupFrom_add admits other i

/-- How a declaration may end: its checks fail, and the table is left as it was, or the table gains the
symbol that is returned. -/
def AllOrNothing {α : Type} (t : SymbolTable) (symbol : α → Symbol) (checked : Outcome α)
    (ended : EStateM.Result (List Fault) SymbolTable α) : Prop :=
  (∀ faults left, ended = .error faults left → checked = .error faults ∧ left = t) ∧
    ∀ a after, ended = .ok a after → t.Gains (symbol a) after

/-- Checks that let only admissible symbols through make the declaration all or nothing. -/
theorem WellFormed.allOrNothing {α : Type} {symbol : α → Symbol} {checked : Outcome α}
    (h : t.WellFormed) (admits : ∀ a, checked = .ok a → t.Admits (symbol a)) :
    t.AllOrNothing symbol checked (t.receive symbol checked) := by
  constructor
  · intro faults left failed
    exact receive_eq_error_iff.mp failed
  · intro a after declared
    obtain ⟨passed, rfl⟩ := receive_eq_ok_iff.mp declared
    exact h.gains (admits a passed)

end SymbolTable

namespace Action

/-- Declarations of functions and variables are all or nothing on every table that a history built,
whatever types the initializer. The analysis goes on with the table that they leave. -/
theorem declarations_all_or_nothing (earlier : List Action) (settings : AnalysisSettings) :
    let t := runAll earlier .empty
    (∀ decl : FunctionDecl,
      t.AllOrNothing .function (decl.symbol settings t.site) (t.declareFunction settings decl) ∧
      ((Item.function decl).declare settings t).1 = .leftBy (t.declareFunction settings decl)) ∧
    (∀ (infer : Inference) (decl : VariableDecl),
      t.AllOrNothing .var (decl.symbol settings infer t.site)
        (t.declareVariable settings infer decl)) ∧
    ∀ decl : VariableDecl, (t.checkVariable settings decl).1 =
      .leftBy (t.declareVariable settings (Expr.infer settings) decl) := by
  intro t
  have h : t.WellFormed := (runAll_later earlier .empty).wellFormed
  refine ⟨fun decl => ⟨?_, ?_⟩, fun infer decl => ?_, fun decl => ?_⟩
  · rw [SymbolTable.declareFunction_eq]
    exact h.allOrNothing fun f => FunctionDecl.admits_symbol
  · rw [Item.declare]
    cases t.declareFunction settings decl <;> rfl
  · rw [SymbolTable.declareVariable_eq]
    exact h.allOrNothing fun v => VariableDecl.admits_symbol
  · rw [SymbolTable.checkVariable]
    cases t.declareVariable settings (Expr.infer settings) decl <;> rfl

/-- A word of a name that the module has already, and that a function in it can still take. -/
def wordN : VariableDecl := (VariableDecl.ofName "n" none).withValue (.ofInt 300)

theorem wordN_all_or_nothing :
    let outside := runAll declaring .empty
    let inside := runAll (declaring ++ [.call (.push .function)]) .empty
    let n : VariableSymbol := { name := "n", ty := .word, scope := 2 }
    (∃ faults, outside.declareVariable {} (Expr.infer {}) wordN = .error faults outside) ∧
    ∃ after, inside.declareVariable {} (Expr.infer {}) wordN = .ok n after ∧
      inside.Gains (.var n) after := by
  intro outside inside n
  obtain ⟨-, outer, -⟩ := declarations_all_or_nothing declaring {}
  obtain ⟨-, inner, -⟩ :=
    declarations_all_or_nothing (declaring ++ [.call (.push .function)]) {}
  have refused : outside.declareVariable {} (Expr.infer {}) wordN = .error _ _ := rfl
  have accepted : inside.declareVariable {} (Expr.infer {}) wordN = .ok n _ := rfl
  obtain ⟨-, kept⟩ := (outer (Expr.infer {}) wordN).1 _ _ refused
  exact ⟨⟨_, refused.trans (congrArg _ kept)⟩, _, accepted,
    (inner (Expr.infer {}) wordN).2 _ _ accepted⟩

end Action

end SemanticCheck
