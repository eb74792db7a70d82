import SemanticCheck.Proofs.SymbolTable

/-!
The nearest symbol of a name, as a rule and without the walk that finds it: a scope that declares the
name hides all scopes around it. In a well-formed table names stand for just these symbols.
-/
namespace SemanticCheck.SymbolTable

variable {t : SymbolTable} {name : String} {i : ScopeId} {x : Symbol}

/-- The symbol that a name stands for in a scope: one that the scope itself declares, or else the one
that the name stands for in the scope around it. -/
inductive NearestFrom (t : SymbolTable) (name : String) : ScopeId → Symbol → Prop
  | here {i : ScopeId} {s : Scope} {x : Symbol} : t.scope? i = some s →
      x ∈ s.symbols → x.name = name → NearestFrom t name i x
  | outside {i parent : ScopeId} {s : Scope} {x : Symbol} : t.scope? i = some s →
      (∀ y ∈ s.symbols, y.name ≠ name) → s.parent = some parent →
      NearestFrom t name parent x → NearestFrom t name i x

/-- The symbol that a name stands for in the current scope. -/
def Nearest (t : SymbolTable) (name : String) (x : Symbol) : Prop := t.NearestFrom name t.current x

theorem NearestFrom.name_eq (nearest : t.NearestFrom name i x) : x.name = name := by
  induction nearest with
  | here _ _ named => exact named
  | outside _ _ _ _ ih => exact ih

theorem WellFormed.lookupFrom_of_nearest (h : t.WellFormed) (nearest : t.NearestFrom name i x) :
    t.lookupFrom name i = some x := by
  induction nearest with
  | here found member named =>
      have known := (h.formed found).indexed.lookup_eq_some_iff.mpr ⟨member, named⟩
      rw [lookupFrom]
      simp only [found, known]
  | @outside i parent s x found free around _ ih =>
      have unknown := (h.formed found).indexed.lookup_eq_none_iff.mpr free
      have named : t.parent? i = some parent := by
        rw [SymbolTable.parent?, found]
        exact around
      rw [lookupFrom]
      simp only [found, unknown, around, if_pos (h.parent?_lt named).1]
      exact ih

theorem WellFormed.nearest_of_lookupFrom (h : t.WellFormed) (known : t.lookupFrom name i = some x) :
    t.NearestFrom name i x := by
  induction i using Nat.strongRecOn with
  | ind i ih =>
      rw [lookupFrom] at known
      split at known
      · cases known
      · next s found =>
          have indexed := (h.formed found).indexed
          split at known
          · next y own =>
              cases known
              obtain ⟨member, named⟩ := indexed.lookup_eq_some_iff.mp own
              exact .here found member named
          · next absent =>
              have free := indexed.lookup_eq_none_iff.mp absent
              split at known
              · next parent around =>
                  split at known
                  · next lower => exact .outside found free around (ih parent lower known)
                  · cases known
              · cases known

theorem WellFormed.names_eq_some_iff (h : t.WellFormed) :
    t.names name = some x ↔ t.Nearest name x :=
  ⟨h.nearest_of_lookupFrom, h.lookupFrom_of_nearest⟩

theorem WellFormed.names_eq_none_iff (h : t.WellFormed) :
    t.names name = none ↔ ∀ x, ¬ t.Nearest name x := by
  rw [Option.eq_none_iff_forall_ne_some]
  exact forall_congr' fun x => not_congr h.names_eq_some_iff

end SemanticCheck.SymbolTable
