import SemanticCheck.Proofs.History

/-!
Tables built by any history at all. A call may fail: a symbol or a declaration may be refused, and scopes
may be closed in the wrong order. Whatever happens, all views of the table agree.
-/
namespace SemanticCheck

namespace SymbolTable

/-- The views of a table agree: numbers with positions, parents with children, names with symbols,
symbols with the scopes that hold them. -/
structure Coherent (t : SymbolTable) : Prop where
  id_eq : ∀ i s, t.scope? i = some s → s.id = i
  root : ∃ s, t.scope? 0 = some s ∧ s.parent = none
  parent_lt : ∀ i s, t.scope? i = some s → i ≠ 0 → ∃ p, s.parent = some p ∧ p < i
  mem_children : ∀ p s, t.scope? p = some s →
    ∀ j, j ∈ s.children ↔ ∃ c, t.scope? j = some c ∧ c.parent = some p
  children_sorted : ∀ i s, t.scope? i = some s → s.children.Pairwise (· < ·)
  current_lt : t.current < t.scopes.length
  names_nodup : ∀ i s, t.scope? i = some s → (s.symbols.map Symbol.name).Nodup
  lookup_some : ∀ i s, t.scope? i = some s →
    ∀ name x, s.lookup name = some x ↔ x ∈ s.symbols ∧ x.name = name
  lookup_none : ∀ i s, t.scope? i = some s →
    ∀ name, s.lookup name = none ↔ ∀ x ∈ s.symbols, x.name ≠ name
  owned : ∀ i s, t.scope? i = some s → ∀ x ∈ s.symbols, x.scope = s.id

theorem WellFormed.coherent {t : SymbolTable} (h : t.WellFormed) : t.Coherent where
  id_eq _ _ found := (h.formed found).id_eq
  root := by
    have pos : 0 < t.scopes.length := Nat.lt_of_le_of_lt (Nat.zero_le _) h.current_lt
    have found : t.scope? 0 = some t.scopes[0] := List.getElem?_eq_getElem pos
    exact ⟨t.scopes[0], found, (h.formed found).root_parent rfl⟩
  parent_lt i s found other := (h.formed found).parent_lt (Nat.pos_of_ne_zero other)
  mem_children p s found j := by
    rw [h.mem_children found j, parent?, Option.bind_eq_some_iff]
  children_sorted _ _ found := (h.formed found).children_sorted
  current_lt := h.current_lt
  names_nodup _ _ found := (h.formed found).indexed.nodup_names
  lookup_some _ _ found _ _ := (h.formed found).indexed.lookup_eq_some_iff
  lookup_none _ _ found _ := (h.formed found).indexed.lookup_eq_none_iff
  owned i s found x member := by
    rw [(h.formed found).id_eq]
    exact (h.formed found).owned x member

end SymbolTable

/-- Every table that a history can build from the empty one is coherent. -/
theorem Action.coherent_runAll (actions : List Action) : (runAll actions .empty).Coherent :=
  (runAll_later actions .empty).wellFormed.coherent

end SemanticCheck
