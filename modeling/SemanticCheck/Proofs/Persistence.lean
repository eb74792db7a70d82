import SemanticCheck.Proofs.SymbolTable

/-!
Scopes stay. Whatever is done to a table, the scopes it had keep their number, kind and parent, and
their symbols and children only grow at the end.
-/
namespace SemanticCheck

/-- The second scope is the first one, perhaps with more symbols and children. -/
structure Scope.Grows (s after : Scope) : Prop where
  id_eq : after.id = s.id
  kind_eq : after.kind = s.kind
  parent_eq : after.parent = s.parent
  children : s.children <+: after.children
  symbols : s.symbols <+: after.symbols

namespace Scope.Grows

theorem refl (s : Scope) : s.Grows s := ⟨rfl, rfl, rfl, List.prefix_rfl, List.prefix_rfl⟩

theorem trans {s middle after : Scope} (h : s.Grows middle) (k : middle.Grows after) : s.Grows after :=
  ⟨k.id_eq.trans h.id_eq, k.kind_eq.trans h.kind_eq, k.parent_eq.trans h.parent_eq,
    h.children.trans k.children, h.symbols.trans k.symbols⟩

theorem addChild (s : Scope) (child : ScopeId) : s.Grows (s.addChild child) :=
  ⟨rfl, rfl, rfl, List.prefix_append _ _, List.prefix_rfl⟩

theorem insert (s : Scope) (x : Symbol) : s.Grows (s.insert x) :=
  ⟨rfl, rfl, rfl, List.prefix_rfl, List.prefix_append _ _⟩

end Scope.Grows

/-- Every scope of the first table is still there in the second. -/
def SymbolTable.Extends (t after : SymbolTable) : Prop :=
  ∀ i s, t.scope? i = some s → ∃ s', after.scope? i = some s' ∧ s.Grows s'

namespace SymbolTable.Extends

variable {t middle after : SymbolTable}

theorem refl (t : SymbolTable) : t.Extends t := fun _ s found => ⟨s, found, .refl s⟩

theorem trans (h : t.Extends middle) (k : middle.Extends after) : t.Extends after := by
  intro i s found
  obtain ⟨s', found', grows⟩ := h i s found
  obtain ⟨s'', found'', more⟩ := k i s' found'
  exact ⟨s'', found'', grows.trans more⟩

theorem setCurrent (t : SymbolTable) (p : ScopeId) : t.Extends { t with current := p } :=
  fun _ s found => ⟨s, found, .refl s⟩

theorem push (t : SymbolTable) (kind : ScopeKind) (lt : t.current < t.scopes.length) :
    t.Extends (t.push kind) := by
  intro i s found
  have old : i ≠ t.scopes.length := Nat.ne_of_lt (scope?_lt found)
  by_cases top : i = t.current
  · subst top
    refine ⟨s.addChild t.scopes.length, ?_, .addChild s _⟩
    rw [scope?_push_current t kind lt, found]
    rfl
  · exact ⟨s, (scope?_push_of_ne t kind old top).trans found, .refl s⟩

theorem add (t : SymbolTable) (x : Symbol) : t.Extends (t.add x) := by
  intro i s found
  by_cases top : i = t.current
  · subst top
    refine ⟨s.insert x, ?_, .insert s x⟩
    rw [scope?_add_current, found]
    rfl
  · exact ⟨s, (scope?_add_of_ne t x top).trans found, .refl s⟩

theorem parent? (h : t.Extends after) {i p : ScopeId} (hp : t.parent? i = some p) :
    after.parent? i = some p := by
  obtain ⟨s, found, named⟩ := Option.bind_eq_some_iff.mp hp
  obtain ⟨s', found', grows⟩ := h i s found
  rw [SymbolTable.parent?, found', ← named]
  exact grows.parent_eq

end SymbolTable.Extends

end SemanticCheck
