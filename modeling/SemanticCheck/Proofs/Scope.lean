import SemanticCheck.Scope

/-!
Scopes and their index. The index of a scope agrees with its symbols: it leads to a place exactly
when a symbol of the name stands there. Lookup then finds the symbol of a name whenever there is
one, and no two symbols share a name.
-/
namespace SemanticCheck.Scope

variable {s : Scope} {x : Symbol} {name : String}

/-- The index leads to exactly the places where symbols of a name stand. -/
def Indexed (s : Scope) : Prop :=
  ∀ name place, s.index.lookup name = some place ↔
    ∃ x, s.symbols[place]? = some x ∧ x.name = name

theorem Indexed.addChild (h : s.Indexed) (child : ScopeId) : (s.addChild child).Indexed := h

theorem Indexed.of_empty (hs : s.symbols = []) (hi : s.index = []) : s.Indexed := by
  intro name place
  simp [hs, hi]

theorem Indexed.lookup_eq_some_iff (h : s.Indexed) :
    s.lookup name = some x ↔ x ∈ s.symbols ∧ x.name = name := by
  constructor
  · intro found
    obtain ⟨place, hp, hx⟩ := Option.bind_eq_some_iff.mp found
    obtain ⟨y, hy, rfl⟩ := (h name place).mp hp
    have same : y = x := Option.some.inj (hy.symm.trans hx)
    exact ⟨List.mem_of_getElem? hx, congrArg Symbol.name same.symm⟩
  · rintro ⟨member, named⟩
    obtain ⟨place, hx⟩ := List.mem_iff_getElem?.mp member
    have hp := (h name place).mpr ⟨x, hx, named⟩
    exact Option.bind_eq_some_iff.mpr ⟨place, hp, hx⟩

theorem Indexed.lookup_eq_none_iff (h : s.Indexed) :
    s.lookup name = none ↔ ∀ x ∈ s.symbols, x.name ≠ name := by
  constructor
  · intro missing x member named
    have found := h.lookup_eq_some_iff.mpr ⟨member, named⟩
    rw [missing] at found
    cases found
  · intro free
    cases found : s.lookup name with
    | none => rfl
    | some x =>
        have hx := h.lookup_eq_some_iff.mp found
        exact absurd hx.2 (free x hx.1)

/-- Two places with one name would be the same entry of the index. -/
theorem Indexed.nodup_names (h : s.Indexed) : (s.symbols.map Symbol.name).Nodup := by
  rw [List.Nodup, List.pairwise_map, List.pairwise_iff_getElem]
  intro i j hi hj hlt same
  have first := (h s.symbols[j].name i).mpr ⟨s.symbols[i], List.getElem?_eq_getElem hi, same⟩
  have second := (h s.symbols[j].name j).mpr ⟨s.symbols[j], List.getElem?_eq_getElem hj, rfl⟩
  rw [first] at second
  exact Nat.ne_of_lt hlt (Option.some.inj second)

/-- A place after a declaration holds what it held before, or the new symbol behind all others. -/
theorem getElem?_symbols_insert {place : Nat} {y : Symbol} :
    (s.insert x).symbols[place]? = some y ↔
      s.symbols[place]? = some y ∨ place = s.symbols.length ∧ y = x := by
  change (s.symbols ++ [x])[place]? = some y ↔ _
  rcases Nat.lt_trichotomy place s.symbols.length with lt | rfl | gt
  · simp [List.getElem?_append_left lt, Nat.ne_of_lt lt]
  · simp [eq_comm]
  · simp [List.getElem?_eq_none (Nat.le_of_lt gt), Nat.ne_of_gt gt, Nat.sub_ne_zero_of_lt gt,
      List.getElem?_append_right (Nat.le_of_lt gt)]

theorem Indexed.insert (h : s.Indexed) (free : s.lookup x.name = none) : (s.insert x).Indexed := by
  intro name place
  have absent := h.lookup_eq_none_iff.mp free
  change List.lookup name ((x.name, s.symbols.length) :: s.index) = some place ↔ _
  rw [List.lookup_cons]
  by_cases same : name = x.name
  · -- the new entry answers, and no older symbol has the name
    subst same
    simp only [beq_self_eq_true, Option.some.injEq]
    constructor
    · rintro rfl
      exact ⟨x, getElem?_symbols_insert.mpr (.inr ⟨rfl, rfl⟩), rfl⟩
    · rintro ⟨y, hy, named⟩
      rcases getElem?_symbols_insert.mp hy with old | ⟨rfl, -⟩
      · exact absurd named (absent y (List.mem_of_getElem? old))
      · rfl
  · have other : (name == x.name) = false := beq_false_of_ne same
    simp only [other]
    rw [h name place]
    constructor
    · rintro ⟨y, hy, named⟩
      exact ⟨y, getElem?_symbols_insert.mpr (.inl hy), named⟩
    · rintro ⟨y, hy, named⟩
      rcases getElem?_symbols_insert.mp hy with old | ⟨-, rfl⟩
      · exact ⟨y, old, named⟩
      · exact absurd named.symm same

theorem Indexed.lookup_insert (h : s.Indexed) (free : s.lookup x.name = none) (name : String) :
    (s.insert x).lookup name = if x.name = name then some x else s.lookup name := by
  have hi := h.insert free
  by_cases same : x.name = name
  · rw [if_pos same]
    exact hi.lookup_eq_some_iff.mpr ⟨List.mem_append_right _ (List.mem_singleton_self x), same⟩
  · rw [if_neg same]
    cases found : s.lookup name with
    | none =>
        apply hi.lookup_eq_none_iff.mpr
        intro y member
        rcases List.mem_append.mp member with old | new
        · exact h.lookup_eq_none_iff.mp found y old
        · rw [List.mem_singleton.mp new]
          exact same
    | some y =>
        have hy := h.lookup_eq_some_iff.mp found
        exact hi.lookup_eq_some_iff.mpr ⟨List.mem_append_left _ hy.1, hy.2⟩

/-- Symbols that change, but neither their order nor what the index says, are found as they now are. -/
theorem lookup_of_map {s' : Scope} {f : Symbol → Symbol} (index : s'.index = s.index)
    (symbols : s'.symbols = s.symbols.map f) (name : String) :
    s'.lookup name = (s.lookup name).map f := by
  simp only [lookup, index, symbols, List.getElem?_map]
  cases s.index.lookup name <;> rfl

/-- What holds of the scope with number `i` by itself: its number, the direction of its parent link,
and that its children, its symbols and its index are in order. -/
structure Formed (s : Scope) (i : ScopeId) : Prop where
  id_eq : s.id = i
  root_parent : i = 0 → s.parent = none
  parent_lt : 0 < i → ∃ p, s.parent = some p ∧ p < i
  children_sorted : s.children.Pairwise (· < ·)
  indexed : s.Indexed
  owned : ∀ x ∈ s.symbols, x.scope = i

theorem Formed.root : Scope.root.Formed 0 where
  id_eq := rfl
  root_parent _ := rfl
  parent_lt pos := absurd pos (Nat.lt_irrefl 0)
  children_sorted := .nil
  indexed := .of_empty rfl rfl
  owned _ member := nomatch member

theorem Formed.addChild {i child : ScopeId} (h : s.Formed i) (later : ∀ c ∈ s.children, c < child) :
    (s.addChild child).Formed i where
  id_eq := h.id_eq
  root_parent := h.root_parent
  parent_lt := h.parent_lt
  children_sorted := by
    refine List.pairwise_append.mpr ⟨h.children_sorted, List.pairwise_singleton _ _, ?_⟩
    intro c member new hn
    rw [List.mem_singleton.mp hn]
    exact later c member
  indexed := h.indexed.addChild child
  owned := h.owned

theorem Formed.insert {i : ScopeId} (h : s.Formed i) (here : x.scope = i)
    (free : s.lookup x.name = none) : (s.insert x).Formed i where
  id_eq := h.id_eq
  root_parent := h.root_parent
  parent_lt := h.parent_lt
  children_sorted := h.children_sorted
  indexed := h.indexed.insert free
  owned := by
    intro y member
    rcases List.mem_append.mp member with old | new
    · exact h.owned y old
    · rw [List.mem_singleton.mp new]
      exact here

end SemanticCheck.Scope
