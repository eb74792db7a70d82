import SemanticCheck.Proofs.Scope
import SemanticCheck.SymbolTable

/-!
The representation of symbol tables. Parent links, children, symbols, their index and the current
scope agree in every table that operations can build, in whatever order they come and whether or not
they succeed.
-/
namespace SemanticCheck.SymbolTable

variable {t after : SymbolTable} {kind : ScopeKind} {i : ScopeId} {s : Scope} {x : Symbol}

def fresh (t : SymbolTable) (kind : ScopeKind) : Scope :=
  { id := t.scopes.length, kind, parent := some t.current }

def add (t : SymbolTable) (x : Symbol) : SymbolTable :=
  { t with scopes := t.scopes.modify t.current (·.insert x) }

def parent? (t : SymbolTable) (i : ScopeId) : Option ScopeId := (t.scope? i).bind Scope.parent

/-- The table that a call leaves, whether or not it failed. -/
def leftBy {ε α : Type} : EStateM.Result ε SymbolTable α → SymbolTable
  | .ok _ after => after
  | .error _ after => after

/-- The answer of a call, with the table that a success leaves. -/
def answerOf {ε α : Type} : EStateM.Result ε SymbolTable α → Except ε (α × SymbolTable)
  | .ok a after => .ok (a, after)
  | .error e _ => .error e

/-- Every scope is formed for its number, children are the scopes that name a parent, and the
current scope exists. -/
structure WellFormed (t : SymbolTable) : Prop where
  current_lt : t.current < t.scopes.length
  formed : ∀ {i s}, t.scope? i = some s → s.Formed i
  mem_children : ∀ {p s}, t.scope? p = some s → ∀ j, j ∈ s.children ↔ t.parent? j = some p

theorem mapIdx_const (g : Scope → Scope) (scopes : List Scope) :
    (scopes.mapIdx fun _ => g) = scopes.map g :=
  List.mapIdx_eq_iff.mpr fun _ => List.getElem?_map

/-- Changing one scope before or after all are changed comes to the same. -/
theorem mapIdx_modify {g : Nat → Scope → Scope} {f f' : Scope → Scope}
    (same : ∀ i s, g i (f s) = f' (g i s)) (scopes : List Scope) (i : Nat) :
    (scopes.modify i f).mapIdx g = (scopes.mapIdx g).modify i f' := by
  apply List.ext_getElem?
  intro j
  simp only [List.getElem?_mapIdx, List.getElem?_modify]
  cases scopes[j]? with
  | none => rfl
  | some s => by_cases here : i = j <;> simp [here, same]

theorem map_modify {g f f' : Scope → Scope} (same : ∀ s, g (f s) = f' (g s)) (scopes : List Scope)
    (i : Nat) : (scopes.modify i f).map g = (scopes.map g).modify i f' := by
  rw [← mapIdx_const, ← mapIdx_const, mapIdx_modify fun _ => same]

/-- Tables whose scopes have the same parents, and under a name the same symbols but for some change,
find the same symbol of that name but for the change. -/
theorem lookupFrom_of_alike {name : String} {change : Symbol → Symbol}
    (alike : ∀ i, (after.scope? i).map (fun s => (s.lookup name, s.parent)) =
      (t.scope? i).map fun s => ((s.lookup name).map change, s.parent)) (i : ScopeId) :
    after.lookupFrom name i = (t.lookupFrom name i).map change := by
  induction i using Nat.strongRecOn with
  | ind i ih =>
      have here := alike i
      rw [lookupFrom, lookupFrom]
      cases found : t.scope? i with
      | none =>
          rw [found, Option.map_none, Option.map_eq_none_iff] at here
          rw [here]
          rfl
      | some s =>
          rw [found, Option.map_some, Option.map_eq_some_iff] at here
          obtain ⟨s', found', same⟩ := here
          obtain ⟨own, parent⟩ := Prod.mk.inj same
          simp only [found', own, parent]
          cases s.lookup name with
          | some x => rfl
          | none =>
              simp only [Option.map_none]
              cases s.parent with
              | none => rfl
              | some p =>
                  simp only
                  split
                  · next lt => exact ih p lt
                  · rfl

theorem scope?_lt (h : t.scope? i = some s) : i < t.scopes.length :=
  (List.getElem?_eq_some_iff.mp h).1

@[simp] theorem current_push (t : SymbolTable) (kind : ScopeKind) :
    (t.push kind).current = t.scopes.length := rfl

@[simp] theorem length_push (t : SymbolTable) (kind : ScopeKind) :
    (t.push kind).scopes.length = t.scopes.length + 1 := by
  simp [push]

@[simp] theorem current_add (t : SymbolTable) (x : Symbol) : (t.add x).current = t.current := rfl

@[simp] theorem length_add (t : SymbolTable) (x : Symbol) :
    (t.add x).scopes.length = t.scopes.length := by
  simp [add]

theorem scope?_push_length (t : SymbolTable) (kind : ScopeKind) :
    (t.push kind).scope? t.scopes.length = some (t.fresh kind) := by
  simp [push, scope?, fresh]

theorem scope?_push_current (t : SymbolTable) (kind : ScopeKind) (h : t.current < t.scopes.length) :
    (t.push kind).scope? t.current = (t.scope? t.current).map (·.addChild t.scopes.length) := by
  simp [push, scope?, List.getElem?_append_left, h]

theorem scope?_push_of_ne (t : SymbolTable) (kind : ScopeKind) (new : i ≠ t.scopes.length)
    (other : i ≠ t.current) : (t.push kind).scope? i = t.scope? i := by
  simp only [push, scope?]
  rcases Nat.lt_or_gt_of_ne new with lt | gt
  · rw [List.getElem?_append_left (by simpa using lt), List.getElem?_modify_ne _ _ (Ne.symm other)]
  · rw [List.getElem?_eq_none (by simpa using Nat.succ_le_of_lt gt),
      List.getElem?_eq_none (Nat.le_of_lt gt)]

/-- Every scope after opening one: the new one, the one around it, or one left as it was. -/
theorem scope?_push_cases (h : t.current < t.scopes.length) (found : (t.push kind).scope? i = some s) :
    (i = t.scopes.length ∧ s = t.fresh kind) ∨
    (i = t.current ∧ ∃ old, t.scope? i = some old ∧ s = old.addChild t.scopes.length) ∨
    (i ≠ t.scopes.length ∧ i ≠ t.current ∧ t.scope? i = some s) := by
  by_cases new : i = t.scopes.length
  · subst new
    rw [scope?_push_length] at found
    exact .inl ⟨rfl, (Option.some.inj found).symm⟩
  · by_cases top : i = t.current
    · subst top
      rw [scope?_push_current t kind h] at found
      obtain ⟨old, ho, rfl⟩ := Option.map_eq_some_iff.mp found
      exact .inr (.inl ⟨rfl, old, ho, rfl⟩)
    · rw [scope?_push_of_ne t kind new top] at found
      exact .inr (.inr ⟨new, top, found⟩)

theorem scope?_add_current (t : SymbolTable) (x : Symbol) :
    (t.add x).scope? t.current = (t.scope? t.current).map (·.insert x) := by
  simp [add, scope?]

theorem scope?_add_of_ne (t : SymbolTable) (x : Symbol) (other : i ≠ t.current) :
    (t.add x).scope? i = t.scope? i :=
  List.getElem?_modify_ne _ _ (Ne.symm other)

theorem scope?_add_cases (found : (t.add x).scope? i = some s) :
    (i = t.current ∧ ∃ old, t.scope? i = some old ∧ s = old.insert x) ∨
    (i ≠ t.current ∧ t.scope? i = some s) := by
  by_cases top : i = t.current
  · subst top
    rw [scope?_add_current] at found
    obtain ⟨old, ho, rfl⟩ := Option.map_eq_some_iff.mp found
    exact .inl ⟨rfl, old, ho, rfl⟩
  · rw [scope?_add_of_ne t x top] at found
    exact .inr ⟨top, found⟩

/-- A symbol of the extended table was there before, or is the new one of the current scope. -/
theorem mem_add_cases {y : Symbol} (found : (t.add x).scope? i = some s) (member : y ∈ s.symbols) :
    (∃ old, t.scope? i = some old ∧ old.kind = s.kind ∧ y ∈ old.symbols) ∨ i = t.current ∧ y = x := by
  obtain ⟨here, old, there, rfl⟩ | ⟨-, there⟩ := scope?_add_cases found
  · rcases List.mem_append.mp member with earlier | last
    · exact .inl ⟨old, there, rfl, earlier⟩
    · exact .inr ⟨here, List.mem_singleton.mp last⟩
  · exact .inl ⟨s, there, rfl, member⟩

/-- A run of two steps gets through exactly when both steps do. -/
theorem bind_eq_ok_iff {ε α β : Type} {x : TableM ε α} {f : α → TableM ε β} {b : β} :
    (x >>= f) t = .ok b after ↔ ∃ a middle, x t = .ok a middle ∧ f a middle = .ok b after := by
  simp only [bind, EStateM.bind]
  cases x t with
  | error e left => simp
  | ok a middle =>
      constructor
      · intro ran
        exact ⟨a, middle, rfl, ran⟩
      · rintro ⟨_, _, ⟨⟩, ran⟩
        exact ran

/-- A step whose answer is worked on. -/
theorem map_eq_ok_iff {ε α β : Type} {x : TableM ε α} {f : α → β} {b : β} :
    (x >>= fun a => pure (f a)) t = .ok b after ↔ ∃ a, x t = .ok a after ∧ b = f a := by
  rw [bind_eq_ok_iff]
  constructor
  · rintro ⟨a, _, ran, ⟨⟩⟩
    exact ⟨a, ran, rfl⟩
  · rintro ⟨a, ran, rfl⟩
    exact ⟨a, after, ran, rfl⟩

/-- Two steps whose answers are put together. -/
theorem map₂_eq_ok_iff {ε α β γ : Type} {x : TableM ε α} {y : TableM ε β} {f : α → β → γ} {c : γ} :
    (x >>= fun a => y >>= fun b => pure (f a b)) t = .ok c after ↔
      ∃ a b middle, x t = .ok a middle ∧ y middle = .ok b after ∧ c = f a b := by
  rw [bind_eq_ok_iff]
  constructor
  · rintro ⟨a, middle, first, ran⟩
    obtain ⟨b, second, rfl⟩ := map_eq_ok_iff.mp ran
    exact ⟨a, b, middle, first, second, rfl⟩
  · rintro ⟨a, b, middle, first, second, same⟩
    exact ⟨a, middle, first, map_eq_ok_iff.mpr ⟨b, second, same⟩⟩

/-- Steps that read the table get the one they run on. -/
theorem get_bind {ε α : Type} (steps : SymbolTable → TableM ε α) (t : SymbolTable) :
    (get >>= steps) t = steps t t := rfl

theorem pop_eq (t : SymbolTable) :
    t.pop = match t.top.parent with
      | some parent => .ok () { t with current := parent }
      | none => .error .closingGlobal t := by
  rw [pop, get_bind]
  cases t.top.parent <;> rfl

theorem pop_eq_ok_iff :
    t.pop = .ok () after ↔ ∃ p, t.top.parent = some p ∧ after = { t with current := p } := by
  rw [pop_eq]
  cases t.top.parent with
  | none => simp
  | some p => simp [eq_comm]

theorem pop_eq_error {e : ScopeError} (failed : t.pop = .error e after) : after = t := by
  rw [pop_eq] at failed
  cases parent : t.top.parent with
  | none => simp_all
  | some p => simp [parent] at failed

theorem close_eq (t : SymbolTable) (i : ScopeId) :
    t.close i = if t.current = i then t.pop else .error (.notCurrent i t.current) t := by
  by_cases top : t.current = i
  · rw [if_pos top]
    exact congrFun (if_pos top) t
  · rw [if_neg top]
    exact congrFun (if_neg top) t

theorem close_eq_ok_iff :
    t.close i = .ok () after ↔
      t.current = i ∧ ∃ p, t.top.parent = some p ∧ after = { t with current := p } := by
  rw [close_eq]
  by_cases top : t.current = i
  · rw [if_pos top, pop_eq_ok_iff, and_iff_right top]
  · simp [top]

/-- Steps in a scope of their own get through when they leave it current, to be closed. -/
theorem within_eq_ok_iff {α : Type} {a : α} {steps : TableM ScopeError α} :
    t.within kind steps = .ok a after ↔
      ∃ inner, steps (t.push kind) = .ok a inner ∧
        inner.close (t.push kind).current = .ok () after := by
  constructor
  · intro ran
    obtain ⟨_, _, ⟨⟩, ran⟩ := bind_eq_ok_iff.mp ran
    obtain ⟨_, _, ⟨⟩, ran⟩ := bind_eq_ok_iff.mp ran
    obtain ⟨_, inner, first, ran⟩ := bind_eq_ok_iff.mp ran
    obtain ⟨_, _, closed, ran⟩ := bind_eq_ok_iff.mp ran
    cases ran
    exact ⟨inner, first, closed⟩
  · rintro ⟨inner, first, closed⟩
    refine bind_eq_ok_iff.mpr ⟨_, _, rfl, bind_eq_ok_iff.mpr ⟨_, _, rfl, ?_⟩⟩
    exact bind_eq_ok_iff.mpr ⟨_, _, first, bind_eq_ok_iff.mpr ⟨_, _, closed, rfl⟩⟩

theorem declare_eq (t : SymbolTable) (x : Symbol) :
    t.declare x =
      if x.scope = t.current then
        match t.top.lookup x.name with
        | some y => .error ((Cause.duplicateSymbol x.name y.kind y.location).fault x.location) t
        | none => .ok () (t.add x)
      else .error ((Cause.foreignScope x.name x.scope t.current).fault x.location) t := by
  rw [declare, get_bind]
  by_cases here : x.scope = t.current
  · simp only [if_pos here]
    cases t.top.lookup x.name <;> rfl
  · simp only [if_neg here]
    rfl

theorem declare_eq_ok_iff :
    t.declare x = .ok () after ↔
      x.scope = t.current ∧ t.top.lookup x.name = none ∧ after = t.add x := by
  rw [declare_eq]
  by_cases here : x.scope = t.current
  · simp only [if_pos here]
    cases t.top.lookup x.name with
    | none => simp [eq_comm, here]
    | some y => simp
  · simp [here]

/-- A symbol that is refused leaves no trace. -/
theorem declare_eq_error {fault : Fault} (failed : t.declare x = .error fault after) : after = t := by
  rw [declare_eq] at failed
  split at failed
  · split at failed
    · cases failed
      rfl
    · cases failed
  · cases failed
    rfl

theorem parent?_push (t : SymbolTable) (kind : ScopeKind) (h : t.current < t.scopes.length)
    (i : ScopeId) :
    (t.push kind).parent? i = if i = t.scopes.length then some t.current else t.parent? i := by
  unfold parent?
  by_cases new : i = t.scopes.length
  · subst new
    rw [if_pos rfl, scope?_push_length]
    rfl
  · rw [if_neg new]
    by_cases top : i = t.current
    · subst top
      rw [scope?_push_current t kind h]
      cases t.scope? t.current <;> rfl
    · rw [scope?_push_of_ne t kind new top]

theorem parent?_add (t : SymbolTable) (x : Symbol) (i : ScopeId) :
    (t.add x).parent? i = t.parent? i := by
  unfold parent?
  by_cases top : i = t.current
  · subst top
    rw [scope?_add_current]
    cases t.scope? t.current <;> rfl
  · rw [scope?_add_of_ne t x top]

theorem WellFormed.scope?_current (h : t.WellFormed) : t.scope? t.current = some t.top := by
  have lt := h.current_lt
  have found : t.scope? t.current = some t.scopes[t.current] := List.getElem?_eq_getElem lt
  rw [top, found]
  rfl

/-- The current scope with the symbol that was added to it. -/
theorem WellFormed.scope?_add (h : t.WellFormed) (x : Symbol) :
    (t.add x).scope? t.current = some (t.top.insert x) := by
  rw [scope?_add_current, h.scope?_current]
  rfl

theorem WellFormed.parent?_lt (h : t.WellFormed) {p : ScopeId} (hp : t.parent? i = some p) :
    p < i ∧ i < t.scopes.length := by
  obtain ⟨s, found, named⟩ := Option.bind_eq_some_iff.mp hp
  refine ⟨?_, scope?_lt found⟩
  rcases Nat.eq_zero_or_pos i with root | pos
  · rw [(h.formed found).root_parent root] at named
    cases named
  · obtain ⟨q, hq, lt⟩ := (h.formed found).parent_lt pos
    rw [hq] at named
    cases named
    exact lt

theorem fresh_formed (t : SymbolTable) (kind : ScopeKind) (lt : t.current < t.scopes.length) :
    (t.fresh kind).Formed t.scopes.length where
  id_eq := rfl
  root_parent none := absurd (none ▸ lt) (Nat.not_lt_zero _)
  parent_lt _ := ⟨t.current, rfl, lt⟩
  children_sorted := .nil
  indexed := .of_empty rfl rfl
  owned _ member := nomatch member

theorem WellFormed.empty : SymbolTable.empty.WellFormed := by
  have only : ∀ {i s}, SymbolTable.empty.scope? i = some s → i = 0 ∧ s = .root := by
    intro i s found
    cases i with
    | zero => exact ⟨rfl, (Option.some.inj found).symm⟩
    | succ i => cases found
  refine ⟨Nat.zero_lt_one, ?_, ?_⟩
  · intro i s found
    obtain ⟨rfl, rfl⟩ := only found
    exact .root
  · intro p s found j
    obtain ⟨-, rfl⟩ := only found
    constructor
    · intro member
      cases member
    · intro named
      obtain ⟨c, hc, hp⟩ := Option.bind_eq_some_iff.mp named
      obtain ⟨-, rfl⟩ := only hc
      cases hp

theorem WellFormed.push (h : t.WellFormed) (kind : ScopeKind) : (t.push kind).WellFormed := by
  have lt := h.current_lt
  refine ⟨by simp, ?_, ?_⟩
  · intro i s found
    obtain ⟨rfl, rfl⟩ | ⟨-, old, ho, rfl⟩ | ⟨-, -, ho⟩ := scope?_push_cases lt found
    · exact fresh_formed t kind lt
    · apply (h.formed ho).addChild
      intro child member
      exact (h.parent?_lt ((h.mem_children ho child).mp member)).2
    · exact h.formed ho
  · intro p s found j
    rw [parent?_push t kind lt]
    obtain ⟨rfl, rfl⟩ | ⟨rfl, old, ho, rfl⟩ | ⟨-, other, ho⟩ := scope?_push_cases lt found
    · -- nothing has the new scope as parent yet
      constructor
      · intro member
        cases member
      · intro hp
        split at hp
        · exact absurd (Option.some.inj hp) (Nat.ne_of_lt lt)
        · have bounds := h.parent?_lt hp
          exact absurd (Nat.lt_trans bounds.1 bounds.2) (Nat.lt_irrefl _)
    · change j ∈ old.children ++ [t.scopes.length] ↔ _
      rw [List.mem_append, List.mem_singleton, h.mem_children ho]
      by_cases new : j = t.scopes.length
      · simp [new]
      · simp [new]
    · rw [h.mem_children ho]
      split
      · next new =>
          constructor
          · intro hp
            exact absurd new (Nat.ne_of_lt (h.parent?_lt hp).2)
          · intro same
            exact absurd (Option.some.inj same).symm other
      · exact Iff.rfl

theorem WellFormed.add (h : t.WellFormed) (here : x.scope = t.current)
    (free : t.top.lookup x.name = none) : (t.add x).WellFormed := by
  refine ⟨by simpa using h.current_lt, ?_, ?_⟩
  · intro i s found
    obtain ⟨rfl, old, ho, rfl⟩ | ⟨-, ho⟩ := scope?_add_cases found
    · rw [h.scope?_current] at ho
      cases ho
      exact (h.formed h.scope?_current).insert here free
    · exact h.formed ho
  · intro p s found j
    rw [parent?_add]
    obtain ⟨-, old, ho, rfl⟩ | ⟨-, ho⟩ := scope?_add_cases found
    · exact h.mem_children ho j
    · exact h.mem_children ho j

/-- Any parent can become the current scope. -/
theorem WellFormed.setCurrent (h : t.WellFormed) {p : ScopeId} (hp : t.parent? i = some p) :
    WellFormed { t with current := p } := by
  have bounds := h.parent?_lt hp
  exact { h with current_lt := Nat.lt_trans bounds.1 bounds.2 }

theorem WellFormed.parent?_current (h : t.WellFormed) : t.parent? t.current = t.top.parent := by
  rw [parent?, h.scope?_current]
  rfl

end SemanticCheck.SymbolTable
