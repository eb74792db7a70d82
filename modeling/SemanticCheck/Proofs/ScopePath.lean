import SemanticCheck.Proofs.History
import SemanticCheck.Proofs.Nearest

/-!
Names are resolved along the path from a scope to the root. Following parents is a search that nothing
in its steps bounds. In a table that some history built it ends all the same, since every scope has one
path, and this path ends at the root. The answer is the symbol of the first scope on the path that
declares the name, and no scope further out has a say in it.
-/
namespace SemanticCheck

namespace SymbolTable

variable {t : SymbolTable} {name : String} {i : ScopeId} {s : Scope} {x : Symbol}
  {path : List ScopeId}

/-- The scopes from one outwards: each is followed by its parent, and the last one has none. -/
inductive Path (t : SymbolTable) : ScopeId → List ScopeId → Prop
  | root {i : ScopeId} {s : Scope} : t.scope? i = some s → s.parent = none → Path t i [i]
  | outside {i parent : ScopeId} {s : Scope} {rest : List ScopeId} : t.scope? i = some s →
      s.parent = some parent → Path t parent rest → Path t i (i :: rest)

/-- The scope has the symbol, under this name. -/
def Declares (t : SymbolTable) (name : String) (i : ScopeId) (x : Symbol) : Prop :=
  ∃ s, t.scope? i = some s ∧ x ∈ s.symbols ∧ x.name = name

/-- None of the scopes has a symbol of this name. -/
def Free (t : SymbolTable) (name : String) (path : List ScopeId) : Prop :=
  ∀ i ∈ path, ∀ x, ¬ t.Declares name i x

/-- The symbol is that of the first scope on the path that declares the name. -/
def FirstOn (t : SymbolTable) (name : String) (path : List ScopeId) (x : Symbol) : Prop :=
  ∃ inner i outer, path = inner ++ i :: outer ∧ t.Free name inner ∧ t.Declares name i x

theorem declares_iff (found : t.scope? i = some s) :
    t.Declares name i x ↔ x ∈ s.symbols ∧ x.name = name := by
  constructor
  · rintro ⟨other, again, declared⟩
    cases found.symm.trans again
    exact declared
  · intro declared
    exact ⟨s, found, declared⟩

theorem free_nil : t.Free name [] := List.forall_mem_nil _

theorem free_cons_iff : t.Free name (i :: path) ↔ (∀ x, ¬ t.Declares name i x) ∧ t.Free name path :=
  List.forall_mem_cons

theorem firstOn_cons_iff :
    t.FirstOn name (i :: path) x ↔
      t.Declares name i x ∨ (∀ y, ¬ t.Declares name i y) ∧ t.FirstOn name path x := by
  constructor
  · rintro ⟨inner, j, outer, split, free, declared⟩
    cases inner with
    | nil =>
        cases split
        exact .inl declared
    | cons k inner =>
        cases split
        obtain ⟨here, before⟩ := free_cons_iff.mp free
        exact .inr ⟨here, inner, j, outer, rfl, before, declared⟩
  · rintro (declared | ⟨here, inner, j, outer, rfl, before, declared⟩)
    · exact ⟨[], i, path, rfl, free_nil, declared⟩
    · exact ⟨i :: inner, j, outer, rfl, free_cons_iff.mpr ⟨here, before⟩, declared⟩

theorem not_firstOn_iff : (∀ x, ¬ t.FirstOn name path x) ↔ t.Free name path := by
  induction path with
  | nil =>
      refine iff_of_true ?_ free_nil
      rintro x ⟨inner, i, outer, split, -⟩
      cases inner <;> cases split
  | cons i path ih =>
      rw [free_cons_iff, ← ih]
      simp only [firstOn_cons_iff, not_or, not_and]
      constructor
      · intro none
        have here : ∀ x, ¬ t.Declares name i x := fun x => (none x).1
        exact ⟨here, fun x => (none x).2 here⟩
      · rintro ⟨here, further⟩ x
        exact ⟨here x, fun _ => further x⟩

theorem Path.unique {other : List ScopeId} (h : t.Path i path) (k : t.Path i other) : other = path := by
  induction h generalizing other with
  | root found last =>
      cases k with
      | root => rfl
      | outside again next =>
          cases found.symm.trans again
          cases last.symm.trans next
  | outside found next _ ih =>
      cases k with
      | root again last =>
          cases found.symm.trans again
          cases next.symm.trans last
      | outside again after rest =>
          cases found.symm.trans again
          cases next.symm.trans after
          rw [ih rest]

/-- Parents have lower numbers, so that going outwards comes to the root. -/
theorem WellFormed.exists_path (h : t.WellFormed) (found : t.scope? i = some s) :
    ∃ path, t.Path i path ∧ path.getLast? = some 0 := by
  induction i using Nat.strongRecOn generalizing s with
  | ind i ih =>
      rcases Nat.eq_zero_or_pos i with rfl | inside
      · exact ⟨[0], .root found ((h.formed found).root_parent rfl), rfl⟩
      · obtain ⟨parent, around, lower⟩ := (h.formed found).parent_lt inside
        have bound : parent < t.scopes.length := Nat.lt_trans lower (scope?_lt found)
        have there : t.scope? parent = some t.scopes[parent] := List.getElem?_eq_getElem bound
        obtain ⟨rest, path, last⟩ := ih parent lower there
        refine ⟨i :: rest, .outside found around path, ?_⟩
        rw [List.getLast?_cons, last]
        rfl

/-- What a name stands for in a scope is said by the scope itself, or else by the one around it. -/
theorem nearestFrom_iff (found : t.scope? i = some s) :
    t.NearestFrom name i x ↔ t.Declares name i x ∨
      (∀ y, ¬ t.Declares name i y) ∧ ∃ parent, s.parent = some parent ∧ t.NearestFrom name parent x := by
  simp only [declares_iff found, not_and]
  constructor
  · intro nearest
    cases nearest with
    | here again member named =>
        cases found.symm.trans again
        exact .inl ⟨member, named⟩
    | outside again absent around further =>
        cases found.symm.trans again
        exact .inr ⟨absent, _, around, further⟩
  · rintro (⟨member, named⟩ | ⟨absent, parent, around, further⟩)
    · exact .here found member named
    · exact .outside found absent around further

/-- The nearest symbol of a name is the first one on the path. -/
theorem Path.nearest_iff (h : t.Path i path) : t.NearestFrom name i x ↔ t.FirstOn name path x := by
  induction h with
  | root found last =>
      have nowhere : ¬ t.FirstOn name [] x := not_firstOn_iff.mpr free_nil x
      simp only [nearestFrom_iff found, firstOn_cons_iff, last, nowhere, reduceCtorEq, false_and,
        exists_false, and_false]
  | outside found next _ ih =>
      simp only [nearestFrom_iff found, firstOn_cons_iff, next, Option.some.injEq, exists_eq_left', ih]

theorem WellFormed.lookupFrom_eq_some_iff (h : t.WellFormed) (outwards : t.Path i path) :
    t.lookupFrom name i = some x ↔ t.FirstOn name path x := by
  rw [← outwards.nearest_iff]
  exact ⟨h.nearest_of_lookupFrom, h.lookupFrom_of_nearest⟩

theorem WellFormed.lookupFrom_eq_none_iff (h : t.WellFormed) (outwards : t.Path i path) :
    t.lookupFrom name i = none ↔ t.Free name path := by
  rw [Option.eq_none_iff_forall_ne_some, ← not_firstOn_iff]
  exact forall_congr' fun x => not_congr (h.lookupFrom_eq_some_iff outwards)

theorem lookupFrom_of_missing (missing : t.scope? i = none) : t.lookupFrom name i = none := by
  rw [lookupFrom, missing]

/-- A known name is that of the first symbol on the path. -/
theorem WellFormed.known_iff (h : t.WellFormed) :
    t.lookupFrom name i = some x ↔ ∃ path, t.Path i path ∧ t.FirstOn name path x := by
  constructor
  · intro known
    cases found : t.scope? i with
    | none => cases (lookupFrom_of_missing found).symm.trans known
    | some s =>
        obtain ⟨path, outwards, -⟩ := h.exists_path found
        exact ⟨path, outwards, (h.lookupFrom_eq_some_iff outwards).mp known⟩
  · rintro ⟨path, outwards, first⟩
    exact (h.lookupFrom_eq_some_iff outwards).mpr first

/-- A name is unknown where there is no path, or no scope on it that declares the name. -/
theorem WellFormed.unknown_iff (h : t.WellFormed) :
    t.lookupFrom name i = none ↔ t.scope? i = none ∨ ∃ path, t.Path i path ∧ t.Free name path := by
  constructor
  · intro unknown
    cases found : t.scope? i with
    | none => exact .inl rfl
    | some s =>
        obtain ⟨path, outwards, -⟩ := h.exists_path found
        exact .inr ⟨path, outwards, (h.lookupFrom_eq_none_iff outwards).mp unknown⟩
  · rintro (missing | ⟨path, outwards, free⟩)
    · exact lookupFrom_of_missing missing
    · exact (h.lookupFrom_eq_none_iff outwards).mpr free

/-- What a search for a name that starts in a scope answers. It goes on to the parent, whatever the
number of the parent is, as long as there is one and the name has not been found. -/
inductive Search (t : SymbolTable) (name : String) : ScopeId → Option Symbol → Prop
  | missing {i : ScopeId} : t.scope? i = none → Search t name i none
  | found {i : ScopeId} {s : Scope} {x : Symbol} : t.scope? i = some s →
      s.lookup name = some x → Search t name i (some x)
  | exhausted {i : ScopeId} {s : Scope} : t.scope? i = some s → s.lookup name = none →
      s.parent = none → Search t name i none
  | outwards {i parent : ScopeId} {s : Scope} {answer : Option Symbol} : t.scope? i = some s →
      s.lookup name = none → s.parent = some parent → Search t name parent answer →
      Search t name i answer

theorem Search.lookupFrom_eq (h : t.WellFormed) {answer : Option Symbol} (search : t.Search name i answer) :
    t.lookupFrom name i = answer := by
  induction search with
  | missing none => exact lookupFrom_of_missing none
  | found there own =>
      rw [lookupFrom]
      simp only [there, own]
  | exhausted there own last =>
      rw [lookupFrom]
      simp only [there, own, last]
  | @outwards i parent s answer there own around _ ih =>
      have named : t.parent? i = some parent := by
        rw [SymbolTable.parent?, there]
        exact around
      rw [lookupFrom]
      simp only [there, own, around, if_pos (h.parent?_lt named).1]
      exact ih

/-- A search along a path ends. -/
theorem Path.search (h : t.Path i path) (name : String) : ∃ answer, t.Search name i answer := by
  induction h with
  | @root i s found last =>
      cases own : s.lookup name with
      | some x => exact ⟨some x, .found found own⟩
      | none => exact ⟨none, .exhausted found own last⟩
  | @outside i parent s rest found next _ ih =>
      cases own : s.lookup name with
      | some x => exact ⟨some x, .found found own⟩
      | none =>
          obtain ⟨answer, further⟩ := ih
          exact ⟨answer, .outwards found own next further⟩

theorem WellFormed.search_iff (h : t.WellFormed) {answer : Option Symbol} :
    t.Search name i answer ↔ t.lookupFrom name i = answer := by
  refine ⟨Search.lookupFrom_eq h, ?_⟩
  rintro rfl
  have ends : ∃ answer, t.Search name i answer := by
    cases there : t.scope? i with
    | none => exact ⟨none, .missing there⟩
    | some s =>
        obtain ⟨path, outwards, -⟩ := h.exists_path there
        exact outwards.search name
  obtain ⟨answer, search⟩ := ends
  rw [search.lookupFrom_eq h]
  exact search

end SymbolTable

namespace Action

/-- Names are resolved lexically in every table that a history built. A search outwards ends from
whatever scope it starts, and a lookup gives its answer: the symbol of the first scope that declares the
name on the one path to the root, and nothing just when the scope does not exist or no scope on its path
declares the name. Lookups of functions and of variables yield what is first on the path of the current
scope if it is of their kind, and nothing otherwise: it hides whatever scopes further out declare. -/
theorem lookups_lexical (actions : List Action) (name : String) (i : ScopeId) :
    let t := runAll actions .empty
    (∀ answer, t.Search name i answer ↔ t.lookupFrom name i = answer) ∧
    ((∃ s, t.scope? i = some s) →
      ∃ path, t.Path i path ∧ path.getLast? = some 0 ∧ ∀ other, t.Path i other → other = path) ∧
    (∀ x, t.lookupFrom name i = some x ↔ ∃ path, t.Path i path ∧ t.FirstOn name path x) ∧
    (t.lookupFrom name i = none ↔
      t.scope? i = none ∨ ∃ path, t.Path i path ∧ t.Free name path) ∧
    t.names name = t.lookupFrom name t.current ∧
    ∃ path, t.Path t.current path ∧
      (t.Free name path → t.names.var? name = none ∧ t.names.function? name = none) ∧
      (∀ v, t.FirstOn name path (.var v) →
        t.names.var? name = some v ∧ t.names.function? name = none) ∧
      (∀ f, t.FirstOn name path (.function f) →
        t.names.function? name = some f ∧ t.names.var? name = none) := by
  intro t
  have h : t.WellFormed := (runAll_later actions .empty).wellFormed
  refine ⟨fun answer => h.search_iff, ?_, fun x => h.known_iff, h.unknown_iff, rfl, ?_⟩
  · rintro ⟨s, found⟩
    obtain ⟨path, outwards, last⟩ := h.exists_path found
    exact ⟨path, outwards, last, fun other => outwards.unique⟩
  · obtain ⟨path, outwards, -⟩ := h.exists_path h.scope?_current
    have kinds : ∀ x, t.FirstOn name path x →
        t.names.var? name = x.var? ∧ t.names.function? name = x.function? := by
      intro x first
      have known : t.names name = some x := (h.lookupFrom_eq_some_iff outwards).mpr first
      simp only [Names.var?, Names.function?, known, Option.bind_some, and_self]
    refine ⟨path, outwards, ?_, fun v => kinds (.var v), fun f first => (kinds (.function f) first).symm⟩
    intro free
    have unknown : t.names name = none := (h.lookupFrom_eq_none_iff outwards).mpr free
    simp only [Names.var?, Names.function?, unknown, Option.bind_none, and_self]

/-- A block in a function that has a variable of the name of the function around it. -/
def shadowing : List Action :=
  [.call (.declareFunction {} (FunctionDecl.ofName "tick")), .call (.push .function),
   .call (.declareVariable {} (Expr.infer {}) ((VariableDecl.ofName "tick" none).withValue (.ofInt 1))),
   .call (.push .block)]

theorem shadowing_lexical :
    let t := runAll shadowing .empty
    let f : FunctionSymbol := { name := "tick", result := .void, scope := 0 }
    let v : VariableSymbol := { name := "tick", ty := .byte, scope := 1 }
    t.Path t.current [2, 1, 0] ∧ t.FirstOn "tick" [2, 1, 0] (.var v) ∧ t.Declares "tick" 0 (.function f) ∧
      t.names.var? "tick" = some v ∧ t.names.function? "tick" = none ∧
      t.lookupFrom "tick" 0 = some (.function f) := by
  intro t f v
  have path : t.Path t.current [2, 1, 0] := .outside rfl rfl (.outside rfl rfl (.root rfl rfl))
  have outer : t.Declares "tick" 0 (.function f) := ⟨_, rfl, List.mem_cons_self, rfl⟩
  have first : t.FirstOn "tick" [2, 1, 0] (.var v) := by
    refine ⟨[2], 1, [0], rfl, SymbolTable.free_cons_iff.mpr ⟨?_, SymbolTable.free_nil⟩, _, rfl,
      List.mem_cons_self, rfl⟩
    rintro x ⟨s, found, member, -⟩
    cases found
    cases member
  obtain ⟨-, -, found, -, -, same, again, -, hides, -⟩ := lookups_lexical shadowing "tick" 0
  cases path.unique again
  have known := (found (.function f)).mpr ⟨[0], .root rfl rfl, [], 0, [], rfl, SymbolTable.free_nil, outer⟩
  exact ⟨path, first, outer, (hides v first).1, (hides v first).2, known⟩

end Action

end SemanticCheck
