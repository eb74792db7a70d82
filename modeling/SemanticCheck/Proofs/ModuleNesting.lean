import SemanticCheck.Proofs.Lockstep
import SemanticCheck.Proofs.TopLevel

/-!
Programs in a module. The scope of the module stands where the global scope would stand, one level
deeper, and every scope has the next number. No rule reads these numbers, so the faults are the same and
the table is the same, but for the scope around it.
-/
namespace SemanticCheck

def VariableSymbol.shifted (v : VariableSymbol) : VariableSymbol := { v with scope := v.scope + 1 }

def FunctionSymbol.shifted (f : FunctionSymbol) : FunctionSymbol := { f with scope := f.scope + 1 }

def Symbol.shifted : Symbol → Symbol
  | .var v => .var v.shifted
  | .function f => .function f.shifted

/-- The scope with all scope numbers in it one higher. -/
def Scope.shifted (s : Scope) : Scope :=
  { s with
    id := s.id + 1
    parent := s.parent.map (· + 1)
    children := s.children.map (· + 1)
    symbols := s.symbols.map Symbol.shifted }

/-- The first scope becomes a module under the new root. -/
def Scope.nestedAt : Nat → Scope → Scope
  | 0, s => { s.shifted with kind := .module, parent := some 0 }
  | _ + 1, s => s.shifted

/-- The table inside a module: a root without symbols, and all scopes below it. -/
def SymbolTable.nested (t : SymbolTable) : SymbolTable where
  scopes := { Scope.root with children := [1] } :: t.scopes.mapIdx Scope.nestedAt
  current := t.current + 1

@[simp] theorem Symbol.unscoped_shifted (x : Symbol) : x.shifted.unscoped = x.unscoped := by
  cases x <;> rfl

@[simp] theorem Symbol.name_shifted (x : Symbol) : x.shifted.name = x.name := by
  cases x <;> rfl

theorem Symbol.eq_shifted {x y : Symbol} (same : y.unscoped = x.unscoped)
    (scope : y.scope = x.scope + 1) : y = x.shifted := by
  refine Symbol.eq_of_unscoped ?_ ?_
  · rw [same, x.unscoped_shifted]
  · cases x <;> exact scope

namespace Scope

theorem lookup_nestedAt (i : Nat) (s : Scope) (name : String) :
    (s.nestedAt i).lookup name = (s.lookup name).map Symbol.shifted := by
  cases i <;> refine lookup_of_map (s := s) ?_ ?_ name <;> rfl

theorem nestedAt_insert (i : Nat) (s : Scope) (x : Symbol) :
    (s.insert x).nestedAt i = (s.nestedAt i).insert x.shifted := by
  cases i <;> simp [nestedAt, shifted, insert]

theorem nestedAt_addChild (i : Nat) (s : Scope) (child : ScopeId) :
    (s.addChild child).nestedAt i = (s.nestedAt i).addChild (child + 1) := by
  cases i <;> simp [nestedAt, shifted, addChild]

end Scope

namespace SymbolTable

theorem nested_cons (root : Scope) (rest : List Scope) (i : ScopeId) :
    nested ⟨root :: rest, i⟩ =
      { scopes :=
          { id := 0, kind := .global, parent := none, children := [1] } ::
          { root.shifted with kind := .module, parent := some 0 } ::
          rest.map Scope.shifted
        current := i + 1 } := by
  have others : (rest.mapIdx fun i => Scope.nestedAt (i + 1)) = rest.map Scope.shifted :=
    mapIdx_const Scope.shifted rest
  rw [nested, List.mapIdx_cons, others]
  rfl

theorem scope?_nested_succ (t : SymbolTable) (i : ScopeId) :
    t.nested.scope? (i + 1) = (t.scope? i).map (Scope.nestedAt i) := by
  simp [nested, scope?]

/-- Around the module there is nothing to be found. -/
theorem lookupFrom_nested_zero (t : SymbolTable) (name : String) : t.nested.lookupFrom name 0 = none := by
  rw [lookupFrom]
  rfl

theorem lookupFrom_nested (t : SymbolTable) (name : String) (i : ScopeId) :
    t.nested.lookupFrom name (i + 1) = (t.lookupFrom name i).map Symbol.shifted := by
  induction i using Nat.strongRecOn with
  | ind i ih =>
      rw [lookupFrom, t.scope?_nested_succ, lookupFrom]
      cases t.scope? i with
      | none => rfl
      | some s =>
          simp only [Option.map_some, Scope.lookup_nestedAt]
          cases s.lookup name with
          | some x => rfl
          | none =>
              cases i with
              | zero =>
                  have outside : (if 0 < 0 + 1 then t.nested.lookupFrom name 0 else none) = none :=
                    t.lookupFrom_nested_zero name
                  simp only [Scope.nestedAt, Option.map_none, outside]
                  cases s.parent <;> rfl
              | succ i =>
                  simp only [Scope.nestedAt, Scope.shifted, Option.map_none]
                  cases s.parent with
                  | none => rfl
                  | some p =>
                      simp only [Option.map_some, Nat.add_lt_add_iff_right]
                      split
                      · next lt => exact ih p lt
                      · rfl

theorem names_nested (t : SymbolTable) : t.nested.names.unscoped = t.names.unscoped := by
  funext name
  have found : t.nested.names name = (t.names name).map Symbol.shifted := t.lookupFrom_nested name t.current
  simp only [Names.unscoped, found, Option.map_map]
  congr 1
  funext x
  exact x.unscoped_shifted

theorem top_nested (t : SymbolTable) :
    t.nested.top = ((t.scope? t.current).map (Scope.nestedAt t.current)).getD .root := by
  rw [top, ← t.scope?_nested_succ]
  rfl

theorem own_nested (t : SymbolTable) : t.nested.site.own.unscoped = t.site.own.unscoped := by
  funext name
  change (t.nested.top.lookup name).map Symbol.unscoped = (t.top.lookup name).map Symbol.unscoped
  rw [t.top_nested, top]
  cases t.scope? t.current with
  | none => rfl
  | some s =>
      simp only [Option.map_some, Option.getD_some, Scope.lookup_nestedAt, Option.map_map]
      congr 1
      funext x
      exact x.unscoped_shifted

/-- The second table is the first one inside a module. The scope that becomes the module is the global
one, so that it makes no difference to exports. -/
structure Nests (t t' : SymbolTable) : Prop where
  eq_nested : t' = t.nested
  global : (t.scope? 0).map Scope.kind = some .global

namespace Nests

variable {t t' after after' : SymbolTable}

theorem exportFaults_eq (h : t.Nests t') (decl : FunctionDecl) :
    decl.exportFaults t'.site.kind = decl.exportFaults t.site.kind := by
  rw [h.eq_nested]
  change decl.exportFaults t.nested.top.kind = decl.exportFaults t.top.kind
  rw [t.top_nested, top]
  cases found : t.scope? t.current with
  | none => rfl
  | some s =>
      by_cases first : t.current = 0
      · have global := h.global
        rw [← first, found] at global
        simp only [Option.map_some, Option.some.injEq] at global
        simp [first, global, Scope.nestedAt, FunctionDecl.exportFaults, ScopeKind.allowsExports]
      · obtain ⟨i, number⟩ := Nat.exists_eq_succ_of_ne_zero first
        rw [number]
        rfl

theorem add (h : t.Nests t') (x : Symbol) : (t.add x).Nests (t'.add x.shifted) := by
  obtain ⟨rfl, global⟩ := h
  have inserted : (t.scopes.modify t.current (·.insert x)).mapIdx Scope.nestedAt =
      (t.scopes.mapIdx Scope.nestedAt).modify t.current (·.insert x.shifted) :=
    mapIdx_modify (fun i s => s.nestedAt_insert i x) t.scopes t.current
  constructor
  · simp only [nested, SymbolTable.add, inserted, List.modify_succ_cons]
  · by_cases first : (0 : ScopeId) = t.current
    · rw [first, scope?_add_current, ← first, ← global]
      cases t.scope? 0 <;> rfl
    · rw [t.scope?_add_of_ne x first]
      exact global

/-- There is a scope, so the next number is not that of the first one. -/
theorem length_pos (h : t.Nests t') : ∃ n, t.scopes.length = n + 1 := by
  obtain ⟨s, found, -⟩ := Option.map_eq_some_iff.mp h.global
  exact Nat.exists_eq_succ_of_ne_zero (Nat.ne_of_gt (scope?_lt found))

theorem push (h : t.Nests t') (kind : ScopeKind) : (t.push kind).Nests (t'.push kind) := by
  obtain ⟨n, length⟩ := h.length_pos
  obtain ⟨rfl, global⟩ := h
  have opened : (t.scopes.modify t.current (·.addChild t.scopes.length)).mapIdx Scope.nestedAt =
      (t.scopes.mapIdx Scope.nestedAt).modify t.current (·.addChild (t.scopes.length + 1)) :=
    mapIdx_modify (fun i s => s.nestedAt_addChild i t.scopes.length) t.scopes t.current
  have fresh : (t.fresh kind).nestedAt t.scopes.length =
      { id := t.scopes.length + 1, kind, parent := some (t.current + 1) } := by
    rw [length]
    simp [Scope.nestedAt, Scope.shifted, SymbolTable.fresh, length]
  have scopes : (t.push kind).scopes.mapIdx Scope.nestedAt =
      (t.scopes.mapIdx Scope.nestedAt).modify t.current (·.addChild (t.scopes.length + 1)) ++
        [{ id := t.scopes.length + 1, kind, parent := some (t.current + 1) }] := by
    rw [← opened, ← fresh]
    simp [SymbolTable.push, SymbolTable.fresh, List.mapIdx_append]
  constructor
  · symm
    rw [nested, scopes]
    simp [nested, SymbolTable.push]
  · have old : (0 : ScopeId) ≠ t.scopes.length := length ▸ (Nat.succ_ne_zero n).symm
    by_cases first : (0 : ScopeId) = t.current
    · have lt : t.current < t.scopes.length := by
        rw [← first, length]
        exact Nat.succ_pos n
      rw [first, t.scope?_push_current kind lt, ← first, ← global]
      cases t.scope? 0 <;> rfl
    · rw [t.scope?_push_of_ne kind old first]
      exact global

/-- The scope that is closed is not the first one, so the module does not stand in the way. -/
theorem close (h : t.Nests t') (k : after.Nests after') {kind : ScopeKind} {outer : SymbolTable}
    (closed : after.close (t.push kind).current = .ok () outer) :
    ∃ outer', after'.close (t'.push kind).current = .ok () outer' ∧ outer.Nests outer' := by
  obtain ⟨n, length⟩ := h.length_pos
  obtain ⟨rfl, -⟩ := h
  obtain ⟨rfl, global⟩ := k
  obtain ⟨current, p, parent, rfl⟩ := close_eq_ok_iff.mp closed
  have current' : after.nested.current = (t.nested.push kind).current := by
    simp [nested, current]
  have parent' : after.nested.top.parent = some (p + 1) := by
    rw [top] at parent
    rw [after.top_nested, current, current_push, length]
    rw [current, current_push, length] at parent
    cases found : after.scope? (n + 1) with
    | none =>
        rw [found] at parent
        cases parent
    | some s =>
        rw [found] at parent
        exact congrArg (Option.map (· + 1)) parent
  refine ⟨{ after.nested with current := p + 1 }, ?_, rfl, global⟩
  exact close_eq_ok_iff.mpr ⟨current', p + 1, parent', rfl⟩

theorem names_eq (h : t.Nests t') : t'.names.unscoped = t.names.unscoped := by
  rw [h.eq_nested]
  exact t.names_nested

theorem own_eq (h : t.Nests t') : t'.site.own.unscoped = t.site.own.unscoped := by
  rw [h.eq_nested]
  exact t.own_nested

/-- Symbols of the two current scopes that say the same differ in their scope numbers by one. -/
theorem eq_shifted (h : t.Nests t') {x x' : Symbol} (admits : t.Admits x) (admits' : t'.Admits x')
    (same : x'.unscoped = x.unscoped) : x' = x.shifted := by
  refine Symbol.eq_shifted same ?_
  rw [admits.here, admits'.here, h.eq_nested]
  rfl

end Nests

end SymbolTable

section Rules

variable (settings : AnalysisSettings) {t t' : SymbolTable}

theorem VariableDecl.symbol_of_unscoped {site site' : Site} (decl : VariableDecl)
    (names : site'.names.unscoped = site.names.unscoped)
    (own : site'.own.unscoped = site.own.unscoped) :
    (decl.symbol settings (Expr.infer settings) site').map VariableSymbol.unscoped =
      (decl.symbol settings (Expr.infer settings) site).map VariableSymbol.unscoped := by
  rw [← symbol_unscoped, ← symbol_unscoped, Site.unscoped, Site.unscoped, names, own]
  rfl

theorem FunctionDecl.symbol_of_unscoped {site site' : Site} (decl : FunctionDecl)
    (names : site'.names.unscoped = site.names.unscoped)
    (own : site'.own.unscoped = site.own.unscoped)
    (exports : decl.exportFaults site'.kind = decl.exportFaults site.kind) :
    (decl.symbol settings site').map FunctionSymbol.unscoped =
      (decl.symbol settings site).map FunctionSymbol.unscoped := by
  rw [← symbol_unscoped, ← symbol_unscoped, Site.unscoped, Site.unscoped, names, own]
  simp only [symbol, exports]
  rfl

/-- The same items outside of a module and inside. -/
def nesting (settings : AnalysisSettings) : Variation where
  settings := settings
  other := settings
  nodes := .same
  param := id
  function := FunctionSymbol.shifted
  Tables := SymbolTable.Nests
  Followed _ := True
  Alike := Eq

variable {settings}

/-- Outcomes that only a part of their values tells apart, which does not matter. -/
theorem nesting_outcomes {α β : Type} {part : α → β} {Values : α → α → Prop} {o o' : Outcome α}
    (same : o'.map part = o.map part)
    (values : ∀ a a', o = .ok a → o' = .ok a' → part a' = part a → Values a a') :
    (nesting settings).Outcomes Values o o' := by
  cases o with
  | ok a =>
      cases o' with
      | error found' => cases same
      | ok a' =>
          refine ⟨?_, nofun⟩
          rintro _ ⟨⟩
          exact ⟨a', rfl, values a a' rfl rfl (Except.ok.inj same)⟩
  | error found =>
      cases o' with
      | ok a' => cases same
      | error found' =>
          refine ⟨nofun, ?_⟩
          rintro _ ⟨⟩ -
          exact ⟨found', rfl, (Except.error.inj same).symm⟩

theorem nesting_lockstep (settings : AnalysisSettings) : (nesting settings).Lockstep where
  followed_append _ := ⟨trivial, trivial⟩
  alike_nil := rfl
  alike_append := by
    rintro found _ more _ rfl rfl
    rfl
  result_eq _ := rfl
  params_eq f := (List.map_id f.params).symm
  push kind h := h.push kind
  close h k closed := h.close k closed
  assign := by
    intro t t' a h _
    have same : Inference.assign (Expr.infer settings) settings t.names a =
        Inference.assign (Expr.infer settings) settings t'.names a := by
      rw [← Inference.assign_unscoped, ← h.names_eq, Inference.assign_unscoped]
    exact congrArg Outcome.faults same
  infer := by
    intro t t' e h _
    change Outcome.faults (e.infer settings _) = Outcome.faults (e.infer settings _)
    rw [← Expr.infer_unscoped, ← h.names_eq, Expr.infer_unscoped]
  condition := by
    intro t t' e h _
    change e.conditionFaults settings _ = e.conditionFaults settings _
    rw [← Expr.conditionFaults_unscoped, ← h.names_eq, Expr.conditionFaults_unscoped]
  result := by
    intro t t' ty value l h _
    change returnFaults settings _ ty value l = returnFaults settings _ ty (value.map id) l
    rw [Option.map_id, ← returnFaults_unscoped, ← h.names_eq, returnFaults_unscoped]
    rfl
  var := by
    intro t t' decl h
    refine nesting_outcomes (decl.symbol_of_unscoped settings h.names_eq h.own_eq) ?_
    intro x x' declared declared' same
    have shifted := h.eq_shifted (VariableDecl.admits_symbol declared)
      (VariableDecl.admits_symbol declared') (congrArg Symbol.var same)
    rw [shifted]
    exact h.add _
  isFolded_eq := by
    intro t t' decl h
    change decl.isFolded _ = decl.isFolded _
    rw [← VariableDecl.isFolded_unscoped, h.names_eq, VariableDecl.isFolded_unscoped]
  signature := by
    intro t t' decl h
    refine nesting_outcomes
      (decl.symbol_of_unscoped settings h.names_eq h.own_eq (h.exportFaults_eq decl)) ?_
    intro f f' declared declared' same
    have shifted := h.eq_shifted (FunctionDecl.admits_symbol declared)
      (FunctionDecl.admits_symbol declared') (congrArg Symbol.function same)
    rw [shifted]
    exact ⟨Symbol.function.inj shifted, h.add _⟩
  duplicate := by
    intro t t' p h
    have same : t'.site.duplicateFaults ⟨p.name, p.location⟩ =
        t.site.duplicateFaults ⟨p.name, p.location⟩ := by
      rw [← Site.duplicateFaults_unscoped, Site.unscoped, h.own_eq, ← Site.duplicateFaults_unscoped t.site]
      rfl
    have added := h.add (.var (p.variableIn t.current))
    have shifted : (Symbol.var (p.variableIn t.current)).shifted = .var (p.variableIn t'.current) := by
      rw [h.eq_nested]
      rfl
    rw [shifted] at added
    exact .finish (Iff.of_eq (congrArg (· = []) same.symm)) (fun _ => same.symm) added

end Rules

namespace Program

/-- Items in a module have the faults they have without one. The table has all scopes under the next
number, with the global one as the module, below a root that has nothing else. -/
theorem analyze_in_module (settings : AnalysisSettings) (items : List Item) (name : Ident) :
    ∃ a b, Program.analyze settings { items } = .ok a ∧
      Program.analyze settings { module? := some name, items } = .ok b ∧ b.faults = a.faults ∧
      ∃ root rest, a.table = { scopes := root :: rest, current := 0 } ∧ root.kind = .global ∧
        b.table =
          { scopes :=
              { id := 0, kind := .global, parent := none, children := [1] } ::
              { root.shifted with kind := .module, parent := some 0 } ::
              rest.map Scope.shifted
            current := 0 } := by
  obtain ⟨⟨⟨scopes, current⟩, blocks, scope⟩, ran, -, leads⟩ :=
    Program.analyze_eq_ok settings { items }
  obtain ⟨_, passes, ⟨⟩, -⟩ := analyze_eq_ok_iff.mp ran
  have start : SymbolTable.empty.Nests (SymbolTable.empty.push .module) := ⟨rfl, rfl⟩
  obtain ⟨_, blocks', passes', ⟨rfl, global⟩, same⟩ :=
    analyzeItems_lockstep (nesting_lockstep settings) start passes (fun _ _ => trivial)
  have outside : current = 0 := leads.current_eq
  subst outside
  cases scopes with
  | nil => cases global
  | cons root rest =>
      have equal : blocks = blocks' := List.forall₂_eq_eq_eq ▸ same
      subst equal
      have unchanged : items.map (nesting settings).nodes.item = items := Rewriting.map_item_same items
      rw [SymbolTable.nested_cons, unchanged] at passes'
      exact ⟨_, ⟨_, blocks, some 1⟩, ran, analyze_eq_ok_iff.mpr ⟨_, passes', rfl, rfl⟩, rfl, root, rest,
        rfl, Option.some.inj global, rfl⟩

end Program

end SemanticCheck
