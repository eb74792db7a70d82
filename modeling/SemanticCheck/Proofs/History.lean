import SemanticCheck.Proofs.Declaration
import SemanticCheck.Proofs.Persistence
import SemanticCheck.Tree.Shorthand

/-!
Histories of a table: calls in any order, among them declarations of functions and variables and runs
inside a scope, whether or not they succeed. A single call touches at most the current scope, so what
a table holds at some point, every later table holds as well, and a name that was found in a scope is
found there ever after.
-/
namespace SemanticCheck

/-- A single call that may change a table. -/
inductive Operation
  | push (kind : ScopeKind)
  | pop
  | close (id : ScopeId)
  | declare (symbol : Symbol)
  | declareFunction (settings : AnalysisSettings) (decl : FunctionDecl)
  | declareVariable (settings : AnalysisSettings) (infer : Inference) (decl : VariableDecl)

/-- The table that a call leaves, whether or not it failed. -/
def Operation.run (t : SymbolTable) : Operation → SymbolTable
  | .push kind => t.push kind
  | .pop => .leftBy t.pop
  | .close id => .leftBy (t.close id)
  | .declare symbol => .leftBy (t.declare symbol)
  | .declareFunction settings decl => .leftBy (t.declareFunction settings decl)
  | .declareVariable settings infer decl => .leftBy (t.declareVariable settings infer decl)

/-- A call, or a run of actions in a scope of its own. -/
inductive Action
  | call (operation : Operation)
  | within (kind : ScopeKind) (actions : List Action)

namespace Action

mutual

def run : Action → SymbolTable → SymbolTable
  | .call operation, t => operation.run t
  | .within kind actions, t => .leftBy (t.within kind (modify (runAll actions)))

def runAll : List Action → SymbolTable → SymbolTable
  | [], t => t
  | action :: rest, t => runAll rest (action.run t)

end

/-- A run in a scope of its own opens the scope, acts, and closes the scope again. When the scope cannot
be closed, what was done in it stays. -/
theorem run_within (kind : ScopeKind) (actions : List Action) (t : SymbolTable) :
    (Action.within kind actions).run t =
      (Operation.close t.scopes.length).run (runAll actions ((Operation.push kind).run t)) := by
  change SymbolTable.leftBy (EStateM.bind (SymbolTable.close t.scopes.length) (fun _ => pure ())
    (runAll actions (t.push kind))) = _
  simp only [Operation.run, EStateM.bind]
  cases (runAll actions (t.push kind)).close t.scopes.length <;> rfl

end Action

namespace SymbolTable

variable {t middle after : SymbolTable}

/-- All that a single call can do: nothing, open a scope, go back to the parent of the current scope, or
add a symbol that the current scope can take. -/
inductive Change (t : SymbolTable) : SymbolTable → Prop
  | nothing : Change t t
  | opened (kind : ScopeKind) : Change t (t.push kind)
  | left {parent : ScopeId} : t.parent? t.current = some parent →
      Change t { t with current := parent }
  | added {x : Symbol} : t.Admits x → Change t (t.add x)

/-- A declaration adds the symbol it introduces, or nothing. -/
theorem Change.of_received {α : Type} {checked : Outcome α} {symbol : α → Symbol}
    (admits : ∀ a, checked = .ok a → t.Admits (symbol a)) :
    t.Change (leftBy (t.receive symbol checked)) := by
  cases checked with
  | error faults => exact .nothing
  | ok a => exact .added (admits a rfl)

theorem WellFormed.change_of_pop (h : t.WellFormed) : t.Change (leftBy t.pop) := by
  cases closed : t.pop with
  | ok _ after =>
      obtain ⟨parent, named, rfl⟩ := pop_eq_ok_iff.mp closed
      exact .left (h.parent?_current.trans named)
  | error e after =>
      rw [leftBy, pop_eq_error closed]
      exact .nothing

theorem WellFormed.change_of_run (h : t.WellFormed) (operation : Operation) :
    t.Change (operation.run t) := by
  cases operation with
  | push kind => exact .opened kind
  | pop => exact h.change_of_pop
  | close id =>
      rw [Operation.run, close_eq]
      split
      · exact h.change_of_pop
      · exact .nothing
  | declare symbol =>
      rw [Operation.run]
      cases declared : t.declare symbol with
      | ok _ after =>
          obtain ⟨here, free, rfl⟩ := declare_eq_ok_iff.mp declared
          exact .added ⟨here, free⟩
      | error fault after =>
          rw [leftBy, declare_eq_error declared]
          exact .nothing
  | declareFunction settings decl =>
      rw [Operation.run, declareFunction_eq]
      exact .of_received fun f => FunctionDecl.admits_symbol
  | declareVariable settings infer decl =>
      rw [Operation.run, declareVariable_eq]
      exact .of_received fun v => VariableDecl.admits_symbol

/-- The second table differs from the first in the current scope at most. That scope may have got one
more symbol, or one more child, which is then the only scope that the first table does not have. -/
structure Touches (t after : SymbolTable) : Prop where
  others : ∀ i s, t.scope? i = some s → i ≠ t.current → after.scope? i = some s
  current : ∃ s s', t.scope? t.current = some s ∧ after.scope? t.current = some s' ∧
    ((after.scopes.length = t.scopes.length ∧
        (s' = s ∨ ∃ x index, s' = { s with symbols := s.symbols ++ [x], index })) ∨
      (after.scopes.length = t.scopes.length + 1 ∧
        ∃ new, after.scope? t.scopes.length = some new ∧ new.parent = some t.current ∧
          s' = { s with children := s.children ++ [t.scopes.length] }))

theorem Change.touches (h : t.WellFormed) (change : t.Change after) : t.Touches after := by
  have here := h.scope?_current
  cases change with
  | nothing | left _ =>
      refine ⟨?_, t.top, t.top, here, here, .inl ⟨rfl, .inl rfl⟩⟩
      intro i s found _
      exact found
  | opened kind =>
      refine ⟨?_, t.top, t.top.addChild t.scopes.length, here, ?_, .inr ⟨length_push t kind, ?_⟩⟩
      · intro i s found other
        rw [scope?_push_of_ne t kind (Nat.ne_of_lt (scope?_lt found)) other]
        exact found
      · rw [scope?_push_current t kind h.current_lt, here]
        rfl
      · exact ⟨t.fresh kind, scope?_push_length t kind, rfl, rfl⟩
  | @added x _ =>
      refine ⟨?_, t.top, t.top.insert x, here, ?_, .inl ⟨length_add t x, .inr ⟨x, _, rfl⟩⟩⟩
      · intro i s found other
        rw [scope?_add_of_ne t x other]
        exact found
      · exact h.scope?_add x

/-- The second table comes later than the first: it is well-formed, and all scopes are still there. -/
structure Later (t after : SymbolTable) : Prop where
  wellFormed : after.WellFormed
  persists : t.Extends after

theorem Later.refl (h : t.WellFormed) : t.Later t := ⟨h, .refl t⟩

theorem Later.trans (h : t.Later middle) (k : middle.Later after) : t.Later after :=
  ⟨k.wellFormed, h.persists.trans k.persists⟩

theorem Change.later (h : t.WellFormed) (change : t.Change after) : t.Later after := by
  cases change with
  | nothing => exact .refl h
  | opened kind => exact ⟨h.push kind, .push t kind h.current_lt⟩
  | left named => exact ⟨h.setCurrent named, .setCurrent t _⟩
  | added admits => exact ⟨h.add_of_admits admits, .add t _⟩

/-- A symbol that a scope has under some name stays the one that the scope has under it: symbols are
never removed, and names are not declared twice. -/
theorem Later.lookupIn (h : t.WellFormed) (later : t.Later after) {name : String} {i : ScopeId}
    {x : Symbol} (found : t.lookupIn name i = some x) : after.lookupIn name i = some x := by
  obtain ⟨s, old, known⟩ := Option.bind_eq_some_iff.mp found
  obtain ⟨member, named⟩ := (h.formed old).indexed.lookup_eq_some_iff.mp known
  obtain ⟨s', new, grows⟩ := later.persists i s old
  have still : x ∈ s'.symbols := grows.symbols.subset member
  apply Option.bind_eq_some_iff.mpr
  exact ⟨s', new, (later.wellFormed.formed new).indexed.lookup_eq_some_iff.mpr ⟨still, named⟩⟩

/-- A scope that was opened and is current again can be closed, which leads back to where it was
opened. -/
theorem Later.close {kind : ScopeKind} (h : t.WellFormed) (later : (t.push kind).Later after)
    (current : after.current = (t.push kind).current) :
    after.close (t.push kind).current = .ok () { after with current := t.current } := by
  have opened : (t.push kind).parent? t.scopes.length = some t.current := by
    rw [parent?_push t kind h.current_lt, if_pos rfl]
  have still := later.persists.parent? opened
  refine close_eq_ok_iff.mpr ⟨current, t.current, ?_, rfl⟩
  rw [← later.wellFormed.parent?_current, current]
  exact still

end SymbolTable

namespace Action

mutual

theorem run_later :
    (action : Action) → {t : SymbolTable} → t.WellFormed → t.Later (action.run t)
  | .call operation, _, h => (h.change_of_run operation).later h
  | .within kind actions, t, h => by
      have opened := (h.change_of_run (.push kind)).later h
      have inside := runAll_later actions opened.wellFormed
      have closed := (inside.wellFormed.change_of_run (.close t.scopes.length)).later inside.wellFormed
      rw [run_within]
      exact (opened.trans inside).trans closed

theorem runAll_later :
    (actions : List Action) → {t : SymbolTable} → t.WellFormed → t.Later (runAll actions t)
  | [], _, h => .refl h
  | action :: rest, _, h =>
      have first := run_later action h
      first.trans (runAll_later rest first.wellFormed)

end

/-- Scopes and symbols persist: whatever is done to a table that some history built, its scopes keep
their number, kind and parent, their symbols and children only grow at the end, and a name found in a
scope stays for the same symbol. A single call touches the current scope at most, and a run inside a
scope that it leaves current comes back to the scope before. -/
theorem histories_persist (earlier later : List Action) :
    let t := runAll earlier .empty
    t.Extends (runAll later t) ∧
    (∀ name i x, t.lookupIn name i = some x → (runAll later t).lookupIn name i = some x) ∧
    (∀ operation : Operation, t.Touches (operation.run t)) ∧
    (∀ (α : Type) (kind : ScopeKind) (inside : List Action) (a : α)
        (steps : TableM ScopeError α),
      steps (t.push kind) = .ok a (runAll inside (t.push kind)) →
      (runAll inside (t.push kind)).current = (t.push kind).current →
      ∃ after, t.within kind steps = .ok a after ∧ after.current = t.current) := by
  intro t
  have h : t.WellFormed := (runAll_later earlier .empty).wellFormed
  have following := runAll_later later h
  refine ⟨following.persists, ?_, ?_, ?_⟩
  · intro name i x found
    exact following.lookupIn h found
  · intro operation
    exact (h.change_of_run operation).touches h
  · intro α kind inside a steps ran current
    have closed := (runAll_later inside (h.push kind)).close h current
    exact ⟨_, SymbolTable.within_eq_ok_iff.mpr ⟨_, ran, closed⟩, rfl⟩

/-- A byte `n` in a module. -/
def declaring : List Action :=
  [.call (.push .module),
   .call (.declareVariable {} (Expr.infer {}) ((VariableDecl.ofName "n" none).withValue (.ofInt 1)))]

/-- A word of the name that the module has already. -/
def redeclaring : List Action :=
  [.call (.declareVariable {} (Expr.infer {}) ((VariableDecl.ofName "n" none).withValue (.ofInt 300)))]

/-- The word is refused in the module and declared in a function; then both scopes are closed, and a
third one is not there to be closed. -/
def crowding : List Action :=
  redeclaring ++ [.within .function redeclaring, .call .pop, .call .pop]

theorem crowding_persists :
    let t := runAll declaring .empty
    let n := Symbol.var { name := "n", ty := .byte, scope := 1 }
    t.lookupIn "n" 1 = some n ∧ (runAll crowding t).lookupIn "n" 1 = some n ∧
      (runAll redeclaring (t.push .function)).current = (t.push .function).current ∧
      ∃ after, t.within .function (modify (runAll redeclaring)) = .ok () after ∧
        after.current = t.current := by
  intro t n
  obtain ⟨-, found, -, back⟩ := histories_persist declaring crowding
  have before : t.lookupIn "n" 1 = some n := rfl
  have current : (runAll redeclaring (t.push .function)).current = (t.push .function).current := rfl
  exact ⟨before, found "n" 1 n before, current, back Unit .function redeclaring () _ rfl current⟩

end Action

end SemanticCheck
