import SemanticCheck.Proofs.ScopeTree
import SemanticCheck.Tree.Visit

/-!
Properties of all symbols of a table, in open and in closed scopes. An analysis adds symbols in three
places only: for a function item, for a declaration of a variable, and for a parameter of a registered
function. A property that each of the three hands on from the symbols that are there already holds of
every symbol that an analysis leaves behind.
-/
namespace SemanticCheck

variable {settings : AnalysisSettings} {P : ScopeKind → Symbol → Prop}

/-- Whatever a name stands for is a symbol of one of the scopes. -/
theorem SymbolTable.mem_of_names {t : SymbolTable} {name : String} {x : Symbol}
    (stands : t.names name = some x) : ∃ i s, t.scope? i = some s ∧ x ∈ s.symbols := by
  have inside : ∀ id, t.lookupFrom name id = some x → ∃ i s, t.scope? i = some s ∧ x ∈ s.symbols := by
    intro id
    induction id using Nat.strongRecOn with
    | ind id ih =>
        intro found
        rw [SymbolTable.lookupFrom] at found
        split at found
        · cases found
        · next s here =>
            split at found
            · next y own =>
                cases found
                obtain ⟨place, -, there⟩ := Option.bind_eq_some_iff.mp own
                exact ⟨id, s, here, List.mem_of_getElem? there⟩
            · split at found
              · next parent _ =>
                  split at found
                  · next lt => exact ih parent lt found
                  · cases found
              · cases found
  exact inside t.current stands

/-- A well-formed table all of whose symbols have a property, which may depend on the kind of the
scope that holds them. -/
structure SymbolTable.Holds (P : ScopeKind → Symbol → Prop) (t : SymbolTable) : Prop where
  wellFormed : t.WellFormed
  every : ∀ {i s}, t.scope? i = some s → ∀ x ∈ s.symbols, P s.kind x

namespace SymbolTable.Holds

variable {t after : SymbolTable}

theorem empty : SymbolTable.empty.Holds P := by
  refine ⟨.empty, ?_⟩
  intro i s found x member
  cases i with
  | zero =>
      cases found
      cases member
  | succ i => cases found

theorem of_scopes (h : t.Holds P) (k : after.WellFormed) (same : after.scopes = t.scopes) :
    after.Holds P := by
  refine ⟨k, ?_⟩
  intro i s found
  rw [SymbolTable.scope?, same] at found
  exact h.every found

theorem push (h : t.Holds P) (kind : ScopeKind) : (t.push kind).Holds P := by
  refine ⟨h.wellFormed.push kind, ?_⟩
  intro i s found x member
  obtain ⟨-, rfl⟩ | ⟨-, old, ho, rfl⟩ | ⟨-, -, ho⟩ := scope?_push_cases h.wellFormed.current_lt found
  · cases member
  · exact h.every ho x member
  · exact h.every ho x member

theorem add (h : t.Holds P) {x : Symbol} (admits : t.Admits x) (new : P t.top.kind x) :
    (t.add x).Holds P := by
  refine ⟨h.wellFormed.add_of_admits admits, ?_⟩
  intro i s found y member
  obtain ⟨old, there, kind, earlier⟩ | ⟨rfl, rfl⟩ := mem_add_cases found member
  · rw [← kind]
    exact h.every there y earlier
  · rw [h.wellFormed.scope?_add] at found
    cases found
    exact new

/-- Whatever a name stands for has the property. -/
theorem of_names (h : t.Holds P) {name : String} {x : Symbol} (stands : t.names name = some x) :
    ∃ kind, P kind x := by
  obtain ⟨i, s, found, member⟩ := mem_of_names stands
  exact ⟨s.kind, h.every found x member⟩

end SymbolTable.Holds

/-- Steps that closed what they opened are still in a scope of the same kind. -/
theorem SymbolTable.Leads.kind_top {t after : SymbolTable} {env : Environment} (h : t.WellFormed)
    (leads : t.Leads after env) : after.top.kind = t.top.kind := by
  obtain ⟨s, found, grows⟩ := leads.persists _ _ h.scope?_current
  rw [← leads.current_eq, leads.wellFormed.scope?_current] at found
  cases found
  exact grows.kind_eq

/-- Every variable that one of the nodes declares has the property, if all symbols have it that are
there before. -/
def Hereditary (settings : AnalysisSettings) (P : ScopeKind → Symbol → Prop) (nodes : List Node) :
    Prop :=
  ∀ (t : SymbolTable) (decl : VariableDecl) (v : VariableSymbol), t.Holds P → Node.var decl ∈ nodes →
    decl.symbol settings (Expr.infer settings) t.site = .ok v → P t.top.kind (.var v)

theorem Hereditary.mono {nodes part : List Node} (h : Hereditary settings P nodes)
    (sub : ∀ n ∈ part, n ∈ nodes) : Hereditary settings P part := by
  intro t decl v holds member declared
  exact h t decl v holds (sub _ member) declared

/-- The parameters of a function have the property, as variables of its scope, if the function has it. -/
def ReachesParams (P : ScopeKind → Symbol → Prop) : Prop :=
  ∀ (kind : ScopeKind) (f : FunctionSymbol), P kind (.function f) →
    ∀ p ∈ f.params, ∀ id, P .function (.var (p.variableIn id))

/-- The property is handed on by the declarations of the items and from functions to parameters. -/
structure Inherited (settings : AnalysisSettings) (items : List Item)
    (P : ScopeKind → Symbol → Prop) : Prop where
  functions : ∀ (t : SymbolTable) (decl : FunctionDecl) (f : FunctionSymbol), t.Holds P →
    t.top.kind.allowsExports = true → Item.function decl ∈ items →
    decl.symbol settings t.site = .ok f → P t.top.kind (.function f)
  vars : Hereditary settings P (items.flatMap Item.nodes)
  params : ReachesParams P

theorem Inherited.tail {item : Item} {rest : List Item} (h : Inherited settings (item :: rest) P) :
    Inherited settings rest P where
  functions t decl f holds top member := h.functions t decl f holds top (List.mem_cons_of_mem _ member)
  vars := h.vars.mono fun _ member => List.mem_append_right _ member
  params := h.params

section Bodies

variable {t after : SymbolTable} {result : Option Ty}

theorem SymbolTable.Holds.checkVariable (h : t.Holds P) {decl : VariableDecl} {nodes : List Node}
    (vars : Hereditary settings P nodes) (member : Node.var decl ∈ nodes) :
    (t.checkVariable settings decl).1.Holds P := by
  rw [SymbolTable.checkVariable_eq]
  split
  · next v declared =>
      exact h.add (VariableDecl.admits_symbol declared) (vars t decl v h member declared)
  · exact h

/-- Statements hand a property on that every variable they declare has. -/
theorem Hereditary.walk {nodes : List Node} (vars : Hereditary settings P nodes) :
    StmtWalk settings nodes fun t after _ => t.Holds P → after.Holds P where
  stay _ holds := holds
  follow first second holds := second (first holds)
  var _ member declared holds :=
    holds.add (VariableDecl.admits_symbol declared) (vars _ _ _ holds member declared)
  block _ leads inside scopes holds := (inside (holds.push .block)).of_scopes leads.wellFormed scopes

theorem Stmt.checkAll_holds {statements : List Stmt} {faults : List Fault} (h : t.Holds P)
    (vars : Hereditary settings P (Stmt.allNodes statements))
    (ran : Stmt.checkAll settings result statements t = .ok faults after) : after.Holds P :=
  Stmt.checkAll_walk vars.walk statements h.wellFormed (fun _ member => member) ran h

theorem SymbolTable.Holds.declareParams {params : List ParameterSymbol} {t : SymbolTable}
    (h : t.Holds P) (kind : t.top.kind = .function)
    (each : ∀ p ∈ params, ∀ id, P .function (.var (p.variableIn id))) :
    (t.declareParams params).1.Holds P := by
  induction params generalizing t with
  | nil => exact h
  | cons p rest ih =>
      rw [List.forall_mem_cons] at each
      by_cases free : t.site.duplicateFaults ⟨p.name, p.location⟩ = []
      · have admits : t.Admits (.var (p.variableIn t.current)) :=
          ⟨rfl, Site.duplicateFaults_eq_nil_iff.mp free⟩
        rw [SymbolTable.declareParams_of_free rest free]
        apply ih (h.add admits (kind ▸ each.1 t.current)) _ each.2
        rw [h.wellFormed.top_add]
        exact kind
      · rw [SymbolTable.declareParams_of_taken rest free]
        exact ih h kind each.2

theorem FunctionSymbol.checkBody_holds {f : FunctionSymbol} {body : Block} {faults : List Fault}
    (h : t.Holds P) (params : ∀ p ∈ f.params, ∀ id, P .function (.var (p.variableIn id)))
    (vars : Hereditary settings P body.nodes)
    (ran : f.checkBody settings body t = .ok faults after) : after.Holds P := by
  have leads := (f.checkBody_follows settings body h.wellFormed).leads ran
  obtain ⟨more, inner, statements, closed, -⟩ := FunctionSymbol.checkBody_eq_ok_iff.mp ran
  have kind : (t.push .function).top.kind = .function := by
    rw [t.top_push]
    rfl
  have ready := (h.push .function).declareParams kind params
  have inside : inner.Holds P := by
    cases body with
    | mk steps l => exact Stmt.checkAll_holds ready vars statements
  exact inside.of_scopes leads.wellFormed (SymbolTable.scopes_of_close closed)

end Bodies

section Passes

variable {t after : SymbolTable}

/-- What the second pass needs to know about an item that the first pass has seen. -/
structure Prepared (settings : AnalysisSettings) (P : ScopeKind → Symbol → Prop)
    (entry : Item × Standing × List Fault) : Prop where
  vars : Hereditary settings P entry.1.nodes
  registered : ∀ f, entry.2.1 = .registered f → ∃ kind, P kind (.function f)

theorem Item.declare_holds {item : Item} {rest : List Item} (h : t.Holds P)
    (top : t.top.kind.allowsExports = true) (inherited : Inherited settings (item :: rest) P) :
    (item.declare settings t).1.Holds P ∧ Prepared settings P (item, (item.declare settings t).2) := by
  have vars : Hereditary settings P item.nodes :=
    inherited.vars.mono fun _ member => List.mem_append_left _ member
  cases item with
  | function decl =>
      simp only [Item.declare, SymbolTable.declareFunction_eq]
      cases declared : decl.symbol settings t.site with
      | error found =>
          refine ⟨h, vars, ?_⟩
          rintro g ⟨⟩
      | ok f =>
          have new := inherited.functions t decl f h top List.mem_cons_self declared
          refine ⟨h.add (FunctionDecl.admits_symbol declared) new, vars, ?_⟩
          rintro g ⟨⟩
          exact ⟨_, new⟩
  | var decl =>
      simp only [Item.declare]
      split
      · refine ⟨h.checkVariable vars (by simp [Item.nodes, VariableDecl.nodes]), vars, ?_⟩
        rintro g ⟨⟩
      · refine ⟨h, vars, ?_⟩
        rintro g ⟨⟩

theorem declareItems_holds {items : List Item} {t : SymbolTable} (h : t.Holds P)
    (top : t.top.kind.allowsExports = true) (inherited : Inherited settings items P) :
    (declareItems settings items t).1.Holds P ∧
      ∀ entry ∈ (declareItems settings items t).2, Prepared settings P entry := by
  induction items generalizing t with
  | nil => exact ⟨h, List.forall_mem_nil _⟩
  | cons item rest ih =>
      obtain ⟨holds, first⟩ := Item.declare_holds h top inherited
      have kind := (item.declare_leads settings h.wellFormed).1.kind_top h.wellFormed
      obtain ⟨last, others⟩ := ih holds (by rw [kind, top]) inherited.tail
      rw [declareItems_cons]
      exact ⟨last, List.forall_mem_cons.mpr ⟨first, others⟩⟩

theorem Item.complete_holds {item : Item} {standing : Standing} {faults found : List Fault}
    (h : t.Holds P) (prepared : Prepared settings P (item, standing, faults))
    (params : ReachesParams P) (ran : item.complete settings standing t = .ok found after) :
    after.Holds P := by
  unfold Item.complete at ran
  split at ran
  · next decl =>
      cases ran
      exact h.checkVariable prepared.vars (by simp [Item.nodes, VariableDecl.nodes])
  · next decl f =>
      cases given : decl.body with
      | some body =>
          rw [given] at ran
          obtain ⟨kind, registered⟩ := prepared.registered f rfl
          refine FunctionSymbol.checkBody_holds h (params kind f registered) ?_ ran
          apply prepared.vars.mono
          intro n member
          simp [Item.nodes, FunctionDecl.nodes, nodesOf, given, member]
      | none =>
          rw [given] at ran
          cases ran
          exact h
  · cases ran
    exact h

theorem completeItems_holds {entries : List (Item × Standing × List Fault)} {t after : SymbolTable}
    {blocks : List (List Fault)} (h : t.Holds P)
    (prepared : ∀ entry ∈ entries, Prepared settings P entry) (params : ReachesParams P)
    (ran : completeItems settings entries t = .ok blocks after) : after.Holds P := by
  induction entries generalizing t blocks with
  | nil =>
      cases ran
      exact h
  | cons entry rest ih =>
      obtain ⟨item, standing, faults⟩ := entry
      obtain ⟨more, later, next, first, second, rfl⟩ := completeItems_cons_eq_ok_iff.mp ran
      rw [List.forall_mem_cons] at prepared
      exact ih (Item.complete_holds h prepared.1 params first) prepared.2 second

end Passes

namespace Program

variable {program : Program}

theorem topTable_holds (program : Program) : program.topTable.Holds P := by
  unfold topTable
  cases program.module? with
  | none => exact .empty
  | some name => exact SymbolTable.Holds.empty.push .module

theorem topTable_allowsExports (program : Program) :
    program.topTable.top.kind.allowsExports = true := by
  unfold topTable
  cases program.module? <;> rfl

/-- A property that the items hand on holds of every symbol of the finished table. -/
theorem analyze_holds (inherited : Inherited settings program.items P) :
    ∃ a, program.analyze settings = .ok a ∧ a.table.Holds P := by
  obtain ⟨a, ran, -, leads⟩ := program.analyze_eq_ok settings
  obtain ⟨after, passes, -, -, scopes, -⟩ := analyze_top ran
  obtain ⟨declared, prepared⟩ :=
    declareItems_holds program.topTable_holds program.topTable_allowsExports inherited
  have completed := completeItems_holds declared prepared inherited.params passes
  exact ⟨a, ran, completed.of_scopes leads.wellFormed scopes⟩

end Program

end SemanticCheck
