import SemanticCheck.Proofs.Registered
import SemanticCheck.Tree.Shorthand

/-!
The shape of the scope tree. The scopes of an analyzed program stand in reading order: the global
scope, the module if there is one, and then every registered function with a body, each scope before
those inside it and with the one immediately around it as parent. Faults make no difference to this.
-/
namespace SemanticCheck

/-- A part of a program with a scope of its own, and the parts inside it in reading order. Only
functions have parameters. -/
inductive Region
  | mk (kind : ScopeKind) (params : List ParameterSymbol) (inner : List Region)

mutual

def Stmt.regions : Stmt → List Region
  | .declare _ | .assign _ | .expr _ | .ret _ _ => []
  | .branch _ yes (some no) _ => [yes.region, no.region]
  | .branch _ yes none _ => [yes.region]
  | .loop _ body _ => [body.region]
  | .block b => [b.region]

def Block.region : Block → Region
  | .mk statements _ => .mk .block [] (Stmt.allRegions statements)

def Stmt.allRegions : List Stmt → List Region
  | [] => []
  | s :: rest => s.regions ++ Stmt.allRegions rest

end

def FunctionSymbol.region (f : FunctionSymbol) (body : Block) : Region :=
  .mk .function f.params (Stmt.allRegions body.statements)

/-- Of the items that the first pass has seen, the functions that it registered have a region, unless
they have no body. -/
def bodyRegions : Item × Standing × List Fault → List Region
  | (.function decl, .registered f, _) => (decl.body.map f.region).toList
  | _ => []

def Program.region (settings : AnalysisSettings) (program : Program) : Region :=
  let bodies := (declareItems settings program.items program.topTable).2.flatMap bodyRegions
  match program.module? with
  | none => .mk .global [] bodies
  | some _ => .mk .global [] [.mk .module [] bodies]

/-- What the syntax says about one scope. -/
structure Outline where
  kind : ScopeKind
  parent : Option ScopeId
  params : List ParameterSymbol

mutual

/-- The scopes of a region in reading order, when the first of them has the given number. -/
def Region.outline (parent : Option ScopeId) (id : ScopeId) : Region → List Outline
  | .mk kind params inner => ⟨kind, parent, params⟩ :: Region.outlineAll id (id + 1) inner

/-- The scopes of regions that lie next to each other in one scope. -/
def Region.outlineAll (parent id : ScopeId) : List Region → List Outline
  | [] => []
  | r :: rest =>
      r.outline (some parent) id ++
        Region.outlineAll parent (id + (r.outline (some parent) id).length) rest

end

theorem Region.outlineAll_append (parent id : ScopeId) (regions more : List Region) :
    Region.outlineAll parent id (regions ++ more) =
      Region.outlineAll parent id regions ++
        Region.outlineAll parent (id + (Region.outlineAll parent id regions).length) more := by
  induction regions generalizing id with
  | nil => rfl
  | cons r rest ih =>
      simp only [List.cons_append, Region.outlineAll, ih, List.append_assoc, List.length_append,
        Nat.add_assoc]

/-- The scope is where and what the outline says, and begins with the parameters. -/
structure Outline.Describes (o : Outline) (i : ScopeId) (s : Scope) : Prop where
  id_eq : s.id = i
  kind_eq : s.kind = o.kind
  parent_eq : s.parent = o.parent
  params : o.params.map (fun p => Symbol.var (p.variableIn i)) <+: s.symbols

/-- The scopes of the table are those that the outlines describe, in the same order. -/
structure SymbolTable.Fits (t : SymbolTable) (outlines : List Outline) : Prop where
  length_eq : t.scopes.length = outlines.length
  describes : ∀ (i : Nat) o, outlines[i]? = some o → ∃ s, t.scope? i = some s ∧ o.Describes i s

theorem Outline.Describes.grows {o : Outline} {i : ScopeId} {s after : Scope} (h : o.Describes i s)
    (grows : s.Grows after) : o.Describes i after where
  id_eq := grows.id_eq.trans h.id_eq
  kind_eq := grows.kind_eq.trans h.kind_eq
  parent_eq := grows.parent_eq.trans h.parent_eq
  params := h.params.trans grows.symbols

namespace SymbolTable.Fits

variable {t after : SymbolTable} {outlines : List Outline}

theorem empty : SymbolTable.empty.Fits [⟨.global, none, []⟩] := by
  refine ⟨rfl, ?_⟩
  intro i o found
  cases i with
  | zero =>
      cases found
      exact ⟨.root, rfl, rfl, rfl, rfl, List.nil_prefix⟩
  | succ i => cases found

theorem of_scopes_eq (fits : t.Fits outlines) (same : after.scopes = t.scopes) :
    after.Fits outlines := by
  refine ⟨by rw [same, fits.length_eq], ?_⟩
  intro i o found
  rw [SymbolTable.scope?, same]
  exact fits.describes i o found

theorem of_extends (fits : t.Fits outlines) (persists : t.Extends after)
    (length : after.scopes.length = t.scopes.length) : after.Fits outlines := by
  refine ⟨length.trans fits.length_eq, ?_⟩
  intro i o found
  obtain ⟨s, hs, described⟩ := fits.describes i o found
  obtain ⟨s', hs', grows⟩ := persists i s hs
  exact ⟨s', hs', described.grows grows⟩

/-- One more scope behind the others. -/
theorem extend (fits : t.Fits outlines) (persists : t.Extends after)
    (length : after.scopes.length = t.scopes.length + 1) {s : Scope} {o : Outline}
    (found : after.scope? t.scopes.length = some s) (described : o.Describes t.scopes.length s) :
    after.Fits (outlines ++ [o]) := by
  refine ⟨by rw [length, fits.length_eq, List.length_append]; rfl, ?_⟩
  intro i o' here
  rw [List.getElem?_append] at here
  split at here
  · obtain ⟨old, ho, described'⟩ := fits.describes i o' here
    obtain ⟨s', hs', grows⟩ := persists i old ho
    exact ⟨s', hs', described'.grows grows⟩
  · next le =>
      have last : i = t.scopes.length := by
        have bound := (List.getElem?_eq_some_iff.mp here).1
        have same := fits.length_eq
        simp only [List.length_singleton] at bound
        omega
      subst last
      rw [fits.length_eq, Nat.sub_self] at here
      cases here
      exact ⟨s, found, described⟩

theorem push (fits : t.Fits outlines) (lt : t.current < t.scopes.length) (kind : ScopeKind) :
    (t.push kind).Fits (outlines ++ [⟨kind, some t.current, []⟩]) :=
  fits.extend (.push t kind lt) (t.length_push kind) (t.scope?_push_length kind)
    ⟨rfl, rfl, rfl, List.nil_prefix⟩

end SymbolTable.Fits

/-- Between the two tables the scopes of some regions of the current scope were opened and closed. -/
structure SymbolTable.Opens (t after : SymbolTable) (regions : List Region) : Prop where
  wellFormed : after.WellFormed
  current_eq : after.current = t.current
  fits : ∀ outlines, t.Fits outlines →
    after.Fits (outlines ++ Region.outlineAll t.current outlines.length regions)

namespace SymbolTable.Opens

variable {t middle after : SymbolTable} {regions more : List Region}

theorem none {env : Environment} (leads : t.Leads after env)
    (length : after.scopes.length = t.scopes.length) : t.Opens after [] := by
  refine ⟨leads.wellFormed, leads.current_eq, ?_⟩
  intro outlines fits
  rw [Region.outlineAll, List.append_nil]
  exact fits.of_extends leads.persists length

theorem refl (h : t.WellFormed) : t.Opens t [] := none (.refl h) rfl

theorem trans (h : t.Opens middle regions) (k : middle.Opens after more) :
    t.Opens after (regions ++ more) := by
  refine ⟨k.wellFormed, k.current_eq.trans h.current_eq, ?_⟩
  intro outlines fits
  have both := k.fits _ (h.fits outlines fits)
  rw [h.current_eq, List.length_append, List.append_assoc] at both
  rw [Region.outlineAll_append]
  exact both

/-- A scope with what was opened in it. The first tables are those before and after it got its
parameters, the last ones those before and after it was closed. -/
theorem scope {ready closed : SymbolTable} {kind : ScopeKind} {params : List ParameterSymbol}
    {env : Environment} (leads : t.Leads closed env)
    (begun : ∀ outlines, t.Fits outlines → ready.Fits (outlines ++ [⟨kind, some t.current, params⟩]))
    (current : ready.current = t.scopes.length) (inner : ready.Opens after regions)
    (scopes : closed.scopes = after.scopes) : t.Opens closed [.mk kind params regions] := by
  refine ⟨leads.wellFormed, leads.current_eq, ?_⟩
  intro outlines fits
  have all := inner.fits _ (begun outlines fits)
  rw [current, fits.length_eq, List.length_append, List.append_assoc] at all
  rw [Region.outlineAll, Region.outlineAll, Region.outline, List.append_nil]
  exact all.of_scopes_eq scopes

end SymbolTable.Opens

section Steps

variable {settings : AnalysisSettings} {result : Option Ty} {t after : SymbolTable}

/-- What a relation between two tables and the regions opened between them has to bear with, in order
to hold along statements that declare no variables but those of the nodes. -/
structure StmtWalk (settings : AnalysisSettings) (nodes : List Node)
    (R : SymbolTable → SymbolTable → List Region → Prop) : Prop where
  stay : ∀ {t}, t.WellFormed → R t t []
  follow : ∀ {t middle after regions more}, R t middle regions → R middle after more →
    R t after (regions ++ more)
  var : ∀ {t} {decl : VariableDecl} {v}, t.WellFormed → Node.var decl ∈ nodes →
    decl.symbol settings (Expr.infer settings) t.site = .ok v → R t (t.add (.var v)) []
  block : ∀ {t inner after env regions}, t.WellFormed → t.Leads after env →
    R (t.push .block) inner regions → after.scopes = inner.scopes → R t after [.mk .block [] regions]

variable {nodes : List Node} {R : SymbolTable → SymbolTable → List Region → Prop}

theorem StmtWalk.checkVariable (walk : StmtWalk settings nodes R) (h : t.WellFormed)
    {decl : VariableDecl} (member : Node.var decl ∈ nodes) : R t (t.checkVariable settings decl).1 [] := by
  rw [SymbolTable.checkVariable_eq]
  split
  · next v declared => exact walk.var h member declared
  · exact walk.stay h

mutual

theorem Stmt.check_walk (walk : StmtWalk settings nodes R) :
    (s : Stmt) → {t after : SymbolTable} → {faults : List Fault} → t.WellFormed →
      (∀ n ∈ s.nodes, n ∈ nodes) → s.check settings result t = .ok faults after → R t after s.regions
  | .declare decl, t, after, faults, h, sub, ran => by
      cases ran
      exact walk.checkVariable h (sub _ (by simp [Stmt.nodes, VariableDecl.nodes]))
  | .assign _, _, _, _, h, _, ran => by
      cases ran
      exact walk.stay h
  | .expr _, _, _, _, h, _, ran => by
      cases ran
      exact walk.stay h
  | .ret _ _, _, _, _, h, _, ran => by
      cases ran
      exact walk.stay h
  | .branch condition yes (some no) l, _, _, _, h, sub, ran => by
      obtain ⟨_, _, middle, first, second, -⟩ := Stmt.check_branch_eq_ok_iff.mp ran
      have k := ((Block.check_follows settings result yes h).leads first).wellFormed
      have opened := Block.check_walk walk yes h (fun n m => sub n (by simp [Stmt.nodes, m])) first
      have closed := Block.check_walk walk no k (fun n m => sub n (by simp [Stmt.nodes, m])) second
      exact walk.follow opened closed
  | .branch condition yes none l, _, _, _, h, sub, ran => by
      obtain ⟨_, first, -⟩ := Stmt.check_when_eq_ok_iff.mp ran
      exact Block.check_walk walk yes h (fun n m => sub n (by simp [Stmt.nodes, m])) first
  | .loop condition body l, _, _, _, h, sub, ran => by
      obtain ⟨_, first, -⟩ := Stmt.check_loop_eq_ok_iff.mp ran
      exact Block.check_walk walk body h (fun n m => sub n (by simp [Stmt.nodes, m])) first
  | .block b, _, _, _, h, sub, ran =>
      Block.check_walk walk b h (fun n m => sub n (by simp [Stmt.nodes, m])) ran

theorem Block.check_walk (walk : StmtWalk settings nodes R) :
    (b : Block) → {t after : SymbolTable} → {faults : List Fault} → t.WellFormed →
      (∀ n ∈ b.nodes, n ∈ nodes) → b.check settings result t = .ok faults after →
      R t after [b.region]
  | .mk statements l, t, after, faults, h, sub, ran => by
      have leads := (Block.check_follows settings result (.mk statements l) h).leads ran
      obtain ⟨inner, steps, closed⟩ := Block.check_eq_ok_iff.mp ran
      exact walk.block h leads (Stmt.checkAll_walk walk statements (h.push .block) sub steps)
        (SymbolTable.scopes_of_close closed)

theorem Stmt.checkAll_walk (walk : StmtWalk settings nodes R) :
    (statements : List Stmt) → {t after : SymbolTable} → {faults : List Fault} → t.WellFormed →
      (∀ n ∈ Stmt.allNodes statements, n ∈ nodes) →
      Stmt.checkAll settings result statements t = .ok faults after →
      R t after (Stmt.allRegions statements)
  | [], _, _, _, h, _, ran => by
      cases ran
      exact walk.stay h
  | s :: rest, _, _, _, h, sub, ran => by
      obtain ⟨_, _, next, first, second, -⟩ := Stmt.checkAll_cons_eq_ok_iff.mp ran
      have k := ((Stmt.check_follows settings result s h).leads first).wellFormed
      have stepped := Stmt.check_walk walk s h (fun n m => sub n (by simp [Stmt.allNodes, m])) first
      have others := Stmt.checkAll_walk walk rest k (fun n m => sub n (by simp [Stmt.allNodes, m])) second
      exact walk.follow stepped others

end

/-- What the relation has to bear with besides, in order to hold along whole programs: functions being
declared, and their bodies being checked in scopes that begin with the parameters. -/
structure ProgramWalk (settings : AnalysisSettings)
    (R : SymbolTable → SymbolTable → List Region → Prop) : Prop where
  statements : ∀ nodes, StmtWalk settings nodes R
  function : ∀ {t} {decl : FunctionDecl} {f}, t.WellFormed → decl.symbol settings t.site = .ok f →
    R t (t.add (.function f)) []
  body : ∀ {t ready inner after env regions} {f : FunctionSymbol}, t.WellFormed →
    f.Accepted settings → t.Leads after env →
    (t.push .function).declareParams f.params = (ready, []) → R ready inner regions →
    after.scopes = inner.scopes → R t after [.mk .function f.params regions]

theorem FunctionSymbol.checkBody_walk (walk : ProgramWalk settings R) {f : FunctionSymbol}
    {body : Block} {faults : List Fault} (accepted : f.Accepted settings) (h : t.WellFormed)
    (ran : f.checkBody settings body t = .ok faults after) : R t after [f.region body] := by
  have leads := (f.checkBody_follows settings body h).leads ran
  obtain ⟨more, inner, statements, closed, -⟩ := FunctionSymbol.checkBody_eq_ok_iff.mp ran
  obtain ⟨ready, params, -⟩ := accepted.declareParams h
  have begun := (SymbolTable.declareParams_follows f.params (h.push .function)).leads rfl
  rw [params] at statements begun
  have inside := Stmt.checkAll_walk (walk.statements _) body.statements begun.wellFormed
    (fun _ member => member) statements
  exact walk.body h accepted leads params inside (SymbolTable.scopes_of_close closed)

theorem Item.declare_walk (walk : ProgramWalk settings R) (item : Item) (h : t.WellFormed) :
    R t (item.declare settings t).1 [] := by
  cases item with
  | function decl =>
      simp only [Item.declare, SymbolTable.declareFunction_eq]
      cases declared : decl.symbol settings t.site with
      | error faults => exact (walk.statements []).stay h
      | ok f => exact walk.function h declared
  | var decl =>
      simp only [Item.declare]
      split
      · exact (walk.statements [.var decl]).checkVariable h List.mem_cons_self
      · exact (walk.statements []).stay h

theorem declareItems_walk (walk : ProgramWalk settings R) (items : List Item) {t : SymbolTable}
    (h : t.WellFormed) : R t (declareItems settings items t).1 [] := by
  induction items generalizing t with
  | nil => exact (walk.statements []).stay h
  | cons item rest ih =>
      rw [declareItems_cons]
      have k := (item.declare_leads settings h).1.wellFormed
      exact (walk.statements []).follow (item.declare_walk walk h) (ih k)

theorem Item.complete_walk (walk : ProgramWalk settings R) {item : Item} {standing : Standing}
    {found : List Fault} (h : t.WellFormed)
    (accepted : ∀ f, standing = .registered f → f.Accepted settings)
    (ran : item.complete settings standing t = .ok found after) (faults : List Fault) :
    R t after (bodyRegions (item, standing, faults)) := by
  have idle (same : .ok [] t = (.ok found after : Progress)) : R t after [] := by
    cases same
    exact (walk.statements []).stay h
  cases item with
  | var decl =>
      cases standing with
      | pending =>
          cases ran
          exact (walk.statements [.var decl]).checkVariable h List.mem_cons_self
      | settled => exact idle ran
      | registered f => exact idle ran
  | function decl =>
      cases standing with
      | pending => exact idle ran
      | settled => exact idle ran
      | registered f =>
          simp only [Item.complete] at ran
          simp only [bodyRegions]
          cases given : decl.body with
          | none =>
              rw [given] at ran
              exact idle ran
          | some body =>
              rw [given] at ran
              exact FunctionSymbol.checkBody_walk walk (accepted f rfl) h ran

theorem completeItems_walk (walk : ProgramWalk settings R)
    {entries : List (Item × Standing × List Fault)} {t after : SymbolTable}
    {blocks : List (List Fault)} (h : t.WellFormed)
    (accepted : ∀ entry ∈ entries, ∀ f, entry.2.1 = .registered f → f.Accepted settings)
    (ran : completeItems settings entries t = .ok blocks after) :
    R t after (entries.flatMap bodyRegions) := by
  induction entries generalizing t blocks with
  | nil =>
      cases ran
      exact (walk.statements []).stay h
  | cons entry rest ih =>
      obtain ⟨item, standing, faults⟩ := entry
      obtain ⟨more, later, next, first, second, rfl⟩ := completeItems_cons_eq_ok_iff.mp ran
      rw [List.forall_mem_cons] at accepted
      have k := ((item.complete_follows settings standing h).leads first).wellFormed
      exact (walk.statements []).follow (Item.complete_walk walk h accepted.1 first faults)
        (ih k accepted.2 second)

/-- The relation holds between the table on which items are declared and the one they end with, along
with the regions of the bodies. -/
theorem analyzeItems_walk (walk : ProgramWalk settings R) {items : List Item}
    {blocks : List (List Fault)} (h : t.WellFormed)
    (ran : analyzeItems settings items t = .ok blocks after) :
    R t after ((declareItems settings items t).2.flatMap bodyRegions) := by
  have k := (declareItems_leads settings items h).1.wellFormed
  have completed := completeItems_walk walk k
    (fun _ member _ registered => accepted_of_mem_declareItems member registered) ran
  exact (walk.statements []).follow (declareItems_walk walk items h) completed

theorem SymbolTable.Opens.add (h : t.WellFormed) {x : Symbol} (admits : t.Admits x) :
    t.Opens (t.add x) [] :=
  .none (.add h admits) (t.length_add x)

/-- The table in which the body of an accepted function is checked has one scope more, which begins
with the parameters and is current. -/
theorem FunctionSymbol.Accepted.begins {f : FunctionSymbol} {ready : SymbolTable}
    (accepted : f.Accepted settings) (h : t.WellFormed)
    (params : (t.push .function).declareParams f.params = (ready, [])) :
    ready.current = t.scopes.length ∧ ready.top.symbols.length = f.params.length ∧
      ∀ outlines, t.Fits outlines → ready.Fits (outlines ++ [⟨.function, some t.current, f.params⟩]) := by
  obtain ⟨_, same, length, symbols⟩ := accepted.declareParams h
  rw [params] at same
  cases same
  have begun := (SymbolTable.declareParams_follows f.params (h.push .function)).leads rfl
  rw [params] at begun
  have current : ready.current = t.scopes.length := begun.current_eq
  refine ⟨current, by rw [symbols, List.length_map], ?_⟩
  have found : ready.scope? t.scopes.length = some ready.top := by
    rw [← current]
    exact begun.wellFormed.scope?_current
  intro outlines fits
  obtain ⟨s, there, grows⟩ := begun.persists _ _ (t.scope?_push_length .function)
  rw [found] at there
  cases there
  refine fits.extend ((SymbolTable.Extends.push t .function h.current_lt).trans begun.persists) length
    found ⟨grows.id_eq, grows.kind_eq, grows.parent_eq, ?_⟩
  exact symbols ▸ List.prefix_rfl

theorem opens_walk (settings : AnalysisSettings) : ProgramWalk settings SymbolTable.Opens where
  statements _ :=
    { stay := fun h => .refl h
      follow := fun h k => h.trans k
      var := fun h _ declared => .add h (VariableDecl.admits_symbol declared)
      block := fun h leads opened scopes =>
        .scope leads (fun _ fits => fits.push h.current_lt .block) rfl opened scopes }
  function h declared := .add h (FunctionDecl.admits_symbol declared)
  body h accepted leads params opened scopes :=
    let ⟨current, _, begun⟩ := accepted.begins h params
    .scope leads begun current opened scopes

theorem analyzeItems_opens {items : List Item} {blocks : List (List Fault)} (h : t.WellFormed)
    (ran : analyzeItems settings items t = .ok blocks after) :
    t.Opens after ((declareItems settings items t).2.flatMap bodyRegions) :=
  analyzeItems_walk (opens_walk settings) h ran

end Steps

namespace Program

/-- The outlines of a program are those of the table in which the items are declared, and then those of
the bodies. -/
theorem exists_outlines (settings : AnalysisSettings) (program : Program) :
    ∃ start, program.topTable.Fits start ∧
      (program.region settings).outline none 0 =
        start ++ Region.outlineAll program.topTable.current start.length
          ((declareItems settings program.items program.topTable).2.flatMap bodyRegions) := by
  unfold region
  generalize (declareItems settings program.items program.topTable).2.flatMap bodyRegions = bodies
  unfold topTable
  cases program.module? with
  | none => exact ⟨_, .empty, rfl⟩
  | some name =>
      refine ⟨_, SymbolTable.Fits.empty.push Nat.zero_lt_one .module, ?_⟩
      simp only [Region.outline, Region.outlineAll, List.append_nil]
      rfl

theorem topTable_fits {settings : AnalysisSettings} {program : Program} {after : SymbolTable}
    (opened : program.topTable.Opens after
      ((declareItems settings program.items program.topTable).2.flatMap bodyRegions)) :
    after.Fits ((program.region settings).outline none 0) := by
  obtain ⟨start, fits, same⟩ := program.exists_outlines settings
  rw [same]
  exact opened.fits start fits

/-- Every analysis gets through, comes back to the global scope, and leaves the scopes that the syntax
asks for, in reading order. -/
theorem analyze_scopes (settings : AnalysisSettings) (program : Program) :
    ∃ a, program.analyze settings = .ok a ∧ a.table.current = 0 ∧
      a.table.Fits ((program.region settings).outline none 0) := by
  obtain ⟨a, ran, -, back⟩ := program.analyze_eq_ok settings
  obtain ⟨after, passes, -, -, scopes, -⟩ := analyze_top ran
  refine ⟨a, ran, back.current_eq, ?_⟩
  have opened := analyzeItems_opens program.topTable_wellFormed passes
  exact (topTable_fits opened).of_scopes_eq scopes

/-- The blocks of a branch within a loop have the loop's scope around them, not the function's. -/
example :
    let body := [.repeatWhile (.ofBool true) [.choose (.ofBool true) [] (some [])], .ofBlock []]
    let program : Program :=
      { module? := some { name := "m" }, items := [.function ((FunctionDecl.ofName "f").withBody body)] }
    ((program.region {}).outline none 0).map (fun o => (o.kind, o.parent)) =
      [(.global, none), (.module, some 0), (.function, some 1), (.block, some 2), (.block, some 3),
        (.block, some 3), (.block, some 2)] := rfl

end Program

end SemanticCheck
