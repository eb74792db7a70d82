import SemanticCheck.Proofs.Declaration
import SemanticCheck.Proofs.Environment
import SemanticCheck.Proofs.Persistence
import SemanticCheck.Proofs.Steps

/-!
The analysis refines the checker over lexical environments. Every step of the analysis, seen through
the environment of its table, is the step of the lexical checker: it succeeds, it stays in the scope
it started in, and it finds the same faults. Closed scopes are still in the table, but they are not
in its environment, so they cannot matter any more.
-/
namespace SemanticCheck

variable {t middle after : SymbolTable} {env : Environment} {α : Type}

/-- The second table comes from the first by steps that closed what they opened, and stands for the
given environment. -/
structure SymbolTable.Leads (t after : SymbolTable) (env : Environment) : Prop where
  wellFormed : after.WellFormed
  current_eq : after.current = t.current
  persists : t.Extends after
  environment_eq : after.environment = env

namespace SymbolTable.Leads

theorem refl (h : t.WellFormed) : t.Leads t t.environment := ⟨h, rfl, .refl t, rfl⟩

theorem trans {env' : Environment} (h : t.Leads middle env) (k : middle.Leads after env') :
    t.Leads after env' :=
  ⟨k.wellFormed, k.current_eq.trans h.current_eq, h.persists.trans k.persists, k.environment_eq⟩

theorem add (h : t.WellFormed) {x : Symbol} (admits : t.Admits x) :
    t.Leads (t.add x) (t.environment.bind x.unscoped) :=
  ⟨h.add_of_admits admits, rfl, .add t x, h.environment_add admits.here admits.free⟩

/-- Closing a scope that was left current leads back to where it was opened. -/
theorem close {kind : ScopeKind} (h : t.WellFormed) (inner : (t.push kind).Leads after env)
    (outer : env.tail = t.environment) :
    ∃ closed, after.close (t.push kind).current = .ok () closed ∧ t.Leads closed t.environment := by
  have lt := h.current_lt
  have opened : (t.push kind).parent? t.scopes.length = some t.current := by
    rw [parent?_push t kind lt, if_pos rfl]
  have current : after.current = t.scopes.length := inner.current_eq
  have parent : after.parent? after.current = some t.current := by
    rw [current]
    exact inner.persists.parent? opened
  have top := inner.wellFormed.parent?_current.symm.trans parent
  refine ⟨{ after with current := t.current }, ?_, ?_⟩
  · exact close_eq_ok_iff.mpr ⟨inner.current_eq, t.current, top, rfl⟩
  · refine ⟨inner.wellFormed.setCurrent parent, rfl, ?_, ?_⟩
    · exact ((Extends.push t kind lt).trans inner.persists).trans (.setCurrent after t.current)
    · rw [inner.wellFormed.environment_setCurrent parent, inner.environment_eq, outer]

end SymbolTable.Leads

/-- A run from a table succeeds as the lexical checker does: same environment, same findings. -/
def SymbolTable.Follows (t : SymbolTable) (run : EStateM.Result ScopeError SymbolTable α)
    (expected : Environment × α) : Prop :=
  ∃ after, run = .ok expected.2 after ∧ t.Leads after expected.1

namespace SymbolTable.Follows

theorem pure {a : α} {expected : Environment × α} (same : a = expected.2)
    (leads : t.Leads after expected.1) : t.Follows (.ok a after) expected :=
  ⟨after, by rw [← same], leads⟩

/-- Runs in a scope of their own are runs of the lexical checker in a frame of their own. -/
theorem within {kind : ScopeKind} {steps : TableM ScopeError α} {a : α} (h : t.WellFormed)
    (inner : (t.push kind).Follows (steps (t.push kind)) (env, a))
    (outer : env.tail = t.environment) : t.Follows (t.within kind steps) (t.environment, a) := by
  obtain ⟨after, ran, leads⟩ := inner
  obtain ⟨closed, hc, back⟩ := leads.close h outer
  exact ⟨closed, SymbolTable.within_eq_ok_iff.mpr ⟨after, ran, hc⟩, back⟩

end SymbolTable.Follows

theorem SymbolTable.checkVariable_follows (h : t.WellFormed) (settings : AnalysisSettings)
    (decl : VariableDecl) :
    t.Follows (.ok (t.checkVariable settings decl).2 (t.checkVariable settings decl).1)
      (t.environment.checkVariable settings decl) := by
  rw [SymbolTable.checkVariable_eq, Environment.checkVariable, h.site_environment,
    VariableDecl.symbol_unscoped]
  cases found : decl.symbol settings (Expr.infer settings) t.site with
  | error faults => exact .pure rfl (.refl h)
  | ok v => exact .pure rfl (.add h (VariableDecl.admits_symbol found))

theorem SymbolTable.declareParams_follows (params : List ParameterSymbol) {t : SymbolTable}
    (h : t.WellFormed) :
    t.Follows (.ok (t.declareParams params).2 (t.declareParams params).1)
      (t.environment.bindParams params) := by
  induction params generalizing t with
  | nil => exact .pure rfl (.refl h)
  | cons p rest ih =>
      rw [Environment.bindParams, h.site_environment, Site.duplicateFaults_unscoped]
      cases found : t.site.duplicateFaults ⟨p.name, p.location⟩ with
      | nil =>
          have admits : t.Admits (.var (p.variableIn t.current)) :=
            ⟨rfl, Site.duplicateFaults_eq_nil_iff.mp found⟩
          have first := SymbolTable.Leads.add h admits
          obtain ⟨after, ran, leads⟩ := ih first.wellFormed
          rw [first.environment_eq] at ran leads
          rw [SymbolTable.declareParams_of_free rest found]
          exact ⟨after, ran, first.trans leads⟩
      | cons fault others =>
          have taken : t.site.duplicateFaults ⟨p.name, p.location⟩ ≠ [] := by
            rw [found]
            exact List.cons_ne_nil fault others
          obtain ⟨after, ran, leads⟩ := ih h
          obtain ⟨faults, rfl⟩ := EStateM.Result.ok.inj ran
          refine ⟨_, ?_, leads⟩
          rw [SymbolTable.declareParams_of_taken rest taken, found, faults]

mutual

theorem Stmt.check_follows (settings : AnalysisSettings) (result : Option Ty) :
    (s : Stmt) → {t : SymbolTable} → t.WellFormed →
      t.Follows (s.check settings result t) (s.checkIn settings result t.environment)
  | .declare decl, _, h => SymbolTable.checkVariable_follows h settings decl
  | .assign a, t, h => by
      simp only [Stmt.check, Stmt.checkIn, t.names_environment, Inference.assign_unscoped]
      exact .pure rfl (.refl h)
  | .expr e, t, h => by
      simp only [Stmt.check, Stmt.checkIn, t.names_environment, Expr.infer_unscoped]
      exact .pure rfl (.refl h)
  | .ret value l, t, h => by
      simp only [Stmt.check, Stmt.checkIn, t.names_environment, returnFaults_unscoped]
      exact .pure rfl (.refl h)
  | .branch condition yes (some no) l, t, h => by
      obtain ⟨afterYes, ranYes, leadsYes⟩ := Block.check_follows settings result yes h
      obtain ⟨afterNo, ranNo, leadsNo⟩ := Block.check_follows settings result no leadsYes.wellFormed
      rw [leadsYes.environment_eq] at ranNo leadsNo
      refine ⟨afterNo, Stmt.check_branch_eq_ok_iff.mpr ⟨_, _, afterYes, ranYes, ranNo, ?_⟩,
        leadsYes.trans leadsNo⟩
      simp only [Stmt.checkIn, t.names_environment, Expr.conditionFaults_unscoped]
  | .branch condition yes none l, t, h => by
      obtain ⟨after, ran, leads⟩ := Block.check_follows settings result yes h
      refine ⟨after, Stmt.check_when_eq_ok_iff.mpr ⟨_, ran, ?_⟩, leads⟩
      simp only [Stmt.checkIn, t.names_environment, Expr.conditionFaults_unscoped]
  | .loop condition body l, t, h => by
      obtain ⟨after, ran, leads⟩ := Block.check_follows settings result body h
      refine ⟨after, Stmt.check_loop_eq_ok_iff.mpr ⟨_, ran, ?_⟩, leads⟩
      simp only [Stmt.checkIn, t.names_environment, Expr.conditionFaults_unscoped]
  | .block b, _, h => Block.check_follows settings result b h

theorem Block.check_follows (settings : AnalysisSettings) (result : Option Ty) :
    (b : Block) → {t : SymbolTable} → t.WellFormed →
      t.Follows (b.check settings result t) (t.environment, b.checkIn settings result t.environment)
  | .mk statements l, t, h => by
      have inner := Stmt.checkAll_follows settings result statements (h.push .block)
      rw [h.environment_push] at inner
      have outer := Stmt.tail_checkAllIn settings result statements (t.environment.enter .block)
      exact inner.within h outer

theorem Stmt.checkAll_follows (settings : AnalysisSettings) (result : Option Ty) :
    (statements : List Stmt) → {t : SymbolTable} → t.WellFormed →
      t.Follows (Stmt.checkAll settings result statements t)
        (Stmt.checkAllIn settings result statements t.environment)
  | [], _, h => .pure rfl (.refl h)
  | s :: rest, t, h => by
      obtain ⟨next, ran, leads⟩ := Stmt.check_follows settings result s h
      obtain ⟨after, ranRest, leadsRest⟩ :=
        Stmt.checkAll_follows settings result rest leads.wellFormed
      rw [leads.environment_eq] at ranRest leadsRest
      exact ⟨after, Stmt.checkAll_cons_eq_ok_iff.mpr ⟨_, _, next, ran, ranRest, rfl⟩,
        leads.trans leadsRest⟩

end

theorem FunctionSymbol.checkBody_follows (settings : AnalysisSettings) (f : FunctionSymbol)
    (body : Block) (h : t.WellFormed) :
    t.Follows (f.checkBody settings body t)
      (t.environment, f.checkBodyIn settings body t.environment) := by
  obtain ⟨ready, bound, leads⟩ := SymbolTable.declareParams_follows f.params (h.push .function)
  obtain ⟨after, ran, more⟩ :=
    Stmt.checkAll_follows settings (some f.result) body.statements leads.wellFormed
  rw [leads.environment_eq] at ran more
  rw [h.environment_push] at bound ran more
  obtain ⟨params, rfl⟩ := EStateM.Result.ok.inj bound
  have outer : (Stmt.checkAllIn settings (some f.result) body.statements
      ((t.environment.enter .function).bindParams f.params).1).1.tail = t.environment := by
    rw [Stmt.tail_checkAllIn, Environment.tail_bindParams, Environment.tail_enter]
  obtain ⟨closed, back, ended⟩ := (leads.trans more).close h outer
  refine ⟨closed, FunctionSymbol.checkBody_eq_ok_iff.mpr ⟨_, after, ran, back, ?_⟩, ended⟩
  rw [params]
  rfl

def Standing.unscoped : Standing → Standing
  | .registered symbol => .registered symbol.unscoped
  | .settled => .settled
  | .pending => .pending

def unscopedEntry : Item × Standing × List Fault → Item × Standing × List Fault
  | (item, standing, faults) => (item, standing.unscoped, faults)

theorem Item.declare_leads (settings : AnalysisSettings) (item : Item) (h : t.WellFormed) :
    t.Leads (item.declare settings t).1 (item.declareIn settings t.environment).1 ∧
      (item.declareIn settings t.environment).2 =
        ((item.declare settings t).2.1.unscoped, (item.declare settings t).2.2) := by
  cases item with
  | function decl =>
      simp only [Item.declare, Item.declareIn, SymbolTable.declareFunction_eq, h.site_environment,
        FunctionDecl.symbol_unscoped]
      cases found : decl.symbol settings t.site with
      | error faults => exact ⟨.refl h, rfl⟩
      | ok f => exact ⟨.add h (FunctionDecl.admits_symbol found), rfl⟩
  | var decl =>
      simp only [Item.declare, Item.declareIn, t.names_environment, VariableDecl.isFolded_unscoped]
      by_cases folded : decl.isFolded t.names
      · obtain ⟨after, ran, leads⟩ := SymbolTable.checkVariable_follows h settings decl
        obtain ⟨faults, rfl⟩ := EStateM.Result.ok.inj ran
        simp only [folded, if_true, faults]
        exact ⟨leads, rfl⟩
      · simp only [folded]
        exact ⟨.refl h, rfl⟩

theorem declareItems_leads (settings : AnalysisSettings) (items : List Item) {t : SymbolTable}
    (h : t.WellFormed) :
    t.Leads (declareItems settings items t).1
        (Environment.declareItems settings items t.environment).1 ∧
      (Environment.declareItems settings items t.environment).2 =
        (declareItems settings items t).2.map unscopedEntry := by
  induction items generalizing t with
  | nil => exact ⟨.refl h, rfl⟩
  | cons item rest ih =>
      obtain ⟨first, same⟩ := item.declare_leads settings h
      obtain ⟨leads, sameRest⟩ := ih first.wellFormed
      rw [first.environment_eq] at leads sameRest
      refine ⟨first.trans leads, ?_⟩
      simp only [Environment.declareItems, declareItems, sameRest, same]
      rfl

theorem Item.complete_follows (settings : AnalysisSettings) (item : Item) (standing : Standing)
    (h : t.WellFormed) :
    t.Follows (item.complete settings standing t)
      (item.completeIn settings t.environment standing.unscoped) := by
  have idle : t.Follows (.ok [] t) (t.environment, ([] : List Fault)) := .pure rfl (.refl h)
  cases item with
  | var decl =>
      cases standing with
      | pending => exact SymbolTable.checkVariable_follows h settings decl
      | settled => exact idle
      | registered f => exact idle
  | function decl =>
      cases standing with
      | pending => exact idle
      | settled => exact idle
      | registered f =>
          simp only [Item.complete, Item.completeIn, Standing.unscoped]
          cases decl.body with
          | none => exact idle
          | some body => exact f.checkBody_follows settings body h

theorem completeItems_follows (settings : AnalysisSettings)
    (declared : List (Item × Standing × List Fault)) {t : SymbolTable} (h : t.WellFormed) :
    t.Follows (completeItems settings declared t)
      (Environment.completeItems settings (declared.map unscopedEntry) t.environment) := by
  induction declared generalizing t with
  | nil => exact .pure rfl (.refl h)
  | cons entry rest ih =>
      obtain ⟨item, standing, faults⟩ := entry
      obtain ⟨next, ran, leads⟩ := item.complete_follows settings standing h
      obtain ⟨after, ranRest, leadsRest⟩ := ih leads.wellFormed
      rw [leads.environment_eq] at ranRest leadsRest
      exact ⟨after, completeItems_cons_eq_ok_iff.mpr ⟨_, _, next, ran, ranRest, rfl⟩,
        leads.trans leadsRest⟩

theorem analyzeItems_follows (settings : AnalysisSettings) (items : List Item) (h : t.WellFormed) :
    t.Follows (analyzeItems settings items t)
      (Environment.analyzeItems settings items t.environment) := by
  obtain ⟨first, same⟩ := declareItems_leads settings items h
  obtain ⟨after, ran, leads⟩ :=
    completeItems_follows settings (declareItems settings items t).2 first.wellFormed
  rw [first.environment_eq, ← same] at ran leads
  exact ⟨after, ran, first.trans leads⟩

/-- The analysis of a program succeeds, ends in the scope it began in, and finds item by item what
the lexical checker finds. -/
theorem Program.analyze_eq_ok (settings : AnalysisSettings) (program : Program) :
    ∃ a, program.analyze settings = .ok a ∧ a.blocks = program.checkLexically settings ∧
      SymbolTable.empty.Leads a.table a.table.environment := by
  have h := SymbolTable.WellFormed.empty
  unfold Program.analyze Program.checkLexically
  cases program.module? with
  | none =>
      obtain ⟨after, ran, leads⟩ := analyzeItems_follows settings program.items h
      rw [SymbolTable.environment_empty] at ran leads
      simp only [ran]
      exact ⟨_, rfl, rfl, leads.environment_eq ▸ leads⟩
  | some name =>
      have inner := analyzeItems_follows settings program.items (h.push .module)
      have outer := Environment.tail_analyzeItems settings program.items
        (SymbolTable.empty.push .module).environment
      rw [h.environment_push, SymbolTable.environment_empty] at inner outer
      obtain ⟨after, ran, leads⟩ := inner.within h (outer.trans SymbolTable.environment_empty.symm)
      simp only [ran]
      exact ⟨_, rfl, rfl, leads.environment_eq ▸ leads⟩

/-- The analysis reports exactly the faults of the lexical checker, in the same order. Closed scopes
never matter, since the lexical checker has forgotten them. -/
theorem Program.faults_eq_lexical (settings : AnalysisSettings) (program : Program) :
    (program.analyze settings).map Analysis.faults =
      .ok (program.checkLexically settings).flatten := by
  obtain ⟨a, ran, blocks, -⟩ := program.analyze_eq_ok settings
  rw [ran, ← blocks]
  rfl

end SemanticCheck
