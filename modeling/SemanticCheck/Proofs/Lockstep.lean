import Mathlib.Data.List.Forall2
import SemanticCheck.Proofs.Passes

/-!
Two analyses side by side. They may differ in their settings, in the nodes they read and in the tables
they work on. When every single check of the second one answers to that of the first, so do whole runs:
the way through statements, bodies and items is the same for both.
-/
namespace SemanticCheck

/-- Another program of the same shape, node by node. -/
structure Rewriting where
  place : Location → Location
  expr : Expr → Expr
  assignment : Assignment → Assignment
  var : VariableDecl → VariableDecl
  stmt : Stmt → Stmt
  block : Block → Block
  function : FunctionDecl → FunctionDecl
  stmt_declare : ∀ decl, stmt (.declare decl) = .declare (var decl)
  stmt_assign : ∀ a, stmt (.assign a) = .assign (assignment a)
  stmt_expr : ∀ e, stmt (.expr e) = .expr (expr e)
  stmt_ret : ∀ value l, stmt (.ret value l) = .ret (value.map expr) (place l)
  stmt_branch : ∀ condition yes no l,
    stmt (.branch condition yes no l) = .branch (expr condition) (block yes) (no.map block) (place l)
  stmt_loop : ∀ condition body l,
    stmt (.loop condition body l) = .loop (expr condition) (block body) (place l)
  stmt_block : ∀ b, stmt (.block b) = .block (block b)
  block_mk : ∀ statements l, block (.mk statements l) = .mk (statements.map stmt) (place l)
  body_function : ∀ decl, (function decl).body = decl.body.map block

namespace Rewriting

def item (r : Rewriting) : Item → Item
  | .function decl => .function (r.function decl)
  | .var decl => .var (r.var decl)

/-- Every node as it is. -/
def same : Rewriting where
  place := id
  expr := id
  assignment := id
  var := id
  stmt := id
  block := id
  function := id
  stmt_declare _ := rfl
  stmt_assign _ := rfl
  stmt_expr _ := rfl
  stmt_ret value l := by
    rw [Option.map_id]
    rfl
  stmt_branch condition yes no l := by
    rw [Option.map_id]
    rfl
  stmt_loop _ _ _ := rfl
  stmt_block _ := rfl
  block_mk statements l := by
    rw [List.map_id]
    rfl
  body_function decl := by
    rw [Option.map_id]
    rfl

theorem map_item_same (items : List Item) : items.map same.item = items := by
  have each : same.item = id := by
    funext item
    cases item <;> rfl
  rw [each, List.map_id]

theorem statements_block (r : Rewriting) (b : Block) :
    (r.block b).statements = b.statements.map r.stmt := by
  obtain ⟨statements, l⟩ := b
  rw [r.block_mk]
  rfl

end Rewriting

/-- How a second analysis differs from a first one. The first is followed as long as the faults it
reports are of a certain kind, and the faults of the second are then compared with them. -/
structure Variation where
  settings : AnalysisSettings
  other : AnalysisSettings
  nodes : Rewriting
  param : ParameterSymbol → ParameterSymbol
  function : FunctionSymbol → FunctionSymbol
  Tables : SymbolTable → SymbolTable → Prop
  Followed : List Fault → Prop
  Alike : List Fault → List Fault → Prop

namespace Variation

variable (v : Variation)

def Agree (found found' : List Fault) : Prop := v.Followed found → v.Alike found found'

/-- The second outcome is a success like the first, or a failure like the first. -/
structure Outcomes {α : Type} (Values : α → α → Prop) (o o' : Outcome α) : Prop where
  value : ∀ a, o = .ok a → ∃ a', o' = .ok a' ∧ Values a a'
  failure : ∀ found, o = .error found → v.Followed found → ∃ found', o' = .error found' ∧
    v.Alike found found'

/-- The second run gets through when the first does, as far as that one is followed. -/
def Answers (run run' : Progress) : Prop :=
  ∀ after found, run = .ok found after → v.Followed found →
    ∃ after' found', run' = .ok found' after' ∧ v.Tables after after' ∧ v.Alike found found'

/-- The single checks of the second analysis answer to those of the first. -/
structure Lockstep : Prop where
  followed_append : ∀ {found more}, v.Followed (found ++ more) → v.Followed found ∧ v.Followed more
  alike_nil : v.Alike [] []
  alike_append : ∀ {found found' more more'}, v.Alike found found' → v.Alike more more' →
    v.Alike (found ++ more) (found' ++ more')
  result_eq : ∀ f, (v.function f).result = f.result
  params_eq : ∀ f, (v.function f).params = f.params.map v.param
  push : ∀ {t t'} (kind : ScopeKind), v.Tables t t' → v.Tables (t.push kind) (t'.push kind)
  close : ∀ {t t' after after' outer} {kind : ScopeKind}, v.Tables t t' → v.Tables after after' →
    after.close (t.push kind).current = .ok () outer →
    ∃ outer', after'.close (t'.push kind).current = .ok () outer' ∧ v.Tables outer outer'
  assign : ∀ {t t'} (a : Assignment), v.Tables t t' →
    v.Agree (Outcome.faults (Inference.assign (Expr.infer v.settings) v.settings t.names a))
      (Outcome.faults (Inference.assign (Expr.infer v.other) v.other t'.names (v.nodes.assignment a)))
  infer : ∀ {t t'} (e : Expr), v.Tables t t' →
    v.Agree (Outcome.faults (e.infer v.settings t.names))
      (Outcome.faults ((v.nodes.expr e).infer v.other t'.names))
  condition : ∀ {t t'} (e : Expr), v.Tables t t' →
    v.Agree (e.conditionFaults v.settings t.names)
      ((v.nodes.expr e).conditionFaults v.other t'.names)
  result : ∀ {t t'} (ty : Option Ty) (value : Option Expr) (l : Location), v.Tables t t' →
    v.Agree (returnFaults v.settings t.names ty value l)
      (returnFaults v.other t'.names ty (value.map v.nodes.expr) (v.nodes.place l))
  var : ∀ {t t'} (decl : VariableDecl), v.Tables t t' →
    v.Outcomes (fun x x' => v.Tables (t.add (.var x)) (t'.add (.var x')))
      (decl.symbol v.settings (Expr.infer v.settings) t.site)
      ((v.nodes.var decl).symbol v.other (Expr.infer v.other) t'.site)
  isFolded_eq : ∀ {t t'} (decl : VariableDecl), v.Tables t t' →
    (v.nodes.var decl).isFolded t'.names = decl.isFolded t.names
  signature : ∀ {t t'} (decl : FunctionDecl), v.Tables t t' →
    v.Outcomes (fun f f' => f' = v.function f ∧ v.Tables (t.add (.function f)) (t'.add (.function f')))
      (decl.symbol v.settings t.site) ((v.nodes.function decl).symbol v.other t'.site)
  duplicate : ∀ {t t'} (p : ParameterSymbol), v.Tables t t' →
    v.Outcomes v.Tables
      (Outcome.finish (t.site.duplicateFaults ⟨p.name, p.location⟩)
        (t.add (.var (p.variableIn t.current))))
      (Outcome.finish (t'.site.duplicateFaults ⟨(v.param p).name, (v.param p).location⟩)
        (t'.add (.var ((v.param p).variableIn t'.current))))

end Variation

variable {v : Variation} {t t' : SymbolTable}

theorem Variation.Outcomes.finish {α : Type} {Values : α → α → Prop} {found found' : List Fault}
    {a a' : α} (clean : found = [] ↔ found' = []) (agree : v.Agree found found') (values : Values a a') :
    v.Outcomes Values (Outcome.finish found a) (Outcome.finish found' a') := by
  constructor
  · intro b finished
    obtain ⟨nothing, rfl⟩ := Outcome.finish_eq_ok_iff.mp finished
    exact ⟨a', Outcome.finish_eq_ok_iff.mpr ⟨clean.mp nothing, rfl⟩, values⟩
  · intro faults failed followed
    obtain ⟨rfl, some_fault⟩ := Outcome.finish_eq_error_iff.mp failed
    exact ⟨found', Outcome.finish_eq_error_iff.mpr ⟨rfl, fun nothing => some_fault (clean.mpr nothing)⟩,
      agree followed⟩

theorem Variation.Answers.stay {found found' : List Fault} (tables : v.Tables t t')
    (agree : v.Agree found found') : v.Answers (.ok found t) (.ok found' t') := by
  intro after faults ran followed
  cases ran
  exact ⟨t', found', rfl, tables, agree followed⟩

namespace Variation.Lockstep

theorem within (k : v.Lockstep) (tables : v.Tables t t') {kind : ScopeKind}
    {steps steps' : Checking}
    (inner : v.Answers (steps (t.push kind)) (steps' (t'.push kind))) :
    v.Answers (t.within kind steps) (t'.within kind steps') := by
  intro outer found ran followed
  obtain ⟨after, first, closed⟩ := SymbolTable.within_eq_ok_iff.mp ran
  obtain ⟨after', found', first', ended, alike⟩ := inner after found first followed
  obtain ⟨outer', closed', left⟩ := k.close tables ended closed
  exact ⟨outer', found', SymbolTable.within_eq_ok_iff.mpr ⟨after', first', closed'⟩, left, alike⟩

theorem checkVariable (k : v.Lockstep) (decl : VariableDecl) (tables : v.Tables t t') :
    v.Answers (.ok (t.checkVariable v.settings decl).2 (t.checkVariable v.settings decl).1)
      (.ok (t'.checkVariable v.other (v.nodes.var decl)).2
        (t'.checkVariable v.other (v.nodes.var decl)).1) := by
  rw [SymbolTable.checkVariable_eq, SymbolTable.checkVariable_eq]
  have outcomes := k.var decl tables
  cases declared : decl.symbol v.settings (Expr.infer v.settings) t.site with
  | ok x =>
      obtain ⟨x', declared', added⟩ := outcomes.value x declared
      rw [declared']
      exact .stay added fun _ => k.alike_nil
  | error found =>
      intro after faults ran followed
      cases ran
      obtain ⟨found', declared', alike⟩ := outcomes.failure found declared followed
      rw [declared']
      exact ⟨t', found', rfl, tables, alike⟩

theorem declareParams (k : v.Lockstep) (params : List ParameterSymbol) (tables : v.Tables t t') :
    v.Answers (.ok (t.declareParams params).2 (t.declareParams params).1)
      (.ok (t'.declareParams (params.map v.param)).2 (t'.declareParams (params.map v.param)).1) := by
  induction params generalizing t t' with
  | nil => exact .stay tables fun _ => k.alike_nil
  | cons p rest ih =>
      have outcomes := k.duplicate p tables
      rw [List.map_cons]
      by_cases free : t.site.duplicateFaults ⟨p.name, p.location⟩ = []
      · rw [free] at outcomes
        obtain ⟨next', added, tables'⟩ := outcomes.value _ rfl
        obtain ⟨free', rfl⟩ := Outcome.finish_eq_ok_iff.mp added
        rw [SymbolTable.declareParams_of_free rest free, SymbolTable.declareParams_of_free _ free']
        exact ih tables'
      · rw [SymbolTable.declareParams_of_taken rest free]
        intro after found ran followed
        cases ran
        obtain ⟨here, later⟩ := k.followed_append followed
        obtain ⟨first', refused, alike⟩ :=
          outcomes.failure _ (Outcome.finish_eq_error_iff.mpr ⟨rfl, free⟩) here
        obtain ⟨rfl, taken'⟩ := Outcome.finish_eq_error_iff.mp refused
        obtain ⟨after', more', ran', tables', alikeRest⟩ := ih tables _ _ rfl later
        obtain ⟨rfl, rfl⟩ := EStateM.Result.ok.inj ran'
        rw [SymbolTable.declareParams_of_taken _ taken']
        exact ⟨_, _, rfl, tables', k.alike_append alike alikeRest⟩

/-- A step behind a condition. -/
theorem guarded (k : v.Lockstep) (condition : Expr) (tables : v.Tables t t') {step step' : Checking}
    (inner : v.Answers (step t) (step' t')) :
    v.Answers
      ((do
        let own := condition.conditionFaults v.settings (← get).names
        return own ++ (← step) : Checking) t)
      ((do
        let own := (v.nodes.expr condition).conditionFaults v.other (← get).names
        return own ++ (← step') : Checking) t') := by
  intro after found ran followed
  obtain ⟨faults, first, rfl⟩ := Expr.guarded_eq_ok_iff.mp ran
  obtain ⟨here, later⟩ := k.followed_append followed
  obtain ⟨after', faults', first', ended, alike⟩ := inner _ _ first later
  exact ⟨after', _, Expr.guarded_eq_ok_iff.mpr ⟨faults', first', rfl⟩, ended,
    k.alike_append (k.condition condition tables here) alike⟩

end Variation.Lockstep

mutual

theorem Stmt.check_lockstep (k : v.Lockstep) (result : Option Ty) :
    (s : Stmt) → {t t' : SymbolTable} → v.Tables t t' →
      v.Answers (s.check v.settings result t) ((v.nodes.stmt s).check v.other result t')
  | .declare decl, _, _, tables => by
      rw [v.nodes.stmt_declare]
      exact k.checkVariable decl tables
  | .assign a, _, _, tables => by
      rw [v.nodes.stmt_assign]
      exact .stay tables (k.assign a tables)
  | .expr e, _, _, tables => by
      rw [v.nodes.stmt_expr]
      exact .stay tables (k.infer e tables)
  | .ret value l, _, _, tables => by
      rw [v.nodes.stmt_ret]
      exact .stay tables (k.result result value l tables)
  | .branch condition yes (some no) l, _, _, tables => by
      rw [v.nodes.stmt_branch]
      intro after found ran followed
      obtain ⟨yesFaults, noFaults, middle, first, second, rfl⟩ := Stmt.check_branch_eq_ok_iff.mp ran
      obtain ⟨followedYes, followedNo⟩ := k.followed_append followed
      obtain ⟨followedCondition, followedYes⟩ := k.followed_append followedYes
      obtain ⟨middle', yesFaults', first', between, alikeYes⟩ :=
        Block.check_lockstep k result yes tables _ _ first followedYes
      obtain ⟨after', noFaults', second', ended, alikeNo⟩ :=
        Block.check_lockstep k result no between _ _ second followedNo
      have alike := k.alike_append (k.condition condition tables followedCondition) alikeYes
      exact ⟨after', _, Stmt.check_branch_eq_ok_iff.mpr ⟨_, _, _, first', second', rfl⟩, ended,
        k.alike_append alike alikeNo⟩
  | .branch condition yes none l, _, _, tables => by
      rw [v.nodes.stmt_branch]
      exact k.guarded condition tables (Block.check_lockstep k result yes tables)
  | .loop condition body l, _, _, tables => by
      rw [v.nodes.stmt_loop]
      exact k.guarded condition tables (Block.check_lockstep k result body tables)
  | .block b, _, _, tables => by
      rw [v.nodes.stmt_block]
      exact Block.check_lockstep k result b tables

theorem Block.check_lockstep (k : v.Lockstep) (result : Option Ty) :
    (b : Block) → {t t' : SymbolTable} → v.Tables t t' →
      v.Answers (b.check v.settings result t) ((v.nodes.block b).check v.other result t')
  | .mk statements l, _, _, tables => by
      rw [v.nodes.block_mk]
      exact k.within tables (Stmt.checkAll_lockstep k result statements (k.push .block tables))

theorem Stmt.checkAll_lockstep (k : v.Lockstep) (result : Option Ty) :
    (statements : List Stmt) → {t t' : SymbolTable} → v.Tables t t' →
      v.Answers (Stmt.checkAll v.settings result statements t)
        (Stmt.checkAll v.other result (statements.map v.nodes.stmt) t')
  | [], _, _, tables => .stay tables fun _ => k.alike_nil
  | s :: rest, _, _, tables => by
      intro after found ran followed
      obtain ⟨faults, more, next, first, second, rfl⟩ := Stmt.checkAll_cons_eq_ok_iff.mp ran
      obtain ⟨followedFirst, followedRest⟩ := k.followed_append followed
      obtain ⟨next', faults', first', between, alike⟩ :=
        Stmt.check_lockstep k result s tables _ _ first followedFirst
      obtain ⟨after', more', second', ended, alikeRest⟩ :=
        Stmt.checkAll_lockstep k result rest between _ _ second followedRest
      exact ⟨after', _, Stmt.checkAll_cons_eq_ok_iff.mpr ⟨_, _, _, first', second', rfl⟩, ended,
        k.alike_append alike alikeRest⟩

end

theorem FunctionSymbol.checkBody_lockstep (k : v.Lockstep) (f : FunctionSymbol) (body : Block)
    (tables : v.Tables t t') :
    v.Answers (f.checkBody v.settings body t)
      ((v.function f).checkBody v.other (v.nodes.block body) t') := by
  intro outer found ran followed
  obtain ⟨more, after, checked, closed, rfl⟩ := FunctionSymbol.checkBody_eq_ok_iff.mp ran
  obtain ⟨here, later⟩ := k.followed_append followed
  obtain ⟨ready', faults', declared, begun, alike⟩ :=
    k.declareParams f.params (k.push .function tables) _ _ rfl here
  obtain ⟨after', more', checked', ended, alikeRest⟩ :=
    Stmt.checkAll_lockstep k (some f.result) body.statements begun _ _ checked later
  obtain ⟨outer', closed', left⟩ := k.close tables ended closed
  refine ⟨outer', faults' ++ more', ?_, left, k.alike_append alike alikeRest⟩
  obtain ⟨rfl, rfl⟩ := EStateM.Result.ok.inj declared
  refine FunctionSymbol.checkBody_eq_ok_iff.mpr ⟨more', after', ?_, closed', ?_⟩
  · rw [k.params_eq, k.result_eq, v.nodes.statements_block]
    exact checked'
  · rw [k.params_eq]

def Variation.standing (v : Variation) : Standing → Standing
  | .registered f => .registered (v.function f)
  | .settled => .settled
  | .pending => .pending

/-- What the first passes note about an item. -/
structure Variation.Entries (v : Variation) (entry entry' : Item × Standing × List Fault) : Prop where
  item_eq : entry'.1 = v.nodes.item entry.1
  standing_eq : entry'.2.1 = v.standing entry.2.1
  alike : v.Alike entry.2.2 entry'.2.2

theorem Item.declare_lockstep (k : v.Lockstep) (item : Item) (tables : v.Tables t t')
    (followed : v.Followed (item.declare v.settings t).2.2) :
    v.Tables (item.declare v.settings t).1 ((v.nodes.item item).declare v.other t').1 ∧
      v.Entries (item, (item.declare v.settings t).2)
        (v.nodes.item item, ((v.nodes.item item).declare v.other t').2) := by
  cases item with
  | function decl =>
      have outcomes := k.signature decl tables
      simp only [Rewriting.item, Item.declare, SymbolTable.declareFunction_eq] at followed ⊢
      cases declared : decl.symbol v.settings t.site with
      | ok f =>
          obtain ⟨f', declared', rfl, added⟩ := outcomes.value f declared
          rw [declared']
          exact ⟨added, rfl, rfl, k.alike_nil⟩
      | error found =>
          rw [declared] at followed
          obtain ⟨found', declared', alike⟩ := outcomes.failure found declared followed
          rw [declared']
          exact ⟨tables, rfl, rfl, alike⟩
  | var decl =>
      simp only [Rewriting.item, Item.declare, k.isFolded_eq decl tables] at followed ⊢
      by_cases folded : decl.isFolded t.names = true
      · simp only [folded, if_true] at followed ⊢
        obtain ⟨after', found', same, tables', alike⟩ := k.checkVariable decl tables _ _ rfl followed
        obtain ⟨rfl, rfl⟩ := EStateM.Result.ok.inj same
        exact ⟨tables', rfl, rfl, alike⟩
      · simp only [folded] at followed ⊢
        exact ⟨tables, rfl, rfl, k.alike_nil⟩

theorem declareItems_lockstep (k : v.Lockstep) (items : List Item) (tables : v.Tables t t')
    (followed : ∀ entry ∈ (declareItems v.settings items t).2, v.Followed entry.2.2) :
    v.Tables (declareItems v.settings items t).1
        (declareItems v.other (items.map v.nodes.item) t').1 ∧
      List.Forall₂ v.Entries (declareItems v.settings items t).2
        (declareItems v.other (items.map v.nodes.item) t').2 := by
  induction items generalizing t t' with
  | nil => exact ⟨tables, .nil⟩
  | cons item rest ih =>
      rw [List.map_cons, declareItems_cons, declareItems_cons]
      rw [declareItems_cons, List.forall_mem_cons] at followed
      obtain ⟨between, entry⟩ := item.declare_lockstep k tables followed.1
      obtain ⟨ended, entries⟩ := ih between followed.2
      exact ⟨ended, .cons entry entries⟩

theorem Item.complete_lockstep (k : v.Lockstep) (item : Item) (standing : Standing)
    (tables : v.Tables t t') :
    v.Answers (item.complete v.settings standing t)
      ((v.nodes.item item).complete v.other (v.standing standing) t') := by
  have idle : v.Answers (.ok [] t) (.ok [] t') := .stay tables fun _ => k.alike_nil
  cases item with
  | var decl =>
      cases standing with
      | pending => exact k.checkVariable decl tables
      | settled => exact idle
      | registered f => exact idle
  | function decl =>
      cases standing with
      | pending => exact idle
      | settled => exact idle
      | registered f =>
          simp only [Rewriting.item, Variation.standing, Item.complete, v.nodes.body_function]
          cases decl.body with
          | none => exact idle
          | some body => exact f.checkBody_lockstep k body tables

theorem completeItems_lockstep (k : v.Lockstep) {entries entries' : List (Item × Standing × List Fault)}
    (noted : List.Forall₂ v.Entries entries entries') {after : SymbolTable}
    {blocks : List (List Fault)} (tables : v.Tables t t')
    (ran : completeItems v.settings entries t = .ok blocks after)
    (followed : ∀ found ∈ blocks, v.Followed found) :
    ∃ after' blocks', completeItems v.other entries' t' = .ok blocks' after' ∧
      v.Tables after after' ∧ List.Forall₂ v.Alike blocks blocks' := by
  induction noted generalizing t t' blocks with
  | nil =>
      cases ran
      exact ⟨t', [], rfl, tables, .nil⟩
  | @cons entry entry' rest rest' first others ih =>
      obtain ⟨item, standing, faults⟩ := entry
      obtain ⟨item', standing', faults'⟩ := entry'
      obtain ⟨rfl, rfl, alike⟩ := first
      obtain ⟨more, later, next, step, tail, rfl⟩ := completeItems_cons_eq_ok_iff.mp ran
      rw [List.forall_mem_cons] at followed
      obtain ⟨next', more', step', between, alikeMore⟩ :=
        item.complete_lockstep k standing tables _ _ step (k.followed_append followed.1).2
      obtain ⟨after', later', tail', ended, alikeLater⟩ := ih between tail followed.2
      exact ⟨after', _, completeItems_cons_eq_ok_iff.mpr ⟨_, _, _, step', tail', rfl⟩, ended,
        .cons (k.alike_append alike alikeMore) alikeLater⟩

/-- The faults of the first pass are among those of the second. -/
theorem followed_of_completeItems (k : v.Lockstep) {entries : List (Item × Standing × List Fault)}
    {after : SymbolTable} {blocks : List (List Fault)}
    (ran : completeItems v.settings entries t = .ok blocks after)
    (followed : ∀ found ∈ blocks, v.Followed found) : ∀ entry ∈ entries, v.Followed entry.2.2 := by
  induction entries generalizing t blocks with
  | nil => exact List.forall_mem_nil _
  | cons entry rest ih =>
      obtain ⟨more, later, next, -, others, rfl⟩ := completeItems_cons_eq_ok_iff.mp ran
      rw [List.forall_mem_cons] at followed ⊢
      exact ⟨(k.followed_append followed.1).1, ih others followed.2⟩

theorem analyzeItems_lockstep (k : v.Lockstep) {items : List Item} {after : SymbolTable}
    {blocks : List (List Fault)} (tables : v.Tables t t')
    (ran : analyzeItems v.settings items t = .ok blocks after)
    (followed : ∀ found ∈ blocks, v.Followed found) :
    ∃ after' blocks', analyzeItems v.other (items.map v.nodes.item) t' = .ok blocks' after' ∧
      v.Tables after after' ∧ List.Forall₂ v.Alike blocks blocks' := by
  obtain ⟨between, noted⟩ :=
    declareItems_lockstep k items tables (followed_of_completeItems k ran followed)
  exact completeItems_lockstep k noted between ran followed

theorem Variation.Lockstep.alike_flatten (k : v.Lockstep) {blocks blocks' : List (List Fault)}
    (each : List.Forall₂ v.Alike blocks blocks') : v.Alike blocks.flatten blocks'.flatten := by
  induction each with
  | nil => exact k.alike_nil
  | cons first _ ih => exact k.alike_append first ih

namespace Program

variable {program other : Program} {a : Analysis}

theorem topTable_lockstep (k : v.Lockstep) (start : v.Tables .empty .empty)
    (named : other.module?.isSome = program.module?.isSome) :
    v.Tables program.topTable other.topTable := by
  unfold topTable
  generalize program.module? = given, other.module? = given' at named ⊢
  match given, given', named with
  | none, none, _ => exact start
  | some _, some _, _ => exact k.push .module start

theorem leave_lockstep (k : v.Lockstep) (start : v.Tables .empty .empty) {after after' left : SymbolTable}
    (named : other.module?.isSome = program.module?.isSome) (ended : v.Tables after after')
    (closed : program.leave after = .ok () left) :
    ∃ left', other.leave after' = .ok () left' ∧ v.Tables left left' := by
  unfold leave at closed ⊢
  generalize program.module? = given, other.module? = given' at named closed ⊢
  match given, given', named with
  | none, none, _ =>
      cases closed
      exact ⟨after', rfl, ended⟩
  | some _, some _, _ => exact k.close start ended closed

theorem moduleScope_eq (named : other.module?.isSome = program.module?.isSome) :
    other.moduleScope = program.moduleScope := by
  unfold moduleScope
  generalize program.module? = given, other.module? = given' at named ⊢
  match given, given', named with
  | none, none, _ => rfl
  | some _, some _, _ => rfl

/-- Programs of the same shape, either both in a module or both not, are analyzed side by side. -/
theorem analyze_lockstep (k : v.Lockstep) (start : v.Tables .empty .empty)
    (named : other.module?.isSome = program.module?.isSome)
    (items : other.items = program.items.map v.nodes.item)
    (ran : program.analyze v.settings = .ok a) (followed : ∀ found ∈ a.blocks, v.Followed found) :
    ∃ b, other.analyze v.other = .ok b ∧ v.Tables a.table b.table ∧ v.Alike a.faults b.faults ∧
      b.moduleScope = a.moduleScope := by
  obtain ⟨after, passes, closed, scope⟩ := analyze_eq_ok_iff.mp ran
  obtain ⟨after', blocks', passes', ended, alike⟩ :=
    analyzeItems_lockstep k (topTable_lockstep k start named) passes followed
  obtain ⟨left', closed', tables⟩ := leave_lockstep k start named ended closed
  rw [← items] at passes'
  refine ⟨⟨left', blocks', other.moduleScope⟩, ?_, tables, k.alike_flatten alike, ?_⟩
  · exact analyze_eq_ok_iff.mpr ⟨after', passes', closed', rfl⟩
  · rw [scope, ← moduleScope_eq named]

end Program

end SemanticCheck
