import SemanticCheck.Analysis
import SemanticCheck.Proofs.SymbolTable

/-!
The steps of an analysis, taken apart: what it means for each to get through, in terms of the steps it
is made of and the tables between them.
-/
namespace SemanticCheck

variable {settings : AnalysisSettings} {result : Option Ty} {t after : SymbolTable}
variable {found : List Fault}

/-- How a step of the check ended. -/
abbrev Progress := EStateM.Result ScopeError SymbolTable (List Fault)

open SymbolTable (get_bind map_eq_ok_iff map₂_eq_ok_iff within_eq_ok_iff)

/-- A step behind a condition, which is looked at before the step. -/
theorem Expr.guarded_eq_ok_iff {condition : Expr} {step : Checking} :
    (do
      let own := condition.conditionFaults settings (← get).names
      return own ++ (← step) : Checking) t = .ok found after ↔
      ∃ faults, step t = .ok faults after ∧
        found = condition.conditionFaults settings t.names ++ faults := by
  rw [get_bind]
  exact map_eq_ok_iff

theorem Stmt.check_branch_eq_ok_iff {condition : Expr} {yes no : Block} {l : Location} :
    (Stmt.branch condition yes (some no) l).check settings result t = .ok found after ↔
      ∃ yesFaults noFaults middle, yes.check settings result t = .ok yesFaults middle ∧
        no.check settings result middle = .ok noFaults after ∧
        found = condition.conditionFaults settings t.names ++ yesFaults ++ noFaults := by
  rw [Stmt.check, get_bind]
  exact map₂_eq_ok_iff

theorem Stmt.check_when_eq_ok_iff {condition : Expr} {yes : Block} {l : Location} :
    (Stmt.branch condition yes none l).check settings result t = .ok found after ↔
      ∃ faults, yes.check settings result t = .ok faults after ∧
        found = condition.conditionFaults settings t.names ++ faults := by
  rw [Stmt.check]
  exact Expr.guarded_eq_ok_iff

theorem Stmt.check_loop_eq_ok_iff {condition : Expr} {body : Block} {l : Location} :
    (Stmt.loop condition body l).check settings result t = .ok found after ↔
      ∃ faults, body.check settings result t = .ok faults after ∧
        found = condition.conditionFaults settings t.names ++ faults := by
  rw [Stmt.check]
  exact Expr.guarded_eq_ok_iff

theorem Block.check_eq_ok_iff {statements : List Stmt} {l : Location} :
    (Block.mk statements l).check settings result t = .ok found after ↔
      ∃ inner, Stmt.checkAll settings result statements (t.push .block) = .ok found inner ∧
        inner.close (t.push .block).current = .ok () after := by
  rw [Block.check]
  exact within_eq_ok_iff

theorem Stmt.checkAll_cons_eq_ok_iff {s : Stmt} {rest : List Stmt} :
    Stmt.checkAll settings result (s :: rest) t = .ok found after ↔
      ∃ faults more middle, s.check settings result t = .ok faults middle ∧
        Stmt.checkAll settings result rest middle = .ok more after ∧ found = faults ++ more := by
  rw [Stmt.checkAll]
  exact map₂_eq_ok_iff

/-- The parameters of a function are declared first, and its statements are checked with them. -/
theorem FunctionSymbol.checkBody_eq_ok_iff {f : FunctionSymbol} {body : Block} :
    f.checkBody settings body t = .ok found after ↔
      ∃ more inner, Stmt.checkAll settings (some f.result) body.statements
          ((t.push .function).declareParams f.params).1 = .ok more inner ∧
        inner.close (t.push .function).current = .ok () after ∧
        found = ((t.push .function).declareParams f.params).2 ++ more := by
  rw [FunctionSymbol.checkBody, within_eq_ok_iff]
  constructor
  · rintro ⟨inner, ran, closed⟩
    obtain ⟨_, more, _, ⟨⟩, checked, same⟩ := map₂_eq_ok_iff.mp ran
    exact ⟨more, inner, checked, closed, same⟩
  · rintro ⟨more, inner, checked, closed, same⟩
    exact ⟨inner, map₂_eq_ok_iff.mpr ⟨_, more, _, rfl, checked, same⟩, closed⟩

theorem completeItems_cons_eq_ok_iff {item : Item} {standing : Standing} {faults : List Fault}
    {rest : List (Item × Standing × List Fault)} {blocks : List (List Fault)} :
    completeItems settings ((item, standing, faults) :: rest) t = .ok blocks after ↔
      ∃ more later next, item.complete settings standing t = .ok more next ∧
        completeItems settings rest next = .ok later after ∧ blocks = (faults ++ more) :: later := by
  rw [completeItems]
  exact map₂_eq_ok_iff

theorem analyzeItems_eq (settings : AnalysisSettings) (items : List Item) (t : SymbolTable) :
    analyzeItems settings items t =
      completeItems settings (declareItems settings items t).2 (declareItems settings items t).1 := rfl

end SemanticCheck
