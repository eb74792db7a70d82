import SemanticCheck.Analysis
import SemanticCheck.Proofs.Findings
import SemanticCheck.Proofs.SymbolTable

/-!
Declarations and the table. A declaration without faults introduces a symbol of the current scope
with a free name, so adding it to the table cannot fail any more: a declaration either reports its
own faults and changes nothing, or adds exactly its symbol.
-/
namespace SemanticCheck

theorem Site.duplicateFaults_eq_nil_iff {site : Site} {i : Ident} :
    site.duplicateFaults i = [] ↔ site.own i.name = none := by
  unfold Site.duplicateFaults
  cases site.own i.name with
  | none => simp
  | some x => simp

/-- A symbol that the current scope can take. -/
structure SymbolTable.Admits (t : SymbolTable) (x : Symbol) : Prop where
  here : x.scope = t.current
  free : t.top.lookup x.name = none

theorem SymbolTable.Admits.declare {t : SymbolTable} {x : Symbol} (h : t.Admits x) :
    t.declare x = .ok () (t.add x) :=
  declare_eq_ok_iff.mpr ⟨h.here, h.free, rfl⟩

theorem SymbolTable.WellFormed.add_of_admits {t : SymbolTable} {x : Symbol} (h : t.WellFormed)
    (admits : t.Admits x) : (t.add x).WellFormed :=
  h.add admits.here admits.free

/-- A table takes the symbol that the checks of a declaration let through, and stays as it is if there
is none. -/
def SymbolTable.receive {α : Type} (t : SymbolTable) (symbol : α → Symbol) :
    Outcome α → EStateM.Result (List Fault) SymbolTable α
  | .ok a => .ok a (t.add (symbol a))
  | .error faults => .error faults t

theorem SymbolTable.receive_eq_ok_iff {α : Type} {t after : SymbolTable} {symbol : α → Symbol}
    {o : Outcome α} {a : α} :
    t.receive symbol o = .ok a after ↔ o = .ok a ∧ after = t.add (symbol a) := by
  cases o with
  | error faults => simp [SymbolTable.receive]
  | ok b =>
      simp only [SymbolTable.receive, EStateM.Result.ok.injEq, Except.ok.injEq]
      constructor
      · rintro ⟨rfl, rfl⟩
        exact ⟨rfl, rfl⟩
      · rintro ⟨rfl, rfl⟩
        exact ⟨rfl, rfl⟩

theorem SymbolTable.receive_eq_error_iff {α : Type} {t after : SymbolTable} {symbol : α → Symbol}
    {o : Outcome α} {faults : List Fault} :
    t.receive symbol o = .error faults after ↔ o = .error faults ∧ after = t := by
  cases o with
  | error found => simp [SymbolTable.receive, eq_comm (a := after)]
  | ok a => simp [SymbolTable.receive]

theorem SymbolTable.answerOf_receive {α : Type} (t : SymbolTable) (symbol : α → Symbol) (o : Outcome α) :
    answerOf (t.receive symbol o) = o.map fun a => (a, t.add (symbol a)) := by
  cases o <;> rfl

/-- Checks that let only admissible symbols through are the only reason for a declaration to fail. -/
theorem SymbolTable.introduce_eq {α : Type} {t : SymbolTable} {check : Site → Outcome α}
    {symbol : α → Symbol} (admits : ∀ a, check t.site = .ok a → t.Admits (symbol a)) :
    t.introduce check symbol = t.receive symbol (check t.site) := by
  rw [SymbolTable.introduce, SymbolTable.get_bind]
  cases checked : check t.site with
  | error faults => rfl
  | ok a =>
      have added : (declare (symbol a)).adaptExcept ([·]) t = .ok () (t.add (symbol a)) := by
        rw [EStateM.adaptExcept, (admits a checked).declare]
      exact bind_eq_ok_iff.mpr ⟨a, t, rfl, bind_eq_ok_iff.mpr ⟨(), _, added, rfl⟩⟩

section Variables

variable {decl : VariableDecl} {settings : AnalysisSettings} {infer : Inference}

/-- A variable is introduced exactly when there is no fault and a type. -/
theorem VariableDecl.symbol_eq_ok_iff {site : Site} {v : VariableSymbol} :
    decl.symbol settings infer site = .ok v ↔
      decl.faults settings infer site = [] ∧
      ∃ ty, (decl.typed settings infer site.names).2 = some ty ∧
        v = { name := decl.name.name, ty, scope := site.scope, location := decl.location
              storage := decl.storage, isConst := decl.constant
              constantValue := decl.foldedValue site.names ty } := by
  rw [VariableDecl.symbol_eq]
  cases found : decl.faults settings infer site with
  | cons fault rest => simp [Outcome.finish]
  | nil =>
      cases typed : (decl.typed settings infer site.names).2 with
      | none => simp [Outcome.finish, Outcome.refuse]
      | some ty => simp [Outcome.finish, eq_comm]

theorem VariableDecl.admits_symbol {t : SymbolTable} {v : VariableSymbol}
    (h : decl.symbol settings infer t.site = .ok v) : t.Admits (.var v) := by
  obtain ⟨clean, ty, -, rfl⟩ := VariableDecl.symbol_eq_ok_iff.mp h
  simp only [VariableDecl.faults, List.append_eq_nil_iff] at clean
  exact ⟨rfl, Site.duplicateFaults_eq_nil_iff.mp clean.1.1.1.2⟩

/-- Declaring a variable fails only with the faults of the declaration itself. -/
theorem SymbolTable.declareVariable_eq (t : SymbolTable) (settings : AnalysisSettings)
    (infer : Inference) (decl : VariableDecl) :
    t.declareVariable settings infer decl = t.receive .var (decl.symbol settings infer t.site) :=
  SymbolTable.introduce_eq fun _ => VariableDecl.admits_symbol

theorem SymbolTable.declareVariable_eq_ok_iff {t after : SymbolTable} {v : VariableSymbol} :
    t.declareVariable settings infer decl = .ok v after ↔
      decl.symbol settings infer t.site = .ok v ∧ after = t.add (.var v) := by
  rw [SymbolTable.declareVariable_eq, SymbolTable.receive_eq_ok_iff]

theorem SymbolTable.declareVariable_eq_error_iff {t after : SymbolTable} {faults : List Fault} :
    t.declareVariable settings infer decl = .error faults after ↔
      decl.symbol settings infer t.site = .error faults ∧ after = t := by
  rw [SymbolTable.declareVariable_eq, SymbolTable.receive_eq_error_iff]

theorem SymbolTable.checkVariable_eq (t : SymbolTable) (settings : AnalysisSettings)
    (decl : VariableDecl) :
    t.checkVariable settings decl =
      match decl.symbol settings (Expr.infer settings) t.site with
      | .ok v => (t.add (.var v), [])
      | .error faults => (t, faults) := by
  rw [SymbolTable.checkVariable, SymbolTable.declareVariable_eq]
  cases decl.symbol settings (Expr.infer settings) t.site <;> rfl

end Variables

section Functions

variable {decl : FunctionDecl} {settings : AnalysisSettings}

theorem FunctionDecl.symbol_eq_ok_iff {site : Site} {f : FunctionSymbol} :
    decl.symbol settings site = .ok f ↔
      decl.faults settings site = [] ∧
      f = { name := decl.name.name, params := decl.paramSymbols site.names
            result := decl.resultTy site.names, scope := site.scope, location := decl.location
            isCallback := decl.callback, isExported := decl.exported } := by
  rw [FunctionDecl.symbol_eq, Outcome.finish_eq_ok_iff, eq_comm (a := f)]

theorem FunctionDecl.admits_symbol {t : SymbolTable} {f : FunctionSymbol}
    (h : decl.symbol settings t.site = .ok f) : t.Admits (.function f) := by
  obtain ⟨clean, rfl⟩ := FunctionDecl.symbol_eq_ok_iff.mp h
  simp only [FunctionDecl.faults, List.append_eq_nil_iff] at clean
  exact ⟨rfl, Site.duplicateFaults_eq_nil_iff.mp clean.1.1.1.1.1.2⟩

theorem SymbolTable.declareFunction_eq (t : SymbolTable) (settings : AnalysisSettings)
    (decl : FunctionDecl) :
    t.declareFunction settings decl = t.receive .function (decl.symbol settings t.site) :=
  SymbolTable.introduce_eq fun _ => FunctionDecl.admits_symbol

theorem SymbolTable.declareFunction_eq_ok_iff {t after : SymbolTable} {f : FunctionSymbol} :
    t.declareFunction settings decl = .ok f after ↔
      decl.symbol settings t.site = .ok f ∧ after = t.add (.function f) := by
  rw [SymbolTable.declareFunction_eq, SymbolTable.receive_eq_ok_iff]

theorem SymbolTable.declareFunction_eq_error_iff {t after : SymbolTable} {faults : List Fault} :
    t.declareFunction settings decl = .error faults after ↔
      decl.symbol settings t.site = .error faults ∧ after = t := by
  rw [SymbolTable.declareFunction_eq, SymbolTable.receive_eq_error_iff]

end Functions

section Parameters

variable {t : SymbolTable} {p : ParameterSymbol}

/-- A parameter is declared when the current scope does not have its name yet. -/
theorem SymbolTable.declareParams_of_free (rest : List ParameterSymbol)
    (free : t.site.duplicateFaults ⟨p.name, p.location⟩ = []) :
    t.declareParams (p :: rest) = (t.add (.var (p.variableIn t.current))).declareParams rest := by
  have admits : t.Admits (.var (p.variableIn t.current)) :=
    ⟨rfl, Site.duplicateFaults_eq_nil_iff.mp free⟩
  simp only [SymbolTable.declareParams, admits.declare]

/-- A parameter whose name the current scope has already is refused, and the others go on. -/
theorem SymbolTable.declareParams_of_taken (rest : List ParameterSymbol)
    (taken : t.site.duplicateFaults ⟨p.name, p.location⟩ ≠ []) :
    t.declareParams (p :: rest) =
      ((t.declareParams rest).1,
        t.site.duplicateFaults ⟨p.name, p.location⟩ ++ (t.declareParams rest).2) := by
  have here : (Symbol.var (p.variableIn t.current)).scope = t.current := rfl
  have name : (Symbol.var (p.variableIn t.current)).name = p.name := rfl
  cases own : t.top.lookup p.name with
  | none => exact absurd (Site.duplicateFaults_eq_nil_iff.mpr own) taken
  | some existing =>
      have reported : t.site.duplicateFaults ⟨p.name, p.location⟩ =
          [(Cause.duplicateSymbol p.name existing.kind existing.location).fault p.location] := by
        simp only [Site.duplicateFaults, SymbolTable.site, own]
      simp only [SymbolTable.declareParams, SymbolTable.declare_eq, here, name, if_true, own, reported]
      rfl

end Parameters

end SemanticCheck
