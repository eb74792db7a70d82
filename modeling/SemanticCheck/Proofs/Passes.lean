import SemanticCheck.Proofs.Refinement

/-!
The two passes of the analysis as runs over lists of items: how they split, that they always get
through, and how the analysis of a program is put together from them.
-/
namespace SemanticCheck

variable {settings : AnalysisSettings}

theorem declareItems_cons (settings : AnalysisSettings) (item : Item) (rest : List Item)
    (t : SymbolTable) :
    declareItems settings (item :: rest) t =
      ((declareItems settings rest (item.declare settings t).1).1,
        (item, (item.declare settings t).2) ::
          (declareItems settings rest (item.declare settings t).1).2) := rfl

theorem declareItems_append (settings : AnalysisSettings) (items more : List Item) (t : SymbolTable) :
    declareItems settings (items ++ more) t =
      ((declareItems settings more (declareItems settings items t).1).1,
        (declareItems settings items t).2 ++
          (declareItems settings more (declareItems settings items t).1).2) := by
  induction items generalizing t with
  | nil => rfl
  | cons item rest ih => simp only [List.cons_append, declareItems_cons, ih]

theorem length_declareItems (settings : AnalysisSettings) (items : List Item) (t : SymbolTable) :
    (declareItems settings items t).2.length = items.length := by
  induction items generalizing t with
  | nil => rfl
  | cons item rest ih => simp only [declareItems_cons, List.length_cons, ih]

/-- What the first pass notes about the first items depends on these items alone. -/
theorem take_declareItems (settings : AnalysisSettings) (items : List Item) (i : Nat)
    (t : SymbolTable) :
    (declareItems settings items t).2.take i = (declareItems settings (items.take i) t).2 := by
  induction items generalizing i t with
  | nil => simp [declareItems]
  | cons item rest ih =>
      cases i with
      | zero => rfl
      | succ i => simp only [declareItems_cons, List.take_succ_cons, ih]

theorem completeItems_append {declared more : List (Item × Standing × List Fault)}
    {t middle after : SymbolTable} {blocks rest : List (List Fault)}
    (h : completeItems settings declared t = .ok blocks middle)
    (k : completeItems settings more middle = .ok rest after) :
    completeItems settings (declared ++ more) t = .ok (blocks ++ rest) after := by
  induction declared generalizing t blocks with
  | nil =>
      cases h
      exact k
  | cons entry others ih =>
      obtain ⟨found, later, next, first, tail, rfl⟩ := completeItems_cons_eq_ok_iff.mp h
      exact completeItems_cons_eq_ok_iff.mpr ⟨found, later ++ rest, next, first, ih tail, rfl⟩

theorem length_completeItems {declared : List (Item × Standing × List Fault)}
    {t after : SymbolTable} {blocks : List (List Fault)}
    (h : completeItems settings declared t = .ok blocks after) : blocks.length = declared.length := by
  induction declared generalizing t blocks with
  | nil =>
      cases h
      rfl
  | cons entry others ih =>
      obtain ⟨found, later, next, -, tail, rfl⟩ := completeItems_cons_eq_ok_iff.mp h
      rw [List.length_cons, List.length_cons, ih tail]

/-- The second pass always gets through. -/
theorem completeItems_total (settings : AnalysisSettings)
    (declared : List (Item × Standing × List Fault)) {t : SymbolTable} (h : t.WellFormed) :
    ∃ after blocks, completeItems settings declared t = .ok blocks after ∧ after.WellFormed := by
  obtain ⟨after, ran, leads⟩ := completeItems_follows settings declared h
  exact ⟨after, _, ran, leads.wellFormed⟩

theorem Analysis.ofRun_eq_ok_iff {own : Option ScopeId} {a : Analysis}
    {run : EStateM.Result ScopeError SymbolTable (List (List Fault))} :
    Analysis.ofRun own run = .ok a ↔ run = .ok a.blocks a.table ∧ a.moduleScope = own := by
  cases run with
  | error e left => simp [Analysis.ofRun]
  | ok blocks table =>
      constructor
      · rintro ⟨⟩
        exact ⟨rfl, rfl⟩
      · rintro ⟨⟨⟩, rfl⟩
        rfl

namespace Program

/-- The table in which the items of a program are declared. -/
def topTable (program : Program) : SymbolTable :=
  match program.module? with
  | none => .empty
  | some _ => SymbolTable.empty.push .module

/-- The end of an analysis: a module is closed again. -/
def leave (program : Program) : TableM ScopeError Unit :=
  match program.module? with
  | none => return ()
  | some _ => SymbolTable.close (SymbolTable.empty.push .module).current

def moduleScope (program : Program) : Option ScopeId :=
  program.module?.map fun _ => (SymbolTable.empty.push .module).current

theorem topTable_wellFormed (program : Program) : program.topTable.WellFormed := by
  unfold topTable
  cases program.module? with
  | none => exact .empty
  | some name => exact SymbolTable.WellFormed.empty.push .module

theorem analyze_eq_ok_iff {program : Program} {a : Analysis} :
    program.analyze settings = .ok a ↔
      ∃ after, analyzeItems settings program.items program.topTable = .ok a.blocks after ∧
        program.leave after = .ok () a.table ∧ a.moduleScope = program.moduleScope := by
  unfold Program.analyze topTable leave moduleScope
  cases program.module? with
  | none =>
      refine Analysis.ofRun_eq_ok_iff.trans ?_
      constructor
      · rintro ⟨ran, scope⟩
        exact ⟨a.table, ran, rfl, scope⟩
      · rintro ⟨after, ran, left, scope⟩
        cases left
        exact ⟨ran, scope⟩
  | some name =>
      refine Analysis.ofRun_eq_ok_iff.trans ?_
      constructor
      · rintro ⟨ran, scope⟩
        obtain ⟨inner, first, closed⟩ := SymbolTable.within_eq_ok_iff.mp ran
        exact ⟨inner, first, closed, scope⟩
      · rintro ⟨after, ran, left, scope⟩
        exact ⟨SymbolTable.within_eq_ok_iff.mpr ⟨after, ran, left⟩, scope⟩

end Program

end SemanticCheck
