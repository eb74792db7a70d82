import SemanticCheck.Proofs.Passes
import SemanticCheck.Tree.Shorthand

/-!
Rejected items. A function whose signature is refused, or a variable whose declaration is, leaves no
trace but its faults: the program without it has the same symbol table and the same other faults.
The item may be refused in either pass.
-/
namespace SemanticCheck

variable {settings : AnalysisSettings}

theorem SymbolTable.checkVariable_of_error {t left : SymbolTable} {decl : VariableDecl}
    {found : List Fault}
    (h : t.declareVariable settings (Expr.infer settings) decl = .error found left) :
    t.checkVariable settings decl = (t, found) := by
  obtain ⟨-, rfl⟩ := SymbolTable.declareVariable_eq_error_iff.mp h
  rw [SymbolTable.checkVariable, h]

/-- An item passes both passes without touching the table, and these are its faults. -/
def Item.Idle (settings : AnalysisSettings) (item : Item) (first second : SymbolTable)
    (found : List Fault) : Prop :=
  ∃ standing faults more, item.declare settings first = (first, standing, faults) ∧
    item.complete settings standing second = .ok more second ∧ found = faults ++ more

theorem Item.idle_of_function {decl : FunctionDecl} {first second left : SymbolTable}
    {found : List Fault} (h : first.declareFunction settings decl = .error found left) :
    (Item.function decl).Idle settings first second found := by
  obtain ⟨-, rfl⟩ := SymbolTable.declareFunction_eq_error_iff.mp h
  refine ⟨.settled, found, [], ?_, rfl, (List.append_nil found).symm⟩
  simp only [Item.declare, h]

theorem Item.idle_of_folded {decl : VariableDecl} {first second left : SymbolTable}
    {found : List Fault} (folded : decl.isFolded first.names)
    (h : first.declareVariable settings (Expr.infer settings) decl = .error found left) :
    (Item.var decl).Idle settings first second found := by
  refine ⟨.settled, found, [], ?_, rfl, (List.append_nil found).symm⟩
  simp only [Item.declare, folded, if_true, SymbolTable.checkVariable_of_error h]

theorem Item.idle_of_pending {decl : VariableDecl} {first second left : SymbolTable}
    {found : List Fault} (pending : ¬decl.isFolded first.names)
    (h : second.declareVariable settings (Expr.infer settings) decl = .error found left) :
    (Item.var decl).Idle settings first second found := by
  refine ⟨.pending, [], found, ?_, ?_, rfl⟩
  · simp only [Item.declare, pending]
    rfl
  · have kept := SymbolTable.checkVariable_of_error h
    change EStateM.Result.ok (second.checkVariable settings decl).2
      (second.checkVariable settings decl).1 = _
    rw [kept]

/-- Leaving out an idle item leaves everything but its own faults as it was. -/
theorem analyzeItems_without_idle {items before behind : List Item} {item : Item}
    {t second : SymbolTable} {blocks : List (List Fault)} {found : List Fault} (h : t.WellFormed)
    (split : items = before ++ item :: behind)
    (ran : completeItems settings (declareItems settings before t).2
      (declareItems settings items t).1 = .ok blocks second)
    (idle : item.Idle settings (declareItems settings before t).1 second found) :
    ∃ after later, analyzeItems settings items t = .ok (blocks ++ found :: later) after ∧
      analyzeItems settings (before ++ behind) t = .ok (blocks ++ later) after := by
  subst split
  obtain ⟨standing, faults, more, declared, completed, rfl⟩ := idle
  have around := declareItems_append settings before (item :: behind) t
  rw [declareItems_cons, declared] at around
  have middle := (declareItems_leads settings before h).1.wellFormed
  have start := (declareItems_leads settings behind middle).1.wellFormed
  -- the item changes no table, so both runs reach the same one in front of what is behind it
  obtain ⟨reached, _, same, wellFormed⟩ :=
    completeItems_total settings (declareItems settings before t).2 start
  rw [around, same] at ran
  cases ran
  obtain ⟨after, later, rest, -⟩ := completeItems_total settings
    (declareItems settings behind (declareItems settings before t).1).2 wellFormed
  refine ⟨after, later, ?_, ?_⟩
  · rw [analyzeItems_eq, around]
    apply completeItems_append same
    exact completeItems_cons_eq_ok_iff.mpr ⟨more, later, _, completed, rest, rfl⟩
  · rw [analyzeItems_eq, declareItems_append]
    exact completeItems_append same rest

namespace Program

/-- The table on which the first pass meets an item. -/
def firstTable (settings : AnalysisSettings) (program : Program) (i : Nat) : SymbolTable :=
  (declareItems settings (program.items.take i) program.topTable).1

/-- The table on which the second pass meets an item. -/
def secondTable (settings : AnalysisSettings) (program : Program) (i : Nat) :
    Except ScopeError SymbolTable :=
  let (declared, standings) := declareItems settings program.items program.topTable
  match completeItems settings (standings.take i) declared with
  | .ok _ second => .ok second
  | .error e _ => .error e

theorem secondTable_eq_ok (settings : AnalysisSettings) (program : Program) (i : Nat) :
    ∃ second, program.secondTable settings i = .ok second ∧ second.WellFormed := by
  have start := (declareItems_leads settings program.items program.topTable_wellFormed).1.wellFormed
  obtain ⟨second, blocks, ran, wellFormed⟩ := completeItems_total settings
    ((declareItems settings program.items program.topTable).2.take i) start
  refine ⟨second, ?_, wellFormed⟩
  simp only [secondTable, ran]

/-- The analysis refuses an item with these faults: a function for its signature, a variable for its
declaration in whichever pass declares it. -/
def Rejects (settings : AnalysisSettings) (program : Program) (i : Nat) (found : List Fault) : Prop :=
  match program.items[i]? with
  | none => False
  | some (.function decl) =>
      ∃ left, (program.firstTable settings i).declareFunction settings decl = .error found left
  | some (.var decl) =>
      if decl.isFolded (program.firstTable settings i).names then
        ∃ left, (program.firstTable settings i).declareVariable settings (Expr.infer settings) decl =
          .error found left
      else
        ∃ second left, program.secondTable settings i = .ok second ∧
          second.declareVariable settings (Expr.infer settings) decl = .error found left

def without (program : Program) (i : Nat) : Program :=
  { program with items := program.items.eraseIdx i }

/-- A rejected item is idle between the tables on which the passes meet it. -/
theorem Rejects.idle {program : Program} {i : Nat} {found : List Fault}
    (h : program.Rejects settings i found) :
    ∃ item second, program.items[i]? = some item ∧ program.secondTable settings i = .ok second ∧
      item.Idle settings (program.firstTable settings i) second found := by
  obtain ⟨second, reached, -⟩ := program.secondTable_eq_ok settings i
  unfold Rejects at h
  split at h
  · cases h
  · next decl item =>
      obtain ⟨left, refused⟩ := h
      exact ⟨_, second, item, reached, Item.idle_of_function refused⟩
  · next decl item =>
      split at h
      · next folded =>
          obtain ⟨left, refused⟩ := h
          exact ⟨_, second, item, reached, Item.idle_of_folded folded refused⟩
      · next pending =>
          obtain ⟨second, left, reached, refused⟩ := h
          exact ⟨_, second, item, reached, Item.idle_of_pending pending refused⟩

theorem analyzeItems_eraseIdx {program : Program} {i : Nat} {found : List Fault}
    (h : program.Rejects settings i found) :
    ∃ after blocks, analyzeItems settings program.items program.topTable = .ok blocks after ∧
      blocks[i]? = some found ∧
      analyzeItems settings (program.items.eraseIdx i) program.topTable =
        .ok (blocks.eraseIdx i) after := by
  obtain ⟨item, second, here, reached, idle⟩ := h.idle
  obtain ⟨lt, rfl⟩ := List.getElem?_eq_some_iff.mp here
  have split : program.items =
      program.items.take i ++ program.items[i] :: program.items.drop (i + 1) := by
    rw [← List.drop_eq_getElem_cons lt, List.take_append_drop]
  have length : (program.items.take i).length = i := List.length_take_of_le (Nat.le_of_lt lt)
  simp only [secondTable, take_declareItems] at reached
  cases ran : completeItems settings (declareItems settings (program.items.take i) program.topTable).2
      (declareItems settings program.items program.topTable).1 with
  | error e left =>
      rw [ran] at reached
      cases reached
  | ok blocks table =>
      rw [ran] at reached
      cases reached
      have count : blocks.length = i := by
        rw [length_completeItems ran, length_declareItems, length]
      obtain ⟨after, later, whole, rest⟩ :=
        analyzeItems_without_idle program.topTable_wellFormed split ran idle
      refine ⟨after, blocks ++ found :: later, whole, ?_, ?_⟩
      · rw [List.getElem?_append_right (Nat.le_of_eq count), count, Nat.sub_self]
        rfl
      · rw [List.eraseIdx_eq_take_drop_succ, rest, List.eraseIdx_append_of_length_le (Nat.le_of_eq count),
          count, Nat.sub_self]
        rfl

/-- A rejected item is as if it were not there: without it the analysis yields the same table, and
the same faults but for those of the item. -/
theorem analyze_without_rejected (settings : AnalysisSettings) (program : Program) (i : Nat)
    (found : List Fault) (h : program.Rejects settings i found) :
    ∃ a front back, program.analyze settings = .ok a ∧ a.blocks[i]? = some found ∧
      a.faults = front ++ found ++ back ∧
      ∃ b, (program.without i).analyze settings = .ok b ∧ b.table = a.table ∧
        b.moduleScope = a.moduleScope ∧ b.blocks = a.blocks.eraseIdx i ∧ b.faults = front ++ back := by
  obtain ⟨a, ran, -⟩ := program.analyze_eq_ok settings
  obtain ⟨after, whole, left, scope⟩ := analyze_eq_ok_iff.mp ran
  obtain ⟨same, blocks, items, here, rest⟩ := analyzeItems_eraseIdx h
  rw [whole] at items
  cases items
  have erased : (program.without i).analyze settings = .ok { a with blocks := a.blocks.eraseIdx i } :=
    analyze_eq_ok_iff.mpr ⟨after, rest, left, scope⟩
  refine ⟨a, (a.blocks.take i).flatten, (a.blocks.drop (i + 1)).flatten, ran, here, ?_, _, erased,
    rfl, rfl, rfl, ?_⟩
  · obtain ⟨lt, rfl⟩ := List.getElem?_eq_some_iff.mp here
    rw [Analysis.faults, List.append_assoc, ← List.flatten_cons, ← List.drop_eq_getElem_cons lt,
      ← List.flatten_append, List.take_append_drop]
  · rw [Analysis.faults, List.eraseIdx_eq_take_drop_succ, List.flatten_append]

/-- A constant, a function that takes its name a second time, and an array sized by the constant. -/
def twiceNamed : Program :=
  { items :=
      [.var ((VariableDecl.ofName "size" none).withValue (.ofInt 2)).asConstant,
       .function (FunctionDecl.ofName "size"),
       .var (VariableDecl.ofName "table" (some (.ofArray (.ofName "byte") (.ofName "size"))))] }

theorem analyze_without_second_size :
    twiceNamed.Rejects {} 1 [(Cause.duplicateSymbol "size" .var .unknown).fault .unknown] ∧
    ∃ a front back, twiceNamed.analyze {} = .ok a ∧
      a.blocks[1]? = some [(Cause.duplicateSymbol "size" .var .unknown).fault .unknown] ∧
      a.faults = front ++ [(Cause.duplicateSymbol "size" .var .unknown).fault .unknown] ++ back ∧
      ∃ b, (twiceNamed.without 1).analyze {} = .ok b ∧ b.table = a.table ∧
        b.moduleScope = a.moduleScope ∧ b.blocks = a.blocks.eraseIdx 1 ∧ b.faults = front ++ back := by
  have rejected : twiceNamed.Rejects {} 1
      [(Cause.duplicateSymbol "size" .var .unknown).fault .unknown] := by
    exact ⟨_, rfl⟩
  exact ⟨rejected, analyze_without_rejected {} twiceNamed 1 _ rejected⟩

end Program

end SemanticCheck
