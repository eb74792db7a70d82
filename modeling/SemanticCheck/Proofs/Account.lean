import SemanticCheck.Proofs.Failure
import SemanticCheck.Proofs.Rejection
import SemanticCheck.Proofs.TopLevel
import SemanticCheck.Tree.Shorthand

/-!
The account of an analysis, item by item. Each item is declared once, in the first pass or in the
second. Its faults are those of that declaration, or of its body if it is a registered function, and
an item without a symbol in the top-level scope has told why.
-/
namespace SemanticCheck

variable {settings : AnalysisSettings}

/-- What became of an item: whether it was declared in the first pass, the symbol that it added to the
top-level scope, and its faults. -/
structure Account where
  early : Bool
  symbol? : Option Symbol
  faults : List Fault

namespace Account

/-- The account of a variable, from how its declaration ended. -/
def ofVariable (early : Bool) (ended : EStateM.Result (List Fault) SymbolTable VariableSymbol) :
    Account :=
  ⟨early, (Outcome.value? (SymbolTable.answerOf ended)).map (.var ·.1),
    Outcome.faults (SymbolTable.answerOf ended)⟩

/-- The symbol that was added in the first pass. -/
def firstSymbol? (account : Account) : Option Symbol := if account.early then account.symbol? else none

/-- The symbol that was added in the second pass. -/
def laterSymbol? (account : Account) : Option Symbol := if account.early then none else account.symbol?

end Account

/-- The account of an item that the passes meet on the given tables. The body of a function is checked
only if the signature was accepted, and a variable is declared in the pass that its initializer
decides on. -/
inductive Item.Accounted (settings : AnalysisSettings) (first second : SymbolTable) :
    Item → Account → Prop
  | refused {decl found left} : first.declareFunction settings decl = .error found left →
      Accounted settings first second (.function decl) ⟨true, none, found⟩
  | bodiless {decl f after} : first.declareFunction settings decl = .ok f after →
      decl.body = none →
      Accounted settings first second (.function decl) ⟨true, some (.function f), []⟩
  | checked {decl f after body later found} : first.declareFunction settings decl = .ok f after →
      decl.body = some body → f.checkBody settings body second = .ok found later →
      Accounted settings first second (.function decl) ⟨true, some (.function f), found⟩
  | folded {decl} : decl.isFolded first.names →
      Accounted settings first second (.var decl)
        (.ofVariable true (first.declareVariable settings (Expr.infer settings) decl))
  | pending {decl} : ¬decl.isFolded first.names →
      Accounted settings first second (.var decl)
        (.ofVariable false (second.declareVariable settings (Expr.infer settings) decl))

theorem Account.ofVariable_clean_iff {early : Bool} {t : SymbolTable} {decl : VariableDecl}
    {infer : Inference} :
    (Account.ofVariable early (t.declareVariable settings infer decl)).faults = [] ↔
      (Account.ofVariable early (t.declareVariable settings infer decl)).symbol?.isSome := by
  rw [SymbolTable.declareVariable_eq, Account.ofVariable, SymbolTable.answerOf_receive]
  cases checked : decl.symbol settings infer t.site with
  | ok v => exact ⟨fun _ => rfl, fun _ => rfl⟩
  | error found =>
      have reason := (decl.symbol_explained settings infer t.site).faults_ne_nil checked
      exact ⟨fun clean => absurd clean reason, nofun⟩

namespace Item.Accounted

variable {first second : SymbolTable} {item : Item} {account : Account}

theorem clean_iff_of_var {decl : VariableDecl}
    (h : (Item.var decl).Accounted settings first second account) :
    account.faults = [] ↔ account.symbol?.isSome := by
  cases h with
  | folded _ => exact Account.ofVariable_clean_iff
  | pending _ => exact Account.ofVariable_clean_iff

theorem isSome_of_clean (h : item.Accounted settings first second account)
    (clean : account.faults = []) : account.symbol?.isSome := by
  cases item with
  | var decl => exact h.clean_iff_of_var.mp clean
  | function decl =>
      cases h with
      | refused failed =>
          have refused := (SymbolTable.declareFunction_eq_error_iff.mp failed).1
          exact absurd clean ((decl.symbol_explained settings first.site).faults_ne_nil refused)
      | bodiless _ _ => rfl
      | checked _ _ _ => rfl

end Item.Accounted

theorem SymbolTable.checkVariable_account {t : SymbolTable} (h : t.WellFormed)
    (settings : AnalysisSettings) (early : Bool) (decl : VariableDecl) :
    let account := Account.ofVariable early (t.declareVariable settings (Expr.infer settings) decl)
    account.faults = (t.checkVariable settings decl).2 ∧
      (t.checkVariable settings decl).1.top.symbols = t.top.symbols ++ account.symbol?.toList := by
  rw [SymbolTable.checkVariable_eq, SymbolTable.declareVariable_eq]
  cases decl.symbol settings (Expr.infer settings) t.site with
  | error found => exact ⟨rfl, (List.append_nil _).symm⟩
  | ok v =>
      refine ⟨rfl, ?_⟩
      rw [h.top_add]
      rfl

/-- Whatever the two passes do with an item is in its account. -/
theorem Item.exists_account {item : Item} {t second next : SymbolTable} {more : List Fault}
    (h : t.WellFormed) (k : second.WellFormed)
    (ran : item.complete settings (item.declare settings t).2.1 second = .ok more next) :
    ∃ account, item.Accounted settings t second account ∧
      account.faults = (item.declare settings t).2.2 ++ more ∧
      (item.declare settings t).1.top.symbols = t.top.symbols ++ account.firstSymbol?.toList ∧
      next.top.symbols = second.top.symbols ++ account.laterSymbol?.toList := by
  have unchanged (u : SymbolTable) : u.top.symbols = u.top.symbols ++ [] := (List.append_nil _).symm
  cases item with
  | var decl =>
      by_cases folded : decl.isFolded t.names
      · obtain ⟨faults, symbols⟩ := t.checkVariable_account h settings true decl
        simp only [Item.declare, folded, if_true] at ran ⊢
        cases ran
        refine ⟨_, .folded folded, ?_, symbols, unchanged second⟩
        rw [List.append_nil, faults]
      · obtain ⟨faults, symbols⟩ := second.checkVariable_account k settings false decl
        simp only [Item.declare, folded] at ran ⊢
        cases ran
        exact ⟨_, .pending folded, faults, unchanged t, symbols⟩
  | function decl =>
      cases declared : t.declareFunction settings decl with
      | error found left =>
          simp only [Item.declare, declared] at ran ⊢
          cases ran
          cases (SymbolTable.declareFunction_eq_error_iff.mp declared).2
          exact ⟨_, .refused declared, (List.append_nil found).symm, unchanged t, unchanged second⟩
      | ok f after =>
          simp only [Item.declare, declared, Item.complete] at ran ⊢
          have added := (SymbolTable.declareFunction_eq_ok_iff.mp declared).2
          have symbols : after.top.symbols = t.top.symbols ++ [.function f] := by
            rw [added, h.top_add]
            rfl
          cases given : decl.body with
          | none =>
              rw [given] at ran
              cases ran
              exact ⟨_, .bodiless declared given, rfl, symbols, unchanged second⟩
          | some body =>
              rw [given] at ran
              have leads := (f.checkBody_follows settings body k).leads ran
              have kept : next.top.symbols = second.top.symbols ++ [] :=
                (leads.symbols_eq k).trans (unchanged second)
              exact ⟨_, .checked declared given ran, rfl, symbols, kept⟩

theorem toList_append_filterMap {α β : Type} (f : α → Option β) (a : α) (rest : List α) :
    (f a).toList ++ rest.filterMap f = (a :: rest).filterMap f := by
  rw [List.filterMap_cons]
  cases f a <;> rfl

/-- The accounts of a list of items, with the tables on which the passes meet each of them. -/
theorem exists_accounts (items : List Item) {t second after : SymbolTable}
    {blocks : List (List Fault)} (h : t.WellFormed) (k : second.WellFormed)
    (ran : completeItems settings (declareItems settings items t).2 second = .ok blocks after) :
    ∃ accounts : List Account, accounts.length = items.length ∧
      accounts.map Account.faults = blocks ∧
      (declareItems settings items t).1.top.symbols =
        t.top.symbols ++ accounts.filterMap Account.firstSymbol? ∧
      after.top.symbols = second.top.symbols ++ accounts.filterMap Account.laterSymbol? ∧
      ∀ (i : Nat) item account, items[i]? = some item → accounts[i]? = some account →
        ∃ done met,
          completeItems settings ((declareItems settings items t).2.take i) second = .ok done met ∧
          item.Accounted settings (declareItems settings (items.take i) t).1 met account := by
  induction items generalizing t second blocks with
  | nil =>
      cases ran
      refine ⟨[], rfl, rfl, (List.append_nil _).symm, (List.append_nil _).symm, ?_⟩
      intro i item account found
      cases found
  | cons item rest ih =>
      rw [declareItems_cons] at ran ⊢
      obtain ⟨more, later, next, first, others, rfl⟩ := completeItems_cons_eq_ok_iff.mp ran
      have declared := (item.declare_leads settings h).1.wellFormed
      have completed := ((item.complete_follows settings _ k).leads first).wellFormed
      obtain ⟨account, accounted, faults, early, late⟩ := Item.exists_account h k first
      obtain ⟨accounts, length, blocks, earlier, lasting, each⟩ := ih declared completed others
      refine ⟨account :: accounts, congrArg Nat.succ length, ?_, ?_, ?_, ?_⟩
      · rw [List.map_cons, faults, blocks]
      · rw [earlier, early, List.append_assoc, toList_append_filterMap]
      · rw [lasting, late, List.append_assoc, toList_append_filterMap]
      · intro i found foundAccount here there
        cases i with
        | zero =>
            cases here
            cases there
            exact ⟨[], second, rfl, accounted⟩
        | succ i =>
            obtain ⟨done, met, reached, met_accounted⟩ := each i found foundAccount here there
            refine ⟨((item.declare settings t).2.2 ++ more) :: done, met, ?_, met_accounted⟩
            exact completeItems_cons_eq_ok_iff.mpr ⟨more, done, next, first, reached, rfl⟩

namespace Program

theorem symbols_topTable (program : Program) : program.topTable.top.symbols = [] := by
  unfold topTable
  cases program.module? <;> rfl

/-- Every item has an account. The faults of an analysis are those of the accounts in the order of the
items. The symbols of the top-level scope are those that the first pass added and then those that the
second added, both in the order of the items; when there are no faults, every item has added one. -/
theorem analyze_accounts (settings : AnalysisSettings) (program : Program) :
    ∃ (a : Analysis) (accounts : List Account), program.analyze settings = .ok a ∧
      accounts.length = program.items.length ∧
      (∀ (i : Nat) item account, program.items[i]? = some item → accounts[i]? = some account →
        ∃ second, program.secondTable settings i = .ok second ∧
          item.Accounted settings (program.firstTable settings i) second account) ∧
      (∀ (i : Nat) decl account, program.items[i]? = some (.var decl) → accounts[i]? = some account →
        (account.faults = [] ↔ account.symbol?.isSome)) ∧
      a.faults = (accounts.map Account.faults).flatten ∧
      a.table.symbolsIn a.topLevelScope =
        accounts.filterMap Account.firstSymbol? ++ accounts.filterMap Account.laterSymbol? ∧
      (a.faults = [] → ∀ account ∈ accounts, account.symbol?.isSome) := by
  obtain ⟨a, ran, -⟩ := program.analyze_eq_ok settings
  obtain ⟨after, passes, -, -, -, -, symbols⟩ := analyze_top ran
  have h := program.topTable_wellFormed
  have k := (declareItems_leads settings program.items h).1.wellFormed
  obtain ⟨accounts, length, blocks, early, late, met⟩ := exists_accounts program.items h k passes
  have each (i : Nat) (item : Item) (account : Account) (here : program.items[i]? = some item)
      (there : accounts[i]? = some account) : ∃ second, program.secondTable settings i = .ok second ∧
        item.Accounted settings (program.firstTable settings i) second account := by
    obtain ⟨done, second, reached, accounted⟩ := met i item account here there
    exact ⟨second, by simp only [secondTable, reached], accounted⟩
  refine ⟨a, accounts, ran, length, each, ?_, ?_, ?_, ?_⟩
  · intro i decl account here there
    obtain ⟨second, -, accounted⟩ := each i _ account here there
    exact accounted.clean_iff_of_var
  · rw [Analysis.faults, blocks]
  · rw [symbols, late, early, symbols_topTable, List.nil_append]
  · intro clean account member
    rw [Analysis.faults, ← blocks, List.flatten_eq_nil_iff] at clean
    obtain ⟨i, there⟩ := List.mem_iff_getElem?.mp member
    have bound : i < program.items.length := length ▸ (List.getElem?_eq_some_iff.mp there).1
    obtain ⟨second, -, accounted⟩ := each i _ account (List.getElem?_eq_getElem bound) there
    exact accounted.isSome_of_clean (clean _ (List.mem_map_of_mem member))

def total : VariableDecl := VariableDecl.ofName "total" (some (.ofName "byte"))

def setTotal : FunctionDecl :=
  (FunctionDecl.ofName "main").withBody [.setVariable "total" (.ofName "size")]

/-- A variable of the second pass, a function that sets it, and a constant of the first pass. -/
def outOfOrder : Program :=
  { items :=
      [.var total, .function setTotal,
       .var ((VariableDecl.ofName "size" (some (.ofName "byte"))).withValue (.ofInt 2)).asConstant] }

theorem outOfOrder_accounts :
    ∃ (a : Analysis) (accounts : List Account) (first second : Account) (t : SymbolTable),
      outOfOrder.analyze {} = .ok a ∧ a.faults = [] ∧ accounts.length = 3 ∧
      accounts[0]? = some first ∧ (first.faults = [] ↔ first.symbol?.isSome) ∧
      accounts[1]? = some second ∧ outOfOrder.secondTable {} 1 = .ok t ∧
      (Item.function setTotal).Accounted {} (outOfOrder.firstTable {} 1) t second ∧
      a.table.symbolsIn a.topLevelScope =
        accounts.filterMap Account.firstSymbol? ++ accounts.filterMap Account.laterSymbol? ∧
      ∀ account ∈ accounts, account.symbol?.isSome := by
  obtain ⟨a, accounts, ran, length, each, vars, -, symbols, all⟩ := analyze_accounts {} outOfOrder
  have clean : a.faults = [] := by
    obtain ⟨b, same, blocks, -⟩ := outOfOrder.analyze_eq_ok {}
    rw [ran] at same
    cases same
    rw [Analysis.faults, blocks]
    rfl
  have there (i : Nat) (bound : i < 3) : ∃ account, accounts[i]? = some account :=
    ⟨_, List.getElem?_eq_getElem (length ▸ bound)⟩
  obtain ⟨first, zeroth⟩ := there 0 (by decide)
  obtain ⟨second, next⟩ := there 1 (by decide)
  obtain ⟨t, reached, accounted⟩ := each 1 (.function setTotal) second rfl next
  exact ⟨a, accounts, first, second, t, ran, clean, length, zeroth, vars 0 total first rfl zeroth,
    next, reached, accounted, symbols, all clean⟩

end Program

end SemanticCheck
