import SemanticCheck.Body

/-!
Analyzing programs in two passes over the items. The first declares functions, so that bodies can
call functions declared further down, and constants that can be folded already, so that signatures
can size arrays with a constant declared above them. The second declares the other variables and
checks the bodies. Faults are grouped by item, in the order of the items.
-/
namespace SemanticCheck

/-- What the first pass did with an item. -/
inductive Standing
  | registered (symbol : FunctionSymbol)
  | settled
  | pending

/-- A constant whose initializer already folds is declared along with the signatures. -/
def VariableDecl.isFolded (decl : VariableDecl) (names : Names) : Bool :=
  decl.constant && decl.initializer.any fun value => (value.fold names).toBool

/-- The first pass on one item. A rejected function is settled: its body is not checked. -/
def Item.declare (settings : AnalysisSettings) (t : SymbolTable) :
    Item → SymbolTable × Standing × List Fault
  | .function decl =>
      match t.declareFunction settings decl with
      | .ok symbol after => (after, .registered symbol, [])
      | .error faults after => (after, .settled, faults)
  | .var decl =>
      if decl.isFolded t.names then
        let (after, faults) := t.checkVariable settings decl
        (after, .settled, faults)
      else (t, .pending, [])

/-- The second pass on one item. -/
def Item.complete (settings : AnalysisSettings) : Item → Standing → Checking
  | .var decl, .pending => modifyGet fun t => (t.checkVariable settings decl).swap
  | .function decl, .registered symbol =>
      match decl.body with
      | some body => symbol.checkBody settings body
      | none => return []
  | _, _ => return []

/-- The first pass: the table, and each item with its standing and faults. -/
def declareItems (settings : AnalysisSettings) :
    List Item → SymbolTable → SymbolTable × List (Item × Standing × List Fault)
  | [], t => (t, [])
  | item :: rest, t =>
      let (next, standing, faults) := item.declare settings t
      let (after, declared) := declareItems settings rest next
      (after, (item, standing, faults) :: declared)

/-- The second pass: the faults of each item from both passes. -/
def completeItems (settings : AnalysisSettings) :
    List (Item × Standing × List Fault) → TableM ScopeError (List (List Fault))
  | [] => return []
  | (item, standing, faults) :: rest => do
      let more ← item.complete settings standing
      return (faults ++ more) :: (← completeItems settings rest)

def analyzeItems (settings : AnalysisSettings) (items : List Item) :
    TableM ScopeError (List (List Fault)) := do
  let standings ← modifyGet fun t => (declareItems settings items t).swap
  completeItems settings standings

/-- The symbols of a program and what is wrong with it, item by item. -/
structure Analysis where
  table : SymbolTable
  blocks : List (List Fault)
  moduleScope : Option ScopeId
  deriving Inhabited

namespace Analysis

def faults (a : Analysis) : List Fault := a.blocks.flatten

def hasErrors (a : Analysis) : Bool := !a.faults.isEmpty

/-- The scope of the program's items. -/
def topLevelScope (a : Analysis) : ScopeId := a.moduleScope.getD 0

def faultsOf (a : Analysis) (kind : FaultKind) : List Fault := a.faults.filter (·.kind = kind)

/-- What a run over the items of a program ends with. -/
def ofRun (moduleScope : Option ScopeId) :
    EStateM.Result ScopeError SymbolTable (List (List Fault)) → Except ScopeError Analysis
  | .ok blocks table => .ok { table, blocks, moduleScope }
  | .error e _ => .error e

end Analysis

/-- Analyzes a whole program. The items of a named module live in a scope of their own. -/
def Program.analyze (settings : AnalysisSettings) (program : Program) : Except ScopeError Analysis :=
  let items := analyzeItems settings program.items
  match program.module? with
  | none => Analysis.ofRun none (items .empty)
  | some _ =>
      Analysis.ofRun (some (SymbolTable.empty.push .module).current)
        (SymbolTable.empty.within .module items)

end SemanticCheck
