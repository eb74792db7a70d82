import SemanticCheck.Declaration.Function
import SemanticCheck.Declaration.Variable

/-!
Checking function bodies. Statements are checked in order, each with the table the ones before it
left; a block is checked in a scope of its own. Checking goes on after a fault.
-/
namespace SemanticCheck

/-- A step of the check, with the faults it reports. -/
abbrev Checking := TableM ScopeError (List Fault)

/-- Declares a variable if that is possible. -/
def SymbolTable.checkVariable (t : SymbolTable) (settings : AnalysisSettings) (decl : VariableDecl) :
    SymbolTable × List Fault :=
  match t.declareVariable settings (Expr.infer settings) decl with
  | .ok _ after => (after, [])
  | .error faults after => (after, faults)

/-- A condition has to be a boolean. -/
def Expr.conditionFaults (settings : AnalysisSettings) (names : Names) (condition : Expr) : List Fault :=
  match condition.infer settings names with
  | .error found => found
  | .ok ty =>
      if ty = .boolean then [] else [(Cause.conditionNotBoolean ty).fault condition.location]

/-- A function returns a value exactly when its result type is not void. -/
def returnFaults (settings : AnalysisSettings) (names : Names) (result : Option Ty)
    (value : Option Expr) (location : Location) : List Fault :=
  match result, value with
  | none, _ => [Cause.returnOutsideFunction.fault location]
  | some ty, some e =>
      if ty.isVoid then
        Outcome.faults (e.infer settings names) ++ [Cause.unexpectedResult.fault location]
      else Outcome.faults (Inference.store (Expr.infer settings) settings names ty e location)
  | some ty, none => if ty.isVoid then [] else [(Cause.missingResult ty).fault location]

mutual

/-- Checks a statement of a function with the given result type. -/
def Stmt.check (settings : AnalysisSettings) (result : Option Ty) : Stmt → Checking
  | .declare decl => modifyGet fun t => (t.checkVariable settings decl).swap
  | .assign a => do
      return Outcome.faults (Inference.assign (Expr.infer settings) settings (← get).names a)
  | .expr e => do return Outcome.faults (e.infer settings (← get).names)
  | .ret value location => do return returnFaults settings (← get).names result value location
  | .branch condition yes (some no) _ => do
      let found := condition.conditionFaults settings (← get).names
      let yesFaults ← yes.check settings result
      let noFaults ← no.check settings result
      return found ++ yesFaults ++ noFaults
  | .branch condition yes none _ => do
      let found := condition.conditionFaults settings (← get).names
      return found ++ (← yes.check settings result)
  | .loop condition body _ => do
      let found := condition.conditionFaults settings (← get).names
      return found ++ (← body.check settings result)
  | .block b => b.check settings result

def Block.check (settings : AnalysisSettings) (result : Option Ty) : Block → Checking
  | .mk statements _ => SymbolTable.within .block (Stmt.checkAll settings result statements)

def Stmt.checkAll (settings : AnalysisSettings) (result : Option Ty) : List Stmt → Checking
  | [] => return []
  | s :: rest => do
      let faults ← s.check settings result
      return faults ++ (← Stmt.checkAll settings result rest)

end

/-- A parameter as a variable of the function's own scope. -/
def ParameterSymbol.variableIn (p : ParameterSymbol) (scope : ScopeId) : VariableSymbol :=
  { name := p.name, ty := p.ty, scope, location := p.location }

/-- Declares the parameters of a function in the current scope. -/
def SymbolTable.declareParams (t : SymbolTable) : List ParameterSymbol → SymbolTable × List Fault
  | [] => (t, [])
  | p :: rest =>
      match t.declare (.var (p.variableIn t.current)) with
      | .ok _ next => next.declareParams rest
      | .error fault next =>
          let (after, more) := next.declareParams rest
          (after, fault :: more)

/-- Checks the body of a declared function in a scope of its own. -/
def FunctionSymbol.checkBody (settings : AnalysisSettings) (f : FunctionSymbol) (body : Block) :
    Checking :=
  SymbolTable.within .function do
    let faults ← modifyGet fun t => (t.declareParams f.params).swap
    return faults ++ (← Stmt.checkAll settings (some f.result) body.statements)

end SemanticCheck
