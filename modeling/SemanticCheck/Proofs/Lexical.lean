import SemanticCheck.Analysis

/-!
A checker over lexical environments. It has no table of scopes: it passes along an immutable stack of
frames, pushes one where a body or a block is entered, and forgets it where that is left. The rules
for declarations, statements and expressions are the ones of the analysis. This is what the analysis
is measured against.
-/
namespace SemanticCheck

/-- What one open scope declares. -/
structure Frame where
  kind : ScopeKind
  names : Names

/-- The open scopes from the innermost outwards. -/
abbrev Environment := List Frame

namespace Environment

/-- A name stands for what the innermost frame that has it says. -/
def names (env : Environment) : Names := fun name => env.findSome? (·.names name)

def enter (env : Environment) (kind : ScopeKind) : Environment := ⟨kind, fun _ => none⟩ :: env

/-- The environment around all programs. -/
def outermost : Environment := enter [] .global

def top (env : Environment) : Frame := env.headD ⟨.global, fun _ => none⟩

/-- Declarations go in the innermost frame. -/
def bind : Environment → Symbol → Environment
  | [], _ => []
  | frame :: rest, x =>
      ⟨frame.kind, fun name => if x.name = name then some x else frame.names name⟩ :: rest

/-- Where a declaration stands. Frames have no numbers, so every symbol gets the same one. -/
def site (env : Environment) : Site := ⟨env.names, env.top.names, 0, env.top.kind⟩

def checkVariable (env : Environment) (settings : AnalysisSettings) (decl : VariableDecl) :
    Environment × List Fault :=
  match decl.symbol settings (Expr.infer settings) env.site with
  | .ok symbol => (env.bind (.var symbol), [])
  | .error faults => (env, faults)

def bindParams (env : Environment) : List ParameterSymbol → Environment × List Fault
  | [] => (env, [])
  | p :: rest =>
      match env.site.duplicateFaults ⟨p.name, p.location⟩ with
      | [] => (env.bind (.var (p.variableIn 0))).bindParams rest
      | found =>
          let (after, more) := env.bindParams rest
          (after, found ++ more)

end Environment

mutual

/-- Checks a statement in an environment and says what the environment of the next one is. -/
def Stmt.checkIn (settings : AnalysisSettings) (result : Option Ty) :
    Stmt → Environment → Environment × List Fault
  | .declare decl, env => env.checkVariable settings decl
  | .assign a, env =>
      (env, Outcome.faults (Inference.assign (Expr.infer settings) settings env.names a))
  | .expr e, env => (env, Outcome.faults (e.infer settings env.names))
  | .ret value location, env => (env, returnFaults settings env.names result value location)
  | .branch condition yes (some no) _, env =>
      (env, condition.conditionFaults settings env.names ++ yes.checkIn settings result env ++
        no.checkIn settings result env)
  | .branch condition yes none _, env =>
      (env, condition.conditionFaults settings env.names ++ yes.checkIn settings result env)
  | .loop condition body _, env =>
      (env, condition.conditionFaults settings env.names ++ body.checkIn settings result env)
  | .block b, env => (env, b.checkIn settings result env)

/-- The frame of a block ends with the block, so only faults come out of it. -/
def Block.checkIn (settings : AnalysisSettings) (result : Option Ty) :
    Block → Environment → List Fault
  | .mk statements _, env => (Stmt.checkAllIn settings result statements (env.enter .block)).2

def Stmt.checkAllIn (settings : AnalysisSettings) (result : Option Ty) :
    List Stmt → Environment → Environment × List Fault
  | [], env => (env, [])
  | s :: rest, env =>
      let (next, faults) := s.checkIn settings result env
      let (after, more) := Stmt.checkAllIn settings result rest next
      (after, faults ++ more)

end

def FunctionSymbol.checkBodyIn (settings : AnalysisSettings) (f : FunctionSymbol) (body : Block)
    (env : Environment) : List Fault :=
  let (ready, faults) := (env.enter .function).bindParams f.params
  faults ++ (Stmt.checkAllIn settings (some f.result) body.statements ready).2

def Item.declareIn (settings : AnalysisSettings) (env : Environment) :
    Item → Environment × Standing × List Fault
  | .function decl =>
      match decl.symbol settings env.site with
      | .ok symbol => (env.bind (.function symbol), .registered symbol, [])
      | .error faults => (env, .settled, faults)
  | .var decl =>
      if decl.isFolded env.names then
        let (after, faults) := env.checkVariable settings decl
        (after, .settled, faults)
      else (env, .pending, [])

def Item.completeIn (settings : AnalysisSettings) (env : Environment) :
    Item → Standing → Environment × List Fault
  | .var decl, .pending => env.checkVariable settings decl
  | .function decl, .registered symbol =>
      match decl.body with
      | some body => (env, symbol.checkBodyIn settings body env)
      | none => (env, [])
  | _, _ => (env, [])

namespace Environment

def declareItems (settings : AnalysisSettings) :
    List Item → Environment → Environment × List (Item × Standing × List Fault)
  | [], env => (env, [])
  | item :: rest, env =>
      let (next, standing, faults) := item.declareIn settings env
      let (after, declared) := declareItems settings rest next
      (after, (item, standing, faults) :: declared)

def completeItems (settings : AnalysisSettings) :
    List (Item × Standing × List Fault) → Environment → Environment × List (List Fault)
  | [], env => (env, [])
  | (item, standing, faults) :: rest, env =>
      let (next, more) := item.completeIn settings env standing
      let (after, blocks) := completeItems settings rest next
      (after, (faults ++ more) :: blocks)

def analyzeItems (settings : AnalysisSettings) (items : List Item) (env : Environment) :
    Environment × List (List Fault) :=
  let (declared, standings) := declareItems settings items env
  completeItems settings standings declared

end Environment

/-- The faults of a program, item by item. -/
def Program.checkLexically (settings : AnalysisSettings) (program : Program) : List (List Fault) :=
  match program.module? with
  | none => (Environment.analyzeItems settings program.items .outermost).2
  | some _ =>
      (Environment.analyzeItems settings program.items (Environment.outermost.enter .module)).2

namespace Environment

@[simp] theorem tail_enter (env : Environment) (kind : ScopeKind) : (env.enter kind).tail = env := rfl

@[simp] theorem tail_bind (env : Environment) (x : Symbol) : (env.bind x).tail = env.tail := by
  cases env <;> rfl

theorem kind_top_bind (env : Environment) (x : Symbol) : (env.bind x).top.kind = env.top.kind := by
  cases env <;> rfl

theorem tail_checkVariable (env : Environment) (settings : AnalysisSettings) (decl : VariableDecl) :
    (env.checkVariable settings decl).1.tail = env.tail := by
  unfold checkVariable
  split
  · exact tail_bind env _
  · rfl

theorem tail_bindParams (env : Environment) (params : List ParameterSymbol) :
    (env.bindParams params).1.tail = env.tail := by
  induction params generalizing env with
  | nil => rfl
  | cons p rest ih =>
      unfold bindParams
      split
      · rw [ih, tail_bind]
      · exact ih env

end Environment

theorem Stmt.tail_checkIn (settings : AnalysisSettings) (result : Option Ty) (s : Stmt)
    (env : Environment) : (s.checkIn settings result env).1.tail = env.tail := by
  cases s with
  | declare decl => exact env.tail_checkVariable settings decl
  | branch condition yes no l => cases no <;> rfl
  | assign a => rfl
  | expr e => rfl
  | ret value l => rfl
  | loop condition body l => rfl
  | block b => rfl

theorem Stmt.tail_checkAllIn (settings : AnalysisSettings) (result : Option Ty)
    (statements : List Stmt) (env : Environment) :
    (Stmt.checkAllIn settings result statements env).1.tail = env.tail := by
  induction statements generalizing env with
  | nil => rfl
  | cons s rest ih =>
      change (Stmt.checkAllIn settings result rest (s.checkIn settings result env).1).1.tail = _
      rw [ih, Stmt.tail_checkIn]

theorem Item.tail_declareIn (settings : AnalysisSettings) (item : Item) (env : Environment) :
    (item.declareIn settings env).1.tail = env.tail := by
  cases item with
  | function decl =>
      simp only [Item.declareIn]
      split
      · exact env.tail_bind _
      · rfl
  | var decl =>
      simp only [Item.declareIn]
      split
      · exact env.tail_checkVariable settings decl
      · rfl

theorem Item.tail_completeIn (settings : AnalysisSettings) (item : Item) (standing : Standing)
    (env : Environment) : (item.completeIn settings env standing).1.tail = env.tail := by
  unfold Item.completeIn
  split
  · exact env.tail_checkVariable settings _
  · split <;> rfl
  · rfl

namespace Environment

theorem tail_declareItems (settings : AnalysisSettings) (items : List Item) (env : Environment) :
    (declareItems settings items env).1.tail = env.tail := by
  induction items generalizing env with
  | nil => rfl
  | cons item rest ih =>
      change (declareItems settings rest (item.declareIn settings env).1).1.tail = _
      rw [ih, Item.tail_declareIn]

theorem tail_completeItems (settings : AnalysisSettings)
    (declared : List (Item × Standing × List Fault)) (env : Environment) :
    (completeItems settings declared env).1.tail = env.tail := by
  induction declared generalizing env with
  | nil => rfl
  | cons entry rest ih =>
      obtain ⟨item, standing, faults⟩ := entry
      change (completeItems settings rest (item.completeIn settings env standing).1).1.tail = _
      rw [ih, Item.tail_completeIn]

theorem tail_analyzeItems (settings : AnalysisSettings) (items : List Item) (env : Environment) :
    (analyzeItems settings items env).1.tail = env.tail := by
  change (completeItems settings _ (declareItems settings items env).1).1.tail = _
  rw [tail_completeItems, tail_declareItems]

end Environment

end SemanticCheck
