import SemanticCheck.Tree.Expr

/-! Written types, declarations, statements and whole programs. -/
namespace SemanticCheck

/-- A type as written. A callback without a result type returns nothing. -/
inductive TypeExpr
  | named (ident : Ident)
  | array (element : TypeExpr) (size : Expr) (location : Location)
  | callback (params : List TypeExpr) (result : Option TypeExpr) (location : Location)
  deriving Inhabited

def TypeExpr.location : TypeExpr → Location
  | .named i => i.location
  | .array _ _ l | .callback _ _ l => l

/-- Where a variable should be placed. The allocator reads this; the checker only keeps it. -/
inductive Storage
  | zeroPage
  | ram
  | data
  | const
  | io
  deriving DecidableEq, Inhabited, Repr

def Storage.text : Storage → String
  | .zeroPage => "@zp"
  | .ram => "@ram"
  | .data => "@data"
  | .const => "@const"
  | .io => "@io"

structure Parameter where
  name : Ident
  typeExpr : TypeExpr
  marked : Bool := false
  default? : Option Expr := none
  location : Location := .unknown
  deriving Inhabited

/-- A default value makes a parameter optional even without the marker. -/
def Parameter.isOptional (p : Parameter) : Bool := p.marked || p.default?.isSome

structure VariableDecl where
  name : Ident
  typeExpr : Option TypeExpr := none
  initializer : Option Expr := none
  storage : Option Storage := none
  constant : Bool := false
  location : Location := .unknown
  deriving Inhabited

structure Assignment where
  target : Ident
  value : Expr
  location : Location := .unknown
  deriving Inhabited

mutual

inductive Stmt
  | declare (decl : VariableDecl)
  | assign (assignment : Assignment)
  | expr (expr : Expr)
  | ret (value : Option Expr) (location : Location)
  | branch (condition : Expr) (yes : Block) (no : Option Block) (location : Location)
  | loop (condition : Expr) (body : Block) (location : Location)
  | block (block : Block)

inductive Block
  | mk (statements : List Stmt) (location : Location)

end

def Block.statements : Block → List Stmt
  | .mk statements _ => statements

def Block.location : Block → Location
  | .mk _ l => l

instance : Inhabited Block := ⟨.mk [] .unknown⟩

instance : Inhabited Stmt := ⟨.block default⟩

def Stmt.location : Stmt → Location
  | .declare d => d.location
  | .assign a => a.location
  | .expr e => e.location
  | .ret _ l | .branch _ _ _ l | .loop _ _ l => l
  | .block b => b.location

/-- A function without a body is implemented elsewhere, for instance in assembly. -/
structure FunctionDecl where
  name : Ident
  params : List Parameter := []
  result : Option TypeExpr := none
  body : Option Block := none
  callback : Bool := false
  exported : Bool := false
  location : Location := .unknown
  deriving Inhabited

inductive Item
  | function (decl : FunctionDecl)
  | var (decl : VariableDecl)
  deriving Inhabited

def Item.location : Item → Location
  | .function d => d.location
  | .var d => d.location

/-- A program that names a module declares its items there and not in the global scope. -/
structure Program where
  module? : Option Ident := none
  items : List Item := []
  deriving Inhabited

end SemanticCheck
