import SemanticCheck.Tree.Program

/-!
The nodes of a program in reading order, each before its parts. Declared names and references are
identifiers; names of types and of the module are not.
-/
namespace SemanticCheck

inductive Node
  | item (item : Item)
  | function (decl : FunctionDecl)
  | var (decl : VariableDecl)
  | typeExpr (typeExpr : TypeExpr)
  | stmt (stmt : Stmt)
  | expr (expr : Expr)
  | ident (ident : Ident)

def Node.ident? : Node → Option Ident
  | .ident i => some i
  | _ => none

mutual

def Expr.nodes : Expr → List Node
  | e@(.number ..) | e@(.boolean ..) | e@(.text ..) => [.expr e]
  | e@(.ident i) => [.expr e, .ident i]
  | e@(.unary _ operand _) => .expr e :: operand.nodes
  | e@(.binary _ lhs rhs _) => .expr e :: (lhs.nodes ++ rhs.nodes)
  | e@(.call callee args _) => .expr e :: (callee.nodes ++ allNodes args)
  | e@(.index target position _) => .expr e :: (target.nodes ++ position.nodes)

def Expr.allNodes : List Expr → List Node
  | [] => []
  | e :: rest => e.nodes ++ allNodes rest

end

mutual

def TypeExpr.nodes : TypeExpr → List Node
  | a@(.named _) => [.typeExpr a]
  | a@(.array element size _) => .typeExpr a :: (element.nodes ++ size.nodes)
  | a@(.callback params (some result) _) => .typeExpr a :: (allNodes params ++ result.nodes)
  | a@(.callback params none _) => .typeExpr a :: allNodes params

def TypeExpr.allNodes : List TypeExpr → List Node
  | [] => []
  | a :: rest => a.nodes ++ allNodes rest

end

/-- The nodes of a part that may be missing. -/
def nodesOf {α : Type} (nodes : α → List Node) : Option α → List Node
  | some a => nodes a
  | none => []

def VariableDecl.nodes (decl : VariableDecl) : List Node :=
  .var decl :: .ident decl.name ::
    (nodesOf TypeExpr.nodes decl.typeExpr ++ nodesOf Expr.nodes decl.initializer)

mutual

def Stmt.nodes : Stmt → List Node
  | s@(.declare decl) => .stmt s :: decl.nodes
  | s@(.assign a) => .stmt s :: .ident a.target :: a.value.nodes
  | s@(.expr e) => .stmt s :: e.nodes
  | s@(.ret value _) => .stmt s :: nodesOf Expr.nodes value
  | s@(.branch condition yes (some no) _) => .stmt s :: (condition.nodes ++ yes.nodes ++ no.nodes)
  | s@(.branch condition yes none _) => .stmt s :: (condition.nodes ++ yes.nodes)
  | s@(.loop condition body _) => .stmt s :: (condition.nodes ++ body.nodes)
  | s@(.block b) => .stmt s :: b.nodes

def Block.nodes : Block → List Node
  | .mk statements _ => Stmt.allNodes statements

def Stmt.allNodes : List Stmt → List Node
  | [] => []
  | s :: rest => s.nodes ++ Stmt.allNodes rest

end

def Parameter.nodes (p : Parameter) : List Node :=
  .ident p.name :: (p.typeExpr.nodes ++ nodesOf Expr.nodes p.default?)

def FunctionDecl.nodes (decl : FunctionDecl) : List Node :=
  .function decl :: .ident decl.name :: (decl.params.flatMap Parameter.nodes ++
    nodesOf TypeExpr.nodes decl.result ++ nodesOf Block.nodes decl.body)

def Item.nodes : Item → List Node
  | i@(.function decl) => .item i :: decl.nodes
  | i@(.var decl) => .item i :: decl.nodes

namespace Program

def nodes (program : Program) : List Node := program.items.flatMap Item.nodes

def idents (program : Program) : List Ident := program.nodes.filterMap Node.ident?

/-- The first identifier at a byte offset. -/
def identAt? (program : Program) (offset : Nat) : Option Ident :=
  program.idents.find? (·.location.contains offset)

end Program

end SemanticCheck
