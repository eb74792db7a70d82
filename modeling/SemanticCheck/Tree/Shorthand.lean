import SemanticCheck.Tree.Program

/-!
Shorthand for building nodes that were not read from a source text. They have no known place unless
one is attached.
-/
namespace SemanticCheck

namespace TypeExpr

def ofName (name : String) : TypeExpr := .named { name }

def ofArray (element : TypeExpr) (size : Expr) : TypeExpr := .array element size .unknown

def ofCallback (params : List TypeExpr) (result : Option TypeExpr) : TypeExpr :=
  .callback params result .unknown

end TypeExpr

namespace Expr

def ofInt (value : Int64) : Expr := .number value .unknown

def ofBool (value : Bool) : Expr := .boolean value .unknown

def ofText (value : String) : Expr := .text value .unknown

def ofName (name : String) : Expr := .ident { name }

/-- An operator stands where its operand does. -/
def applyUnary (op : UnaryOp) (operand : Expr) : Expr := .unary op operand operand.location

/-- An operator between two operands spans both. -/
def applyBinary (op : BinaryOp) (lhs rhs : Expr) : Expr :=
  .binary op lhs rhs (lhs.location.merge rhs.location)

def callOf (callee : String) (args : List Expr) : Expr := .call (ofName callee) args .unknown

/-- An element stands where its array does. -/
def elementOf (target position : Expr) : Expr := .index target position target.location

end Expr

namespace Parameter

def ofName (name : String) (typeExpr : TypeExpr) : Parameter := { name := { name }, typeExpr }

def markOptional (p : Parameter) : Parameter := { p with marked := true }

def withDefault (p : Parameter) (value : Expr) : Parameter := { p with default? := some value }

/-- The place of the parameter and of its name. -/
def placed (p : Parameter) (location : Location) : Parameter :=
  { p with location, name := { p.name with location } }

end Parameter

namespace FunctionDecl

def ofName (name : String) : FunctionDecl := { name := { name } }

def withParam (decl : FunctionDecl) (p : Parameter) : FunctionDecl :=
  { decl with params := decl.params ++ [p] }

def returning (decl : FunctionDecl) (result : TypeExpr) : FunctionDecl :=
  { decl with result := some result }

def asCallback (decl : FunctionDecl) : FunctionDecl := { decl with callback := true }

def asExported (decl : FunctionDecl) : FunctionDecl := { decl with exported := true }

/-- The body stands where the function stands at this moment. -/
def withBody (decl : FunctionDecl) (statements : List Stmt) : FunctionDecl :=
  { decl with body := some (.mk statements decl.location) }

/-- The place of the function and of its name. -/
def placed (decl : FunctionDecl) (location : Location) : FunctionDecl :=
  { decl with location, name := { decl.name with location } }

end FunctionDecl

namespace VariableDecl

def ofName (name : String) (typeExpr : Option TypeExpr) : VariableDecl :=
  { name := { name }, typeExpr }

def withValue (decl : VariableDecl) (value : Expr) : VariableDecl :=
  { decl with initializer := some value }

def asConstant (decl : VariableDecl) : VariableDecl := { decl with constant := true }

def storedIn (decl : VariableDecl) (storage : Storage) : VariableDecl :=
  { decl with storage := some storage }

/-- The place of the variable and of its name. -/
def placed (decl : VariableDecl) (location : Location) : VariableDecl :=
  { decl with location, name := { decl.name with location } }

end VariableDecl

namespace Stmt

def setVariable (target : String) (value : Expr) : Stmt := .assign { target := { name := target }, value }

def returnValue (value : Option Expr) : Stmt := .ret value .unknown

def ofBlock (statements : List Stmt) : Stmt := .block (.mk statements .unknown)

def choose (condition : Expr) (yes : List Stmt) (no : Option (List Stmt)) : Stmt :=
  .branch condition (.mk yes .unknown) (no.map (.mk · .unknown)) .unknown

def repeatWhile (condition : Expr) (body : List Stmt) : Stmt :=
  .loop condition (.mk body .unknown) .unknown

end Stmt

end SemanticCheck
