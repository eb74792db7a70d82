import SemanticCheck.Location
import SemanticCheck.Tree.Operator

/-! Expressions. Every node carries the place it was read from. -/
namespace SemanticCheck

/-- A written name, declared or referred to. -/
structure Ident where
  name : String
  location : Location := .unknown
  deriving DecidableEq, Inhabited, Repr

/-- Number literals are signed words of 64 bits, wider than any type of the language. -/
inductive Expr
  | number (value : Int64) (location : Location)
  | boolean (value : Bool) (location : Location)
  | text (value : String) (location : Location)
  | ident (ident : Ident)
  | unary (op : UnaryOp) (operand : Expr) (location : Location)
  | binary (op : BinaryOp) (lhs rhs : Expr) (location : Location)
  | call (callee : Expr) (args : List Expr) (location : Location)
  | index (target position : Expr) (location : Location)
  deriving Inhabited

namespace Expr

def location : Expr → Location
  | .number _ l | .boolean _ l | .text _ l => l
  | .ident i => i.location
  | .unary _ _ l | .binary _ _ _ l | .call _ _ l | .index _ _ l => l

/-- The name, when the expression is nothing else. -/
def ident? : Expr → Option Ident
  | .ident i => some i
  | _ => none

end Expr

end SemanticCheck
