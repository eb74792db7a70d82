/-! The operators of expressions, with their spelling and the three families of binary ones. -/
namespace SemanticCheck

inductive UnaryOp
  | neg
  | not
  | bitNot
  deriving DecidableEq, Inhabited, Repr

def UnaryOp.text : UnaryOp → String
  | .neg => "-"
  | .not => "!"
  | .bitNot => "~"

inductive BinaryOp
  | add
  | sub
  | mul
  | div
  | mod
  | bitAnd
  | bitOr
  | bitXor
  | shl
  | shr
  | eq
  | notEq
  | lt
  | ltEq
  | gt
  | gtEq
  | and
  | or
  deriving DecidableEq, Inhabited, Repr

namespace BinaryOp

/-- Operators from numbers to a number. -/
def isArithmetic : BinaryOp → Bool
  | .add | .sub | .mul | .div | .mod | .bitAnd | .bitOr | .bitXor | .shl | .shr => true
  | _ => false

def isComparison : BinaryOp → Bool
  | .eq | .notEq | .lt | .ltEq | .gt | .gtEq => true
  | _ => false

def isLogical : BinaryOp → Bool
  | .and | .or => true
  | _ => false

def text : BinaryOp → String
  | .add => "+"
  | .sub => "-"
  | .mul => "*"
  | .div => "/"
  | .mod => "%"
  | .bitAnd => "&"
  | .bitOr => "|"
  | .bitXor => "^"
  | .shl => "<<"
  | .shr => ">>"
  | .eq => "=="
  | .notEq => "!="
  | .lt => "<"
  | .ltEq => "<="
  | .gt => ">"
  | .gtEq => ">="
  | .and => "&&"
  | .or => "||"

end BinaryOp

end SemanticCheck
