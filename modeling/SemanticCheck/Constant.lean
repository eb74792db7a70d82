import SemanticCheck.Fault

/-!
Constants: integer expressions whose value is known while checking. They are folded in signed
64-bit arithmetic, and a result outside that range is a fault, as is a zero divisor. Only a left
shift may lose high bits. The complement stays within 16 bits.
-/
namespace SemanticCheck

/-- The largest value of a word. -/
def wordMax : Nat := 0xFFFF

/-- An integer as a signed 64-bit word, if it is in range. -/
def narrow (n : Int) : Option Int64 :=
  if Int64.minValue.toInt ≤ n ∧ n ≤ Int64.maxValue.toInt then some (Int64.ofInt n) else none

/-- Shift amounts that leave at least one bit of a 64-bit word in place. -/
def isShift (amount : Int64) : Bool := decide (0 ≤ amount.toInt) && decide (amount.toInt < 64)

/-- The value of an arithmetic operator, if there is one within 64 bits. Division goes toward zero.
A remainder counts as out of range when the quotient is. -/
def BinaryOp.apply? (op : BinaryOp) (a b : Int64) : Option Int64 :=
  match op with
  | .add => narrow (a.toInt + b.toInt)
  | .sub => narrow (a.toInt - b.toInt)
  | .mul => narrow (a.toInt * b.toInt)
  | .div => narrow (a.toInt.tdiv b.toInt)
  | .mod => (narrow (a.toInt.tdiv b.toInt)).bind fun _ => narrow (a.toInt.tmod b.toInt)
  | .bitAnd => some (a &&& b)
  | .bitOr => some (a ||| b)
  | .bitXor => some (a ^^^ b)
  | .shl => if isShift b then some (a <<< b) else none
  | .shr => if isShift b then some (a >>> b) else none
  | _ => none

/-- Whether the operator divides by its right operand. -/
def BinaryOp.divides : BinaryOp → Bool
  | .div | .mod => true
  | _ => false

/-- A unary operator on a constant. -/
def UnaryOp.fold (op : UnaryOp) (location : Location) (a : Int64) : Except Fault Int64 :=
  match op with
  | .neg =>
      match narrow (-a.toInt) with
      | some value => .ok value
      | none => .error (Cause.overflow.fault location)
  | .bitNot => .ok (~~~a &&& 0xFFFF)
  | .not => .error ((Cause.operatorNotConstant op.text).fault location)

/-- An arithmetic operator on two constants. -/
def BinaryOp.fold (op : BinaryOp) (location : Location) (a b : Int64) : Except Fault Int64 :=
  if op.divides && decide (b = 0) then .error (Cause.zeroDivisor.fault location)
  else
    match op.apply? a b with
    | some value => .ok value
    | none => .error (Cause.overflow.fault location)

/-- The value a name stands for. -/
def Names.constant (names : Names) (ident : Ident) : Except Fault Int64 :=
  match names ident.name with
  | none => .error ((Cause.undefinedName ident.name).fault ident.location)
  | some symbol =>
      match symbol.var?.bind (·.constantValue) with
      | some value => .ok value
      | none => .error ((Cause.symbolNotConstant symbol.kind ident.name).fault ident.location)

/-- The value of an expression built from literals, constants and arithmetic. Other operators are
refused before their operands are looked at. -/
def Expr.fold (names : Names) : Expr → Except Fault Int64
  | .number value _ => .ok value
  | .ident i => names.constant i
  | .unary op operand location =>
      match operand.fold names with
      | .ok a => op.fold location a
      | .error fault => .error fault
  | .binary op lhs rhs location =>
      if op.isArithmetic then
        match lhs.fold names with
        | .error fault => .error fault
        | .ok a =>
            match rhs.fold names with
            | .error fault => .error fault
            | .ok b => op.fold location a b
      else .error ((Cause.operatorNotConstant op.text).fault location)
  | .boolean _ location | .text _ location | .call _ _ location | .index _ _ location =>
      .error (Cause.notConstant.fault location)

end SemanticCheck
