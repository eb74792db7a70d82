import SemanticCheck.Call
import SemanticCheck.Constant

/-!
Types of expressions. Each form has a rule that combines the outcomes of its parts; both operands of
an operator are looked at, so the faults of both are reported.
-/
namespace SemanticCheck

/-- A way to find the types of expressions where names have a given meaning. -/
abbrev Inference := Names → Expr → Outcome Ty

/-- A literal has the smallest type that holds it. -/
def Ty.ofLiteral (value : Int64) (location : Location) : Outcome Ty :=
  if 0 ≤ value.toInt ∧ value.toInt ≤ 0xFF then .ok .byte
  else if 0 ≤ value.toInt ∧ value.toInt ≤ wordMax then .ok .word
  else Outcome.refuse (.literalTooLarge value.toInt) location

/-- A variable has its type, a function the type of a slot that it fits exactly. -/
def Symbol.ty : Symbol → Ty
  | .var v => v.ty
  | .function f => f.signature.ty

def Names.typeOf (names : Names) (ident : Ident) : Outcome Ty :=
  match names ident.name with
  | some symbol => .ok symbol.ty
  | none => Outcome.refuse (.undefinedName ident.name) ident.location

def UnaryOp.result? : UnaryOp → Ty → Option Ty
  | .neg, t | .bitNot, t => if t.isNumeric then some t else none
  | .not, t => if t = .boolean then some .boolean else none

/-- Arithmetic is done in words as soon as one side is a word. Any two values can be compared for
equality when one could be stored in the other's place. -/
def BinaryOp.result? (settings : AnalysisSettings) (op : BinaryOp) (lhs rhs : Ty) : Option Ty :=
  if op.isArithmetic && lhs.isNumeric && rhs.isNumeric then
    some (if lhs = .word ∨ rhs = .word then .word else .byte)
  else if (decide (op = .eq) || decide (op = .notEq)) &&
      (lhs.accepts settings.callbackWidening rhs || rhs.accepts settings.callbackWidening lhs) then
    some .boolean
  else if op.isComparison && lhs.isNumeric && rhs.isNumeric then some .boolean
  else if op.isLogical && decide (lhs = .boolean) && decide (rhs = .boolean) then some .boolean
  else none

def UnaryOp.infer (op : UnaryOp) (location : Location) : Outcome Ty → Outcome Ty
  | .error found => .error found
  | .ok ty =>
      match op.result? ty with
      | some result => .ok result
      | none => Outcome.refuse (.unaryOperand op ty) location

/-- Without the types of both operands there is nothing to say about the operator itself. -/
def BinaryOp.infer (settings : AnalysisSettings) (op : BinaryOp) (location : Location)
    (lhs rhs : Outcome Ty) : Outcome Ty :=
  let (found, lhs) := Outcome.absorb [] lhs
  let (found, rhs) := Outcome.absorb found rhs
  match lhs, rhs with
  | some lhs, some rhs =>
      match op.result? settings lhs rhs with
      | some result => .ok result
      | none => Outcome.refuse (.binaryOperands op lhs rhs) location
  | _, _ => Outcome.finish found .void

/-- Only a literal position can be compared with the size. -/
def Expr.outOfBounds? (size : Nat) : Expr → Option Int
  | .number value _ => if 0 ≤ value.toInt ∧ size ≤ value.toInt.toNat then some value.toInt else none
  | _ => none

/-- What the position of an element may be faulted for by itself. -/
def Ty.positionFaults (location : Location) : Option Ty → List Fault
  | some ty => if ty.isNumeric then [] else [(Cause.positionNotNumeric ty).fault location]
  | none => []

/-- The element type of an indexed value, with the faults of the target and of the bounds. -/
def Ty.element (target position : Expr) : Option Ty → List Fault × Ty
  | some (.array element size) =>
      match position.outOfBounds? size with
      | some value =>
          ([(Cause.positionOutOfBounds value (.array element size)).fault position.location], element)
      | none => ([], element)
  | some other => ([(Cause.notIndexable other).fault target.location], .void)
  | none => ([], .void)

def Ty.index (target position : Expr) (targetTy positionTy : Outcome Ty) : Outcome Ty :=
  let (found, targetTy) := Outcome.absorb [] targetTy
  let (found, positionTy) := Outcome.absorb found positionTy
  let (misplaced, element) := Ty.element target position targetTy
  Outcome.finish (found ++ Ty.positionFaults position.location positionTy ++ misplaced) element

/-- A call of whatever the callee's name stands for. -/
def Names.call (settings : AnalysisSettings) (names : Names) (callee : Expr) (args : List Argument)
    (location : Location) : Outcome Ty :=
  match callee.ident? with
  | none => Outcome.refuse .calleeNotNamed callee.location
  | some ident =>
      match names ident.name with
      | some (.function f) => f.call settings names args location
      | some (.var v) => v.call settings names args location
      | none => Outcome.refuse (.undefinedName ident.name) ident.location

mutual

def Expr.infer (settings : AnalysisSettings) (names : Names) : Expr → Outcome Ty
  | .number value location => Ty.ofLiteral value location
  | .boolean _ _ => .ok .boolean
  | .text _ _ => .ok .string
  | .ident i => names.typeOf i
  | .unary op operand location => op.infer location (operand.infer settings names)
  | .binary op lhs rhs location =>
      op.infer settings location (lhs.infer settings names) (rhs.infer settings names)
  | .call callee args location => names.call settings callee (inferAll settings names args) location
  | .index target position _ =>
      Ty.index target position (target.infer settings names) (position.infer settings names)

def Expr.inferAll (settings : AnalysisSettings) (names : Names) : List Expr → List Argument
  | [] => []
  | e :: rest => ⟨e, e.infer settings names⟩ :: inferAll settings names rest

end

/-- Arguments typed by some inference. -/
def Inference.arguments (infer : Inference) (names : Names) (args : List Expr) : List Argument :=
  args.map fun e => ⟨e, infer names e⟩

/-- The arguments of a nested call are typed like any others. -/
theorem Expr.inferAll_eq_arguments (settings : AnalysisSettings) (names : Names) (args : List Expr) :
    Expr.inferAll settings names args = Inference.arguments (Expr.infer settings) names args := by
  induction args with
  | nil => rfl
  | cons e rest ih => rw [Expr.inferAll, ih]; rfl

end SemanticCheck
