import SemanticCheck.Symbol

/-!
What the checker can find wrong. A cause is one reason with its particulars. Its kind, its message
and its suggestions are functions of the cause, so all wording is in this module. A fault is a cause
told at a place.
-/
namespace SemanticCheck

inductive FaultKind
  | duplicateSymbol
  | undefinedSymbol
  | callbackMismatch
  | typeMismatch
  | constantRequired
  | invalidOperation
  | invalidScope
  deriving DecidableEq, Inhabited, Repr

namespace FaultKind

def all : List FaultKind :=
  [.duplicateSymbol, .undefinedSymbol, .callbackMismatch, .typeMismatch, .constantRequired,
    .invalidOperation, .invalidScope]

/-- Stable code shown with the message. -/
def code : FaultKind → String
  | .duplicateSymbol => "E001"
  | .undefinedSymbol => "E002"
  | .typeMismatch => "E003"
  | .callbackMismatch => "E004"
  | .constantRequired => "E005"
  | .invalidOperation => "E006"
  | .invalidScope => "E007"

def text : FaultKind → String
  | .duplicateSymbol => "duplicate symbol"
  | .undefinedSymbol => "undefined symbol"
  | .callbackMismatch => "callback mismatch"
  | .typeMismatch => "type mismatch"
  | .constantRequired => "constant required"
  | .invalidOperation => "invalid operation"
  | .invalidScope => "invalid scope"

end FaultKind

structure Fault where
  kind : FaultKind
  message : String
  location : Location := .unknown
  suggestions : List String := []
  deriving DecidableEq, Inhabited, Repr

/-- Suggestions are advice for a reader and are kept in the order given. -/
def Fault.suggest (f : Fault) (suggestion : String) : Fault :=
  { f with suggestions := f.suggestions ++ [suggestion] }

inductive Cause
  /- names -/
  | duplicateSymbol (name : String) (existing : SymbolKind) (previous : Location)
  | undefinedName (name : String)
  | unknownType (name : String)
  | foreignScope (name : String) (owner current : ScopeId)
  /- constants -/
  | overflow
  | zeroDivisor
  | operatorNotConstant (operator : String)
  | notConstant
  | symbolNotConstant (kind : SymbolKind) (name : String)
  /- array types -/
  | voidElement
  | negativeSize (size : Int)
  | sizeTooLarge (size : Int)
  /- expressions -/
  | literalTooLarge (value : Int)
  | unaryOperand (op : UnaryOp) (operand : Ty)
  | binaryOperands (op : BinaryOp) (lhs rhs : Ty)
  | positionNotNumeric (found : Ty)
  | positionOutOfBounds (position : Int) (array : Ty)
  | notIndexable (found : Ty)
  /- calls -/
  | calleeNotNamed
  | argumentCount (function : String) (required total given : Nat)
  | slotArgumentCount (slot : String) (arity given : Nat)
  | argumentMismatch (position : Nat) (callee : String) (expected found : Ty)
  | notCallable (name : String) (ty : Ty)
  /- function references -/
  | functionAsValue (target : Ty) (function : String) (signature : Signature)
  | notDeclaredCallback (function : String)
  | signatureMismatch (slot : Signature) (function : String) (signature : Signature)
  /- stores -/
  | valueMismatch (source target : Ty)
  | assignToFunction (name : String)
  | assignToConstant (name : String) (declared : Location)
  /- variable declarations -/
  | typeNotGiven (name : String)
  | constantWithoutValue (name : String)
  | voidVariable (name : String)
  | typeNotDetermined (name : String)
  /- function declarations -/
  | tooManyParams (function : String) (count limit : Nat)
  | unsafeParam (param function : String) (ty : Ty)
  | unsafeResult (function : String) (ty : Ty)
  | duplicateParam (param function : String) (first : Location)
  | requiredAfterOptional (param optional : String)
  | exportNotAllowed (function : String) (scope : ScopeKind)
  | functionWithoutName
  /- statements -/
  | returnOutsideFunction
  | unexpectedResult
  | missingResult (expected : Ty)
  | conditionNotBoolean (found : Ty)
  deriving DecidableEq, Inhabited, Repr

namespace Cause

def kind : Cause → FaultKind
  | .duplicateSymbol .. | .duplicateParam .. => .duplicateSymbol
  | .undefinedName .. | .unknownType .. => .undefinedSymbol
  | .notCallable .. | .functionAsValue .. | .notDeclaredCallback .. | .signatureMismatch ..
  | .tooManyParams .. | .unsafeParam .. | .unsafeResult .. => .callbackMismatch
  | .literalTooLarge .. | .unaryOperand .. | .binaryOperands .. | .positionNotNumeric ..
  | .notIndexable .. | .argumentCount .. | .slotArgumentCount .. | .argumentMismatch ..
  | .valueMismatch .. | .unexpectedResult | .missingResult .. | .conditionNotBoolean .. => .typeMismatch
  | .operatorNotConstant .. | .notConstant | .symbolNotConstant .. => .constantRequired
  | .overflow | .zeroDivisor | .voidElement | .negativeSize .. | .sizeTooLarge ..
  | .positionOutOfBounds .. | .calleeNotNamed | .assignToFunction .. | .assignToConstant ..
  | .typeNotGiven .. | .constantWithoutValue .. | .voidVariable .. | .typeNotDetermined ..
  | .requiredAfterOptional .. | .functionWithoutName => .invalidOperation
  | .foreignScope .. | .exportNotAllowed .. | .returnOutsideFunction => .invalidScope

/-- The least and greatest number of arguments, or the one number when they agree. -/
def countRange (required total : Nat) : String :=
  if required = total then s!"{total}" else s!"{required} to {total}"

def message : Cause → String
  | .duplicateSymbol name existing _ =>
      s!"duplicate symbol '{name}': a {existing.text} with this name is already declared in this scope"
  | .undefinedName name => s!"reference to undefined identifier '{name}'"
  | .unknownType name => s!"unknown type '{name}'"
  | .foreignScope name owner current =>
      s!"'{name}' belongs to scope {owner} but scope {current} is being analyzed"
  | .overflow => "constant expression overflows"
  | .zeroDivisor => "division by zero in constant expression"
  | .operatorNotConstant operator => s!"operator '{operator}' does not produce an integer constant"
  | .notConstant => "expected an integer constant expression"
  | .symbolNotConstant kind name => s!"{kind.text} '{name}' is not a compile-time constant"
  | .voidElement => "arrays of void are not allowed"
  | .negativeSize size => s!"array size cannot be negative, got {size}"
  | .sizeTooLarge size => s!"array size {size} does not fit in the 16-bit address space"
  | .literalTooLarge value => s!"integer literal {value} does not fit in a word"
  | .unaryOperand op operand => s!"operator '{op.text}' cannot be applied to '{operand.text}'"
  | .binaryOperands op lhs rhs =>
      s!"operator '{op.text}' cannot be applied to '{lhs.text}' and '{rhs.text}'"
  | .positionNotNumeric found => s!"array index must be a byte or word, found '{found.text}'"
  | .positionOutOfBounds position array => s!"index {position} is out of bounds for '{array.text}'"
  | .notIndexable found => s!"cannot index into a value of type '{found.text}'"
  | .calleeNotNamed => "only named functions and callback variables can be called"
  | .argumentCount function required total given =>
      s!"function '{function}' expects {countRange required total} argument(s), got {given}"
  | .slotArgumentCount slot arity given =>
      s!"callback '{slot}' expects exactly {arity} argument(s), got {given}"
  | .argumentMismatch position callee expected found =>
      s!"argument {position} of '{callee}' expects '{expected.text}', found '{found.text}'"
  | .notCallable name ty => s!"'{name}' has type '{ty.text}' and cannot be called"
  | .functionAsValue target function _ =>
      s!"cannot assign to non-callback type '{target.text}': '{function}' is a function"
  | .notDeclaredCallback function =>
      "Only callback functions can be assigned to callback variables, " ++
        s!"'{function}' is not declared as callback"
  | .signatureMismatch slot function signature =>
      s!"callback signature mismatch: expected '{slot.text}', '{function}' has '{signature.text}'"
  | .valueMismatch source target =>
      s!"cannot assign a value of type '{source.text}' to '{target.text}'"
  | .assignToFunction name => s!"cannot assign to function '{name}'"
  | .assignToConstant name _ => s!"cannot assign to constant '{name}'"
  | .typeNotGiven name => s!"cannot infer the type of '{name}' without an initializer"
  | .constantWithoutValue name => s!"constant '{name}' must be initialized"
  | .voidVariable name => s!"variable '{name}' cannot have type 'void'"
  | .typeNotDetermined name => s!"could not determine the type of '{name}'"
  | .tooManyParams function count limit =>
      s!"callback function '{function}' has {count} parameters, at most {limit} are allowed"
  | .unsafeParam param function ty =>
      s!"parameter '{param}' of callback function '{function}' has type '{ty.text}', " ++
        "callback parameters must be byte, word, boolean or void"
  | .unsafeResult function ty =>
      s!"callback function '{function}' returns '{ty.text}', " ++
        "callbacks must return byte, word, boolean or void"
  | .duplicateParam param function _ => s!"duplicate parameter '{param}' in function '{function}'"
  | .requiredAfterOptional param optional =>
      s!"required parameter '{param}' cannot follow optional parameter '{optional}'"
  | .exportNotAllowed function scope =>
      s!"function '{function}' cannot be exported from a {scope.text} scope"
  | .functionWithoutName => "function declaration is missing a name"
  | .returnOutsideFunction => "return outside of a function"
  | .unexpectedResult => "function returns 'void' but a value was returned"
  | .missingResult expected => s!"missing return value, expected '{expected.text}'"
  | .conditionNotBoolean found => s!"condition must be 'boolean', found '{found.text}'"

def suggestions : Cause → List String
  | .duplicateSymbol _ _ previous => [s!"previous declaration at {previous.text}"]
  | .unknownType _ => ["expected one of byte, word, boolean, void, string"]
  | .symbolNotConstant _ _ => ["declare it with `const` and a constant initializer"]
  | .slotArgumentCount _ _ _ => ["indirect calls must pass every parameter"]
  | .functionAsValue _ _ signature => [s!"declare the target as '{signature.text}'"]
  | .notDeclaredCallback function => [s!"declare it as `callback function {function}`"]
  | .assignToConstant name declared => [s!"'{name}' was declared at {declared.text}"]
  | .typeNotGiven name => [s!"annotate it, for example `let {name}: byte`"]
  | .tooManyParams _ _ _ => ["pass the extra values through zero-page variables"]
  | .unsafeParam _ _ _ => ["pass an address as a word instead"]
  | .duplicateParam _ _ first => [s!"first declared at {first.text}"]
  | .exportNotAllowed _ _ => ["move the declaration to the top level of the module or remove `export`"]
  | _ => []

/-- The cause told at a place. -/
def fault (cause : Cause) (location : Location) : Fault :=
  ⟨cause.kind, cause.message, location, cause.suggestions⟩

end Cause

end SemanticCheck
