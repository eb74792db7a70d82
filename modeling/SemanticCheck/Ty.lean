/-!
Types: scalars, arrays of a fixed size, and callbacks, which are slots for the address of a function.
Callbacks nest types in a list, so functions on types come in pairs, one for a type and one for a list.
-/
namespace SemanticCheck

inductive Primitive
  | byte
  | word
  | boolean
  | void
  | string
  deriving DecidableEq, Inhabited, Repr

namespace Primitive

/-- The scalar with a written name; `bool` is short for `boolean`. -/
def ofName? : String → Option Primitive
  | "byte" => some .byte
  | "word" => some .word
  | "boolean" | "bool" => some .boolean
  | "void" => some .void
  | "string" => some .string
  | _ => none

def text : Primitive → String
  | .byte => "byte"
  | .word => "word"
  | .boolean => "boolean"
  | .void => "void"
  | .string => "string"

def isNumeric : Primitive → Bool
  | .byte | .word => true
  | _ => false

/-- Whether every value of the first type is one of the second: the same type, or a byte as a word. -/
def widensTo (source target : Primitive) : Bool :=
  decide (source = target) || match source, target with
    | .byte, .word => true
    | _, _ => false

end Primitive

inductive Ty
  | primitive (scalar : Primitive)
  | array (element : Ty) (size : Nat)
  | callback (params : List Ty) (result : Ty)
  deriving Inhabited, Repr

namespace Ty

mutual

def decEq : (s t : Ty) → Decidable (s = t)
  | .primitive p, .primitive q => decidable_of_iff (p = q) (by simp)
  | .array e m, .array f n =>
      haveI := decEq e f
      decidable_of_iff (e = f ∧ m = n) (by simp)
  | .callback ps r, .callback qs u =>
      haveI := decEqList ps qs
      haveI := decEq r u
      decidable_of_iff (ps = qs ∧ r = u) (by simp)
  | .primitive _, .array _ _ | .primitive _, .callback _ _
  | .array _ _, .primitive _ | .array _ _, .callback _ _
  | .callback _ _, .primitive _ | .callback _ _, .array _ _ => isFalse (by intro h; cases h)

def decEqList : (ss ts : List Ty) → Decidable (ss = ts)
  | [], [] => isTrue rfl
  | s :: ss, t :: ts =>
      haveI := decEq s t
      haveI := decEqList ss ts
      decidable_of_iff (s = t ∧ ss = ts) (by simp)
  | [], _ :: _ | _ :: _, [] => isFalse (by intro h; cases h)

end

instance : DecidableEq Ty := decEq

def byte : Ty := .primitive .byte

def word : Ty := .primitive .word

def boolean : Ty := .primitive .boolean

def void : Ty := .primitive .void

def string : Ty := .primitive .string

def primitive? : Ty → Option Primitive
  | .primitive p => some p
  | _ => none

def isVoid (t : Ty) : Bool := decide (t.primitive? = some .void)

def isNumeric (t : Ty) : Bool := t.primitive?.any Primitive.isNumeric

def isCallback : Ty → Bool
  | .callback _ _ => true
  | _ => false

/-- What a hardware dispatch slot can pass or return: scalars that fit a pair of registers. -/
def isCallbackSafe : Ty → Bool
  | .primitive .string => false
  | .primitive _ => true
  | _ => false

mutual

/-- The type as written in messages, for instance `callback(byte, word[4]): void`. -/
def text : Ty → String
  | .primitive p => p.text
  | .array element size => s!"{element.text}[{size}]"
  | .callback params result => "callback(" ++ ", ".intercalate (texts params) ++ "): " ++ result.text

def texts : List Ty → List String
  | [] => []
  | t :: ts => t.text :: texts ts

end

theorem texts_eq_map (ts : List Ty) : texts ts = ts.map text := by
  induction ts with
  | nil => rfl
  | cons t ts ih => rw [texts, ih, List.map_cons]

end Ty

/-- Parameter types and result type of a function or a callback slot. -/
structure Signature where
  params : List Ty
  result : Ty
  deriving DecidableEq, Inhabited, Repr

namespace Signature

def arity (s : Signature) : Nat := s.params.length

def ty (s : Signature) : Ty := .callback s.params s.result

def text (s : Signature) : String := s.ty.text

end Signature

def Ty.signature? : Ty → Option Signature
  | .callback params result => some ⟨params, result⟩
  | _ => none

end SemanticCheck
