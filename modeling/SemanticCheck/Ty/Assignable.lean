import SemanticCheck.Ty

/-!
Which values may be stored in which slots. Scalars widen. Arrays are laid out element by element, so
an array never widens. A callback slot takes a function that can be called through it: with
widening allowed, a slot that passes a byte may hold a function that takes a word.
-/
namespace SemanticCheck

/-- Whether a function with parameter `declared` may stand behind a slot that passes `passed`. -/
def Ty.canPass (widening : Bool) (passed declared : Ty) : Bool :=
  match passed, declared with
  | .primitive p, .primitive d => if widening then p.widensTo d else decide (p = d)
  | _, _ => decide (passed = declared)

/-- Whether a function of signature `function` may be stored in a slot of signature `slot`. -/
def Signature.accepts (widening : Bool) (slot function : Signature) : Bool :=
  decide (slot.arity = function.arity) &&
    (slot.params.zip function.params).all (fun pair => Ty.canPass widening pair.1 pair.2) &&
    decide (slot.result = function.result)

/-- Whether a value of type `source` may be stored in a slot of type `target`. -/
def Ty.accepts (widening : Bool) (target source : Ty) : Bool :=
  decide (target = source) || match target, source with
    | .primitive t, .primitive s => s.widensTo t
    | .array e m, .array f n => decide (m = n) && decide (e = f)
    | .callback ps r, .callback qs u => Signature.accepts widening ⟨ps, r⟩ ⟨qs, u⟩
    | _, _ => false

end SemanticCheck
