import SemanticCheck.Constant
import SemanticCheck.Outcome

/-!
From written types to types. The parts of a callback are independent, so all their faults are
reported; an array reports its element's faults alone, or else one fault of its own.
-/
namespace SemanticCheck

/-- The array type with a folded size, which has to fit a 16-bit address. -/
def Ty.ofArray (names : Names) (element : Ty) (size : Expr) (location : Location) : Outcome Ty :=
  if element.isVoid then Outcome.refuse .voidElement location
  else
    match size.fold names with
    | .error fault => .error [fault]
    | .ok count =>
        if count.toInt < 0 then Outcome.refuse (.negativeSize count.toInt) location
        else if wordMax < count.toInt then Outcome.refuse (.sizeTooLarge count.toInt) location
        else .ok (.array element count.toInt.toNat)

/-- The type of a written name. -/
def Ty.ofIdent (ident : Ident) : Outcome Ty :=
  match Primitive.ofName? ident.name with
  | some scalar => .ok (.primitive scalar)
  | none => Outcome.refuse (.unknownType ident.name) ident.location

/-- The callback type of resolved parts. -/
def Ty.ofParts (params : List (Outcome Ty)) (result : Outcome Ty) : Outcome Ty :=
  let (found, params) := Outcome.gather Outcome.absorb [] params
  let (found, result) := Outcome.absorb found result
  Outcome.finish found (.callback params (result.getD .void))

mutual

def TypeExpr.resolve (names : Names) : TypeExpr → Outcome Ty
  | .named ident => Ty.ofIdent ident
  | .array element size location =>
      match element.resolve names with
      | .ok ty => Ty.ofArray names ty size location
      | .error found => .error found
  | .callback params (some result) _ => Ty.ofParts (resolveAll names params) (result.resolve names)
  | .callback params none _ => Ty.ofParts (resolveAll names params) (.ok .void)

def TypeExpr.resolveAll (names : Names) : List TypeExpr → List (Outcome Ty)
  | [] => []
  | a :: rest => a.resolve names :: resolveAll names rest

end

theorem TypeExpr.resolveAll_eq_map (names : Names) (params : List TypeExpr) :
    TypeExpr.resolveAll names params = params.map (TypeExpr.resolve names) := by
  induction params with
  | nil => rfl
  | cons a rest ih => rw [TypeExpr.resolveAll, ih, List.map_cons]

/-- The type of a written type that may be left out, in which case nothing is returned. -/
def TypeExpr.resolveResult (names : Names) : Option TypeExpr → Outcome Ty
  | some typeExpr => typeExpr.resolve names
  | none => .ok .void

end SemanticCheck
