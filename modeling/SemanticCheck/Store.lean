import SemanticCheck.Inference

/-! Storing values: in a slot of a known type, and in the variable that an assignment names. -/
namespace SemanticCheck

/-- Whether a value may be stored in a slot of type `target`. A function reference passes the gate,
any other value needs a type that the slot accepts. -/
def Inference.store (infer : Inference) (settings : AnalysisSettings) (names : Names) (target : Ty)
    (value : Expr) (location : Location) : Outcome Unit :=
  match names.reference? value with
  | some f => f.gate settings target location
  | none =>
      match infer names value with
      | .error found => .error found
      | .ok source =>
          if target.accepts settings.callbackWidening source then .ok ()
          else Outcome.refuse (.valueMismatch source target) value.location

/-- Whether an assignment may be made. Functions and constants keep their value. -/
def Inference.assign (infer : Inference) (settings : AnalysisSettings) (names : Names)
    (a : Assignment) : Outcome Unit :=
  match names a.target.name with
  | none => Outcome.refuse (.undefinedName a.target.name) a.target.location
  | some (.function _) => Outcome.refuse (.assignToFunction a.target.name) a.location
  | some (.var v) =>
      if v.isConst then Outcome.refuse (.assignToConstant a.target.name v.location) a.location
      else infer.store settings names v.ty a.value a.location

end SemanticCheck
