import SemanticCheck.Fault

/-!
Results of checks that report every independent fault. A check either yields a value or the list of
its faults; a larger check collects the faults of its parts in order and succeeds when there are none.
-/
namespace SemanticCheck

abbrev Outcome (α : Type) := Except (List Fault) α

namespace Outcome

variable {α : Type}

/-- Fails for one reason. -/
def refuse (cause : Cause) (location : Location) : Outcome α := .error [cause.fault location]

def faults : Outcome α → List Fault
  | .ok _ => []
  | .error found => found

def value? : Outcome α → Option α
  | .ok a => some a
  | .error _ => none

/-- Succeeds exactly when nothing was found. -/
def finish (found : List Fault) (a : α) : Outcome α :=
  match found with
  | [] => .ok a
  | _ :: _ => .error found

@[simp] theorem faults_finish (found : List Fault) (a : α) : faults (finish found a) = found := by
  cases found with
  | nil => rfl
  | cons f rest => rfl

@[simp] theorem finish_eq_ok_iff {found : List Fault} {a b : α} :
    finish found a = .ok b ↔ found = [] ∧ a = b := by
  cases found with
  | nil => simp [finish]
  | cons f rest => simp [finish]

@[simp] theorem finish_eq_error_iff {found faults : List Fault} {a : α} :
    finish found a = .error faults ↔ found = faults ∧ found ≠ [] := by
  cases found with
  | nil => simp [finish]
  | cons f rest => simp [finish]

/-- Adds the faults of a failed outcome to those found before and hands back the value of a
successful one. -/
def absorb (found : List Fault) (outcome : Outcome α) : List Fault × Option α :=
  (found ++ faults outcome, value? outcome)

/-- Goes through the parts of something, each with what was found up to it, and keeps what the parts
hand back. -/
def gather {β : Type} (part : List Fault → β → List Fault × Option α) :
    List Fault → List β → List Fault × List α
  | found, [] => (found, [])
  | found, b :: rest =>
      let (found, a?) := part found b
      let (found, kept) := gather part found rest
      (found, a?.toList ++ kept)

end Outcome

/-- The messages of a failure in one line. -/
def Fault.summary (found : List Fault) : String := "; ".intercalate (found.map (·.message))

end SemanticCheck
