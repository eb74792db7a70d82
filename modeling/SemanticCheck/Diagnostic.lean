import SemanticCheck.Location

/-! Messages for the user: a place, a severity, a text, and optionally a code and lines of help. -/
namespace SemanticCheck

inductive Severity
  | error
  | warning
  | info
  | hint
  deriving DecidableEq, Inhabited, Repr

def Severity.text : Severity → String
  | .error => "error"
  | .warning => "warning"
  | .info => "info"
  | .hint => "hint"

structure Diagnostic where
  location : Location
  severity : Severity := .error
  message : String
  code : Option String := none
  help : List String := []
  deriving DecidableEq, Inhabited, Repr

namespace Diagnostic

def isError (d : Diagnostic) : Bool := d.severity = .error

/-- Severity and code, as in `error[E001]`. -/
def label (d : Diagnostic) : String :=
  match d.code with
  | some code => s!"{d.severity.text}[{code}]"
  | none => d.severity.text

/-- One line for the message, then one indented line for each piece of help. -/
def text (d : Diagnostic) : String :=
  s!"{d.label} {d.location.text}: {d.message}" ++ String.join (d.help.map fun line => s!"\n  help: {line}")

end Diagnostic

end SemanticCheck
