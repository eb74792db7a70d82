import SemanticCheck.Analysis
import SemanticCheck.Diagnostic

/-! Reports: the analysis of a program with its faults as diagnostics for the user. -/
namespace SemanticCheck

/-- The code comes from the kind of fault, the help from its suggestions. -/
def Fault.diagnostic (f : Fault) : Diagnostic :=
  { location := f.location, message := f.message, code := some f.kind.code, help := f.suggestions }

def Analysis.diagnostics (a : Analysis) : List Diagnostic := a.faults.map Fault.diagnostic

structure Report where
  analysis : Analysis
  diagnostics : List Diagnostic

namespace Report

def hasErrors (r : Report) : Bool := r.diagnostics.any Diagnostic.isError

/-- One diagnostic after the other, in the order they were found. -/
def render (r : Report) : String := "\n".intercalate (r.diagnostics.map Diagnostic.text)

end Report

def Program.check (settings : Settings) (program : Program) : Except ScopeError Report :=
  (program.analyze settings.analysis).map fun analysis => ⟨analysis, analysis.diagnostics⟩

end SemanticCheck
