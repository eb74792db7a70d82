import SemanticCheck.Document.Value
import SemanticCheck.Settings

/-!
Settings from the entries of a document, however its text is read. What a section leaves out keeps its
default. A document that is invalid anywhere, or has a known key with a value of the wrong kind, leaves
all defaults in force.
-/
namespace SemanticCheck

open Document (Fields Value)

namespace Settings

def count? : Value → Option Nat
  | .integer n => if 0 ≤ n then some n.toNat else none
  | _ => none

def flag? : Value → Option Bool
  | .boolean b => some b
  | _ => none

def text? : Value → Option String
  | .text s => some s
  | _ => none

/-- The value of a key that may be missing but not of another kind. -/
def entry? {α : Type} (read : Value → Option α) (fields : Fields) (name : String) : Option (Option α) :=
  match fields.lookup name with
  | none => some none
  | some value => (read value).map some

/-- A section of two entries. A list gives both by position, and further items are ignored. A date is
a section without known entries. -/
def section? {α β : Type} (first : Value → Option α) (firstName : String) (second : Value → Option β)
    (secondName : String) : Value → Option (Option α × Option β)
  | .table _ fields => do return (← entry? first fields firstName, ← entry? second fields secondName)
  | .list (a :: b :: _) => do return (some (← first a), some (← second b))
  | .moment => some (none, none)
  | _ => none

def ofFields? (fields : Fields) : Option Settings := do
  let analysis ← entry? (section? count? "max_callback_params" flag? "callback_widening") fields "analysis"
  let log ← entry? (section? text? "filter" text? "dir") fields "log"
  let (limit, widening) := analysis.getD (none, none)
  let (filter, directory) := log.getD (none, none)
  let defaults : Settings := {}
  return { analysis := ⟨limit.getD defaults.analysis.maxCallbackParams,
                        widening.getD defaults.analysis.callbackWidening⟩
           log := ⟨filter.getD defaults.log.filter, directory⟩ }

/-- The settings of a document, given its entries if it is valid. -/
def ofEntries (entries : Option Fields) : Settings := (entries.bind ofFields?).getD {}

/-- The settings of a file, given its bytes if there is one and a reader for its text. Bytes that are
no text are invalid. -/
def ofFile (read : String → Option Fields) : Option ByteArray → Settings
  | none => {}
  | some bytes => ofEntries ((String.fromUTF8? bytes).bind read)

end Settings

end SemanticCheck
