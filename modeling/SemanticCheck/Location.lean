/-!
Places in a source text. A place is known by line and column, both counted from one, when the line
is not zero; otherwise only its byte span is known.
-/
namespace SemanticCheck

/-- A span of bytes together with the line and column where it starts. -/
structure Location where
  line : Nat := 0
  column : Nat := 0
  startByte : Nat := 0
  endByte : Nat := 0
  deriving DecidableEq, Inhabited, Repr

namespace Location

/-- The place of a node that was not read from a source text. -/
def unknown : Location := {}

/-- A span without line and column. -/
def span (startByte endByte : Nat) : Location := { startByte, endByte }

/-- An empty span at a known line and column. -/
def point (line column offset : Nat) : Location := ⟨line, column, offset, offset⟩

def isKnown (l : Location) : Bool := l.line != 0

/-- From the start of the first place to the end of the second. -/
def merge (first second : Location) : Location := { first with endByte := second.endByte }

/-- The byte just behind a span still belongs to it, so that a cursor at its end finds it. -/
def contains (l : Location) (offset : Nat) : Bool :=
  decide (l.startByte ≤ offset) && decide (offset ≤ l.endByte)

/-- Places in reading order: by line, then column, then the two ends of the span. -/
def order (a b : Location) : Ordering :=
  (compare a.line b.line).then <| (compare a.column b.column).then <|
    (compare a.startByte b.startByte).then (compare a.endByte b.endByte)

/-- Line and column if known, else the first byte. -/
def text (l : Location) : String :=
  if l.isKnown then s!"{l.line}:{l.column}" else s!"@{l.startByte}"

end Location

end SemanticCheck
