import SemanticCheck.Document.Scalar
import SemanticCheck.Document.Table

/-!
Statements of a settings document: a key with its value, or a header. Values nest only so deep, and
keys have only so many parts, so that no document can exhaust a reader.
-/
namespace SemanticCheck.Document

inductive Statement
  | pair (key : Key) (value : Value)
  | table (key : Key)
  | element (key : Key)
  deriving Inhabited

/-- Lists and tables in braces may be nested this deep. -/
def maxNesting : Nat := 79

/-- A dotted key may have this many parts. -/
def maxKeyParts : Nat := 79

def isKeyChar (c : Char) : Bool := isLetter c || isDigit c || c = '_' || c = '-'

/-- One part of a key, bare or quoted within one line. -/
def scanKeyPart : Scanner String
  | '"' :: rest => (Quote.scanLine .double rest).map fun (text, after) => (String.ofList text, after)
  | '\x27' :: rest => (Quote.scanLine .single rest).map fun (text, after) => (String.ofList text, after)
  | cs =>
      if (cs.takeWhile isKeyChar).isEmpty then none
      else some (String.ofList (cs.takeWhile isKeyChar), cs.dropWhile isKeyChar)

/-- The parts of a key, with dots between them and blanks around. -/
def scanKeyParts (cs : List Char) : Option (List String × List Char) :=
  match scanKeyPart (skipBlanks cs) with
  | none => none
  | some (part, rest) =>
      match skipBlanks rest with
      | '.' :: more =>
          if more.length < cs.length then
            (scanKeyParts more).map fun (parts, after) => (part :: parts, after)
          else none
      | after => some ([part], after)
termination_by cs.length

def scanKey : Scanner Key := fun cs => do
  let (parts, rest) ← scanKeyParts cs
  if parts.length ≤ maxKeyParts then
    let name ← parts.getLast?
    return (⟨parts.dropLast, name⟩, rest)
  else none

/-- A key, an equals sign and a value. -/
def scanPair (scanValue : Scanner Value) : Scanner (Key × Value) := fun cs => do
  let (key, rest) ← scanKey cs
  match rest with
  | '=' :: more =>
      let (value, after) ← scanValue (skipBlanks more)
      return ((key, value), after)
  | _ => none

/-- The items of a list from behind its bracket. A comma may follow the last one. -/
def scanItems (scanValue : Scanner Value) (cs : List Char) : Option (List Value × List Char) :=
  match skipGap false cs with
  | ']' :: after => some ([], after)
  | start =>
      match scanValue start with
      | none => none
      | some (value, rest) =>
          match skipGap false rest with
          | ',' :: more =>
              if more.length < cs.length then
                (scanItems scanValue more).map fun (values, after) => (value :: values, after)
              else none
          | ']' :: after => some ([value], after)
          | _ => none
termination_by cs.length

/-- The entries of a table in braces, at least one, within one line. -/
def scanPairs (scanValue : Scanner Value) (cs : List Char) : Option (List (Key × Value) × List Char) :=
  match scanPair scanValue cs with
  | none => none
  | some (pair, rest) =>
      match skipBlanks rest with
      | ',' :: more =>
          if more.length < cs.length then
            (scanPairs scanValue more).map fun (pairs, after) => (pair :: pairs, after)
          else none
      | '}' :: after => some ([pair], after)
      | _ => none
termination_by cs.length

/-- A text or an unquoted value. -/
def scanLeaf : Scanner Value
  | '"' :: rest => (Quote.scan .double rest).map fun (text, after) => (.text text, after)
  | '\x27' :: rest => (Quote.scan .single rest).map fun (text, after) => (.text text, after)
  | cs => scanScalar cs

/-- A value that holds others at most so deep. -/
def scanValue : Nat → Scanner Value
  | nesting + 1, '[' :: rest =>
      (scanItems (scanValue nesting) rest).map fun (values, after) => (.list values, after)
  | nesting + 1, '{' :: rest =>
      match skipBlanks rest with
      | '}' :: after => some (.table .closed [], after)
      | start => do
          let (pairs, after) ← scanPairs (scanValue nesting) start
          let value ← Value.ofPairs? pairs
          return (value, after)
  | _, cs => scanLeaf cs

def Statement.scan : Scanner Statement
  | '[' :: '[' :: rest => do
      let (key, after) ← scanKey rest
      match after with
      | ']' :: ']' :: more => return (.element key, more)
      | _ => none
  | '[' :: rest => do
      let (key, after) ← scanKey rest
      match after with
      | ']' :: more => return (.table key, more)
      | _ => none
  | cs => (scanPair (scanValue maxNesting) cs).map fun ((key, value), rest) => (.pair key value, rest)

/-- Whether a line holds no statement. -/
def isEmptyLine : List Char → Bool
  | [] | '#' :: _ | '\n' :: _ | '\r' :: _ => true
  | _ => false

/-- The statement of the first line, if it holds one. -/
def Statement.scanFirst (cs : List Char) : Option (Option Statement × List Char) :=
  if isEmptyLine (skipBlanks cs) then some (none, cs)
  else (Statement.scan (skipBlanks cs)).map fun (statement, rest) => (some statement, rest)

/-- All statements, each at the end of its own line. -/
def Statement.scanAll (cs : List Char) : Option (List Statement) :=
  match Statement.scanFirst cs with
  | none => none
  | some (statement, rest) =>
      match endLine? rest with
      | none => none
      | some next =>
          if next.length < cs.length then
            (Statement.scanAll next).map fun statements => statement.toList ++ statements
          else some statement.toList
termination_by cs.length

end SemanticCheck.Document
