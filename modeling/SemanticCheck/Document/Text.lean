/-!
Characters, blanks and quoted texts of a settings document. Scanners take the characters still to be
read and hand back the rest. Texts in double quotes have escapes, texts in single quotes have none;
three quotes enclose a text of several lines.
-/
namespace SemanticCheck.Document

/-- Reads from the front of the text or refuses it. -/
abbrev Scanner (α : Type) := List Char → Option (α × List Char)

def isBlank (c : Char) : Bool := c = ' ' || c = '\t'

/-- Characters of comments and texts: no control characters but the tab. -/
def isPlain (c : Char) : Bool := c = '\t' || (0x20 ≤ c.toNat && c.toNat != 0x7F)

def skipBlanks (cs : List Char) : List Char := cs.dropWhile isBlank

/-- The rest behind a line break. -/
def lineBreak? : List Char → Option (List Char)
  | '\n' :: rest => some rest
  | '\r' :: '\n' :: rest => some rest
  | _ => none

/-- Blanks and line breaks. -/
def skipLines : List Char → List Char
  | [] => []
  | '\r' :: '\n' :: rest => skipLines rest
  | c :: rest => if isBlank c || c = '\n' then skipLines rest else c :: rest

/-- Blanks, line breaks and comments between the items of a list. -/
def skipGap (inComment : Bool) : List Char → List Char
  | [] => []
  | '\r' :: '\n' :: rest => skipGap false rest
  | c :: rest =>
      if inComment && isPlain c then skipGap true rest
      else if isBlank c || c = '\n' then skipGap false rest
      else if c = '#' then skipGap true rest
      else c :: rest

/-- The rest behind the end of a line: blanks, perhaps a comment, and a line break or the end. -/
def endLine? (cs : List Char) : Option (List Char) :=
  let rest := match skipBlanks cs with
    | '#' :: comment => comment.dropWhile isPlain
    | other => other
  match rest with
  | [] => some []
  | _ :: _ => lineBreak? rest

theorem length_skipLines_le (cs : List Char) : (skipLines cs).length ≤ cs.length := by
  fun_induction skipLines cs with
  | case1 => exact Nat.le_refl _
  | case2 rest ih => simp only [List.length_cons]; omega
  | case3 c rest _ _ ih => simp only [List.length_cons]; omega
  | case4 c rest _ _ => exact Nat.le_refl _

def hexValue? (c : Char) : Option Nat :=
  if '0' ≤ c ∧ c ≤ '9' then some (c.toNat - '0'.toNat)
  else if 'a' ≤ c ∧ c ≤ 'f' then some (c.toNat - 'a'.toNat + 10)
  else if 'A' ≤ c ∧ c ≤ 'F' then some (c.toNat - 'A'.toNat + 10)
  else none

/-- The character with a number, which may not be half of a surrogate pair. -/
def character? (code : Nat) : Option Char :=
  if code.isValidChar then some (Char.ofNat code) else none

/-- A character given by exactly so many hexadecimal digits. -/
def hexEscape (digits : Nat) : Scanner Char := fun cs =>
  if (cs.take digits).length = digits then do
    let values ← (cs.take digits).mapM hexValue?
    let c ← character? (values.foldl (fun n d => 16 * n + d) 0)
    return (c, cs.drop digits)
  else none

def shortEscape? : Char → Option Char
  | 'b' => some '\x08'
  | 't' => some '\t'
  | 'n' => some '\n'
  | 'f' => some '\x0c'
  | 'r' => some '\r'
  | '"' => some '"'
  | '\\' => some '\\'
  | _ => none

/-- What stands behind a backslash. -/
def escape : Scanner Char
  | [] => none
  | 'u' :: rest => hexEscape 4 rest
  | 'U' :: rest => hexEscape 8 rest
  | c :: rest => (shortEscape? c).map (·, rest)

theorem length_of_hexEscape {digits : Nat} {cs rest : List Char} {c : Char}
    (h : hexEscape digits cs = some (c, rest)) : rest.length ≤ cs.length := by
  unfold hexEscape at h
  split at h
  · simp only [bind, Option.bind_eq_some_iff, pure, Option.some.injEq, Prod.mk.injEq] at h
    obtain ⟨_, _, _, _, _, rfl⟩ := h
    simp
  · simp at h

theorem length_of_escape {cs rest : List Char} {c : Char} (h : escape cs = some (c, rest)) :
    rest.length < cs.length := by
  unfold escape at h
  split at h
  · simp at h
  · exact Nat.lt_succ_of_le (length_of_hexEscape h)
  · exact Nat.lt_succ_of_le (length_of_hexEscape h)
  · simp only [Option.map_eq_some_iff, Prod.mk.injEq] at h
    obtain ⟨_, _, _, rfl⟩ := h
    simp

/-- The mark that encloses a text. -/
inductive Quote
  | double
  | single
  deriving DecidableEq, Inhabited, Repr

namespace Quote

def mark : Quote → Char
  | .double => '"'
  | .single => '\x27'

def hasEscapes (q : Quote) : Bool := q = .double

/-- A text within one line, from behind the opening mark. -/
def scanLine (q : Quote) (cs : List Char) : Option (List Char × List Char) :=
  match cs with
  | [] => none
  | c :: rest =>
      if c = q.mark then some ([], rest)
      else if q.hasEscapes && c = '\\' then
        match h : escape rest with
        | some (e, more) =>
            have := length_of_escape h
            (q.scanLine more).map fun (text, after) => (e :: text, after)
        | none => none
      else if isPlain c then (q.scanLine rest).map fun (text, after) => (c :: text, after)
      else none
termination_by cs.length
decreasing_by all_goals simp only [List.length_cons]; omega

/-- A text of several lines, from behind its first line break. Three marks end it, and up to two
more marks before them belong to it. A backslash before a line break drops all blanks and line
breaks behind it. -/
def scanLines (q : Quote) (cs : List Char) : Option (List Char × List Char) :=
  match cs with
  | [] => none
  | '\r' :: '\n' :: rest => (q.scanLines rest).map fun (text, after) => ('\n' :: text, after)
  | c :: rest =>
      if c = q.mark ∧ rest.take 2 = [q.mark, q.mark] then
        let extra := ((rest.drop 2).take 2).takeWhile (· = q.mark)
        some (extra, rest.drop (2 + extra.length))
      else if q.hasEscapes && c = '\\' then
        match lineBreak? (skipBlanks rest) with
        | some _ =>
            have := length_skipLines_le rest
            q.scanLines (skipLines rest)
        | none =>
            match h : escape rest with
            | some (e, more) =>
                have := length_of_escape h
                (q.scanLines more).map fun (text, after) => (e :: text, after)
            | none => none
      else if isPlain c || c = '\n' then
        (q.scanLines rest).map fun (text, after) => (c :: text, after)
      else none
termination_by cs.length
decreasing_by all_goals simp only [List.length_cons]; omega

/-- A text from behind its first mark. -/
def scan (q : Quote) : Scanner String := fun cs =>
  let found :=
    if cs.take 2 = [q.mark, q.mark] then
      q.scanLines ((lineBreak? (cs.drop 2)).getD (cs.drop 2))
    else q.scanLine cs
  found.map fun (text, rest) => (String.ofList text, rest)

end Quote

end SemanticCheck.Document
