import SemanticCheck.Document.Text
import SemanticCheck.Document.Value

/-!
Unquoted values of a settings document: booleans, integers, fractions, and dates and times. Such a
value is a word of letters, digits and a few signs, and no other character may touch it.
-/
namespace SemanticCheck.Document

def isDigit (c : Char) : Bool := '0' ≤ c && c ≤ '9'

def isLetter (c : Char) : Bool := ('a' ≤ c && c ≤ 'z') || ('A' ≤ c && c ≤ 'Z')

def isWordChar (c : Char) : Bool :=
  isLetter c || isDigit c || c = '_' || c = '+' || c = '-' || c = '.' || c = ':'

/-- The digits of a number, where single underscores may stand between digits. -/
def digits? (isDigit : Char → Bool) : List Char → Option (List Char)
  | [] => none
  | [c] => if isDigit c then some [c] else none
  | c :: '_' :: rest => if isDigit c then (digits? isDigit rest).map (c :: ·) else none
  | c :: rest => if isDigit c then (digits? isDigit rest).map (c :: ·) else none

/-- The value of digits in a base. -/
def ofDigits (base : Nat) (digits : List Char) : Nat :=
  digits.foldl (fun n c => base * n + (hexValue? c).getD 0) 0

/-- Decimal digits without a leading zero. -/
def decimal? (word : List Char) : Option (List Char) :=
  (digits? isDigit word).filter fun digits => word = ['0'] ∨ digits.head? ≠ some '0'

/-- Splits off a sign; `true` stands for a minus. -/
def splitSign : List Char → Bool × List Char
  | '-' :: rest => (true, rest)
  | '+' :: rest => (false, rest)
  | rest => (false, rest)

/-- A number in a base up to sixteen. -/
def natural? (base : Nat) (word : List Char) : Option Int :=
  (digits? (fun c => (hexValue? c).any (· < base)) word).map fun ds => (ofDigits base ds : Int)

/-- The value of decimal digits with a sign. -/
def signed (negative : Bool) (digits : List Char) : Int :=
  if negative then -(ofDigits 10 digits : Int) else ofDigits 10 digits

/-- An integer of 64 bits: decimal with an optional sign, or with the mark of another base. -/
def integer? (word : List Char) : Option Int :=
  let value := match word with
    | '0' :: 'x' :: rest => natural? 16 rest
    | '0' :: 'o' :: rest => natural? 8 rest
    | '0' :: 'b' :: rest => natural? 2 rest
    | _ => (decimal? (splitSign word).2).map (signed (splitSign word).1)
  value.filter fun n => Int64.minValue.toInt ≤ n ∧ n ≤ Int64.maxValue.toInt

/-- The least number that is nearer to infinity than to any double. -/
def doubleLimit : Nat := Nat.pow 2 1024 - Nat.pow 2 970

/-- Whether `digits · 10 ^ exponent` is out of the range of doubles. The number of digits decides
unless it is close. -/
def exceedsDouble (digits : List Char) (exponent : Int) : Bool :=
  let significant := digits.dropWhile (· = '0')
  let magnitude : Int := significant.length + exponent
  if significant.isEmpty || magnitude < 309 then false
  else if 309 < magnitude then true
  else doubleLimit * Nat.pow 10 (-exponent).toNat ≤ ofDigits 10 significant * Nat.pow 10 exponent.toNat

/-- The exponent behind its mark. -/
def exponent? (word : List Char) : Option Int :=
  (digits? isDigit (splitSign word).2).map (signed (splitSign word).1)

/-- Splits a word at the first character with a property; `none` if there is no such character. -/
def splitAt (p : Char → Bool) (word : List Char) : List Char × Option (List Char) :=
  match word.dropWhile (!p ·) with
  | [] => (word, none)
  | _ :: rest => (word.takeWhile (!p ·), some rest)

/-- A decimal fraction, with a point or an exponent or both, or one of the words for infinity and for
no number. A positive number must be in the range of doubles. -/
def isFraction (word : List Char) : Bool :=
  let (negative, rest) := splitSign word
  let (mantissa, exponentPart) := splitAt (fun c => c = 'e' || c = 'E') rest
  let (whole, fractionPart) := splitAt (· = '.') mantissa
  let special := rest = "inf".toList ∨ rest = "nan".toList
  let inRange : Option Bool := do
    let wholeDigits ← decimal? whole
    let fractionDigits ← fractionPart.elim (some []) (digits? isDigit)
    let exponent ← exponentPart.elim (some 0) exponent?
    return negative || !exceedsDouble (wholeDigits ++ fractionDigits) (exponent - fractionDigits.length)
  special || ((fractionPart.isSome || exponentPart.isSome) && inRange.getD false)

/-- Two digits with a value between bounds. -/
def inBounds (low high : Nat) (tens ones : Char) : Bool :=
  isDigit tens && isDigit ones && low ≤ ofDigits 10 [tens, ones] && ofDigits 10 [tens, ones] ≤ high

def daysIn (year month : Nat) : Nat :=
  if month = 2 then
    if year % 4 = 0 ∧ (year % 100 ≠ 0 ∨ year % 400 = 0) then 29 else 28
  else if month = 4 ∨ month = 6 ∨ month = 9 ∨ month = 11 then 30
  else 31

/-- The rest behind a date. -/
def date? : List Char → Option (List Char)
  | y₁ :: y₂ :: y₃ :: y₄ :: '-' :: m₁ :: m₂ :: '-' :: d₁ :: d₂ :: rest =>
      if [y₁, y₂, y₃, y₄].all isDigit && inBounds 1 12 m₁ m₂ &&
          inBounds 1 (daysIn (ofDigits 10 [y₁, y₂, y₃, y₄]) (ofDigits 10 [m₁, m₂])) d₁ d₂ then some rest
      else none
  | _ => none

/-- The rest behind a time of day. A minute may have a leap second. -/
def time? : List Char → Option (List Char)
  | h₁ :: h₂ :: ':' :: m₁ :: m₂ :: ':' :: s₁ :: s₂ :: rest =>
      if inBounds 0 23 h₁ h₂ && inBounds 0 59 m₁ m₂ && inBounds 0 60 s₁ s₂ then
        match rest with
        | '.' :: c :: more => if isDigit c then some (more.dropWhile isDigit) else none
        | _ => some rest
      else none
  | _ => none

/-- Nothing, or the distance from universal time. -/
def isOffset : List Char → Bool
  | [] | ['Z'] | ['z'] => true
  | [sign, h₁, h₂, ':', m₁, m₂] =>
      (sign = '+' || sign = '-') && inBounds 0 23 h₁ h₂ && inBounds 0 59 m₁ m₂
  | _ => false

/-- A date, a time, or both; an offset needs both. -/
def isMoment (word : List Char) : Bool :=
  match date? word with
  | some [] => true
  | some (c :: rest) => (c = 'T' || c = 't') && (time? rest).any isOffset
  | none => (time? word).any List.isEmpty

def Value.ofWord? (word : List Char) : Option Value :=
  if word = "true".toList then some (.boolean true)
  else if word = "false".toList then some (.boolean false)
  else if isMoment word then some .moment
  else if isFraction word then some .fraction
  else (integer? word).map .integer

/-- An unquoted value. A blank may stand between a date and a time. -/
def scanScalar : Scanner Value := fun cs =>
  let word := cs.takeWhile isWordChar
  let rest := cs.dropWhile isWordChar
  match date? word, rest with
  | some [], ' ' :: c :: more =>
      if isDigit c then
        let time := (c :: more).takeWhile isWordChar
        if isMoment (word ++ 'T' :: time) then some (.moment, (c :: more).dropWhile isWordChar) else none
      else some (.moment, rest)
  | _, _ => (Value.ofWord? word).map (·, rest)

end SemanticCheck.Document
