import Mathlib.Data.Int.Bitwise
import SemanticCheck.Proofs.ConstantRange
import SemanticCheck.Proofs.History
import SemanticCheck.Proofs.Nearest
import SemanticCheck.Tree.Shorthand

/-!
Exact values of constants. Constants are folded in words of 64 bits, and their exact value is the one
that the same operators have over all integers. An operator whose exact result does not fit in a word
is refused, with one exception: a left shift looks at its amount only and drops the bits that leave
the word. So a folded value is exact as far as no left shift loses bits, and otherwise it is exact up to
what left shifts keep.
-/
namespace SemanticCheck

variable {names : Names} {keep : Int → Int}

/-- Integers that fit in a signed word of 64 bits. -/
def Representable (n : Int) : Prop := -2 ^ 63 ≤ n ∧ n < 2 ^ 63

instance (n : Int) : Decidable (Representable n) := inferInstanceAs (Decidable (_ ∧ _))

/-- What a signed word of 64 bits keeps of an integer. -/
def wrapped (n : Int) : Int := n.bmod (2 ^ 64)

/-- A complement keeps its low 16 bits. -/
def UnaryOp.value? : UnaryOp → Int → Option Int
  | .neg, a => some (-a)
  | .bitNot, a => some (Int.land (Int.lnot a) wordMax)
  | .not, _ => none

/-- The value of an arithmetic operator. Quotients go toward zero, right shifts toward the floor, bits
are those of two's complement. How much is kept of a left shift is left open: the value is exact when
all of it is. -/
def BinaryOp.value? (keep : Int → Int) (op : BinaryOp) (a b : Int) : Option Int :=
  match op with
  | .add => some (a + b)
  | .sub => some (a - b)
  | .mul => some (a * b)
  | .div => if b = 0 then none else some (a.tdiv b)
  | .mod => if b = 0 then none else some (a.tmod b)
  | .bitAnd => some (Int.land a b)
  | .bitOr => some (Int.lor a b)
  | .bitXor => some (Int.xor a b)
  | .shl => if 0 ≤ b then some (keep (a * 2 ^ b.toNat)) else none
  | .shr => if 0 ≤ b then some (a.fdiv (2 ^ b.toNat)) else none
  | _ => none

/-- The recorded value of a constant. -/
def Names.value? (names : Names) (name : String) : Option Int :=
  ((names name).bind fun symbol => symbol.var?.bind (·.constantValue)).map Int64.toInt

def Expr.value? (keep : Int → Int) (names : Names) : Expr → Option Int
  | .number value _ => some value.toInt
  | .ident i => names.value? i.name
  | .unary op operand _ => (operand.value? keep names).bind op.value?
  | .binary op lhs rhs _ =>
      (lhs.value? keep names).bind fun a => (rhs.value? keep names).bind (op.value? keep a)
  | .boolean .. | .text .. | .call .. | .index .. => none

/-- An integer is known by its bits: from some place on they all are its sign. -/
theorem eq_of_testBit {m n : Int} (same : ∀ k, m.testBit k = n.testBit k) : m = n := by
  have beyond : ∀ a b : Nat, ∃ k, a.testBit k = false ∧ b.testBit k = false := by
    intro a b
    have below : a + b < 2 ^ (a + b) := Nat.lt_two_pow_self
    exact ⟨a + b, Nat.testBit_lt_two_pow (by omega), Nat.testBit_lt_two_pow (by omega)⟩
  cases m with
  | ofNat a =>
      cases n with
      | ofNat b => exact congrArg Int.ofNat (Nat.eq_of_testBit_eq same)
      | negSucc b =>
          obtain ⟨k, left, right⟩ := beyond a b
          have bit := same k
          simp [Int.testBit, left, right] at bit
  | negSucc a =>
      cases n with
      | ofNat b =>
          obtain ⟨k, left, right⟩ := beyond a b
          have bit := same k
          simp [Int.testBit, left, right] at bit
      | negSucc b =>
          refine congrArg Int.negSucc (Nat.eq_of_testBit_eq ?_)
          intro k
          have bit := same k
          simpa [Int.testBit] using bit

/-- Beyond the word, the bits of its value repeat the sign. -/
theorem testBit_toInt {w : Nat} (x : BitVec w) (k : Nat) :
    x.toInt.testBit k = if k < w then x.getLsbD k else x.msb := by
  rw [BitVec.toInt_eq_msb_cond]
  cases sign : x.msb with
  | false =>
      have bits : (x.toNat : Int).testBit k = x.getLsbD k := rfl
      simp only [Bool.false_eq_true, if_false, bits]
      split
      · rfl
      · next beyond => exact BitVec.getLsbD_of_ge x k (Nat.le_of_not_lt beyond)
  | true =>
      -- a negative value is written by the complement of its bits
      have value : (x.toNat : Int) - (2 ^ w : Nat) = Int.negSucc (~~~x).toNat := by
        have lt := x.isLt
        rw [BitVec.toNat_not]
        omega
      have bits : (Int.negSucc (~~~x).toNat).testBit k = !(~~~x).getLsbD k := rfl
      simp only [if_true, value, bits, BitVec.getLsbD_not]
      split
      · next inside => simp [inside]
      · next beyond => simp [beyond]

/-- What acts on each bit of a word alone acts in the same way on the bits of its value. -/
theorem testBit_of_bits {f : Bool → Bool → Bool} {x y z : Int64}
    (bits : ∀ k < 64, z.toBitVec.getLsbD k = f (x.toBitVec.getLsbD k) (y.toBitVec.getLsbD k))
    (k : Nat) : z.toInt.testBit k = f (x.toInt.testBit k) (y.toInt.testBit k) := by
  have value : ∀ w : Int64, w.toInt = w.toBitVec.toInt := fun _ => rfl
  simp only [value, testBit_toInt]
  split
  · next inside => exact bits k inside
  · simp only [BitVec.msb_eq_getLsbD_last]
    exact bits 63 (by decide)

theorem toInt_eq_bitwise {f : Bool → Bool → Bool} {x y z : Int64}
    (bits : ∀ k < 64, z.toBitVec.getLsbD k = f (x.toBitVec.getLsbD k) (y.toBitVec.getLsbD k)) :
    z.toInt = Int.bitwise f x.toInt y.toInt := by
  apply eq_of_testBit
  intro k
  rw [Int.testBit_bitwise]
  exact testBit_of_bits bits k

section Words

variable {a b c : Int64} {n : Int}

theorem representable_toInt (a : Int64) : Representable a.toInt := ⟨a.le_toInt, a.toInt_lt⟩

theorem narrow_cases (n : Int) :
    (Representable n ∧ ∃ c, narrow n = some c ∧ c.toInt = n) ∨
      (¬ Representable n ∧ narrow n = none) := by
  have low : Int64.minValue.toInt = -2 ^ 63 := by decide
  have high : Int64.maxValue.toInt = 2 ^ 63 - 1 := by decide
  unfold narrow Representable
  split
  · next range =>
      have fits : -2 ^ 63 ≤ n ∧ n < 2 ^ 63 := by omega
      exact .inl ⟨fits, _, rfl, Int64.toInt_ofInt_of_le fits.1 fits.2⟩
  · next range => exact .inr ⟨by omega, rfl⟩

theorem toInt_and (a b : Int64) : (a &&& b).toInt = Int.land a.toInt b.toInt := by
  rw [← Int.bitwise_and]
  apply toInt_eq_bitwise
  intro k _
  rw [Int64.toBitVec_and, BitVec.getLsbD_and]

theorem toInt_or (a b : Int64) : (a ||| b).toInt = Int.lor a.toInt b.toInt := by
  rw [← Int.bitwise_or]
  apply toInt_eq_bitwise
  intro k _
  rw [Int64.toBitVec_or, BitVec.getLsbD_or]

theorem toInt_xor (a b : Int64) : (a ^^^ b).toInt = Int.xor a.toInt b.toInt := by
  rw [← Int.bitwise_xor]
  apply toInt_eq_bitwise
  intro k _
  rw [Int64.toBitVec_xor, BitVec.getLsbD_xor]

theorem toInt_not (a : Int64) : (~~~a).toInt = Int.lnot a.toInt := by
  apply eq_of_testBit
  intro k
  rw [Int.testBit_lnot]
  refine testBit_of_bits (f := fun bit _ => !bit) (y := a) ?_ k
  intro k inside
  simp [inside]

theorem isShift_iff : isShift b = true ↔ 0 ≤ b.toInt ∧ b.toInt ≤ 63 := by
  simp only [isShift, Bool.and_eq_true, decide_eq_true_eq]
  omega

/-- Amounts of shifts are taken modulo the width of a word, which leaves the valid ones alone. -/
theorem toNat_smod_of_isShift (h : isShift b = true) :
    (b.toBitVec.smod 64).toNat = b.toInt.toNat := by
  obtain ⟨low, high⟩ := isShift_iff.mp h
  have value : (b.toBitVec.smod 64).toInt = b.toInt := by
    rw [BitVec.toInt_smod]
    exact Int.fmod_eq_of_lt low (Int.lt_add_one_of_le high)
  have lt := (b.toBitVec.smod 64).isLt
  rw [BitVec.toInt_eq_toNat_cond] at value
  split at value <;> omega

theorem toInt_shiftLeft (h : isShift b = true) :
    (a <<< b).toInt = wrapped (a.toInt * 2 ^ b.toInt.toNat) := by
  have bitVec : (a <<< b).toInt = (a <<< b).toBitVec.toInt := rfl
  have value : a.toInt = (a.toBitVec.toNat : Int).bmod (2 ^ 64) := BitVec.toInt_eq_toNat_bmod _
  rw [bitVec, Int64.toBitVec_shiftLeft, BitVec.shiftLeft_eq', toNat_smod_of_isShift h,
    BitVec.toInt_shiftLeft, Nat.shiftLeft_eq, wrapped, value, Int.bmod_mul_bmod]
  push_cast
  rfl

theorem toInt_shiftRight (h : isShift b = true) :
    (a >>> b).toInt = a.toInt.fdiv (2 ^ b.toInt.toNat) := by
  have bitVec : (a >>> b).toInt = (a >>> b).toBitVec.toInt := rfl
  have positive : (0 : Int) ≤ 2 ^ b.toInt.toNat := Int.pow_nonneg (by decide)
  rw [bitVec, Int64.toBitVec_shiftRight, BitVec.sshiftRight', BitVec.toInt_sshiftRight,
    toNat_smod_of_isShift h, Int.shiftRight_eq_div_pow, Int.fdiv_eq_ediv_of_nonneg _ positive]
  rfl

theorem wrapped_of_representable (h : Representable n) : wrapped n = n := by
  obtain ⟨low, high⟩ := h
  exact Int.bmod_eq_of_le (by omega) (by omega)

/-- The only quotient of two words that is none is that of the minimum by minus one. -/
theorem representable_tdiv_iff (divisor : b.toInt ≠ 0) :
    Representable (a.toInt.tdiv b.toInt) ↔ ¬ (a.toInt = -2 ^ 63 ∧ b.toInt = -1) := by
  obtain ⟨low, high⟩ := representable_toInt a
  by_cases negated : b.toInt = -1
  · rw [negated, Int.tdiv_neg, Int.tdiv_one, Representable]
    omega
  · refine iff_of_true ?_ (by omega)
    by_cases same : b.toInt = 1
    · rw [same, Int.tdiv_one]
      exact ⟨low, high⟩
    · -- otherwise the quotient is at most half as large
      have size := Int.natAbs_tdiv a.toInt b.toInt
      have half : a.toInt.natAbs / b.toInt.natAbs ≤ a.toInt.natAbs / 2 :=
        Nat.div_le_div_left (by omega) (by decide)
      have small : (a.toInt.tdiv b.toInt).natAbs ≤ a.toInt.natAbs / 2 := size ▸ half
      unfold Representable
      omega

theorem representable_tmod (divisor : b.toInt ≠ 0) : Representable (a.toInt.tmod b.toInt) := by
  obtain ⟨low, high⟩ := representable_toInt b
  have size := Int.natAbs_tmod a.toInt b.toInt
  have less : a.toInt.natAbs % b.toInt.natAbs < b.toInt.natAbs := Nat.mod_lt _ (by omega)
  unfold Representable
  omega

/-- Operands at which a unary operator has a constant value. -/
def UnaryOp.Defined : UnaryOp → Int → Prop
  | .neg, a => Representable (-a)
  | .bitNot, _ => True
  | .not, _ => False

/-- Operands at which a binary operator has a constant value. -/
def BinaryOp.Defined (op : BinaryOp) (a b : Int) : Prop :=
  match op with
  | .add => Representable (a + b)
  | .sub => Representable (a - b)
  | .mul => Representable (a * b)
  | .div => b ≠ 0 ∧ Representable (a.tdiv b)
  | .mod => b ≠ 0 ∧ ¬ (a = -2 ^ 63 ∧ b = -1)
  | .bitAnd | .bitOr | .bitXor => True
  | .shl | .shr => 0 ≤ b ∧ b ≤ 63
  | _ => False

theorem UnaryOp.fold_cases {op : UnaryOp} (constant : op ≠ .not) (l : Location) (a : Int64) :
    (op.Defined a.toInt ∧ ∃ c, op.fold l a = .ok c ∧ op.value? a.toInt = some c.toInt) ∨
      (¬ op.Defined a.toInt ∧ op.fold l a = .error (Cause.overflow.fault l)) := by
  cases op with
  | neg =>
      unfold UnaryOp.fold
      rcases narrow_cases (-a.toInt) with ⟨fits, c, applied, value⟩ | ⟨outside, applied⟩
      · exact .inl ⟨fits, c, by rw [applied], congrArg some value.symm⟩
      · exact .inr ⟨outside, by rw [applied]⟩
  | bitNot =>
      have value : (~~~a &&& 0xFFFF).toInt = Int.land (Int.lnot a.toInt) wordMax := by
        rw [toInt_and, toInt_not]
        rfl
      exact .inl ⟨trivial, _, rfl, congrArg some value.symm⟩
  | not => exact absurd rfl constant

theorem BinaryOp.apply?_cases {op : BinaryOp} (arithmetic : op.isArithmetic = true)
    (divisor : op.divides = true → b.toInt ≠ 0) :
    (op.Defined a.toInt b.toInt ∧
        ∃ c, op.apply? a b = some c ∧ op.value? wrapped a.toInt b.toInt = some c.toInt) ∨
      (¬ op.Defined a.toInt b.toInt ∧ op.apply? a b = none) := by
  cases op with
  | eq | notEq | lt | ltEq | gt | gtEq | and | or => cases arithmetic
  | add | sub | mul =>
      rcases narrow_cases _ with ⟨fits, c, applied, value⟩ | ⟨outside, applied⟩
      · exact .inl ⟨fits, c, applied, congrArg some value.symm⟩
      · exact .inr ⟨outside, applied⟩
  | div =>
      have nonzero := divisor rfl
      rcases narrow_cases (a.toInt.tdiv b.toInt) with ⟨fits, c, applied, value⟩ | ⟨outside, applied⟩
      · refine .inl ⟨⟨nonzero, fits⟩, c, applied, ?_⟩
        rw [value]
        exact if_neg nonzero
      · exact .inr ⟨fun defined => outside defined.2, applied⟩
  | mod =>
      have nonzero := divisor rfl
      have quotient := representable_tdiv_iff (a := a) nonzero
      rcases narrow_cases (a.toInt.tdiv b.toInt) with ⟨fits, c, applied, -⟩ | ⟨outside, applied⟩
      · -- a remainder is smaller than the divisor, so it is a word as soon as there is a quotient
        rcases narrow_cases (a.toInt.tmod b.toInt) with ⟨-, r, remainder, value⟩ | ⟨none, -⟩
        · refine .inl ⟨⟨nonzero, quotient.mp fits⟩, r, ?_, ?_⟩
          · simp only [applied, BinaryOp.apply?, Option.bind_some, remainder]
          · rw [value]
            exact if_neg nonzero
        · exact absurd (representable_tmod nonzero) none
      · refine .inr ⟨fun defined => outside (quotient.mpr defined.2), ?_⟩
        simp only [applied, BinaryOp.apply?, Option.bind_none]
  | bitAnd => exact .inl ⟨trivial, _, rfl, congrArg some (toInt_and a b).symm⟩
  | bitOr => exact .inl ⟨trivial, _, rfl, congrArg some (toInt_or a b).symm⟩
  | bitXor => exact .inl ⟨trivial, _, rfl, congrArg some (toInt_xor a b).symm⟩
  | shl =>
      by_cases shift : isShift b = true
      · have amount := isShift_iff.mp shift
        refine .inl ⟨amount, _, if_pos shift, ?_⟩
        rw [toInt_shiftLeft shift]
        exact if_pos amount.1
      · exact .inr ⟨fun amount => shift (isShift_iff.mpr amount), if_neg shift⟩
  | shr =>
      by_cases shift : isShift b = true
      · have amount := isShift_iff.mp shift
        refine .inl ⟨amount, _, if_pos shift, ?_⟩
        rw [toInt_shiftRight shift]
        exact if_pos amount.1
      · exact .inr ⟨fun amount => shift (isShift_iff.mpr amount), if_neg shift⟩

theorem BinaryOp.fold_cases {op : BinaryOp} (arithmetic : op.isArithmetic = true) (l : Location)
    (a b : Int64) :
    (op.Defined a.toInt b.toInt ∧
        ∃ c, op.fold l a b = .ok c ∧ op.value? wrapped a.toInt b.toInt = some c.toInt) ∨
      (¬ op.Defined a.toInt b.toInt ∧
        ∃ cause : Cause, op.fold l a b = .error (cause.fault l) ∧ cause.kind = .invalidOperation) := by
  unfold BinaryOp.fold
  by_cases zero : (op.divides && decide (b = 0)) = true
  · rw [if_pos zero]
    rw [Bool.and_eq_true, decide_eq_true_eq] at zero
    refine .inr ⟨?_, .zeroDivisor, rfl, rfl⟩
    obtain ⟨divides, rfl⟩ := zero
    cases op with
    | div | mod => exact fun defined => defined.1 rfl
    | _ => cases divides
  · rw [if_neg zero]
    have divisor : op.divides = true → b.toInt ≠ 0 := by
      intro divides none
      rw [divides, Bool.true_and, decide_eq_true_eq] at zero
      exact zero (Int64.toInt_inj.mp none)
    rcases op.apply?_cases (a := a) arithmetic divisor with
      ⟨defined, c, applied, value⟩ | ⟨undefined, applied⟩
    · exact .inl ⟨defined, c, by rw [applied], value⟩
    · exact .inr ⟨undefined, .overflow, by rw [applied], rfl⟩

end Words

theorem Names.value?_of_constant {i : Ident} {v : Int64} (folded : names.constant i = .ok v) :
    names.value? i.name = some v.toInt := by
  obtain ⟨w, stands, recorded⟩ := Names.constant_eq_ok folded
  simp [Names.value?, stands, Symbol.var?, recorded]

theorem BinaryOp.value?_eq_wrapped {op : BinaryOp} {a b : Int}
    (kept : op = .shl → keep (a * 2 ^ b.toNat) = wrapped (a * 2 ^ b.toNat)) :
    op.value? keep a b = op.value? wrapped a b := by
  cases op with
  | shl => simp only [BinaryOp.value?, kept rfl]
  | _ => rfl

theorem BinaryOp.value?_zero {op : BinaryOp} {a : Int} (divides : op.divides = true) :
    op.value? keep a 0 = none := by
  cases op with
  | div | mod => rfl
  | _ => cases divides

/-- A valid left shift keeps as much of its value as a word does. -/
def Expr.KeepsShifts (keep : Int → Int) (names : Names) (e : Expr) : Prop :=
  ∀ {lhs rhs l a b}, Node.expr (.binary .shl lhs rhs l) ∈ e.nodes →
    lhs.value? keep names = some a → rhs.value? keep names = some b → 0 ≤ b → b ≤ 63 →
      keep (a * 2 ^ b.toNat) = wrapped (a * 2 ^ b.toNat)

theorem Expr.mem_nodes_self (e : Expr) : Node.expr e ∈ e.nodes := by
  cases e <;> simp [Expr.nodes]

theorem Expr.KeepsShifts.of_nodes {e part : Expr} (kept : e.KeepsShifts keep names)
    (inside : ∀ n ∈ part.nodes, n ∈ e.nodes) : part.KeepsShifts keep names :=
  fun shift left right low high => kept (inside _ shift) left right low high

theorem Expr.fold_unary_eq_ok {op : UnaryOp} {operand : Expr} {l : Location} {c : Int64}
    (h : (Expr.unary op operand l).fold names = .ok c) :
    op ≠ .not ∧ ∃ a, operand.fold names = .ok a ∧ op.fold l a = .ok c := by
  simp only [Expr.fold] at h
  split at h
  · next a folded =>
      refine ⟨?_, a, folded, h⟩
      rintro rfl
      cases h
  · cases h

/-- Folding an expression folds all of its parts, and each to its own value. -/
theorem Expr.parts_of_fold (e : Expr) {v : Int64} (kept : e.KeepsShifts keep names)
    (folded : e.fold names = .ok v) {part : Expr} (inside : Node.expr part ∈ e.nodes) :
    ∃ w, part.fold names = .ok w ∧ part.value? keep names = some w.toInt := by
  match e with
  | .number value l =>
      cases folded
      cases List.mem_singleton.mp inside
      exact ⟨_, rfl, rfl⟩
  | .ident i =>
      simp only [Expr.nodes, List.mem_cons, List.not_mem_nil, Node.expr.injEq, reduceCtorEq,
        or_false] at inside
      cases inside
      exact ⟨v, folded, names.value?_of_constant folded⟩
  | .boolean _ _ | .text _ _ | .call _ _ _ | .index _ _ _ => cases folded
  | .unary op operand l =>
      have parts : ∀ n ∈ operand.nodes, n ∈ (Expr.unary op operand l).nodes :=
        fun n member => List.mem_cons_of_mem _ member
      obtain ⟨constant, a, operandFolded, applied⟩ := fold_unary_eq_ok folded
      rcases List.mem_cons.mp inside with self | inner
      · cases self
        obtain ⟨_, again, value⟩ :=
          parts_of_fold operand (kept.of_nodes parts) operandFolded operand.mem_nodes_self
        cases operandFolded.symm.trans again
        rcases op.fold_cases constant l a with ⟨-, c, result, computed⟩ | ⟨-, refused⟩
        · cases applied.symm.trans result
          refine ⟨v, folded, ?_⟩
          simp only [Expr.value?, value, Option.bind_some, computed]
        · cases applied.symm.trans refused
      · exact parts_of_fold operand (kept.of_nodes parts) operandFolded inner
  | .binary op lhs rhs l =>
      have parts : ∀ n ∈ lhs.nodes ++ rhs.nodes, n ∈ (Expr.binary op lhs rhs l).nodes :=
        fun n member => List.mem_cons_of_mem _ member
      have keptLeft : lhs.KeepsShifts keep names :=
        kept.of_nodes fun n member => parts n (List.mem_append_left _ member)
      have keptRight : rhs.KeepsShifts keep names :=
        kept.of_nodes fun n member => parts n (List.mem_append_right _ member)
      obtain ⟨arithmetic, a, b, left, right, applied⟩ := fold_binary_eq_ok folded
      rcases List.mem_cons.mp inside with self | inner
      · cases self
        obtain ⟨_, again, leftValue⟩ := parts_of_fold lhs keptLeft left lhs.mem_nodes_self
        cases left.symm.trans again
        obtain ⟨_, again, rightValue⟩ := parts_of_fold rhs keptRight right rhs.mem_nodes_self
        cases right.symm.trans again
        rcases op.fold_cases arithmetic l a b with ⟨defined, c, result, computed⟩ | ⟨-, _, refused, -⟩
        · cases applied.symm.trans result
          have same : op.value? keep a.toInt b.toInt = op.value? wrapped a.toInt b.toInt := by
            apply BinaryOp.value?_eq_wrapped
            rintro rfl
            exact kept (mem_nodes_self _) leftValue rightValue defined.1 defined.2
          refine ⟨v, folded, ?_⟩
          simp only [Expr.value?, leftValue, rightValue, Option.bind_some, same, computed]
        · cases applied.symm.trans refused
      · rcases List.mem_append.mp inner with inLeft | inRight
        · exact parts_of_fold lhs keptLeft left inLeft
        · exact parts_of_fold rhs keptRight right inRight

/-- The value lies outside the words of 64 bits. -/
def Expr.Overflows (keep : Int → Int) (names : Names) (e : Expr) : Prop :=
  ∃ n, e.value? keep names = some n ∧ ¬ Representable n

def Expr.DividesByZero (keep : Int → Int) (names : Names) (e : Expr) : Prop :=
  ∃ op lhs rhs l, e = .binary op lhs rhs l ∧ op.divides = true ∧ rhs.value? keep names = some 0

/-- Folding an expression gives its value, and refuses it if some part has none within a word. -/
structure Expr.FoldsTo (keep : Int → Int) (names : Names) (e : Expr) : Prop where
  value : ∀ v, e.fold names = .ok v → e.value? keep names = some v.toInt
  refuses : ∀ part, Node.expr part ∈ e.nodes →
    part.Overflows keep names ∨ part.DividesByZero keep names → ∃ fault, e.fold names = .error fault

theorem Expr.KeepsShifts.foldsTo {e : Expr} (kept : e.KeepsShifts keep names) :
    e.FoldsTo keep names where
  value v folded := by
    obtain ⟨w, again, value⟩ := e.parts_of_fold kept folded e.mem_nodes_self
    cases folded.symm.trans again
    exact value
  refuses part inside flawed := by
    cases folded : e.fold names with
    | error fault => exact ⟨fault, rfl⟩
    | ok v =>
        exfalso
        obtain ⟨w, partFolded, value⟩ := e.parts_of_fold kept folded inside
        rcases flawed with ⟨n, large, outside⟩ | ⟨op, lhs, rhs, l, rfl, divides, zero⟩
        · cases large.symm.trans value
          exact outside (representable_toInt w)
        · simp only [Expr.value?, zero, Option.bind_some, BinaryOp.value?_zero divides,
            Option.bind_fun_none] at value
          cases value

/-- No valid left shift of the expression loses bits of its exact value. -/
def Expr.ShiftsFit (names : Names) (e : Expr) : Prop :=
  ∀ {lhs rhs l a b}, Node.expr (.binary .shl lhs rhs l) ∈ e.nodes →
    lhs.value? id names = some a → rhs.value? id names = some b → 0 ≤ b → b ≤ 63 →
      Representable (a * 2 ^ b.toNat)

/-- What folding gives is the value of the expression, with left shifts that drop what leaves the
word; and it is the exact value if no left shift drops anything. In both readings an expression is
refused if a part of it has no value within a word or divides by zero. -/
theorem Expr.fold_exact (t : SymbolTable) (e : Expr) :
    e.FoldsTo wrapped t.names ∧ (e.ShiftsFit t.names → e.FoldsTo id t.names) := by
  have wraps : e.KeepsShifts wrapped t.names := fun _ _ _ _ _ => rfl
  refine ⟨wraps.foldsTo, ?_⟩
  intro fits
  have whole : e.KeepsShifts id t.names := by
    intro lhs rhs l a b shift left right low high
    exact (wrapped_of_representable (fits shift left right low high)).symm
  exact whole.foldsTo

def VariableSymbol.unit : VariableSymbol :=
  { name := "UNIT", ty := .byte, scope := 0, isConst := true, constantValue := some 3 }

def VariableSymbol.span : VariableSymbol :=
  { name := "SPAN", ty := .byte, scope := 0, isConst := true, constantValue := some 48 }

/-- Inside a function that has a variable of the name of an outer constant. -/
def SymbolTable.measuring : SymbolTable :=
  Action.runAll
    [.call (.declare (.var .unit)), .call (.declare (.var .span)), .call (.push .function),
     .call (.declare
       (.var { VariableSymbol.span with scope := 1, isConst := false, constantValue := none }))] .empty

theorem SymbolTable.measuring_wellFormed : measuring.WellFormed :=
  (Action.runAll_later _ .empty).wellFormed

theorem SymbolTable.measuring_unit : measuring.names "UNIT" = some (.var .unit) := by
  apply measuring_wellFormed.names_eq_some_iff.mpr
  refine .outside rfl ?_ rfl (.here rfl (by exact List.mem_cons_self) rfl)
  intro y own
  rw [List.mem_singleton.mp own]
  decide

/-- Sixteen units, less one. -/
def Expr.lastUnit : Expr :=
  .applyBinary .sub (.applyBinary .shl (.ofName "UNIT") (.ofInt 4)) (.ofInt 1)

theorem Expr.fold_lastUnit : lastUnit.fold SymbolTable.measuring.names = .ok 47 := by
  simp only [lastUnit, applyBinary, ofName, ofInt, fold, Names.constant, SymbolTable.measuring_unit]
  decide

theorem Expr.lastUnit_exact :
    lastUnit.ShiftsFit SymbolTable.measuring.names ∧
      lastUnit.fold SymbolTable.measuring.names = .ok 47 ∧
      lastUnit.value? id SymbolTable.measuring.names = some 47 := by
  have fits : lastUnit.ShiftsFit SymbolTable.measuring.names := by
    intro lhs rhs l a b shift left right low high
    simp only [lastUnit, applyBinary, ofName, ofInt, nodes, List.mem_cons, List.mem_append,
      List.not_mem_nil, Node.expr.injEq, Expr.binary.injEq, reduceCtorEq, false_and, or_false,
      false_or, true_and] at shift
    obtain ⟨rfl, rfl, -⟩ := shift
    simp only [value?, Names.value?, SymbolTable.measuring_unit] at left right
    cases left
    cases right
    decide
  exact ⟨fits, fold_lastUnit, ((fold_exact .measuring lastUnit).2 fits).value 47 fold_lastUnit⟩

/-- Twice the highest power of two in a word. -/
def Expr.shiftedOut : Expr := .applyBinary .shl (.ofInt 2) (.ofInt 63)

/-- A left shift can lose all bits of its exact value without a fault. -/
theorem Expr.shiftedOut_not_exact :
    shiftedOut.fold SymbolTable.empty.names = .ok 0 ∧
      shiftedOut.value? id SymbolTable.empty.names = some (2 ^ 64) ∧
      ¬ shiftedOut.FoldsTo id SymbolTable.empty.names := by
  have folded : shiftedOut.fold SymbolTable.empty.names = .ok 0 := by decide
  have large : shiftedOut.value? id SymbolTable.empty.names = some (2 ^ 64) := by decide
  refine ⟨folded, large, ?_⟩
  intro claimed
  have value := claimed.value 0 folded
  rw [large] at value
  cases value

end SemanticCheck
