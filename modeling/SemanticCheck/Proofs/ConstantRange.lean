import SemanticCheck.Proofs.IndirectCall
import SemanticCheck.Proofs.Nearest
import SemanticCheck.Proofs.SymbolInvariant

/-!
The values of constants. The type of an initializer and its value are found independently, and no
declaration compares the two. Some operators stay within the type of their operands whatever their
values are: division, remainder, the bitwise ones and the right shift. Sums, differences, products,
left shifts and negations can leave every type, and a complement is always one of 16 bits. So a value
fits the type of its constant as long as the initializers that go into it do without the latter.
-/
namespace SemanticCheck

variable {settings : AnalysisSettings} {names : Names} {complement : Bool}

/-- The values of the numeric types. -/
def Ty.contains : Ty → Int → Bool
  | .primitive .byte, n => decide (0 ≤ n ∧ n ≤ 0xFF)
  | .primitive .word, n => decide (0 ≤ n ∧ n ≤ wordMax)
  | _, _ => false

theorem Ty.isNumeric_iff {ty : Ty} : ty.isNumeric = true ↔ ty = .byte ∨ ty = .word := by
  cases ty with
  | primitive p =>
      cases p <;> simp [Ty.isNumeric, Ty.primitive?, Primitive.isNumeric, Ty.byte, Ty.word]
  | array element size => simp [Ty.isNumeric, Ty.primitive?, Ty.byte, Ty.word]
  | callback params result => simp [Ty.isNumeric, Ty.primitive?, Ty.byte, Ty.word]

/-- A complement keeps only the range of words; whether it is allowed is left open. -/
def UnaryOp.keepsRange (complement : Bool) : UnaryOp → Bool
  | .neg => false
  | .bitNot => complement
  | .not => true

def BinaryOp.keepsRange : BinaryOp → Bool
  | .add | .sub | .mul | .shl => false
  | _ => true

/-- Whether all operators of a constant expression keep the range. Calls and elements have no constant
value, so what is inside them does not matter. -/
def Expr.keepsRange (complement : Bool) : Expr → Bool
  | .unary op operand _ => op.keepsRange complement && operand.keepsRange complement
  | .binary op lhs rhs _ => op.keepsRange && lhs.keepsRange complement && rhs.keepsRange complement
  | _ => true

/-- The names whose values go into that of a constant expression. -/
def Expr.constantNames : Expr → List String
  | .ident i => [i.name]
  | .unary _ operand _ => operand.constantNames
  | .binary _ lhs rhs _ => lhs.constantNames ++ rhs.constantNames
  | _ => []

namespace Program

/-- The constant is called so, or it feeds a name in the initializer of a constant called so. Constants of
one name are not told apart. -/
inductive Feeds (program : Program) (decl : VariableDecl) : String → Prop
  | named : Node.var decl ∈ program.nodes → decl.constant = true → Feeds program decl decl.name.name
  | through {user : VariableDecl} {value : Expr} {name : String} : Node.var user ∈ program.nodes →
      user.constant = true → user.initializer = some value → name ∈ value.constantNames →
      Feeds program decl name → Feeds program decl user.name.name

/-- Whatever goes into the value of a constant called so keeps the range. -/
def KeepsRange (complement : Bool) (program : Program) (name : String) : Prop :=
  ∀ decl, program.Feeds decl name → ∀ value, decl.initializer = some value →
    value.keepsRange complement = true

end Program

/-- The value is not negative and takes at most so many bits. -/
def Within (bits : Nat) (a : Int64) : Prop := 0 ≤ a.toInt ∧ a.toInt < Nat.pow 2 bits

section Bits

variable {bits : Nat} {a b c : Int64}

theorem Within.mono {small large : Nat} (h : Within small a) (le : small ≤ large) : Within large a := by
  refine ⟨h.1, Int.lt_of_lt_of_le h.2 ?_⟩
  exact Int.ofNat_le.mpr (Nat.pow_le_pow_right (by decide) le)

theorem Within.of_le (h : Within bits a) (low : 0 ≤ c.toInt) (high : c.toInt ≤ a.toInt) :
    Within bits c :=
  ⟨low, Int.lt_of_le_of_lt high h.2⟩

/-- Below the sign bit, the value is that of the bits. -/
theorem within_iff (small : bits < 64) : Within bits a ↔ a.toBitVec.toNat < Nat.pow 2 bits := by
  have room : Nat.pow 2 bits ≤ 2 ^ 63 := Nat.pow_le_pow_right (by decide) (by omega)
  have lt := a.toBitVec.isLt
  have value : a.toInt = a.toBitVec.toInt := rfl
  rw [Within, value, BitVec.toInt_eq_toNat_cond]
  split <;> omega

theorem toInt_of_narrow {n : Int} (h : narrow n = some a) : a.toInt = n := by
  unfold narrow at h
  split at h
  · next range =>
      cases h
      have top : Int64.maxValue.toInt = 2 ^ 63 - 1 := by decide
      exact Int64.toInt_ofInt_of_le range.1 (by omega)
  · cases h

theorem Within.tdiv (h : Within bits a) (k : Within bits b)
    (divided : narrow (a.toInt.tdiv b.toInt) = some c) : Within bits c := by
  have value := toInt_of_narrow divided
  refine h.of_le ?_ ?_
  · rw [value]
    exact Int.tdiv_nonneg h.1 k.1
  · rw [value]
    exact Int.tdiv_le_self _ h.1

theorem Within.tmod (h : Within bits a) (k : Within bits b)
    (divided : narrow (a.toInt.tmod b.toInt) = some c) : Within bits c := by
  have value := toInt_of_narrow divided
  have part : 0 ≤ b.toInt * a.toInt.tdiv b.toInt := Int.mul_nonneg k.1 (Int.tdiv_nonneg h.1 k.1)
  refine h.of_le ?_ ?_
  · rw [value]
    exact Int.tmod_nonneg _ h.1
  · rw [value, Int.tmod_def]
    omega

theorem Within.shiftRight (h : Within bits a) : Within bits (a >>> b) := by
  have value : (a >>> b).toInt = a.toInt >>> (b.toBitVec.smod 64).toNat := by
    have bitVec : (a >>> b).toInt = (a >>> b).toBitVec.toInt := rfl
    rw [bitVec, Int64.toBitVec_shiftRight, BitVec.sshiftRight', BitVec.toInt_sshiftRight]
    rfl
  refine h.of_le ?_ ?_
  · rw [value]
    exact Int.le_shiftRight_of_nonneg h.1
  · rw [value]
    exact Int.shiftRight_le_of_nonneg h.1

/-- An operator that keeps the range does so at every width below the sign bit. -/
theorem BinaryOp.within_of_applied {op : BinaryOp} (small : bits < 64) (keeps : op.keepsRange = true)
    (h : Within bits a) (k : Within bits b) (applied : op.apply? a b = some c) : Within bits c := by
  cases op with
  | add | sub | mul | shl => cases keeps
  | eq | notEq | lt | ltEq | gt | gtEq | and | or => cases applied
  | div => exact h.tdiv k applied
  | mod =>
      obtain ⟨_, -, remainder⟩ := Option.bind_eq_some_iff.mp applied
      exact h.tmod k remainder
  | bitAnd =>
      cases applied
      rw [within_iff small] at k ⊢
      rw [Int64.toBitVec_and, BitVec.toNat_and]
      exact Nat.and_lt_two_pow _ k
  | bitOr =>
      cases applied
      rw [within_iff small] at h k ⊢
      rw [Int64.toBitVec_or, BitVec.toNat_or]
      exact Nat.or_lt_two_pow h k
  | bitXor =>
      cases applied
      rw [within_iff small] at h k ⊢
      rw [Int64.toBitVec_xor, BitVec.toNat_xor]
      exact Nat.xor_lt_two_pow h k
  | shr =>
      simp only [Option.ite_none_right_eq_some, BinaryOp.apply?] at applied
      obtain ⟨-, applied⟩ := applied
      cases applied
      exact h.shiftRight

theorem BinaryOp.within_of_fold {op : BinaryOp} {l : Location} (small : bits < 64)
    (keeps : op.keepsRange = true) (h : Within bits a) (k : Within bits b)
    (folded : op.fold l a b = .ok c) : Within bits c := by
  unfold BinaryOp.fold at folded
  split at folded
  · cases folded
  · split at folded
    · next value applied =>
        cases folded
        exact op.within_of_applied small keeps h k applied
    · cases folded

/-- A complement has 16 bits, whatever it is taken of. -/
theorem within_complement : Within 16 (~~~a &&& 0xFFFF) := by
  rw [within_iff (by decide), Int64.toBitVec_and, BitVec.toNat_and]
  exact Nat.and_lt_two_pow _ (by decide)

end Bits

/-- How many bits the constants of a type take. Where complements are allowed, a byte can take as many
as a word. -/
def Ty.width (complement : Bool) : Ty → Nat
  | .primitive .byte => if complement then 16 else 8
  | _ => 16

theorem Ty.width_le (ty : Ty) : ty.width complement ≤ 16 := by
  unfold Ty.width
  split
  · split <;> decide
  · exact Nat.le_refl _

/-- A constant that the name stands for takes no more bits than its type has. -/
def Names.Bounded (complement : Bool) (names : Names) (name : String) : Prop :=
  ∀ {v c}, names name = some (.var v) → v.constantValue = some c → Within (v.ty.width complement) c

theorem Ty.within_of_ofLiteral {value : Int64} {l : Location} {ty : Ty}
    (typed : Ty.ofLiteral value l = .ok ty) : Within (ty.width complement) value := by
  unfold Ty.ofLiteral at typed
  split at typed
  · next byte =>
      cases typed
      have small : Within 8 value := ⟨byte.1, Int.lt_add_one_of_le byte.2⟩
      refine small.mono ?_
      cases complement <;> decide
  · split at typed
    · next word =>
        cases typed
        exact ⟨word.1, Int.lt_add_one_of_le word.2⟩
    · cases typed

/-- A name that stands for a value stands for a variable that has the value recorded. -/
theorem Names.constant_eq_ok {i : Ident} {c : Int64} (folded : names.constant i = .ok c) :
    ∃ v, names i.name = some (.var v) ∧ v.constantValue = some c := by
  unfold Names.constant at folded
  cases stands : names i.name with
  | none =>
      rw [stands] at folded
      cases folded
  | some x =>
      simp only [stands] at folded
      cases x with
      | function f => cases folded
      | var v =>
          split at folded
          · next value recorded =>
              cases folded
              exact ⟨v, rfl, recorded⟩
          · cases folded

theorem Names.within_of_constant {i : Ident} (bounded : names.Bounded complement i.name) {ty : Ty}
    {c : Int64} (typed : names.typeOf i = .ok ty) (folded : names.constant i = .ok c) :
    Within (ty.width complement) c := by
  obtain ⟨v, stands, recorded⟩ := Names.constant_eq_ok folded
  simp only [Names.typeOf, stands] at typed
  cases typed
  exact bounded stands recorded

/-- Arithmetic is done on numbers, in words when a side is one. -/
theorem BinaryOp.result?_of_isArithmetic {op : BinaryOp} {lhs rhs ty : Ty}
    (arithmetic : op.isArithmetic = true) (typed : op.result? settings lhs rhs = some ty) :
    lhs.isNumeric = true ∧ rhs.isNumeric = true ∧
      ty = if lhs = .word ∨ rhs = .word then .word else .byte := by
  have others : op.isComparison = false ∧ op.isLogical = false ∧ op ≠ .eq ∧ op ≠ .notEq := by
    cases op <;> simp_all [BinaryOp.isArithmetic, BinaryOp.isComparison, BinaryOp.isLogical]
  obtain ⟨comparison, logical, eq, notEq⟩ := others
  simp only [BinaryOp.result?, arithmetic, comparison, logical, eq, notEq, decide_false, Bool.or_self,
    Bool.false_and, Bool.true_and, Bool.false_eq_true, if_false, Option.ite_none_right_eq_some,
    Bool.and_eq_true, Option.some.injEq] at typed
  obtain ⟨⟨left, right⟩, rfl⟩ := typed
  exact ⟨left, right, rfl⟩

/-- No side of an arithmetic operator has more bits than the result. -/
theorem BinaryOp.width_le_of_result? {op : BinaryOp} {lhs rhs ty : Ty}
    (arithmetic : op.isArithmetic = true) (typed : op.result? settings lhs rhs = some ty) :
    lhs.width complement ≤ ty.width complement ∧ rhs.width complement ≤ ty.width complement := by
  obtain ⟨left, right, rfl⟩ := BinaryOp.result?_of_isArithmetic arithmetic typed
  split
  · exact ⟨lhs.width_le, rhs.width_le⟩
  · next bytes =>
      rw [not_or] at bytes
      rw [(Ty.isNumeric_iff.mp left).resolve_right bytes.1,
        (Ty.isNumeric_iff.mp right).resolve_right bytes.2]
      exact ⟨Nat.le_refl _, Nat.le_refl _⟩

theorem Expr.fold_binary_eq_ok {op : BinaryOp} {lhs rhs : Expr} {l : Location} {c : Int64}
    (h : (Expr.binary op lhs rhs l).fold names = .ok c) :
    op.isArithmetic = true ∧
      ∃ a b, lhs.fold names = .ok a ∧ rhs.fold names = .ok b ∧ op.fold l a b = .ok c := by
  simp only [Expr.fold] at h
  split at h
  · next arithmetic =>
      cases left : lhs.fold names with
      | error fault => simp [left] at h
      | ok a =>
          cases right : rhs.fold names with
          | error fault => simp [left, right] at h
          | ok b =>
              simp only [left, right] at h
              exact ⟨arithmetic, a, b, rfl, rfl, h⟩
  · cases h

/-- The only unary operator that keeps the range and has a value is the complement, and where it is
allowed every type has 16 bits. -/
theorem UnaryOp.within_of_fold {op : UnaryOp} {l : Location} {a c : Int64} (ty : Ty)
    (keeps : op.keepsRange complement = true) (folded : op.fold l a = .ok c) :
    Within (ty.width complement) c := by
  cases op with
  | neg => cases keeps
  | not => cases folded
  | bitNot =>
      cases folded
      have wide : ty.width complement = 16 := by
        cases (show complement = true from keeps)
        unfold Ty.width
        split <;> rfl
      rw [wide]
      exact within_complement

/-- An initializer whose operators keep the range has a value that its type has room for. -/
theorem Expr.within_of_fold (e : Expr) {ty : Ty} {c : Int64}
    (bounded : ∀ name ∈ e.constantNames, names.Bounded complement name)
    (keeps : e.keepsRange complement = true) (typed : e.infer settings names = .ok ty)
    (folded : e.fold names = .ok c) : Within (ty.width complement) c := by
  match e with
  | .number value l =>
      cases folded
      exact Ty.within_of_ofLiteral typed
  | .ident i => exact Names.within_of_constant (bounded i.name List.mem_cons_self) typed folded
  | .boolean _ _ | .text _ _ | .call _ _ _ | .index _ _ _ => cases folded
  | .unary op operand l =>
      simp only [Expr.keepsRange, Bool.and_eq_true] at keeps
      simp only [Expr.fold] at folded
      split at folded
      · exact op.within_of_fold ty keeps.1 folded
      · cases folded
  | .binary op lhs rhs l =>
      simp only [Expr.keepsRange, Bool.and_eq_true] at keeps
      obtain ⟨⟨kept, keptLeft⟩, keptRight⟩ := keeps
      obtain ⟨arithmetic, a, b, left, right, folded⟩ := Expr.fold_binary_eq_ok folded
      simp only [Expr.infer] at typed
      obtain ⟨leftTy, rightTy, leftTyped, rightTyped, result⟩ := Expr.operands_of_infer typed
      -- both operands are widened to the result, so that one width serves for the operator
      obtain ⟨leftLe, rightLe⟩ := BinaryOp.width_le_of_result? arithmetic result
      obtain ⟨boundedLeft, boundedRight⟩ := List.forall_mem_append.mp bounded
      have h := (within_of_fold lhs boundedLeft keptLeft leftTyped left).mono leftLe
      have k := (within_of_fold rhs boundedRight keptRight rightTyped right).mono rightLe
      exact op.within_of_fold (Nat.lt_of_le_of_lt ty.width_le (by decide)) kept h k folded

/-- A slot has room for the constants that it accepts: only a byte's is narrower than a word's. -/
theorem Ty.width_le_of_accepts {widening : Bool} {target source : Ty}
    (fits : target.accepts widening source = true) :
    source.width complement ≤ target.width complement := by
  cases target with
  | array element size => exact source.width_le
  | callback params result => exact source.width_le
  | primitive p =>
      obtain ⟨s, rfl, wider⟩ := Ty.accepts_primitive_iff.mp fits
      cases p with
      | byte =>
          cases s with
          | byte => exact Nat.le_refl _
          | word | boolean | void | string => cases wider
      | word | boolean | void | string => exact Ty.width_le _

theorem Ty.contains_of_within {ty : Ty} {c : Int64} (numeric : ty.isNumeric = true)
    (h : Within (ty.width false) c) : ty.contains c.toInt = true := by
  obtain rfl | rfl := Ty.isNumeric_iff.mp numeric
  · have high : c.toInt < 2 ^ 8 := h.2
    exact decide_eq_true ⟨h.1, by omega⟩
  · have high : c.toInt < 2 ^ 16 := h.2
    exact decide_eq_true ⟨h.1, by simp only [wordMax]; omega⟩

/-- A folded initializer of an accepted declaration has a type that the variable's type accepts: it is
no function's name, for which the gate would stand in. -/
theorem VariableDecl.accepts_of_typed {decl : VariableDecl} {value : Expr} {ty : Ty} {c : Int64}
    (given : decl.initializer = some value) (folded : value.fold names = .ok c)
    (clean : (decl.typed settings (Expr.infer settings) names).1 = [])
    (typed : (decl.typed settings (Expr.infer settings) names).2 = some ty) :
    ∃ source, value.infer settings names = .ok source ∧
      ty.accepts settings.callbackWidening source = true := by
  have plain : names.reference? value = none := by
    cases reference : names.reference? value with
    | none => rfl
    | some f =>
        obtain ⟨i, rfl, stands⟩ := Names.reference?_eq_some_iff.mp reference
        simp [Expr.fold, Names.constant, stands, Symbol.var?] at folded
  unfold VariableDecl.typed at clean typed
  rw [given] at clean typed
  cases written : decl.written names with
  | none =>
      simp only [written] at typed
      cases inferred : value.infer settings names with
      | error found =>
          simp only [inferred] at typed
          cases typed
      | ok source =>
          simp only [inferred] at typed
          cases typed
          exact ⟨ty, rfl, by simp [Ty.accepts]⟩
  | some outcome =>
      cases outcome with
      | error found =>
          simp only [written] at typed
          cases typed
      | ok slot =>
          simp only [written] at clean typed
          cases typed
          obtain ⟨⟨⟩, passed⟩ :=
            (Inference.store_explained settings names ty value decl.location).eq_ok clean
          simp only [Inference.store, plain] at passed
          split at passed
          · cases passed
          · next source inferred =>
              split at passed
              · next fits => exact ⟨source, inferred, fits⟩
              · cases passed

namespace Program

/-- A recorded value is that of a numeric constant, and takes no more bits than its type has if all that
goes into it keeps the range. -/
def Recorded (program : Program) (_ : ScopeKind) (x : Symbol) : Prop :=
  ∀ v c, x = .var v → v.constantValue = some c → v.isConst = true ∧ v.ty.isNumeric = true ∧
    ∀ complement, program.KeepsRange complement v.name → Within (v.ty.width complement) c

theorem bounded_of_holds {program : Program} {t : SymbolTable} (holds : t.Holds program.Recorded)
    {name : String} (keeps : program.KeepsRange complement name) : t.names.Bounded complement name := by
  intro v c stands recorded
  obtain ⟨_, known⟩ := holds.of_names stands
  have named : v.name = name := (holds.wellFormed.names_eq_some_iff.mp stands).name_eq
  exact (known v c rfl recorded).2.2 complement (named ▸ keeps)

theorem recorded_inherited (settings : AnalysisSettings) (program : Program) :
    Inherited settings program.items program.Recorded where
  functions := by
    rintro t decl f - - - - v c ⟨⟩
  params := by
    rintro kind f - p - id v c ⟨⟩ ⟨⟩
  vars := by
    rintro t decl v holds member declared w c ⟨⟩ recorded
    obtain ⟨clean, ty, typed, rfl⟩ := VariableDecl.symbol_eq_ok_iff.mp declared
    simp only [VariableDecl.foldedValue, Option.ite_none_right_eq_some, Bool.and_eq_true] at recorded
    obtain ⟨⟨constant, numeric⟩, computed⟩ := recorded
    refine ⟨constant, numeric, ?_⟩
    intro complement keeps
    obtain ⟨value, given, computed⟩ := Option.bind_eq_some_iff.mp computed
    have folded : value.fold t.site.names = .ok c := by
      cases outcome : value.fold t.site.names with
      | error fault => simp [outcome, Except.toOption] at computed
      | ok d => simpa [outcome, Except.toOption] using computed
    simp only [VariableDecl.faults, List.append_eq_nil_iff] at clean
    obtain ⟨source, inferred, fits⟩ := VariableDecl.accepts_of_typed given folded clean.1.1.2 typed
    have bounded : ∀ name ∈ value.constantNames, t.names.Bounded complement name := by
      intro name mentioned
      refine bounded_of_holds holds ?_
      intro other feeds
      exact keeps other (.through member constant given mentioned feeds)
    have kept := keeps decl (.named member constant) value given
    have within := value.within_of_fold bounded kept inferred folded
    exact within.mono (Ty.width_le_of_accepts fits)

/-- Every value that an analysis records is that of a constant of a numeric type. It is a word if no
initializer that goes into it adds, subtracts, multiplies, negates or shifts to the left, and fits the
constant's own type if none takes a complement either. -/
theorem recorded_values_in_range (settings : AnalysisSettings) (program : Program) :
    ∃ a, program.analyze settings = .ok a ∧
      ∀ (i : ScopeId) (s : Scope) (v : VariableSymbol) (c : Int64), a.table.scope? i = some s →
        Symbol.var v ∈ s.symbols → v.constantValue = some c →
        v.isConst = true ∧ v.ty.isNumeric = true ∧
          (program.KeepsRange true v.name → Ty.word.contains c.toInt = true) ∧
          (program.KeepsRange false v.name → v.ty.contains c.toInt = true) := by
  obtain ⟨a, ran, holds⟩ := program.analyze_holds (recorded_inherited settings program)
  refine ⟨a, ran, ?_⟩
  intro i s v c found member recorded
  obtain ⟨constant, numeric, within⟩ := holds.every found _ member v c rfl recorded
  refine ⟨constant, numeric, ?_, ?_⟩
  · intro keeps
    have word : Within (Ty.word.width false) c := (within true keeps).mono (Ty.width_le _)
    exact Ty.contains_of_within rfl word
  · intro keeps
    exact Ty.contains_of_within numeric (within false keeps)

/-- A constant byte of the given value. -/
def constantByte (name : String) (value : Expr) : VariableDecl :=
  ((VariableDecl.ofName name (some (.ofName "byte"))).withValue value).asConstant

def mask : VariableDecl := constantByte "MASK" (.ofInt 15)

def wrap : VariableDecl := constantByte "WRAP" (.applyBinary .add (.ofInt 200) (.ofInt 100))

def low : VariableDecl := constantByte "LOW" (.applyBinary .bitAnd (.ofName "MASK") (.ofInt 31))

/-- The low half of a byte, next to a sum that is too large for one. -/
def masking : Program := { items := [.var mask, .var wrap, .var low] }

theorem mem_masking {decl : VariableDecl} (member : Node.var decl ∈ masking.nodes) :
    decl = mask ∨ decl = wrap ∨ decl = low := by
  simpa [masking, nodes, Item.nodes, VariableDecl.nodes, mask, wrap, low, constantByte,
    VariableDecl.asConstant, VariableDecl.withValue, VariableDecl.ofName, nodesOf, TypeExpr.ofName,
    TypeExpr.nodes, Expr.nodes, Expr.applyBinary, Expr.ofInt, Expr.ofName] using member

theorem masking_keepsRange : masking.KeepsRange false "LOW" := by
  -- nothing but `MASK` is mentioned on the way from `LOW`, and `MASK` mentions nothing
  have names {decl : VariableDecl} {name : String} (feeds : masking.Feeds decl name) :
      name = "LOW" ∨ name = "MASK" → decl = low ∨ decl = mask := by
    induction feeds with
    | named member _ =>
        rcases mem_masking member with rfl | rfl | rfl
        · exact fun _ => .inr rfl
        · exact fun other => absurd other (by decide)
        · exact fun _ => .inl rfl
    | through member _ given mentioned _ ih =>
        intro _
        rcases mem_masking member with rfl | rfl | rfl
        · cases given
          cases mentioned
        · cases given
          cases mentioned
        · cases given
          cases List.mem_singleton.mp mentioned
          exact ih (.inr rfl)
  intro decl feeds value given
  rcases names feeds (.inl rfl) with rfl | rfl
  · cases given
    rfl
  · cases given
    rfl

theorem masking_value_in_range :
    ∃ a s v, masking.analyze {} = .ok a ∧ a.table.scope? 0 = some s ∧ Symbol.var v ∈ s.symbols ∧
      v.name = "LOW" ∧ v.constantValue = some 15 ∧ masking.KeepsRange false v.name ∧
      v.ty.contains 15 = true := by
  obtain ⟨a, ran, each⟩ := recorded_values_in_range {} masking
  have recorded : ((masking.analyze {}).toOption.bind (·.table.scope? 0)).map
      (·.symbols.map fun x => (x.name, x.var?.bind (·.constantValue))) =
      some [("MASK", some 15), ("WRAP", some 300), ("LOW", some 15)] := by
    decide +kernel
  rw [ran] at recorded
  obtain ⟨s, found, symbols⟩ := Option.map_eq_some_iff.mp recorded
  have last : ("LOW", some 15) ∈ s.symbols.map fun x => (x.name, x.var?.bind (·.constantValue)) := by
    simp [symbols]
  obtain ⟨x, member, shape⟩ := List.mem_map.mp last
  cases x with
  | function f => cases (Prod.mk.inj shape).2
  | var v =>
      have named : v.name = "LOW" := (Prod.mk.inj shape).1
      have value : v.constantValue = some 15 := (Prod.mk.inj shape).2
      have keeps : masking.KeepsRange false v.name := named ▸ masking_keepsRange
      obtain ⟨-, -, -, fits⟩ := each 0 s v 15 found member value
      exact ⟨a, s, v, ran, found, member, named, value, keeps, fits keeps⟩

/-- The program that only declares a constant byte `LIMIT` of the given value. -/
def ofLimit (value : Expr) : Program := { items := [.var (constantByte "LIMIT" value)] }

/-- The program has no fault, and still a byte of its top scope has a value outside the range. -/
def LeavesByte (program : Program) : Prop :=
  ∃ a s v c, program.analyze {} = .ok a ∧ a.faults = [] ∧ a.table.scope? 0 = some s ∧
    Symbol.var v ∈ s.symbols ∧ v.constantValue = some c ∧ v.ty = .byte ∧ v.ty.contains c.toInt = false

/-- Each operator that does not keep the range of bytes leaves it, by itself and from bytes. -/
theorem operators_leave_byte :
    (ofLimit (.applyBinary .add (.ofInt 200) (.ofInt 100))).LeavesByte ∧
      (ofLimit (.applyBinary .sub (.ofInt 1) (.ofInt 2))).LeavesByte ∧
      (ofLimit (.applyBinary .mul (.ofInt 16) (.ofInt 16))).LeavesByte ∧
      (ofLimit (.applyBinary .shl (.ofInt 1) (.ofInt 8))).LeavesByte ∧
      (ofLimit (.applyUnary .neg (.ofInt 1))).LeavesByte ∧
      (ofLimit (.applyUnary .bitNot (.ofInt 0))).LeavesByte := by
  refine ⟨?_, ?_, ?_, ?_, ?_, ?_⟩ <;>
    exact ⟨_, _, _, _, rfl, rfl, rfl, List.mem_cons_self, rfl, rfl, by decide⟩

end Program

end SemanticCheck
