import SemanticCheck.Proofs.BodyTyping
import SemanticCheck.Proofs.ConstantRange
import SemanticCheck.Proofs.History
import SemanticCheck.Proofs.Nearest

/-!
The types of expressions, as rules. Inference goes on after a fault and puts void in the place of what
it could not type; the rules know nothing of faults. Inference yields a type exactly when the rules
give the expression that type, and they give it at most one.
-/
namespace SemanticCheck

def Ty.Numeric (ty : Ty) : Prop := ty = .byte ∨ ty = .word

/-- The type of a unary operator's result. -/
inductive UnaryOp.Yields : UnaryOp → Ty → Ty → Prop
  | neg {ty} : ty.Numeric → Yields .neg ty ty
  | bitNot {ty} : ty.Numeric → Yields .bitNot ty ty
  | not : Yields .not .boolean .boolean

/-- The type of a binary operator's result. -/
inductive BinaryOp.Yields (settings : AnalysisSettings) : BinaryOp → Ty → Ty → Ty → Prop
  | bytes {op} : op.isArithmetic = true → Yields settings op .byte .byte .byte
  | words {op lhs rhs} : op.isArithmetic = true → lhs.Numeric → rhs.Numeric →
      lhs = .word ∨ rhs = .word → Yields settings op lhs rhs .word
  | equality {op lhs rhs} : op = .eq ∨ op = .notEq →
      lhs.accepts settings.callbackWidening rhs = true ∨
        rhs.accepts settings.callbackWidening lhs = true → Yields settings op lhs rhs .boolean
  | order {op lhs rhs} : op ∈ [BinaryOp.lt, .ltEq, .gt, .gtEq] → lhs.Numeric → rhs.Numeric →
      Yields settings op lhs rhs .boolean
  | logic {op} : op = .and ∨ op = .or → Yields settings op .boolean .boolean .boolean

mutual

/-- The rules for expressions, with names that stand for their nearest symbols. -/
inductive Expr.HasType (settings : AnalysisSettings) (t : SymbolTable) : Expr → Ty → Prop
  | byte {n l} : 0 ≤ n.toInt → n.toInt ≤ 255 → HasType settings t (.number n l) .byte
  | word {n l} : 256 ≤ n.toInt → n.toInt ≤ 65535 → HasType settings t (.number n l) .word
  | boolean {b l} : HasType settings t (.boolean b l) .boolean
  | text {s l} : HasType settings t (.text s l) .string
  | var {i v} : t.Nearest i.name (.var v) → HasType settings t (.ident i) v.ty
  | function {i f} : t.Nearest i.name (.function f) →
      HasType settings t (.ident i) (.callback (f.params.map (·.ty)) f.result)
  | unary {op e operand result l} : HasType settings t e operand → op.Yields operand result →
      HasType settings t (.unary op e l) result
  | binary {op lhs rhs left right result l} : HasType settings t lhs left →
      HasType settings t rhs right → op.Yields settings left right result →
      HasType settings t (.binary op lhs rhs l) result
  | index {target position element size number l} :
      HasType settings t target (.array element size) → HasType settings t position number →
      number.Numeric → (∀ n place, position = .number n place → n.toInt < size) →
      HasType settings t (.index target position l) element
  | call {i f args l} : t.Nearest i.name (.function f) → f.requiredParams ≤ args.length →
      args.length ≤ f.params.length → Expr.AllFit settings t (f.params.map (·.ty)) args →
      HasType settings t (.call (.ident i) args l) f.result
  | callSlot {i v params result args l} : t.Nearest i.name (.var v) →
      v.ty = .callback params result → args.length = params.length →
      Expr.AllFit settings t params args → HasType settings t (.call (.ident i) args l) result

/-- What may be passed for a parameter: a function that is declared as a callback, if the parameter
accepts its signature, or an expression that is not the name of a function, if it has a type that the
parameter accepts. -/
inductive Expr.Fits (settings : AnalysisSettings) (t : SymbolTable) : Ty → Expr → Prop
  | reference {i f params result} : t.Nearest i.name (.function f) → f.isCallback = true →
      Signature.accepts settings.callbackWidening ⟨params, result⟩ f.signature = true →
      Fits settings t (.callback params result) (.ident i)
  | value {param source e} : (∀ i f, e = .ident i → ¬ t.Nearest i.name (.function f)) →
      HasType settings t e source → param.accepts settings.callbackWidening source = true →
      Fits settings t param e

/-- Arguments for the first so many parameters. -/
inductive Expr.AllFit (settings : AnalysisSettings) (t : SymbolTable) : List Ty → List Expr → Prop
  | nil {params} : AllFit settings t params []
  | cons {param params e rest} : Fits settings t param e → AllFit settings t params rest →
      AllFit settings t (param :: params) (e :: rest)

end

variable {settings : AnalysisSettings} {names : Names}

theorem Ty.ofLiteral_eq_ok_iff {n : Int64} {l : Location} {ty : Ty} :
    Ty.ofLiteral n l = .ok ty ↔
      (0 ≤ n.toInt ∧ n.toInt ≤ 255) ∧ ty = .byte ∨
      (256 ≤ n.toInt ∧ n.toInt ≤ 65535) ∧ ty = .word := by
  unfold Ty.ofLiteral wordMax
  split
  · next small =>
      have large : ¬ 256 ≤ n.toInt := by omega
      simp [small, large, eq_comm]
  · next large =>
      split
      · next bounds =>
          have above : 256 ≤ n.toInt := by omega
          have below : n.toInt ≤ 65535 := by omega
          simp [large, above, below, eq_comm]
      · next outside =>
          have none : ¬ (256 ≤ n.toInt ∧ n.toInt ≤ 65535) := by omega
          simp [large, none, Outcome.refuse]

theorem UnaryOp.result?_eq_some_iff {op : UnaryOp} {operand result : Ty} :
    op.result? operand = some result ↔ op.Yields operand result := by
  constructor
  · intro known
    cases op with
    | neg =>
        simp only [UnaryOp.result?, Option.ite_none_right_eq_some, Option.some.injEq] at known
        obtain ⟨numeric, rfl⟩ := known
        exact .neg (Ty.isNumeric_iff.mp numeric)
    | bitNot =>
        simp only [UnaryOp.result?, Option.ite_none_right_eq_some, Option.some.injEq] at known
        obtain ⟨numeric, rfl⟩ := known
        exact .bitNot (Ty.isNumeric_iff.mp numeric)
    | not =>
        simp only [UnaryOp.result?, Option.ite_none_right_eq_some, Option.some.injEq] at known
        obtain ⟨rfl, rfl⟩ := known
        exact .not
  · intro yields
    cases yields with
    | neg numeric | bitNot numeric => simp only [UnaryOp.result?, Ty.isNumeric_iff.mpr numeric, if_true]
    | not => rfl

theorem Ty.Numeric.comparable {a b : Ty} (h : a.Numeric) (k : b.Numeric) (widening : Bool) :
    a.accepts widening b = true ∨ b.accepts widening a = true := by
  rcases h with rfl | rfl <;> rcases k with rfl | rfl <;> simp [Ty.accepts, Ty.byte, Ty.word,
    Primitive.widensTo]

theorem BinaryOp.yields_of_result? {op : BinaryOp} {lhs rhs result : Ty}
    (known : op.result? settings lhs rhs = some result) : op.Yields settings lhs rhs result := by
  unfold BinaryOp.result? at known
  split at known
  · next arithmetic =>
      cases known
      simp only [Bool.and_eq_true, Ty.isNumeric_iff] at arithmetic
      obtain ⟨⟨arithmetic, left⟩, right⟩ := arithmetic
      split
      · next wide => exact .words arithmetic left right wide
      · next bytes =>
          rw [not_or] at bytes
          rw [left.resolve_right bytes.1, right.resolve_right bytes.2]
          exact .bytes arithmetic
  · split at known
    · next equality =>
        cases known
        simp only [Bool.and_eq_true, Bool.or_eq_true, decide_eq_true_eq] at equality
        exact .equality equality.1 equality.2
    · split at known
      · next comparison =>
          cases known
          simp only [Bool.and_eq_true, Ty.isNumeric_iff] at comparison
          obtain ⟨⟨comparison, left⟩, right⟩ := comparison
          cases op with
          | eq => exact .equality (.inl rfl) (Ty.Numeric.comparable left right _)
          | notEq => exact .equality (.inr rfl) (Ty.Numeric.comparable left right _)
          | lt | ltEq | gt | gtEq => exact .order (by decide) left right
          | _ => cases comparison
      · split at known
        · next logical =>
            cases known
            simp only [Bool.and_eq_true, decide_eq_true_eq] at logical
            obtain ⟨⟨logical, rfl⟩, rfl⟩ := logical
            cases op with
            | and => exact .logic (.inl rfl)
            | or => exact .logic (.inr rfl)
            | _ => cases logical
        · cases known

theorem BinaryOp.Yields.result?_eq {op : BinaryOp} {lhs rhs result : Ty}
    (yields : op.Yields settings lhs rhs result) : op.result? settings lhs rhs = some result := by
  cases yields with
  | bytes arithmetic =>
      simp only [BinaryOp.result?, arithmetic]
      rfl
  | words arithmetic left right wide =>
      simp only [BinaryOp.result?, arithmetic, Ty.isNumeric_iff.mpr left, Ty.isNumeric_iff.mpr right,
        Bool.and_self, if_true, if_pos wide]
  | equality op accepts =>
      rcases op with rfl | rfl <;> simp [BinaryOp.result?, BinaryOp.isArithmetic, accepts]
  | order op left right =>
      have numeric := And.intro (Ty.isNumeric_iff.mpr left) (Ty.isNumeric_iff.mpr right)
      simp only [List.mem_cons, List.not_mem_nil, or_false] at op
      rcases op with rfl | rfl | rfl | rfl <;>
        simp [BinaryOp.result?, BinaryOp.isArithmetic, BinaryOp.isComparison, numeric]
  | logic op => rcases op with rfl | rfl <;> rfl

/-- A literal that has a type is not negative, so that it is within bounds or beyond them. -/
theorem Expr.outOfBounds?_eq_none_iff {position : Expr} {size : Nat} {ty : Ty}
    (typed : position.infer settings names = .ok ty) :
    position.outOfBounds? size = none ↔
      ∀ n place, position = .number n place → n.toInt < size := by
  cases position with
  | number n l =>
      have known : Ty.ofLiteral n l = .ok ty := by simpa only [Expr.infer] using typed
      have low : 0 ≤ n.toInt := by
        rcases Ty.ofLiteral_eq_ok_iff.mp known with ⟨small, -⟩ | ⟨large, -⟩
        · exact small.1
        · omega
      simp only [Expr.outOfBounds?, Expr.number.injEq, ite_eq_right_iff, reduceCtorEq, imp_false]
      constructor
      · rintro within m place ⟨rfl, rfl⟩
        omega
      · intro within
        have high := within n l ⟨rfl, rfl⟩
        omega
  | _ => simp [Expr.outOfBounds?]

theorem Ty.index_eq_ok_iff {target position : Expr} {o p : Outcome Ty} {result : Ty}
    (ho : o.Explained) (hp : p.Explained) :
    Ty.index target position o p = .ok result ↔
      ∃ size number, o = .ok (.array result size) ∧ p = .ok number ∧ number.Numeric ∧
        position.outOfBounds? size = none := by
  rw [Ty.index_eq]
  simp only [Outcome.finish_eq_ok_iff, List.append_eq_nil_iff]
  constructor
  · rintro ⟨⟨⟨⟨cleanTarget, cleanPosition⟩, numeric⟩, inside⟩, rfl⟩
    obtain ⟨array, rfl⟩ := ho.eq_ok cleanTarget
    obtain ⟨number, rfl⟩ := hp.eq_ok cleanPosition
    have counts : number.Numeric := by
      rw [Ty.Numeric, ← Ty.isNumeric_iff]
      simpa [Ty.positionFaults, Outcome.value?] using numeric
    cases array with
    | primitive scalar => cases inside
    | callback params result => cases inside
    | array element size =>
        simp only [Outcome.value?, Ty.element] at inside ⊢
        split at inside
        · cases inside
        · next bounds => exact ⟨size, number, rfl, rfl, counts, bounds⟩
  · rintro ⟨size, number, rfl, rfl, numeric, bounds⟩
    simp [Ty.element, bounds, Ty.positionFaults, Outcome.value?, Outcome.faults,
      Ty.isNumeric_iff.mpr numeric]

theorem FunctionSymbol.call_eq_ok_iff {f : FunctionSymbol} {args : List Argument} {l : Location}
    {result : Ty} :
    f.call settings names args l = .ok result ↔
      (f.requiredParams ≤ args.length ∧ args.length ≤ f.params.length) ∧
        Argument.faultsFrom settings names f.name 1 (f.params.map (·.ty)) args = [] ∧
        f.result = result := by
  rw [FunctionSymbol.call_eq]
  split
  · next count => simp only [Outcome.finish_eq_ok_iff, count, and_self, true_and]
  · next count => simp [Outcome.refuse, count]

/-- An argument is faultless exactly when it could be stored in the parameter. -/
theorem Argument.faults_eq_nil_iff {e : Expr} {callee : String} {position : Nat} {param : Ty} :
    Argument.faults settings names callee position param ⟨e, e.infer settings names⟩ = [] ↔
      e.Storable settings names param := by
  rw [Expr.storable_iff_clean (l := e.location), Argument.faults, Inference.store]
  cases names.reference? e with
  | some f => exact Iff.rfl
  | none =>
      cases e.infer settings names with
      | error found => exact Iff.rfl
      | ok source =>
          by_cases fits : param.accepts settings.callbackWidening source = true
          · simp [fits, Outcome.faults]
          · simp [fits, Outcome.refuse, Outcome.faults]

variable {t : SymbolTable}

mutual

theorem Expr.HasType.infer_eq (h : t.WellFormed) {e : Expr} {ty : Ty} :
    e.HasType settings t ty → e.infer settings t.names = .ok ty
  | .byte low high => by
      rw [Expr.infer]
      exact Ty.ofLiteral_eq_ok_iff.mpr (.inl ⟨⟨low, high⟩, rfl⟩)
  | .word low high => by
      rw [Expr.infer]
      exact Ty.ofLiteral_eq_ok_iff.mpr (.inr ⟨⟨low, high⟩, rfl⟩)
  | .boolean | .text => by simp only [Expr.infer]
  | .var nearest | .function nearest => by
      simp only [Expr.infer, Names.typeOf, h.names_eq_some_iff.mpr nearest]
      rfl
  | .unary typed yields => by
      simp only [Expr.infer, typed.infer_eq h, UnaryOp.infer, UnaryOp.result?_eq_some_iff.mpr yields]
  | .binary left right yields => by
      simp only [Expr.infer, left.infer_eq h, right.infer_eq h, BinaryOp.infer_ok, yields.result?_eq]
  | .index target position numeric bounds => by
      have number := position.infer_eq h
      rw [Expr.infer]
      apply (Ty.index_eq_ok_iff (infer_explained _ _ _) (infer_explained _ _ _)).mpr
      refine ⟨_, _, target.infer_eq h, number, numeric, ?_⟩
      exact (Expr.outOfBounds?_eq_none_iff number).mpr bounds
  | .call nearest required total args => by
      simp only [Expr.infer, Names.call, Expr.ident?, h.names_eq_some_iff.mpr nearest]
      apply FunctionSymbol.call_eq_ok_iff.mpr
      rw [Expr.length_inferAll]
      exact ⟨⟨required, total⟩, args.clean h _ _, rfl⟩
  | .callSlot nearest slot count args => by
      simp only [Expr.infer, Names.call, Expr.ident?, h.names_eq_some_iff.mpr nearest]
      apply VariableSymbol.call_eq_ok_iff.mpr
      rw [Expr.length_inferAll]
      exact ⟨⟨_, _⟩, slot, count, args.clean h _ _, rfl⟩

theorem Expr.Fits.storable (h : t.WellFormed) {param : Ty} {e : Expr} :
    Expr.Fits settings t param e → e.Storable settings t.names param
  | .reference nearest declared fits => .reference (h.names_eq_some_iff.mpr nearest) declared fits
  | .value free typed fits => by
      refine .value ?_ (typed.infer_eq h) fits
      intro i f here stands
      exact free i f here (h.names_eq_some_iff.mp stands)

theorem Expr.AllFit.clean (h : t.WellFormed) {params : List Ty} {args : List Expr} :
    Expr.AllFit settings t params args → ∀ callee first,
      Argument.faultsFrom settings t.names callee first params (Expr.inferAll settings t.names args) = []
  | .nil, _, _ => by simp only [Expr.inferAll, Argument.faultsFrom]
  | .cons fits rest, callee, first => by
      rw [Expr.inferAll]
      apply List.append_eq_nil_iff.mpr
      exact ⟨Argument.faults_eq_nil_iff.mpr (fits.storable h), rest.clean h _ _⟩

end

mutual

theorem Expr.hasType_of_infer (h : t.WellFormed) :
    (e : Expr) → {ty : Ty} → e.infer settings t.names = .ok ty → e.HasType settings t ty
  | .number n l, ty, inferred => by
      rw [Expr.infer] at inferred
      rcases Ty.ofLiteral_eq_ok_iff.mp inferred with ⟨small, rfl⟩ | ⟨large, rfl⟩
      · exact .byte small.1 small.2
      · exact .word large.1 large.2
  | .boolean b l, ty, inferred => by
      cases inferred
      exact .boolean
  | .text s l, ty, inferred => by
      cases inferred
      exact .text
  | .ident i, ty, inferred => by
      simp only [Expr.infer, Names.typeOf] at inferred
      split at inferred
      · next x stands =>
          cases inferred
          have nearest := h.names_eq_some_iff.mp stands
          cases x with
          | var v => exact .var nearest
          | function f => exact .function nearest
      · cases inferred
  | .unary op operand l, ty, inferred => by
      obtain ⟨inner, typed⟩ := UnaryOp.operand_of_infer inferred
      simp only [Expr.infer, typed, UnaryOp.infer] at inferred
      split at inferred
      · next result known =>
          cases inferred
          exact .unary (hasType_of_infer h operand typed) (UnaryOp.result?_eq_some_iff.mp known)
      · cases inferred
  | .binary op lhs rhs l, ty, inferred => by
      obtain ⟨left, right, leftTyped, rightTyped, result⟩ := Expr.operands_of_infer inferred
      exact .binary (hasType_of_infer h lhs leftTyped) (hasType_of_infer h rhs rightTyped)
        (BinaryOp.yields_of_result? result)
  | .index target position l, ty, inferred => by
      rw [Expr.infer] at inferred
      obtain ⟨size, number, array, typed, numeric, bounds⟩ :=
        (Ty.index_eq_ok_iff (infer_explained _ _ _) (infer_explained _ _ _)).mp inferred
      exact .index (hasType_of_infer h target array) (hasType_of_infer h position typed) numeric
        ((Expr.outOfBounds?_eq_none_iff typed).mp bounds)
  | .call callee args l, ty, inferred => by
      obtain ⟨⟨i, rfl⟩, -⟩ := Names.fits_of_call inferred
      simp only [Expr.infer, Names.call, Expr.ident?] at inferred
      split at inferred
      · next f stands =>
          obtain ⟨count, clean, rfl⟩ := FunctionSymbol.call_eq_ok_iff.mp inferred
          rw [Expr.length_inferAll] at count
          have total : args.length ≤ (f.params.map (·.ty)).length := by
            rw [List.length_map]
            exact count.2
          exact .call (h.names_eq_some_iff.mp stands) count.1 count.2
            (allFit_of_clean h args total clean)
      · next v stands =>
          obtain ⟨⟨params, result⟩, slot, count, clean, rfl⟩ := VariableSymbol.call_eq_ok_iff.mp inferred
          rw [Expr.length_inferAll] at count
          exact .callSlot (h.names_eq_some_iff.mp stands) slot count
            (allFit_of_clean h args (Nat.le_of_eq count) clean)
      · cases inferred

theorem Expr.allFit_of_clean (h : t.WellFormed) :
    (args : List Expr) → {params : List Ty} → {callee : String} → {first : Nat} →
      args.length ≤ params.length →
      Argument.faultsFrom settings t.names callee first params
        (Expr.inferAll settings t.names args) = [] →
      Expr.AllFit settings t params args
  | [], _, _, _, _, _ => .nil
  | e :: rest, param :: params, _, _, count, clean => by
      obtain ⟨here, later⟩ := List.append_eq_nil_iff.mp clean
      refine .cons ?_ (allFit_of_clean h rest (Nat.le_of_succ_le_succ count) later)
      cases Argument.faults_eq_nil_iff.mp here with
      | reference stands declared fits =>
          exact .reference (h.names_eq_some_iff.mp stands) declared fits
      | value free inferred fits =>
          refine .value ?_ (hasType_of_infer h e inferred) fits
          intro i f here nearest
          exact free i f here (h.names_eq_some_iff.mpr nearest)

end

/-- Inference decides the rules: on a well-formed table it yields exactly the types that the rules give,
of which there is at most one for an expression. -/
theorem Expr.infer_iff_hasType (settings : AnalysisSettings) (t : SymbolTable) (h : t.WellFormed)
    (e : Expr) :
    (∀ ty, e.infer settings t.names = .ok ty ↔ e.HasType settings t ty) ∧
      ∀ ty other, e.HasType settings t ty → e.HasType settings t other → ty = other := by
  have decides : ∀ ty, e.infer settings t.names = .ok ty ↔ e.HasType settings t ty := by
    intro ty
    exact ⟨e.hasType_of_infer h, fun typed => typed.infer_eq h⟩
  refine ⟨decides, ?_⟩
  intro ty other typed again
  have same := ((decides ty).mpr typed).symm.trans ((decides other).mpr again)
  exact Except.ok.inj same

/-- A function that takes a handler for ticks, a delay, and perhaps a priority. -/
def FunctionSymbol.installer : FunctionSymbol :=
  { name := "install"
    params := [{ name := "handler", ty := VariableSymbol.tickSlot.ty }, { name := "delay", ty := .word },
      { name := "priority", ty := .byte, optional := true }]
    result := .byte, scope := 0 }

def VariableSymbol.delays : VariableSymbol := { name := "delays", ty := .array .byte 4, scope := 1 }

/-- Inside a function that has an array of delays, with a handler and its installer around it. -/
def SymbolTable.installing : SymbolTable :=
  Action.runAll
    [.call (.declare (.function .installer)), .call (.declare (.function .tickHandler)),
     .call (.push .function), .call (.declare (.var .delays))] .empty

/-- The handler as an argument, and a word made of a byte and a word. -/
def Expr.installTick : Expr :=
  .callOf "install"
    [.ofName "tick", .applyBinary .add (.elementOf (.ofName "delays") (.ofInt 2)) (.ofInt 300)]

theorem Expr.installTick_typed :
    SymbolTable.installing.WellFormed ∧
      installTick.HasType .lenient .installing .byte ∧
      installTick.infer .lenient SymbolTable.installing.names = .ok .byte := by
  have h : SymbolTable.installing.WellFormed := (Action.runAll_later _ .empty).wellFormed
  have outer : ∀ f, Symbol.function f ∈ [Symbol.function .installer, .function .tickHandler] →
      f.name ≠ "delays" → SymbolTable.installing.Nearest f.name (.function f) := by
    intro f member other
    refine .outside rfl ?_ rfl (.here rfl (by exact member) rfl)
    intro y own
    rw [List.mem_singleton.mp own]
    exact other.symm
  have delays : SymbolTable.installing.Nearest "delays" (.var .delays) :=
    .here rfl (by exact List.mem_cons_self) rfl
  have element : (Expr.elementOf (.ofName "delays") (.ofInt 2)).HasType .lenient .installing .byte := by
    refine .index (.var (v := .delays) delays) (.byte (by decide) (by decide)) (.inl rfl) ?_
    rintro n place ⟨rfl, rfl⟩
    decide
  have sum : (Expr.applyBinary .add (.elementOf (.ofName "delays") (.ofInt 2)) (.ofInt 300)).HasType
      .lenient .installing .word :=
    .binary element (.word (by decide) (by decide)) (.words rfl (.inl rfl) (.inr rfl) (.inr rfl))
  have typed : installTick.HasType .lenient .installing .byte := by
    refine .call (f := .installer) (outer _ List.mem_cons_self (by decide)) (by decide) (by decide) ?_
    refine .cons (.reference (outer .tickHandler ?_ (by decide)) rfl rfl) (.cons ?_ .nil)
    · exact List.mem_cons_of_mem _ List.mem_cons_self
    · exact .value nofun sum rfl
  exact ⟨h, typed, ((infer_iff_hasType .lenient .installing h installTick).1 .byte).mpr typed⟩

end SemanticCheck
