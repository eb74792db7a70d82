import SemanticCheck.Proofs.AllOrNothing
import SemanticCheck.Proofs.ExactValue
import SemanticCheck.Proofs.Typing

/-!
Folding and typing agree. The two walk an expression separately: folding stops at the first fault and
looks only at values, typing goes on after a fault and looks only at types. But an expression that
folds is built from literals, recorded constants and arithmetic. When the literals are words and the
constants numeric, all of its parts are numeric; so a constant whose type is taken from such an
initializer is always declared, if its name is free.
-/
namespace SemanticCheck

variable {settings : AnalysisSettings} {t : SymbolTable}

/-- Values are recorded only for variables of a numeric type. -/
def SymbolTable.ConstantsNumeric (t : SymbolTable) : Prop :=
  ∀ i s v c, t.scope? i = some s → Symbol.var v ∈ s.symbols → v.constantValue = some c → v.ty.Numeric

/-- All literals of the expression are words. -/
def Expr.LiteralsFit (e : Expr) : Prop :=
  ∀ n l, Node.expr (.number n l) ∈ e.nodes → 0 ≤ n.toInt ∧ n.toInt ≤ 65535

theorem Expr.LiteralsFit.of_nodes {e part : Expr} (fits : e.LiteralsFit)
    (inside : ∀ n ∈ part.nodes, n ∈ e.nodes) : part.LiteralsFit :=
  fun n l literal => fits n l (inside _ literal)

theorem Ty.ofLiteral_of_word {n : Int64} {l : Location} (fits : 0 ≤ n.toInt ∧ n.toInt ≤ 65535) :
    ∃ ty, ty.Numeric ∧ Ty.ofLiteral n l = .ok ty := by
  by_cases small : n.toInt ≤ 255
  · exact ⟨.byte, .inl rfl, Ty.ofLiteral_eq_ok_iff.mpr (.inl ⟨⟨fits.1, small⟩, rfl⟩)⟩
  · refine ⟨.word, .inr rfl, Ty.ofLiteral_eq_ok_iff.mpr (.inr ⟨⟨?_, fits.2⟩, rfl⟩)⟩
    omega

theorem UnaryOp.Yields.of_numeric {op : UnaryOp} {ty : Ty} (arithmetic : op ≠ .not) (h : ty.Numeric) :
    op.Yields ty ty := by
  cases op with
  | neg => exact .neg h
  | bitNot => exact .bitNot h
  | not => exact absurd rfl arithmetic

theorem BinaryOp.Yields.of_numeric (settings : AnalysisSettings) {op : BinaryOp} {lhs rhs : Ty}
    (arithmetic : op.isArithmetic = true) (h : lhs.Numeric) (k : rhs.Numeric) :
    ∃ ty, ty.Numeric ∧ op.Yields settings lhs rhs ty := by
  by_cases wide : lhs = .word ∨ rhs = .word
  · exact ⟨.word, .inr rfl, .words arithmetic h k wide⟩
  · obtain ⟨left, right⟩ := not_or.mp wide
    obtain rfl := h.resolve_right left
    obtain rfl := k.resolve_right right
    exact ⟨.byte, .inl rfl, .bytes arithmetic⟩

/-- What folds has a numeric type. -/
theorem Expr.infer_of_fold (numeric : t.ConstantsNumeric) :
    (e : Expr) → {value : Int64} → e.fold t.names = .ok value → e.LiteralsFit →
      ∃ ty, ty.Numeric ∧ e.infer settings t.names = .ok ty
  | .number n l, _, _, fits => by
      rw [Expr.infer]
      exact Ty.ofLiteral_of_word (fits n l (mem_nodes_self _))
  | .ident i, value, folded, _ => by
      rw [Expr.fold] at folded
      obtain ⟨v, stands, recorded⟩ := Names.constant_eq_ok folded
      obtain ⟨id, s, found, member⟩ := SymbolTable.mem_of_names stands
      refine ⟨v.ty, numeric id s v value found member recorded, ?_⟩
      simp only [Expr.infer, Names.typeOf, stands, Symbol.ty]
  | .unary op operand l, _, folded, fits => by
      obtain ⟨arithmetic, a, inner, -⟩ := fold_unary_eq_ok folded
      obtain ⟨ty, counts, typed⟩ := infer_of_fold numeric operand inner
        (fits.of_nodes fun _ member => List.mem_cons_of_mem _ member)
      refine ⟨ty, counts, ?_⟩
      simp only [Expr.infer, UnaryOp.infer, typed,
        UnaryOp.result?_eq_some_iff.mpr (.of_numeric arithmetic counts)]
  | .binary op lhs rhs l, _, folded, fits => by
      obtain ⟨arithmetic, a, b, left, right, -⟩ := fold_binary_eq_ok folded
      obtain ⟨leftTy, leftCounts, leftTyped⟩ := infer_of_fold numeric lhs left
        (fits.of_nodes fun _ member => List.mem_cons_of_mem _ (List.mem_append_left _ member))
      obtain ⟨rightTy, rightCounts, rightTyped⟩ := infer_of_fold numeric rhs right
        (fits.of_nodes fun _ member => List.mem_cons_of_mem _ (List.mem_append_right _ member))
      obtain ⟨ty, counts, yields⟩ :=
        BinaryOp.Yields.of_numeric settings arithmetic leftCounts rightCounts
      refine ⟨ty, counts, ?_⟩
      simp only [Expr.infer, leftTyped, rightTyped, BinaryOp.infer_ok, yields.result?_eq]

namespace VariableDecl

variable {decl : VariableDecl} {infer : Inference} {site : Site} {e : Expr} {ty : Ty}

/-- A declaration that takes a numeric type from its initializer is faulted for its name only. -/
theorem faults_of_numeric (settings : AnalysisSettings) (site : Site) (bare : decl.typeExpr = none)
    (given : decl.initializer = some e) (typed : infer site.names e = .ok ty) (numeric : ty.Numeric) :
    decl.faults settings infer site = site.duplicateFaults decl.name ∧
      (decl.typed settings infer site.names).2 = some ty := by
  have plain : ty.isCallback = false ∧ ty.isVoid = false := by
    rcases numeric with rfl | rfl <;> exact ⟨rfl, rfl⟩
  have own : decl.typed settings infer site.names = ([], some ty) := by
    simp [VariableDecl.typed, written, bare, given, typed, plain]
  refine ⟨?_, by rw [own]⟩
  simp [faults, own, typeExprFaults, written, bare, constantFaults, given, voidFaults, plain]

theorem symbol_of_taken {existing : Symbol} (taken : site.own decl.name.name = some existing)
    (faults_eq : decl.faults settings infer site = site.duplicateFaults decl.name) :
    decl.symbol settings infer site = Outcome.refuse
      (.duplicateSymbol decl.name.name existing.kind existing.location) decl.name.location := by
  simp only [VariableDecl.symbol_eq, faults_eq, Site.duplicateFaults, taken, Outcome.finish]
  rfl

theorem symbol_of_free (free : site.own decl.name.name = none)
    (faults_eq : decl.faults settings infer site = site.duplicateFaults decl.name)
    (typed : (decl.typed settings infer site.names).2 = some ty) :
    decl.symbol settings infer site =
      .ok { name := decl.name.name, ty, scope := site.scope, location := decl.location
            storage := decl.storage, isConst := decl.constant
            constantValue := decl.foldedValue site.names ty } := by
  refine symbol_eq_ok_iff.mpr ⟨?_, ty, typed, rfl⟩
  rw [faults_eq]
  exact Site.duplicateFaults_eq_nil_iff.mpr free

/-- The value of a constant is recorded if its initializer folds. -/
theorem foldedValue_of_fold {names : Names} {value : Int64} (constant : decl.constant = true)
    (given : decl.initializer = some e) (folded : e.fold names = .ok value) (numeric : ty.Numeric) :
    decl.foldedValue names ty = some value := by
  simp [foldedValue, constant, Ty.isNumeric_iff.mpr numeric, given, folded, Except.toOption]

theorem numeric_of_foldedValue {names : Names} {value : Int64}
    (recorded : decl.foldedValue names ty = some value) : ty.Numeric := by
  simp only [foldedValue, Option.ite_none_right_eq_some, Bool.and_eq_true] at recorded
  exact Ty.isNumeric_iff.mp recorded.1.2

end VariableDecl

/-- Declared variables have a numeric type if a value is recorded for them. -/
theorem SymbolTable.ConstantsNumeric.declareVariable (numeric : t.ConstantsNumeric) {infer : Inference}
    {decl : VariableDecl} {v : VariableSymbol} {after : SymbolTable}
    (declared : t.declareVariable settings infer decl = .ok v after) : after.ConstantsNumeric := by
  obtain ⟨symbol, rfl⟩ := declareVariable_eq_ok_iff.mp declared
  intro i s w c found member recorded
  obtain ⟨old, there, -, earlier⟩ | ⟨-, new⟩ := mem_add_cases found member
  · exact numeric i old w c there earlier recorded
  · cases new
    obtain ⟨-, ty, -, rfl⟩ := VariableDecl.symbol_eq_ok_iff.mp symbol
    exact VariableDecl.numeric_of_foldedValue recorded

/-- An expression of small literals that folds has a numeric type, where recorded constants have one,
and declarations keep it that way. So a constant that is declared by such an initializer alone is
registered with that type and the folded value, unless its name is taken. -/
theorem Expr.folded_constants_declared (settings : AnalysisSettings) (t : SymbolTable) (e : Expr)
    (value : Int64) (numeric : t.ConstantsNumeric) (folded : e.fold t.names = .ok value)
    (fits : e.LiteralsFit) :
    (∀ (other : AnalysisSettings) (infer : Inference) decl v after,
      t.declareVariable other infer decl = .ok v after → after.ConstantsNumeric) ∧
    ∃ ty, (ty = .byte ∨ ty = .word) ∧ e.infer settings t.names = .ok ty ∧
      ∀ decl : VariableDecl, decl.constant = true → decl.typeExpr = none → decl.initializer = some e →
        let outcome := t.declareVariable settings (Expr.infer settings) decl
        let v : VariableSymbol :=
          { name := decl.name.name, ty, scope := t.current, location := decl.location
            storage := decl.storage, isConst := true, constantValue := some value }
        (∀ existing, t.top.lookup decl.name.name = some existing →
          ∃ fault, outcome = .error [fault] t ∧ fault.kind = .duplicateSymbol ∧
            fault.location = decl.name.location) ∧
        (t.top.lookup decl.name.name = none →
          ∃ after, outcome = .ok v after ∧ t.declare (.var v) = .ok () after ∧
            (t.WellFormed → t.Gains (.var v) after)) := by
  refine ⟨fun _ _ _ _ _ => numeric.declareVariable, ?_⟩
  obtain ⟨ty, counts, typed⟩ := e.infer_of_fold numeric folded fits
  refine ⟨ty, counts, typed, ?_⟩
  intro decl constant bare given outcome v
  obtain ⟨faults_eq, typed⟩ := VariableDecl.faults_of_numeric settings t.site bare given typed counts
  have outcome_eq : outcome = _ := t.declareVariable_eq settings (Expr.infer settings) decl
  constructor
  · intro existing taken
    let cause : Cause := .duplicateSymbol decl.name.name existing.kind existing.location
    refine ⟨cause.fault decl.name.location, ?_, rfl, rfl⟩
    rw [outcome_eq, VariableDecl.symbol_of_taken taken faults_eq]
    rfl
  · intro free
    have recorded : decl.foldedValue t.site.names ty = some value :=
      VariableDecl.foldedValue_of_fold constant given folded counts
    have symbol := VariableDecl.symbol_of_free free faults_eq typed
    rw [recorded, constant] at symbol
    have admits := VariableDecl.admits_symbol symbol
    refine ⟨t.add (.var v), ?_, admits.declare, ?_⟩
    · rw [outcome_eq, symbol]
      rfl
    · intro h
      exact h.gains admits

/-- A constant without a written type. -/
def VariableDecl.lastUnit (name : String) : VariableDecl :=
  ((VariableDecl.ofName name none).withValue .lastUnit).asConstant

theorem Expr.lastUnit_declared :
    let t := SymbolTable.measuring
    let declare := fun name => t.declareVariable {} (Expr.infer {}) (.lastUnit name)
    t.ConstantsNumeric ∧ Expr.lastUnit.fold t.names = .ok 47 ∧ Expr.lastUnit.LiteralsFit ∧
      (∃ fault, declare "SPAN" = .error [fault] t ∧ fault.kind = .duplicateSymbol) ∧
      ∃ v after, declare "LAST" = .ok v after ∧ v.constantValue = some 47 ∧
        after.ConstantsNumeric ∧ after.names "LAST" = some (.var v) := by
  intro t declare
  have numeric : t.ConstantsNumeric := by
    rintro (_ | _ | i) s v c found member -
    · cases found
      have known : Symbol.var v ∈ [Symbol.var .unit, .var .span] := member
      rcases List.mem_cons.mp known with first | later
      · cases first
        exact .inl rfl
      · cases List.mem_singleton.mp later
        exact .inl rfl
    · cases found
      cases List.mem_singleton.mp member
      exact .inl rfl
    · cases found
  have fits : Expr.lastUnit.LiteralsFit := by
    intro n l literal
    simp only [lastUnit, applyBinary, ofName, ofInt, nodes, List.mem_cons, List.mem_append,
      List.not_mem_nil, Node.expr.injEq, Expr.number.injEq, reduceCtorEq, or_false, false_or] at literal
    rcases literal with ⟨rfl, -⟩ | ⟨rfl, -⟩ <;> decide
  obtain ⟨keeps, ty, -, -, declares⟩ :=
    folded_constants_declared {} t lastUnit 47 numeric fold_lastUnit fits
  obtain ⟨fault, refused, kind, -⟩ := (declares (.lastUnit "SPAN") rfl rfl rfl).1 _ rfl
  obtain ⟨after, declared, -, gains⟩ := (declares (.lastUnit "LAST") rfl rfl rfl).2 rfl
  exact ⟨numeric, fold_lastUnit, fits, ⟨fault, refused, kind⟩, _, after, declared, rfl,
    keeps _ _ _ _ after declared, (gains SymbolTable.measuring_wellFormed).found⟩

end SemanticCheck
