import SemanticCheck.Proofs.ExactValue

/-!
Which expressions have a constant value, and why the others are refused. Folding looks at the parts of
an expression in a fixed order, operands from left to right before their operator. It succeeds if the
expression is built from constants and every operator is defined at the values of its operands, and
otherwise reports the first part in that order that has a flaw of its own.
-/
namespace SemanticCheck

variable {t : SymbolTable}

/-- The parts that folding looks at, in order. What is no arithmetic is refused as it stands, without a
look at what is inside. -/
def Expr.visited : Expr → List Expr
  | e@(.unary _ operand _) => operand.visited ++ [e]
  | e@(.binary op lhs rhs _) =>
      if op.isArithmetic then lhs.visited ++ rhs.visited ++ [e] else [e]
  | e => [e]

/-- Expressions made of literals and constants by arithmetic. A name counts as what it stands for in the
current scope. -/
inductive Expr.Constant (t : SymbolTable) : Expr → Prop
  | number (value : Int64) (l : Location) : Constant t (.number value l)
  | name {i : Ident} {v : VariableSymbol} {c : Int64} : t.Nearest i.name (.var v) →
      v.constantValue = some c → Constant t (.ident i)
  | unary {op : UnaryOp} {operand : Expr} {l : Location} : op = .neg ∨ op = .bitNot →
      Constant t operand → Constant t (.unary op operand l)
  | binary {op : BinaryOp} {lhs rhs : Expr} {l : Location} : op.isArithmetic = true →
      Constant t lhs → Constant t rhs → Constant t (.binary op lhs rhs l)

/-- An arithmetic operator that is not defined at the values of its operands. -/
inductive Expr.OutOfRange (names : Names) : Expr → Prop
  | unary {op : UnaryOp} {operand : Expr} {l : Location} {a : Int} : op ≠ .not →
      operand.value? wrapped names = some a → ¬ op.Defined a → OutOfRange names (.unary op operand l)
  | binary {op : BinaryOp} {lhs rhs : Expr} {l : Location} {a b : Int} : op.isArithmetic = true →
      lhs.value? wrapped names = some a → rhs.value? wrapped names = some b →
      ¬ op.Defined a b → OutOfRange names (.binary op lhs rhs l)

/-- The flaws that an expression has of itself, whatever its operands are. -/
inductive Expr.Refused (t : SymbolTable) : Expr → FaultKind → Prop
  | unresolved {i : Ident} : (∀ x, ¬ t.Nearest i.name x) → Refused t (.ident i) .undefinedSymbol
  | notConstant {i : Ident} {x : Symbol} : t.Nearest i.name x →
      (∀ v, x = .var v → v.constantValue = none) → Refused t (.ident i) .constantRequired
  | boolean (value : Bool) (l : Location) : Refused t (.boolean value l) .constantRequired
  | text (value : String) (l : Location) : Refused t (.text value l) .constantRequired
  | call (callee : Expr) (args : List Expr) (l : Location) :
      Refused t (.call callee args l) .constantRequired
  | index (target position : Expr) (l : Location) :
      Refused t (.index target position l) .constantRequired
  | not (operand : Expr) (l : Location) : Refused t (.unary .not operand l) .constantRequired
  | operator {op : BinaryOp} {lhs rhs : Expr} {l : Location} : op.isArithmetic = false →
      Refused t (.binary op lhs rhs l) .constantRequired
  | outOfRange {e : Expr} : e.OutOfRange t.names → Refused t e .invalidOperation

/-- None of the parts has a flaw. -/
def Expr.Accepted (t : SymbolTable) (parts : List Expr) : Prop :=
  ∀ part ∈ parts, ∀ kind, ¬ part.Refused t kind

/-- The fault is that of the first part that has a flaw, and stands where the part does. -/
def Expr.FirstRefused (t : SymbolTable) (parts : List Expr) (fault : Fault) : Prop :=
  ∃ before part after, parts = before ++ part :: after ∧ Accepted t before ∧
    part.Refused t fault.kind ∧ fault.location = part.location

namespace Expr

variable {parts others : List Expr} {fault : Fault} {e : Expr}

theorem Accepted.append (first : Accepted t parts) (second : Accepted t others) :
    Accepted t (parts ++ others) := by
  intro part member
  rcases List.mem_append.mp member with inFirst | inSecond
  · exact first part inFirst
  · exact second part inSecond

theorem Accepted.single (accepted : ∀ kind, ¬ e.Refused t kind) : Accepted t [e] := by
  intro part member
  rw [List.mem_singleton.mp member]
  exact accepted

theorem FirstRefused.append (first : FirstRefused t parts fault) (others : List Expr) :
    FirstRefused t (parts ++ others) fault := by
  obtain ⟨before, part, after, rfl, accepted, refused, place⟩ := first
  refine ⟨before, part, after ++ others, ?_, accepted, refused, place⟩
  rw [List.append_assoc, List.cons_append]

theorem Accepted.prepend (accepted : Accepted t parts) (first : FirstRefused t others fault) :
    FirstRefused t (parts ++ others) fault := by
  obtain ⟨before, part, after, rfl, clean, refused, place⟩ := first
  exact ⟨parts ++ before, part, after, (List.append_assoc ..).symm, accepted.append clean, refused, place⟩

theorem Refused.first {cause : Cause} (refused : e.Refused t cause.kind) :
    FirstRefused t [e] (cause.fault e.location) :=
  ⟨[], e, [], rfl, nofun, refused, rfl⟩

/-- What folding comes to: a value and no flaw in any part, or the fault of the first flaw. -/
def Folded (t : SymbolTable) (e : Expr) : Prop :=
  (∃ v, e.fold t.names = .ok v ∧ e.value? wrapped t.names = some v.toInt ∧ e.Constant t ∧
      Accepted t e.visited) ∨
    ∃ fault, e.fold t.names = .error fault ∧ FirstRefused t e.visited fault

theorem folded_ident (h : t.WellFormed) (i : Ident) : (Expr.ident i).Folded t := by
  cases known : t.names i.name with
  | none =>
      have unresolved := h.names_eq_none_iff.mp known
      refine .inr ⟨(Cause.undefinedName i.name).fault i.location, ?_, ?_⟩
      · simp only [fold, Names.constant, known]
      · exact Refused.first (e := .ident i) (.unresolved unresolved)
  | some x =>
      have nearest := h.names_eq_some_iff.mp known
      cases recorded : x.var?.bind (·.constantValue) with
      | none =>
          refine .inr ⟨(Cause.symbolNotConstant x.kind i.name).fault i.location, ?_, ?_⟩
          · simp only [fold, Names.constant, known, recorded]
          · refine Refused.first (e := .ident i) (.notConstant nearest ?_)
            rintro v rfl
            exact recorded
      | some c =>
          obtain ⟨v, var, value⟩ := Option.bind_eq_some_iff.mp recorded
          cases x with
          | function f => cases var
          | var w =>
              cases var
              have folded : (Expr.ident i).fold t.names = .ok c := by
                simp only [fold, Names.constant, known, recorded]
              refine .inl ⟨c, folded, Names.value?_of_constant folded, .name nearest value, .single ?_⟩
              intro kind refused
              cases refused with
              | unresolved none => exact none _ nearest
              | notConstant other without =>
                  cases known.symm.trans (h.names_eq_some_iff.mpr other)
                  have absent := without _ rfl
                  rw [value] at absent
                  cases absent
              | outOfRange outside => cases outside

theorem folded_unary {op : UnaryOp} {operand : Expr} {l : Location} (inner : operand.Folded t) :
    (Expr.unary op operand l).Folded t := by
  rcases inner with ⟨a, folded, value, constant, accepted⟩ | ⟨fault, folded, first⟩
  · by_cases negation : op = .not
    · subst negation
      refine .inr ⟨(Cause.operatorNotConstant UnaryOp.not.text).fault l, ?_, ?_⟩
      · simp only [fold, folded, UnaryOp.fold]
      · exact accepted.prepend (Refused.first (.not operand l))
    · rcases op.fold_cases negation l a with ⟨defined, c, result, computed⟩ | ⟨undefined, result⟩
      · refine .inl ⟨c, ?_, ?_, ?_, accepted.append (.single ?_)⟩
        · simp only [fold, folded, result]
        · simp only [value?, value, Option.bind_some, computed]
        · cases op with
          | neg => exact .unary (.inl rfl) constant
          | bitNot => exact .unary (.inr rfl) constant
          | not => exact absurd rfl negation
        · intro kind refused
          cases refused with
          | not => exact negation rfl
          | outOfRange outside =>
              cases outside with
              | unary _ again undefined =>
                  cases value.symm.trans again
                  exact undefined defined
      · refine .inr ⟨Cause.overflow.fault l, ?_, ?_⟩
        · simp only [fold, folded, result]
        · exact accepted.prepend (Refused.first (.outOfRange (.unary negation value undefined)))
  · refine .inr ⟨fault, ?_, first.append _⟩
    simp only [fold, folded]

theorem folded_binary {op : BinaryOp} {lhs rhs : Expr} {l : Location} (left : lhs.Folded t)
    (right : rhs.Folded t) : (Expr.binary op lhs rhs l).Folded t := by
  cases arithmetic : op.isArithmetic with
  | false =>
      refine .inr ⟨(Cause.operatorNotConstant op.text).fault l, ?_, ?_⟩
      · simp only [fold, arithmetic, Bool.false_eq_true, if_false]
      · simp only [visited, arithmetic, Bool.false_eq_true, if_false]
        exact Refused.first (.operator arithmetic)
  | true =>
      have order : (Expr.binary op lhs rhs l).visited =
          lhs.visited ++ rhs.visited ++ [.binary op lhs rhs l] := by
        simp only [visited, arithmetic, if_true]
      rcases left with ⟨a, leftFolded, leftValue, leftConstant, leftAccepted⟩ | ⟨fault, leftFolded, first⟩
      · rcases right with ⟨b, rightFolded, rightValue, rightConstant, rightAccepted⟩ |
          ⟨fault, rightFolded, first⟩
        · have accepted := leftAccepted.append rightAccepted
          rcases op.fold_cases arithmetic l a b with
            ⟨defined, c, result, computed⟩ | ⟨undefined, cause, result, kind⟩
          · refine .inl ⟨c, ?_, ?_, .binary arithmetic leftConstant rightConstant, ?_⟩
            · simp only [fold, arithmetic, if_true, leftFolded, rightFolded, result]
            · simp only [value?, leftValue, rightValue, Option.bind_some, computed]
            · rw [order]
              refine accepted.append (.single ?_)
              intro kind refused
              cases refused with
              | operator other => cases arithmetic.symm.trans other
              | outOfRange outside =>
                  cases outside with
                  | binary _ leftAgain rightAgain undefined =>
                      cases leftValue.symm.trans leftAgain
                      cases rightValue.symm.trans rightAgain
                      exact undefined defined
          · refine .inr ⟨cause.fault l, ?_, ?_⟩
            · simp only [fold, arithmetic, if_true, leftFolded, rightFolded, result]
            · rw [order]
              have flaw := OutOfRange.binary (l := l) arithmetic leftValue rightValue undefined
              exact accepted.prepend (Refused.first (kind ▸ .outOfRange flaw))
        · refine .inr ⟨fault, ?_, ?_⟩
          · simp only [fold, arithmetic, if_true, leftFolded, rightFolded]
          · rw [order]
            exact (leftAccepted.prepend first).append _
      · refine .inr ⟨fault, ?_, ?_⟩
        · simp only [fold, arithmetic, if_true, leftFolded]
        · rw [order, List.append_assoc]
          exact first.append _

theorem folded (h : t.WellFormed) (e : Expr) : e.Folded t := by
  match e with
  | .number value l =>
      refine .inl ⟨value, rfl, rfl, .number value l, .single ?_⟩
      intro kind refused
      cases refused with
      | outOfRange outside => cases outside
  | .boolean value l => exact .inr ⟨_, rfl, Refused.first (.boolean value l)⟩
  | .text value l => exact .inr ⟨_, rfl, Refused.first (.text value l)⟩
  | .call callee args l => exact .inr ⟨_, rfl, Refused.first (.call callee args l)⟩
  | .index target position l => exact .inr ⟨_, rfl, Refused.first (.index target position l)⟩
  | .ident i => exact folded_ident h i
  | .unary op operand l => exact folded_unary (folded h operand)
  | .binary op lhs rhs l => exact folded_binary (folded h lhs) (folded h rhs)

/-- The only flaw that a part of an expression of constants can have is an operator out of range. -/
theorem Constant.outOfRange_of_refused (constant : e.Constant t) {part : Expr} {kind : FaultKind}
    (h : t.WellFormed) (member : part ∈ e.visited) (refused : part.Refused t kind) :
    part.OutOfRange t.names := by
  induction constant with
  | number value l =>
      cases List.mem_singleton.mp member
      cases refused with
      | outOfRange outside => exact outside
  | @name i v c nearest value =>
      cases List.mem_singleton.mp member
      cases refused with
      | unresolved none => exact absurd nearest (none _)
      | notConstant other without =>
          cases (h.names_eq_some_iff.mpr nearest).symm.trans (h.names_eq_some_iff.mpr other)
          cases value.symm.trans (without _ rfl)
      | outOfRange outside => exact outside
  | unary operation constant ih =>
      rcases List.mem_append.mp member with inside | self
      · exact ih inside
      · cases List.mem_singleton.mp self
        cases refused with
        | not => cases operation <;> contradiction
        | outOfRange outside => exact outside
  | binary arithmetic left right ihLeft ihRight =>
      simp only [visited, arithmetic, if_true, List.mem_append] at member
      rcases member with (inLeft | inRight) | self
      · exact ihLeft inLeft
      · exact ihRight inRight
      · cases List.mem_singleton.mp self
        cases refused with
        | operator other => cases arithmetic.symm.trans other
        | outOfRange outside => exact outside

/-- An expression folds just when it is made of constants by operators that are defined at the values
of their operands. Otherwise the one fault is that of the first flaw that folding meets. -/
theorem fold_iff_constant (t : SymbolTable) (h : t.WellFormed) (e : Expr) :
    ((∃ v, e.fold t.names = .ok v) ↔
        e.Constant t ∧ ∀ part ∈ e.visited, ¬ part.OutOfRange t.names) ∧
      ∀ fault, e.fold t.names = .error fault → FirstRefused t e.visited fault := by
  rcases folded h e with ⟨v, result, -, constant, accepted⟩ | ⟨fault, result, first⟩
  · refine ⟨iff_of_true ⟨v, result⟩ ⟨constant, ?_⟩, ?_⟩
    · intro part member outside
      exact accepted part member _ (.outOfRange outside)
    · intro fault failed
      cases result.symm.trans failed
  · refine ⟨iff_of_false ?_ ?_, ?_⟩
    · rintro ⟨v, succeeded⟩
      cases result.symm.trans succeeded
    · rintro ⟨constant, defined⟩
      obtain ⟨before, part, after, parts, -, refused, -⟩ := first
      have member : part ∈ e.visited := by
        rw [parts]
        exact List.mem_append_right _ List.mem_cons_self
      exact defined part member (constant.outOfRange_of_refused h member refused)
    · intro other failed
      cases result.symm.trans failed
      exact first

/-- A variable hides the constant of its name, and comes before a name that stands for nothing. -/
def hiddenSpan : Expr :=
  .applyBinary .div (.applyBinary .add (.ofName "UNIT") (.ofName "SPAN")) (.ofName "nowhere")

theorem hiddenSpan_refused :
    SymbolTable.measuring.WellFormed ∧ lastUnit.Constant .measuring ∧
      ∃ fault, hiddenSpan.fold SymbolTable.measuring.names = .error fault ∧
        fault.kind = .constantRequired ∧ FirstRefused .measuring hiddenSpan.visited fault := by
  have h := SymbolTable.measuring_wellFormed
  have span : SymbolTable.measuring.names "SPAN" = some _ :=
    h.names_eq_some_iff.mpr (.here rfl (by exact List.mem_cons_self) rfl)
  have refused : hiddenSpan.fold SymbolTable.measuring.names =
      .error ((Cause.symbolNotConstant .var "SPAN").fault .unknown) := by
    simp only [hiddenSpan, applyBinary, ofName, fold, Names.constant, SymbolTable.measuring_unit, span]
    rfl
  have constant := ((fold_iff_constant .measuring h lastUnit).1.mp ⟨47, fold_lastUnit⟩).1
  exact ⟨h, constant, _, refused, rfl, (fold_iff_constant .measuring h hiddenSpan).2 _ refused⟩

end Expr

end SemanticCheck
