import SemanticCheck.Proofs.Failure
import SemanticCheck.Proofs.Ordinary
import SemanticCheck.Proofs.Registered
import SemanticCheck.Proofs.Rejection
import SemanticCheck.Tree.Shorthand

/-!
Unreachable faults. Some checks guard against mistakes that no program can bring about: a return
outside of a function, an export below the top level, a symbol declared in a scope that is not its
own, a parameter that its function's scope has already, and a variable that is without a type though
nothing is wrong with it.
-/
namespace SemanticCheck

open Outcome (Explained)

/-- A variable has a type unless something is wrong with it. -/
theorem VariableDecl.typed_of_clean {decl : VariableDecl} {settings : AnalysisSettings}
    {infer : Inference} {site : Site} (explained : ∀ names e, Explained (infer names e))
    (clean : decl.faults settings infer site = []) :
    ∃ ty, (decl.typed settings infer site.names).2 = some ty := by
  simp only [VariableDecl.faults, List.append_eq_nil_iff] at clean
  obtain ⟨⟨⟨⟨writtenClean, -⟩, typedClean⟩, -⟩, -⟩ := clean
  unfold VariableDecl.typeExprFaults VariableDecl.written at writtenClean
  unfold VariableDecl.typed VariableDecl.written at typedClean ⊢
  cases written : decl.typeExpr with
  | some a =>
      -- without faults the written type is known, and it is the type of the variable
      rw [written] at writtenClean
      obtain ⟨ty, resolved⟩ := (a.resolve_explained site.names).eq_ok writtenClean
      rw [Option.map_some, resolved]
      cases decl.initializer with
      | none => exact ⟨ty, rfl⟩
      | some value => exact ⟨ty, rfl⟩
  | none =>
      rw [written] at typedClean
      cases given : decl.initializer with
      | none =>
          rw [given] at typedClean
          cases typedClean
      | some value =>
          rw [given] at typedClean
          cases inferred : infer site.names value with
          | ok ty => exact ⟨ty, by simp only [Option.map_none, inferred]⟩
          | error found =>
              simp only [Option.map_none, inferred] at typedClean
              exact absurd typedClean ((explained site.names value).faults_ne_nil inferred)

section Declarations

variable {settings : AnalysisSettings} {t : SymbolTable}

theorem SymbolTable.declareVariable_of_clean {infer : Inference} {decl : VariableDecl}
    (explained : ∀ names e, Explained (infer names e)) (clean : decl.faults settings infer t.site = []) :
    ∃ v after, t.declare (.var v) = .ok () after ∧
      t.declareVariable settings infer decl = .ok v after := by
  obtain ⟨ty, typed⟩ := VariableDecl.typed_of_clean explained clean
  have declared := VariableDecl.symbol_eq_ok_iff.mpr ⟨clean, ty, typed, rfl⟩
  refine ⟨_, _, (VariableDecl.admits_symbol declared).declare, ?_⟩
  rw [SymbolTable.declareVariable_eq, declared]
  rfl

theorem SymbolTable.declareFunction_of_clean {decl : FunctionDecl}
    (clean : decl.faults settings t.site = []) :
    ∃ f after, t.declare (.function f) = .ok () after ∧
      t.declareFunction settings decl = .ok f after := by
  have declared := FunctionDecl.symbol_eq_ok_iff.mpr ⟨clean, rfl⟩
  refine ⟨_, _, (FunctionDecl.admits_symbol declared).declare, ?_⟩
  exact SymbolTable.declareFunction_eq_ok_iff.mpr ⟨declared, rfl⟩

end Declarations

namespace Program

theorem faults_ordinary {settings : AnalysisSettings} {program : Program} {a : Analysis}
    (ran : program.analyze settings = .ok a) : Ordinary a.faults := by
  obtain ⟨b, same, blocks, -⟩ := program.analyze_eq_ok settings
  rw [ran] at same
  cases same
  intro fault member
  obtain ⟨block, found, here⟩ := List.mem_flatten.mp member
  rw [blocks] at found
  exact program.checkLexically_ordinary settings block found fault here

/-- A registered function's parameters are all declared when its body is entered. -/
theorem declareParams_clean {settings : AnalysisSettings} {program : Program} {i : Nat}
    {decl : FunctionDecl} {f : FunctionSymbol} {after : SymbolTable}
    (registered : (program.firstTable settings i).declareFunction settings decl = .ok f after) :
    ∃ second, program.secondTable settings i = .ok second ∧
      ((second.push .function).declareParams f.params).2 = [] := by
  obtain ⟨second, reached, wellFormed⟩ := program.secondTable_eq_ok settings i
  have accepted : f.Accepted settings :=
    ⟨decl, _, (SymbolTable.declareFunction_eq_ok_iff.mp registered).1⟩
  obtain ⟨ready, declared, -⟩ := accepted.declareParams wellFormed
  exact ⟨second, reached, by rw [declared]⟩

/-- No analysis finds anything misplaced, the parameters of a registered function are declared in its
scope, and a declaration without faults of its own succeeds on every table, with every way to infer
types that explains its failures. -/
theorem internal_faults_unreachable (settings : AnalysisSettings) :
    (∀ program : Program, ∃ a, program.analyze settings = .ok a ∧
      ∀ fault ∈ a.faults, fault.kind ≠ .invalidScope) ∧
    (∀ (program : Program) (i : Nat) (decl : FunctionDecl) (f : FunctionSymbol) (after : SymbolTable),
      program.items[i]? = some (.function decl) →
      (program.firstTable settings i).declareFunction settings decl = .ok f after →
      ∃ second, program.secondTable settings i = .ok second ∧
        ((second.push .function).declareParams f.params).2 = []) ∧
    (∀ (t : SymbolTable) (decl : FunctionDecl), decl.faults settings t.site = [] →
      ∃ f after, t.declare (.function f) = .ok () after ∧
        t.declareFunction settings decl = .ok f after) ∧
    (∀ infer : Inference, (∀ names e, Explained (infer names e)) →
      ∀ (t : SymbolTable) (decl : VariableDecl), decl.faults settings infer t.site = [] →
        ∃ v after, t.declare (.var v) = .ok () after ∧
          t.declareVariable settings infer decl = .ok v after) := by
  refine ⟨?_, ?_, ?_, ?_⟩
  · intro program
    obtain ⟨a, ran, -⟩ := program.analyze_eq_ok settings
    exact ⟨a, ran, faults_ordinary ran⟩
  · intro program i decl f after _ registered
    exact declareParams_clean registered
  · intro t decl clean
    exact SymbolTable.declareFunction_of_clean clean
  · intro infer explained t decl clean
    exact SymbolTable.declareVariable_of_clean explained clean

/-- An exported function that returns from within a block. -/
def pickFirst : FunctionDecl :=
  (((((FunctionDecl.ofName "pick").withParam (.ofName "a" (.ofName "byte"))).withParam
    (.ofName "b" (.ofName "byte"))).returning (.ofName "byte")).asExported).withBody
      [.ofBlock [.returnValue (some (.ofName "a"))]]

def exporting : Program := { module? := some { name := "picking" }, items := [.function pickFirst] }

/-- A variable whose type is that of its value. -/
def untypedTwo : VariableDecl := (VariableDecl.ofName "two" none).withValue (.ofInt 2)

theorem exporting_faults_unreachable :
    (∃ a, exporting.analyze {} = .ok a ∧ ∀ fault ∈ a.faults, fault.kind ≠ .invalidScope) ∧
    (∃ f after, (exporting.firstTable {} 0).declareFunction {} pickFirst = .ok f after ∧
      f.params.length = 2 ∧
      ∃ second, exporting.secondTable {} 0 = .ok second ∧
        ((second.push .function).declareParams f.params).2 = []) ∧
    (pickFirst.faults {} SymbolTable.empty.site = [] ∧
      ∃ f after, SymbolTable.empty.declare (.function f) = .ok () after ∧
        SymbolTable.empty.declareFunction {} pickFirst = .ok f after) ∧
    untypedTwo.faults {} (Expr.infer {}) SymbolTable.empty.site = [] ∧
      ∃ v after, SymbolTable.empty.declare (.var v) = .ok () after ∧
        SymbolTable.empty.declareVariable {} (Expr.infer {}) untypedTwo = .ok v after := by
  obtain ⟨ordinary, params, functions, vars⟩ := internal_faults_unreachable {}
  have registered : (exporting.firstTable {} 0).declareFunction {} pickFirst = .ok _ _ := rfl
  refine ⟨ordinary exporting, ⟨_, _, registered, rfl, ?_⟩, ⟨rfl, ?_⟩, rfl, ?_⟩
  · exact params exporting 0 pickFirst _ _ rfl registered
  · exact functions .empty pickFirst rfl
  · exact vars (Expr.infer {}) (Expr.infer_explained {}) .empty untypedTwo rfl

end Program

end SemanticCheck
