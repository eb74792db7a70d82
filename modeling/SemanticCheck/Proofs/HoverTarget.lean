import SemanticCheck.Proofs.Description
import SemanticCheck.Proofs.ReadingOrder
import SemanticCheck.Proofs.SymbolInvariant
import SemanticCheck.Tree.Shorthand

/-!
What hovering shows. The cursor is on the first identifier, in reading order, whose place has the byte;
places may overlap, and the ones further on are not asked. The name is then looked up from the top level
outwards. Around a module there is a root, but nothing is ever declared in it. So what is shown is a
symbol of the top-level scope itself, and names that are declared in functions show nothing, unless the
top level has them too. The symbol is shown by its description, which tells it from all others.
-/
namespace SemanticCheck

/-- The place has the byte, or ends just before it. -/
def Location.Covers (l : Location) (offset : Nat) : Prop := l.startByte ≤ offset ∧ offset ≤ l.endByte

theorem Location.contains_iff {l : Location} {offset : Nat} :
    l.contains offset = true ↔ l.Covers offset := by
  simp [Location.contains, Location.Covers]

namespace Program

/-- The identifier covers the byte, and no identifier at a smaller address does. -/
def FirstAt (program : Program) (offset : Nat) (i : Ident) : Prop :=
  ∃ a, program.At a i ∧ i.location.Covers offset ∧
    ∀ b j, program.At b j → b < a → ¬ j.location.Covers offset

theorem identAt?_eq_some_iff {program : Program} {offset : Nat} {i : Ident} :
    program.identAt? offset = some i ↔ program.FirstAt offset i := by
  rw [identAt?, program.listed.find?_eq_some_iff]
  simp only [FirstAt, Location.contains_iff, ← Bool.not_eq_true]

theorem identAt?_eq_none_iff {program : Program} {offset : Nat} :
    program.identAt? offset = none ↔ ∀ a i, program.At a i → ¬ i.location.Covers offset := by
  simp only [identAt?, List.find?_eq_none, Location.contains_iff, program.listed.mem_iff,
    forall_exists_index]
  exact forall_comm

end Program

namespace SymbolTable

variable {t after : SymbolTable}

theorem lookupFrom_of_scopes_eq (same : after.scopes = t.scopes) (name : String) (i : ScopeId) :
    after.lookupFrom name i = t.lookupFrom name i := by
  have found : after.lookupFrom name i = (t.lookupFrom name i).map id :=
    lookupFrom_of_alike (by simp [scope?, same]) i
  rw [found, Option.map_id, id_eq]

/-- Where the scopes around the current one are empty, names stand for what that scope declares. -/
theorem WellFormed.names_eq_lookup_top (h : t.WellFormed)
    (empty : ∀ frame ∈ t.environment.tail, frame.names = fun _ => none) (name : String) :
    t.names name = t.top.lookup name := by
  cases own : t.top.lookup name with
  | some x =>
      rw [names, lookupFrom]
      simp only [h.scope?_current, own]
  | none =>
      -- environments list the frames from the inside outwards, so only the tail could know the name
      have outside : t.environment.tail.findSome? (·.names name) = none := by
        rw [List.findSome?_eq_none_iff]
        intro frame around
        rw [empty frame around]
      have unknown : t.environment.names name = none := by
        rw [h.environment_eq] at outside ⊢
        simp only [Environment.names, List.findSome?_cons, Scope.frame, Names.unscoped, own,
          Option.map_none]
        exact outside
      rw [names_environment] at unknown
      exact Option.map_eq_none_iff.mp unknown

end SymbolTable

namespace Program

variable {settings : AnalysisSettings} {program : Program} {a : Analysis}

/-- Around the scope of the items there is nothing, or a root without symbols. -/
theorem tail_environment_topTable (program : Program) :
    ∀ frame ∈ program.topTable.environment.tail, frame.names = fun _ => none := by
  unfold topTable
  cases program.module? with
  | none =>
      rw [SymbolTable.environment_empty]
      exact List.forall_mem_nil _
  | some name =>
      rw [SymbolTable.WellFormed.empty.environment_push, SymbolTable.environment_empty]
      intro frame around
      rw [List.mem_singleton.mp around]

theorem kind_topTable (program : Program) :
    program.topTable.top.kind = program.module?.elim .global fun _ => .module := by
  unfold topTable
  cases program.module? <;> rfl

/-- In the finished table the scope of the items is of the right kind, and a lookup from it finds its
own symbols. -/
theorem exists_top (ran : program.analyze settings = .ok a) :
    ∃ top, a.table.scope? a.topLevelScope = some top ∧
      top.kind = program.module?.elim .global (fun _ => .module) ∧
      ∀ name x, a.table.lookupFrom name a.topLevelScope = some x ↔
        x ∈ top.symbols ∧ x.name = name ∧ x.scope = a.topLevelScope := by
  obtain ⟨after, -, leads, -, scopes, current, -⟩ := analyze_top ran
  have h := leads.wellFormed
  have formed := h.formed h.scope?_current
  have empty : ∀ frame ∈ after.environment.tail, frame.names = fun _ => none := by
    rw [leads.environment_eq, Environment.tail_analyzeItems]
    exact program.tail_environment_topTable
  refine ⟨after.top, ?_, ?_, ?_⟩
  · rw [current, SymbolTable.scope?, scopes]
    exact h.scope?_current
  · rw [leads.kind_top program.topTable_wellFormed, kind_topTable]
  · intro name x
    have own : after.names name = some x ↔ x ∈ after.top.symbols ∧ x.name = name := by
      rw [h.names_eq_lookup_top empty, formed.indexed.lookup_eq_some_iff]
    rw [current, SymbolTable.lookupFrom_of_scopes_eq scopes]
    refine own.trans ⟨fun found => ?_, fun found => ⟨found.1, found.2.1⟩⟩
    exact ⟨found.1, found.2, formed.owned x found.1⟩

/-- The identifier at a byte is the first in reading order that covers it, if any does. Hovering in a
checked program shows something exactly where that identifier's name is declared by the top-level scope,
which is the module's scope if there is a module: the symbol with the name there, at the identifier. The
text tells all of the symbol but its scope, places and default values: symbols with the same text differ
in nothing else, save in types that have one text. -/
theorem hover_shows_top_level (settings : Settings) (program : Program) (offset : Nat) :
    (∀ i, program.identAt? offset = some i ↔ program.FirstAt offset i) ∧
    (program.identAt? offset = none ↔ ∀ a i, program.At a i → ¬ i.location.Covers offset) ∧
    (∃ report top, program.check settings = .ok report ∧
      report.analysis.table.scope? report.analysis.topLevelScope = some top ∧
      top.kind = program.module?.elim .global (fun _ => .module) ∧
      ∀ hover, report.analysis.hover program offset = some hover ↔
        ∃ i x, program.FirstAt offset i ∧ x ∈ top.symbols ∧ x.name = i.name ∧
          x.scope = report.analysis.topLevelScope ∧ hover = ⟨x.describe, i.location⟩) ∧
    ∀ x y : Symbol, (∀ name ∈ x.names, ProperName name) → (∀ name ∈ y.names, ProperName name) →
      (x.describe = y.describe ↔ x.shown = y.shown) := by
  refine ⟨fun i => identAt?_eq_some_iff, identAt?_eq_none_iff, ?_, fun _ _ => Symbol.describe_eq_iff⟩
  obtain ⟨a, ran, -⟩ := program.analyze_eq_ok settings.analysis
  obtain ⟨top, found, kind, stands⟩ := exists_top ran
  refine ⟨⟨a, a.diagnostics⟩, top, ?_, found, kind, ?_⟩
  · rw [check, ran]
    rfl
  · intro hover
    simp only [Analysis.hover, Option.bind_eq_bind, Option.bind_eq_some_iff, identAt?_eq_some_iff, stands,
      Option.pure_def, Option.some.injEq, eq_comm (b := hover), and_assoc, exists_and_left]

/-- A callback with a variable of the name of a constant around it. -/
def ticking : Program :=
  { module? := some { name := "raster" }
    items :=
      [.var (VariableDecl.ofName "SPEED" (some (.ofName "byte")) |>.withValue (.ofInt 2) |>.asConstant
         |>.storedIn .zeroPage |>.placed (.span 20 25)),
       .function (FunctionDecl.ofName "tick"
         |>.withParam ((Parameter.ofName "line" (.ofName "byte")).placed (.span 57 61))
         |>.withParam (Parameter.ofName "fast" (.ofName "boolean")).markOptional
         |>.asCallback |>.asExported |>.placed (.span 52 56)
         |>.withBody
           [.declare ((VariableDecl.ofName "SPEED" (some (.ofName "word"))).placed (.span 90 95))])] }

example :
    (ticking.check {}).toOption.map (fun report =>
      [22, 54, 58, 92].map fun offset => report.analysis.hover ticking offset) =
      some [some ⟨"const SPEED: byte @zp = 2", .span 20 25⟩,
        some ⟨"export callback function tick(line: byte, fast?: boolean): void", .span 52 56⟩,
        none, some ⟨"const SPEED: byte @zp = 2", .span 90 95⟩] := by
  decide +kernel

/-- The constant of the module. -/
def speed : VariableSymbol :=
  { name := "SPEED", ty := .byte, scope := 1, location := .span 20 25, storage := some .zeroPage
    isConst := true, constantValue := some 2 }

theorem ticking_hovered :
    ∃ report, ticking.check {} = .ok report ∧
      report.analysis.hover ticking 92 = some ⟨"const SPEED: byte @zp = 2", .span 90 95⟩ ∧
      (∀ name ∈ (Symbol.var speed).names, ProperName name) ∧
      ∀ y : Symbol, (∀ name ∈ y.names, ProperName name) →
        y.describe = "const SPEED: byte @zp = 2" → y.shown = (Symbol.var speed).shown := by
  obtain ⟨first, -, ⟨report, top, ran, found, -, shows⟩, tells⟩ := hover_shows_top_level {} ticking 92
  have known : ticking.check {} = .ok _ := rfl
  have text : speed.describe = "const SPEED: byte @zp = 2" := by decide +kernel
  have proper : ∀ name ∈ (Symbol.var speed).names, ProperName name := by
    simp [Symbol.names, speed, ProperName, Char.isAlphanum, Char.isAlpha, Char.isUpper]
  cases known.symm.trans ran
  cases found
  refine ⟨_, rfl, (shows _).mpr ⟨⟨"SPEED", .span 90 95⟩, .var speed, (first _).mp rfl, ?_, rfl, rfl, ?_⟩,
    proper, ?_⟩
  · exact List.mem_cons_self
  · exact congrArg (Hover.mk · _) text.symm
  · intro y names same
    exact (tells y (.var speed) names proper).mp (same.trans text.symm)

end Program

end SemanticCheck
