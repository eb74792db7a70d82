import SemanticCheck.Proofs.SymbolInvariant

/-!
The shape of registered functions. Each rule for signatures has a check of its own, and a parameter
whose type is unknown is left out of what some of them look at; but a function is registered only when
none of them finds anything. So every function of a finished table has the parameters that its item
writes, keeps all the rules, and stands at the top level.
-/
namespace SemanticCheck

variable {settings : AnalysisSettings}

theorem Ty.isCallbackSafe_iff {ty : Ty} :
    ty.isCallbackSafe = true ↔ ty ∈ [Ty.byte, .word, .boolean, .void] := by
  cases ty with
  | primitive p => cases p <;> simp [Ty.isCallbackSafe, Ty.byte, Ty.word, Ty.boolean, Ty.void]
  | array element size => simp [Ty.isCallbackSafe, Ty.byte, Ty.word, Ty.boolean, Ty.void]
  | callback params result => simp [Ty.isCallbackSafe, Ty.byte, Ty.word, Ty.boolean, Ty.void]

theorem ScopeKind.allowsExports_iff {kind : ScopeKind} :
    kind.allowsExports = true ↔ kind = .global ∨ kind = .module := by
  cases kind <;> simp [ScopeKind.allowsExports]

namespace FunctionDecl

variable {decl : FunctionDecl} {site : Site} {f : FunctionSymbol}

/-- The order is free of faults exactly when all parameters after an optional one are optional; one
that was seen before the list counts too. -/
theorem orderFaultsFrom_eq_nil_iff {first : Option Parameter} {params : List Parameter} :
    orderFaultsFrom first params = [] ↔
      (first.isSome = true → ∀ p ∈ params, p.isOptional = true) ∧
        params.Pairwise (fun p q => p.isOptional = true → q.isOptional = true) := by
  induction params generalizing first with
  | nil => simp [orderFaultsFrom]
  | cons p rest ih =>
      unfold orderFaultsFrom
      rw [List.pairwise_cons]
      by_cases optional : p.isOptional = true
      · have seen : (first.or (some p)).isSome = true := by simp
        rw [if_pos optional, ih]
        simp only [seen, optional, forall_const, List.forall_mem_cons, true_and]
        constructor
        · rintro ⟨later, trailing⟩
          exact ⟨fun _ => later, later, trailing⟩
        · rintro ⟨-, later, trailing⟩
          exact ⟨later, trailing⟩
      · rw [if_neg optional, List.append_eq_nil_iff, ih]
        cases first with
        | none => simp [optional]
        | some q => simp [optional]

theorem shapeFaults_eq_nil_iff {params : List ParameterSymbol} {result : Ty} :
    decl.shapeFaults settings params result = [] ↔
      decl.params.length ≤ settings.maxCallbackParams ∧
        (∀ p ∈ params, p.ty.isCallbackSafe = true) ∧ result.isCallbackSafe = true := by
  simp only [shapeFaults, List.append_eq_nil_iff, List.map_eq_nil_iff, List.filter_eq_nil_iff, and_assoc]
  refine and_congr ?_ (and_congr ?_ ?_)
  · simp
  · simp
  · simp

/-- An accepted function has a name. -/
theorem name_ne_of_symbol (h : decl.symbol settings site = .ok f) : f.name ≠ "" := by
  have named := name_of_symbol h
  obtain ⟨clean, -⟩ := FunctionDecl.symbol_eq_ok_iff.mp h
  simp only [faults, List.append_eq_nil_iff] at clean
  intro nameless
  rw [named] at nameless
  simp [namelessFaults, nameless] at clean

theorem trailing_params_of_symbol (h : decl.symbol settings site = .ok f) :
    f.params.Pairwise (fun p q => p.optional = true → q.optional = true) := by
  rw [params_of_symbol h, List.pairwise_map]
  obtain ⟨clean, -⟩ := FunctionDecl.symbol_eq_ok_iff.mp h
  simp only [faults, List.append_eq_nil_iff] at clean
  exact (orderFaultsFrom_eq_nil_iff.mp clean.1.1.2).2

/-- An accepted callback passes few parameters, and only what registers hold. -/
theorem callback_shape_of_symbol (h : decl.symbol settings site = .ok f)
    (callback : f.isCallback = true) :
    f.params.length ≤ settings.maxCallbackParams ∧
      (∀ p ∈ f.params, p.ty.isCallbackSafe = true) ∧ f.result.isCallbackSafe = true := by
  have written := params_of_symbol h
  obtain ⟨clean, rfl⟩ := FunctionDecl.symbol_eq_ok_iff.mp h
  simp only [faults, List.append_eq_nil_iff] at clean
  have shape := clean.1.1.1.1.2
  rw [callbackFaults, if_pos callback] at shape
  obtain ⟨count, params, result⟩ := shapeFaults_eq_nil_iff.mp shape
  refine ⟨?_, params, result⟩
  rw [written, List.length_map]
  exact count

end FunctionDecl

/-- The function is the one of the declaration: its name and marks, and the parameters one by one, of
which those are optional that are marked so or have a default value. -/
structure FunctionSymbol.Declared (f : FunctionSymbol) (decl : FunctionDecl) : Prop where
  name_eq : f.name = decl.name.name
  params_eq : f.params.map (fun p => (p.name, p.optional, p.default?)) =
    decl.params.map (fun p => (p.name.name, p.marked || p.default?.isSome, p.default?))
  callback_eq : f.isCallback = decl.callback
  exported_eq : f.isExported = decl.exported

/-- The rules for signatures that a function keeps. -/
structure FunctionSymbol.Regular (settings : AnalysisSettings) (f : FunctionSymbol) : Prop where
  named : f.name ≠ ""
  distinct : (f.params.map (·.name)).Nodup
  trailing : f.params.Pairwise (fun p q => p.optional = true → q.optional = true)
  callback : f.isCallback = true →
    f.params.length ≤ settings.maxCallbackParams ∧
      (∀ p ∈ f.params, p.ty ∈ [Ty.byte, .word, .boolean, .void]) ∧
      f.result ∈ [Ty.byte, .word, .boolean, .void]

section Accepted

variable {decl : FunctionDecl} {site : Site} {f : FunctionSymbol}

theorem FunctionDecl.declared_of_symbol (h : decl.symbol settings site = .ok f) : f.Declared decl := by
  have written := params_of_symbol h
  obtain ⟨-, rfl⟩ := FunctionDecl.symbol_eq_ok_iff.mp h
  refine ⟨rfl, ?_, rfl, rfl⟩
  rw [written, List.map_map]
  rfl

theorem FunctionDecl.regular_of_symbol (h : decl.symbol settings site = .ok f) :
    f.Regular settings where
  named := name_ne_of_symbol h
  distinct := nodup_params_of_symbol h
  trailing := trailing_params_of_symbol h
  callback := by
    intro callback
    obtain ⟨count, params, result⟩ := callback_shape_of_symbol h callback
    exact ⟨count, fun p member => Ty.isCallbackSafe_iff.mp (params p member),
      Ty.isCallbackSafe_iff.mp result⟩

end Accepted

namespace Program

/-- A function of the table was accepted for one of the items, and stands at the top level. -/
def FromItem (settings : AnalysisSettings) (items : List Item) (kind : ScopeKind) (x : Symbol) : Prop :=
  ∀ f, x = .function f → kind.allowsExports = true ∧
    ∃ decl site, Item.function decl ∈ items ∧ decl.symbol settings site = .ok f

theorem fromItem_inherited (settings : AnalysisSettings) (items : List Item) :
    Inherited settings items (FromItem settings items) where
  functions := by
    rintro t decl f - top member declared g ⟨⟩
    exact ⟨top, decl, t.site, member, declared⟩
  vars := by
    rintro t decl v - - - f ⟨⟩
  params := by
    rintro kind f - p - id g ⟨⟩

/-- Every function that an analysis leaves in its table, in whatever scope, stands in the global scope
or a module, is that of one of the items, and keeps all the rules for signatures. -/
theorem registered_functions_regular (settings : AnalysisSettings) (program : Program) :
    ∃ a, program.analyze settings = .ok a ∧
      ∀ (i : ScopeId) (s : Scope) (f : FunctionSymbol), a.table.scope? i = some s →
        Symbol.function f ∈ s.symbols →
        (s.kind = .global ∨ s.kind = .module) ∧
          (∃ decl, Item.function decl ∈ program.items ∧ f.Declared decl) ∧ f.Regular settings := by
  obtain ⟨a, ran, holds⟩ := program.analyze_holds (fromItem_inherited settings program.items)
  refine ⟨a, ran, ?_⟩
  intro i s f found member
  obtain ⟨top, decl, site, item, declared⟩ := holds.every found _ member f rfl
  exact ⟨ScopeKind.allowsExports_iff.mp top, ⟨decl, item, FunctionDecl.declared_of_symbol declared⟩,
    FunctionDecl.regular_of_symbol declared⟩

/-- A callback with a parameter that has a default value. -/
def rasterHandler : FunctionDecl :=
  ((((FunctionDecl.ofName "onRaster").withParam (.ofName "line" (.ofName "word"))).withParam
    ((Parameter.ofName "flash" (.ofName "boolean")).withDefault (.ofBool true))).returning
      (.ofName "byte")).asCallback

def rasterModule : Program :=
  { module? := some { name := "raster" }, items := [.function rasterHandler] }

theorem rasterModule_functions_regular :
    ∃ a s f, rasterModule.analyze {} = .ok a ∧ a.table.scope? 1 = some s ∧
      Symbol.function f ∈ s.symbols ∧ f.isCallback = true ∧ s.kind = .module ∧
      f.Declared rasterHandler ∧ f.Regular {} := by
  obtain ⟨a, ran, each⟩ := registered_functions_regular {} rasterModule
  have known : rasterModule.analyze {} = .ok _ := rfl
  rw [known] at ran
  cases ran
  obtain ⟨-, ⟨decl, item, declared⟩, regular⟩ := each 1 _ _ rfl List.mem_cons_self
  cases List.mem_singleton.mp item
  exact ⟨_, _, _, known, rfl, List.mem_cons_self, rfl, rfl, declared, regular⟩

end Program

end SemanticCheck
