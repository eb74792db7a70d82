import SemanticCheck.Proofs.FunctionShape
import SemanticCheck.Proofs.ScopePath

/-!
The faults of a function declaration. Many checks look at one declaration, and some of them go along
its parameters with something in mind that they saw before. Here each rule is told by itself: what one
parameter is faulted for, given those in front of it, and what the declaration is faulted for as a
whole. The faults are those of the rules one after the other, nothing is left out or told twice, and
the function is declared exactly when no rule objects.
-/
namespace SemanticCheck

/-- The one fault that is told, or nothing if there is none to tell. -/
def Fault.Once (tells : Fault → Prop) (found : List Fault) : Prop :=
  (∃ fault, tells fault ∧ found = [fault]) ∨ (∀ fault, ¬ tells fault) ∧ found = []

/-- The faults of the elements of a list, one block after the other. What an element is faulted for may
depend on the elements before it. -/
def Fault.InOrder {α : Type} (tells : List α → α → List Fault → Prop) (xs : List α)
    (found : List Fault) : Prop :=
  ∃ blocks : List (List Fault), found = blocks.flatten ∧ blocks.length = xs.length ∧
    ∀ before x after, xs = before ++ x :: after →
      ∃ block, blocks[before.length]? = some block ∧ tells before x block

namespace Fault

variable {α : Type} {found : List Fault}

theorem once_iff {tells : Fault → Prop} {told : Option Fault}
    (each : ∀ fault, tells fault ↔ told = some fault) : Once tells found ↔ told.toList = found := by
  cases told with
  | none => simp [Once, each, eq_comm]
  | some fault => simp [Once, each, eq_comm]

theorem once_ite_iff {tells : Fault → Prop} {condition : Prop} [Decidable condition] {fault : Fault}
    (each : ∀ other, tells other ↔ condition ∧ fault = other) :
    Once tells found ↔ (if condition then [fault] else []) = found := by
  by_cases holds : condition
  · simp [Once, each, holds, eq_comm]
  · simp [Once, each, holds, eq_comm]

theorem inOrder_nil_iff {tells : List α → α → List Fault → Prop} : InOrder tells [] found ↔ found = [] := by
  constructor
  · rintro ⟨blocks, rfl, count, -⟩
    rw [List.length_eq_zero_iff.mp count, List.flatten_nil]
  · rintro rfl
    refine ⟨[], rfl, rfl, ?_⟩
    intro before x after split
    simp at split

/-- The first element is judged by itself, and the others know that it was there. -/
theorem inOrder_cons_iff {tells : List α → α → List Fault → Prop} {x : α} {xs : List α} :
    InOrder tells (x :: xs) found ↔
      ∃ block others, tells [] x block ∧ InOrder (fun before => tells (x :: before)) xs others ∧
        found = block ++ others := by
  constructor
  · rintro ⟨blocks, rfl, count, each⟩
    obtain ⟨block, rest, rfl⟩ := List.exists_cons_of_length_eq_add_one count
    obtain ⟨_, first, told⟩ := each [] x xs rfl
    cases first
    refine ⟨block, rest.flatten, told, ⟨rest, rfl, Nat.succ.inj count, ?_⟩, List.flatten_cons⟩
    rintro before y after rfl
    exact each (x :: before) y after rfl
  · rintro ⟨block, others, told, ⟨rest, rfl, count, each⟩, rfl⟩
    refine ⟨block :: rest, List.flatten_cons.symm, congrArg Nat.succ count, ?_⟩
    intro before y after split
    cases before with
    | nil =>
        cases split
        exact ⟨block, rfl, told⟩
    | cons z before =>
        cases split
        exact each before y after rfl

/-- The blocks that a rule finds along a list. -/
def along (rule : List α → α → List Fault) : List α → List Fault
  | [] => []
  | x :: xs => rule [] x ++ along (fun before => rule (x :: before)) xs

theorem inOrder_iff {tells : List α → α → List Fault → Prop} {rule : List α → α → List Fault}
    {xs : List α} (each : ∀ before x block, tells before x block ↔ rule before x = block) :
    InOrder tells xs found ↔ along rule xs = found := by
  induction xs generalizing tells rule found with
  | nil => exact inOrder_nil_iff.trans eq_comm
  | cons x xs ih =>
      rw [inOrder_cons_iff, along]
      constructor
      · rintro ⟨block, others, told, later, rfl⟩
        rw [(each [] x block).mp told, (ih fun before => each (x :: before)).mp later]
      · rintro rfl
        exact ⟨_, _, (each [] x _).mpr rfl, (ih fun before => each (x :: before)).mpr rfl, rfl⟩

theorem inOrder_once_iff {tells : List α → α → Fault → Prop} {told : List α → α → Option Fault}
    {xs : List α} (each : ∀ before x fault, tells before x fault ↔ told before x = some fault) :
    InOrder (fun before x => Once (tells before x)) xs found ↔
      along (fun before x => (told before x).toList) xs = found :=
  inOrder_iff fun before x _ => once_iff (each before x)

/-- A rule that has no need of what came before. -/
theorem along_eq_flatMap (rule : α → List Fault) (xs : List α) :
    along (fun _ => rule) xs = xs.flatMap rule := by
  induction xs with
  | nil => rfl
  | cons x xs ih => rw [along, ih, List.flatMap_cons]

end Fault

/-- What a parameter is faulted for by itself: its type, or else its default value. -/
inductive Parameter.Objects (settings : AnalysisSettings) (names : Names) (p : Parameter) :
    List Fault → Prop
  | type {found : List Fault} : p.typeExpr.resolve names = .error found →
      Objects settings names p found
  | value {ty : Ty} {value : Expr} : p.typeExpr.resolve names = .ok ty → p.default? = some value →
      Objects settings names p (Outcome.faults
        (Inference.store (Expr.infer settings) settings names ty value value.location))
  | plain {ty : Ty} : p.typeExpr.resolve names = .ok ty → p.default? = none →
      Objects settings names p []

/-- The fault of a required parameter behind an optional one. -/
def Parameter.misplaced (p optional : Parameter) : Fault :=
  { kind := .invalidOperation
    message :=
      s!"required parameter '{p.name.name}' cannot follow optional parameter '{optional.name.name}'"
    location := p.location }

/-- A required parameter stands behind an optional one; the first of those is named. -/
inductive Parameter.Misplaced (before : List Parameter) (p : Parameter) : Fault → Prop
  | mk {earlier between : List Parameter} {q : Parameter} : p.isOptional = false →
      before = earlier ++ q :: between → q.isOptional = true →
      (∀ r ∈ earlier, r.isOptional = false) →
      Misplaced before p (p.misplaced q)

namespace FunctionDecl

/-- The current scope itself has the name already. -/
inductive Taken (decl : FunctionDecl) (t : SymbolTable) : Fault → Prop
  | mk {x : Symbol} : t.Declares decl.name.name t.current x →
      Taken decl t
        { kind := .duplicateSymbol
          message :=
            s!"duplicate symbol '{decl.name.name}': a {x.kind.text}" ++
              " with this name is already declared in this scope"
          location := decl.name.location
          suggestions := [s!"previous declaration at {x.location.text}"] }

/-- A callback has too many parameters, whether or not their types are known. -/
inductive Crowded (decl : FunctionDecl) (settings : AnalysisSettings) : Fault → Prop
  | mk : decl.callback = true → settings.maxCallbackParams < decl.params.length →
      Crowded decl settings
        { kind := .callbackMismatch
          message :=
            s!"callback function '{decl.name.name}' has {decl.params.length} parameters, at most " ++
              toString settings.maxCallbackParams ++ " are allowed"
          location := decl.location
          suggestions := ["pass the extra values through zero-page variables"] }

/-- A parameter of a callback has a type that registers cannot hold. -/
inductive UnsafeParam (decl : FunctionDecl) (names : Names) (p : Parameter) : Fault → Prop
  | mk {ty : Ty} : decl.callback = true → p.typeExpr.resolve names = .ok ty →
      ty ∉ [Ty.byte, .word, .boolean, .void] →
      UnsafeParam decl names p
        { kind := .callbackMismatch
          message :=
            s!"parameter '{p.name.name}' of callback function '{decl.name.name}' has type '{ty.text}', " ++
              "callback parameters must be byte, word, boolean or void"
          location := p.location
          suggestions := ["pass an address as a word instead"] }

/-- A callback returns what registers cannot hold. -/
inductive UnsafeResult (decl : FunctionDecl) (names : Names) : Fault → Prop
  | mk {a : TypeExpr} {ty : Ty} : decl.callback = true → decl.result = some a →
      a.resolve names = .ok ty → ty ∉ [Ty.byte, .word, .boolean, .void] →
      UnsafeResult decl names
        { kind := .callbackMismatch
          message := s!"callback function '{decl.name.name}' returns '{ty.text}', " ++
            "callbacks must return byte, word, boolean or void"
          location := a.location }

/-- The fault of a parameter whose name stood further left already. -/
def repeated (decl : FunctionDecl) (p first : Parameter) : Fault :=
  { kind := .duplicateSymbol
    message := s!"duplicate parameter '{p.name.name}' in function '{decl.name.name}'"
    location := p.location
    suggestions := [s!"first declared at {first.location.text}"] }

/-- An earlier parameter has the name; the first of those is pointed to. -/
inductive Repeats (decl : FunctionDecl) (before : List Parameter) (p : Parameter) : Fault → Prop
  | mk {earlier between : List Parameter} {q : Parameter} : before = earlier ++ q :: between →
      q.name.name = p.name.name → (∀ r ∈ earlier, r.name.name ≠ p.name.name) →
      Repeats decl before p (decl.repeated p q)

/-- The function is exported from a scope below the top level. -/
inductive Unexportable (decl : FunctionDecl) (t : SymbolTable) : Fault → Prop
  | mk {s : Scope} : decl.exported = true → t.scope? t.current = some s → s.kind ≠ .global →
      s.kind ≠ .module →
      Unexportable decl t
        { kind := .invalidScope
          message :=
            s!"function '{decl.name.name}' cannot be exported from a {s.kind.text} scope"
          location := decl.location
          suggestions :=
            ["move the declaration to the top level of the module or remove `export`"] }

inductive Nameless (decl : FunctionDecl) : Fault → Prop
  | mk : decl.name.name = "" →
      Nameless decl
        { kind := .invalidOperation, message := "function declaration is missing a name"
          location := decl.location }

/-- All that a declaration is faulted for, in order. -/
inductive Reports (decl : FunctionDecl) (settings : AnalysisSettings) (t : SymbolTable) :
    List Fault → Prop
  | mk {params taken crowded unsafeParams unsafeResult repeated misplaced unexportable nameless :
      List Fault} :
      Fault.InOrder (fun _ p => p.Objects settings t.names) decl.params params →
      Fault.Once (decl.Taken t) taken →
      Fault.Once (decl.Crowded settings) crowded →
      Fault.InOrder (fun _ p => Fault.Once (decl.UnsafeParam t.names p)) decl.params unsafeParams →
      Fault.Once (decl.UnsafeResult t.names) unsafeResult →
      Fault.InOrder (fun before p => Fault.Once (decl.Repeats before p)) decl.params repeated →
      Fault.InOrder (fun before p => Fault.Once (p.Misplaced before)) decl.params misplaced →
      Fault.Once (decl.Unexportable t) unexportable →
      Fault.Once decl.Nameless nameless →
      Reports decl settings t (params ++
        (decl.result.elim [] fun a => Outcome.faults (a.resolve t.names)) ++ taken ++
        (crowded ++ unsafeParams ++ unsafeResult) ++ repeated ++ misplaced ++ unexportable ++ nameless)

end FunctionDecl

section Checks

variable {settings : AnalysisSettings} {names : Names} {decl : FunctionDecl} {p : Parameter}
  {before : List Parameter} {found : List Fault} {t : SymbolTable}

theorem Parameter.objects_iff :
    p.Objects settings names found ↔ p.faults settings names = found := by
  unfold Parameter.faults
  constructor
  · intro objects
    cases objects with
    | type failed => simp only [failed]
    | value known given => simp only [known, given]
    | plain known missing => simp only [known, missing]
  · rintro rfl
    cases known : p.typeExpr.resolve names with
    | error found => exact .type known
    | ok ty =>
        cases given : p.default? with
        | some value => exact .value known given
        | none => exact .plain known given

/-- What the check of the order tells about a parameter. -/
def Parameter.misplaced? (before : List Parameter) (p : Parameter) : Option Fault :=
  if p.isOptional then none
  else (before.find? (·.isOptional)).map fun q =>
    (Cause.requiredAfterOptional p.name.name q.name.name).fault p.location

theorem Parameter.misplaced_iff (before : List Parameter) (p : Parameter) (fault : Fault) :
    p.Misplaced before fault ↔ p.misplaced? before = some fault := by
  unfold Parameter.misplaced?
  by_cases optional : p.isOptional = true
  · rw [if_pos optional]
    refine iff_of_false ?_ nofun
    rintro ⟨required, -⟩
    rw [optional] at required
    cases required
  · rw [if_neg optional, Option.map_eq_some_iff]
    simp only [List.find?_eq_some_iff_append]
    constructor
    · rintro ⟨-, split, found, earlier⟩
      exact ⟨_, ⟨found, _, _, split, by simpa using earlier⟩, rfl⟩
    · rintro ⟨q, ⟨found, earlier, between, split, none⟩, rfl⟩
      exact .mk (Bool.eq_false_iff.mpr optional) split found (by simpa using none)

namespace FunctionDecl

/-- The check keeps the first optional parameter of those that it has passed. -/
theorem orderFaultsFrom_eq (params seen : List Parameter) :
    orderFaultsFrom (seen.find? (·.isOptional)) params =
      Fault.along (fun before p => (p.misplaced? (seen ++ before)).toList) params := by
  induction params generalizing seen with
  | nil => rfl
  | cons p rest ih =>
      have later := ih (seen ++ [p])
      simp only [List.append_assoc, List.singleton_append, List.find?_append] at later
      unfold orderFaultsFrom
      rw [Fault.along, ← later, List.append_nil, Parameter.misplaced?]
      by_cases optional : p.isOptional = true
      · simp [optional]
      · cases seen.find? (·.isOptional) with
        | none => simp [optional]
        | some q => simp [optional]

/-- What the check of the names tells about a parameter. -/
def repeats? (decl : FunctionDecl) (before : List Parameter) (p : Parameter) : Option Fault :=
  (before.find? fun q => q.name.name = p.name.name).map fun q =>
    (Cause.duplicateParam p.name.name decl.name.name q.location).fault p.location

theorem repeats_iff (decl : FunctionDecl) (before : List Parameter) (p : Parameter) (fault : Fault) :
    decl.Repeats before p fault ↔ decl.repeats? before p = some fault := by
  rw [repeats?, Option.map_eq_some_iff]
  simp only [List.find?_eq_some_iff_append]
  constructor
  · rintro ⟨split, same, earlier⟩
    exact ⟨_, ⟨by simpa using same, _, _, split, by simpa using earlier⟩, rfl⟩
  · rintro ⟨q, ⟨same, earlier, between, split, none⟩, rfl⟩
    exact .mk split (by simpa using same) (by simpa using none)

theorem nameFaultsFrom_eq (decl : FunctionDecl) {seen : List (String × Location)}
    {earlier : List Parameter} (h : FirstSeen seen earlier) (params : List Parameter) :
    nameFaultsFrom decl.name.name seen params =
      Fault.along (fun before p => (decl.repeats? (earlier ++ before) p).toList) params := by
  induction params generalizing seen earlier with
  | nil => rfl
  | cons p rest ih =>
      obtain ⟨next, known, step⟩ := h.step decl.name.name p rest
      have later := ih known
      simp only [List.append_assoc, List.singleton_append] at later
      rw [step, Fault.along, ← later, List.append_nil, repeats?]

/-- What the check of the shape tells about a parameter. -/
def unsafeParam? (decl : FunctionDecl) (names : Names) (p : Parameter) : Option Fault :=
  match p.typeExpr.resolve names with
  | .error _ => none
  | .ok ty =>
      if decl.callback = true ∧ ¬ ty.isCallbackSafe = true then
        some ((Cause.unsafeParam p.name.name decl.name.name ty).fault p.location)
      else none

theorem unsafeParam_iff (p : Parameter) (fault : Fault) :
    decl.UnsafeParam names p fault ↔ decl.unsafeParam? names p = some fault := by
  unfold unsafeParam?
  cases known : p.typeExpr.resolve names with
  | error found =>
      refine iff_of_false ?_ nofun
      rintro ⟨-, resolved, -⟩
      rw [known] at resolved
      cases resolved
  | ok ty =>
      simp only [Option.ite_none_right_eq_some, Ty.isCallbackSafe_iff]
      constructor
      · rintro ⟨callback, resolved, outside⟩
        rw [known] at resolved
        cases resolved
        exact ⟨⟨callback, outside⟩, rfl⟩
      · rintro ⟨⟨callback, outside⟩, same⟩
        cases same
        exact .mk callback known outside

/-- A parameter whose type is not known is not looked at. -/
theorem unsafeParams_eq (callback : decl.callback = true) :
    ((decl.paramSymbols names).filter (!·.ty.isCallbackSafe)).map (fun p =>
        (Cause.unsafeParam p.name decl.name.name p.ty).fault p.location) =
      Fault.along (fun _ p => (decl.unsafeParam? names p).toList) decl.params := by
  rw [Fault.along_eq_flatMap, paramSymbols]
  generalize decl.params = params
  induction params with
  | nil => rfl
  | cons p rest ih =>
      rw [List.flatMap_cons, ← ih, List.filterMap_cons, Parameter.known?, unsafeParam?]
      cases p.typeExpr.resolve names with
      | error found => rfl
      | ok ty =>
          simp only [Outcome.value?, Option.map_some]
          by_cases fits : ty.isCallbackSafe = true
          · simp [fits]
          · simp [fits, callback]

theorem once_taken_iff (h : t.WellFormed) :
    Fault.Once (decl.Taken t) found ↔ t.site.duplicateFaults decl.name = found := by
  have own : ∀ x, t.Declares decl.name.name t.current x ↔ t.site.own decl.name.name = some x :=
    fun x => (SymbolTable.declares_iff h.scope?_current).trans
      (h.formed h.scope?_current).indexed.lookup_eq_some_iff.symm
  have each : ∀ fault, decl.Taken t fault ↔ ((t.site.own decl.name.name).map fun x =>
      (Cause.duplicateSymbol decl.name.name x.kind x.location).fault decl.name.location) =
        some fault := by
    intro fault
    rw [Option.map_eq_some_iff]
    constructor
    · rintro ⟨declared⟩
      exact ⟨_, (own _).mp declared, rfl⟩
    · rintro ⟨x, found, rfl⟩
      exact .mk ((own x).mpr found)
  rw [Fault.once_iff each, Site.duplicateFaults]
  cases t.site.own decl.name.name with
  | none => rfl
  | some x => rfl

/-- What the check of the shape tells about the number of parameters. -/
def crowded? (decl : FunctionDecl) (settings : AnalysisSettings) : Option Fault :=
  if decl.callback = true ∧ settings.maxCallbackParams < decl.params.length then
    some ((Cause.tooManyParams decl.name.name decl.params.length settings.maxCallbackParams).fault
      decl.location)
  else none

theorem crowded_iff (fault : Fault) :
    decl.Crowded settings fault ↔ decl.crowded? settings = some fault := by
  rw [crowded?, Option.ite_none_right_eq_some]
  constructor
  · rintro ⟨callback, crowded⟩
    exact ⟨⟨callback, crowded⟩, rfl⟩
  · rintro ⟨⟨callback, crowded⟩, same⟩
    cases same
    exact .mk callback crowded

theorem resultTy_of_known {a : TypeExpr} {ty : Ty} (written : decl.result = some a)
    (known : a.resolve names = .ok ty) : decl.resultTy names = ty := by
  rw [resultTy, written, TypeExpr.resolveResult, known, Outcome.value?, Option.getD_some]

/-- What the check of the shape tells about the result. -/
def unsafeResult? (decl : FunctionDecl) (names : Names) : Option Fault :=
  if decl.callback = true ∧ ¬ (decl.resultTy names).isCallbackSafe = true then
    some ((Cause.unsafeResult decl.name.name (decl.resultTy names)).fault
      (decl.result.elim decl.location TypeExpr.location))
  else none

/-- A result that is not written, or not known, counts as void. -/
theorem unsafeResult_iff (fault : Fault) :
    decl.UnsafeResult names fault ↔ decl.unsafeResult? names = some fault := by
  rw [unsafeResult?, Option.ite_none_right_eq_some]
  constructor
  · rintro ⟨callback, written, known, outside⟩
    rw [resultTy_of_known written known, written]
    exact ⟨⟨callback, fun fits => outside (Ty.isCallbackSafe_iff.mp fits)⟩, rfl⟩
  · rintro ⟨⟨callback, outside⟩, same⟩
    cases same
    cases written : decl.result with
    | none =>
        simp [resultTy, written, TypeExpr.resolveResult, Outcome.value?, Ty.void,
          Ty.isCallbackSafe] at outside
    | some a =>
        cases known : a.resolve names with
        | error found =>
            simp [resultTy, written, TypeExpr.resolveResult, known, Outcome.value?, Ty.void,
              Ty.isCallbackSafe] at outside
        | ok ty =>
            rw [resultTy_of_known written known] at outside ⊢
            exact .mk callback written known fun fits => outside (Ty.isCallbackSafe_iff.mpr fits)

theorem once_unexportable_iff (h : t.WellFormed) :
    Fault.Once (decl.Unexportable t) found ↔ decl.exportFaults t.top.kind = found := by
  apply Fault.once_ite_iff
  intro fault
  rw [Bool.and_eq_true, Bool.not_eq_true', Bool.eq_false_iff, Ne, ScopeKind.allowsExports_iff, not_or]
  constructor
  · rintro ⟨exported, here, notGlobal, notModule⟩
    cases h.scope?_current.symm.trans here
    exact ⟨⟨exported, notGlobal, notModule⟩, rfl⟩
  · rintro ⟨⟨exported, notGlobal, notModule⟩, rfl⟩
    exact .mk exported h.scope?_current notGlobal notModule

theorem once_nameless_iff : Fault.Once decl.Nameless found ↔ decl.namelessFaults = found := by
  apply Fault.once_ite_iff
  intro fault
  constructor
  · rintro ⟨empty⟩
    exact ⟨empty, rfl⟩
  · rintro ⟨empty, rfl⟩
    exact .mk empty

/-- The shape of a callback is checked in three steps, and not at all for other functions. -/
theorem callbackFaults_eq :
    decl.callbackFaults settings names =
      (decl.crowded? settings).toList ++
      Fault.along (fun _ p => (decl.unsafeParam? names p).toList) decl.params ++
      (decl.unsafeResult? names).toList := by
  unfold callbackFaults crowded? unsafeResult?
  by_cases callback : decl.callback = true
  · rw [if_pos callback, shapeFaults, unsafeParams_eq callback]
    by_cases crowded : settings.maxCallbackParams < decl.params.length
    · by_cases fits : (decl.resultTy names).isCallbackSafe = true
      · simp [callback, crowded, fits]
      · simp [callback, crowded, fits]
    · by_cases fits : (decl.resultTy names).isCallbackSafe = true
      · simp [callback, crowded, fits]
      · simp [callback, crowded, fits]
  · have none : ∀ p, decl.unsafeParam? names p = none := by
      intro p
      unfold unsafeParam?
      split
      · rfl
      · rw [if_neg fun both => callback both.1]
    simp [callback, none, Fault.along_eq_flatMap]

theorem inOrder_objects_iff :
    Fault.InOrder (fun _ p => p.Objects settings names) decl.params found ↔
      decl.paramFaults settings names = found := by
  have each : ∀ (before : List Parameter) (p : Parameter) block,
      p.Objects settings names block ↔ p.faults settings names = block :=
    fun _ _ _ => Parameter.objects_iff
  rw [Fault.inOrder_iff each, Fault.along_eq_flatMap]
  rfl

theorem inOrder_unsafeParam_iff :
    Fault.InOrder (fun _ p => Fault.Once (decl.UnsafeParam names p)) decl.params found ↔
      Fault.along (fun _ p => (decl.unsafeParam? names p).toList) decl.params = found := by
  have each : ∀ (before : List Parameter) (p : Parameter) fault,
      decl.UnsafeParam names p fault ↔ decl.unsafeParam? names p = some fault :=
    fun _ => unsafeParam_iff
  exact Fault.inOrder_once_iff each

theorem inOrder_repeats_iff :
    Fault.InOrder (fun before p => Fault.Once (decl.Repeats before p)) decl.params found ↔
      decl.nameFaults = found := by
  have walk := decl.nameFaultsFrom_eq .nil decl.params
  simp only [List.nil_append] at walk
  rw [Fault.inOrder_once_iff decl.repeats_iff, nameFaults, walk]

theorem inOrder_misplaced_iff :
    Fault.InOrder (fun before p => Fault.Once (p.Misplaced before)) decl.params found ↔
      decl.orderFaults = found := by
  have walk := orderFaultsFrom_eq decl.params []
  simp only [List.nil_append, List.find?_nil] at walk
  rw [Fault.inOrder_once_iff Parameter.misplaced_iff, orderFaults, walk]

theorem resultFaults_eq :
    decl.resultFaults names = decl.result.elim [] fun a => Outcome.faults (a.resolve names) := by
  unfold resultFaults
  cases decl.result with
  | none => rfl
  | some a => rfl

/-- The rules object to what the checks find, in the same order. -/
theorem reports_iff (h : t.WellFormed) :
    decl.Reports settings t found ↔ decl.faults settings t.site = found := by
  unfold faults
  rw [callbackFaults_eq, resultFaults_eq]
  constructor
  · rintro ⟨params, taken, crowded, unsafeParams, unsafeResult, repeated, misplaced, unexportable,
      nameless⟩
    rw [← inOrder_objects_iff.mp params, ← (once_taken_iff h).mp taken,
      ← (Fault.once_iff crowded_iff).mp crowded, ← inOrder_unsafeParam_iff.mp unsafeParams,
      ← (Fault.once_iff unsafeResult_iff).mp unsafeResult, ← inOrder_repeats_iff.mp repeated,
      ← inOrder_misplaced_iff.mp misplaced, ← (once_unexportable_iff h).mp unexportable,
      ← once_nameless_iff.mp nameless]
    rfl
  · rintro rfl
    exact .mk (inOrder_objects_iff.mpr rfl) ((once_taken_iff h).mpr rfl)
      ((Fault.once_iff crowded_iff).mpr rfl) (inOrder_unsafeParam_iff.mpr rfl)
      ((Fault.once_iff unsafeResult_iff).mpr rfl) (inOrder_repeats_iff.mpr rfl)
      (inOrder_misplaced_iff.mpr rfl) ((once_unexportable_iff h).mpr rfl) (once_nameless_iff.mpr rfl)

end FunctionDecl

end Checks

/-- On every table that a history built, a declaration is faulted for exactly what the rules object to,
in their order, and it succeeds exactly when they object to nothing. -/
theorem FunctionDecl.faults_reported (earlier : List Action) (settings : AnalysisSettings)
    (decl : FunctionDecl) :
    let t := Action.runAll earlier .empty
    (∀ found, Outcome.faults (SymbolTable.answerOf (t.declareFunction settings decl)) = found ↔
      decl.Reports settings t found) ∧
    ((∃ f after, t.declareFunction settings decl = .ok f after) ↔ decl.Reports settings t []) := by
  intro t
  have h : t.WellFormed := (Action.runAll_later earlier .empty).wellFormed
  simp only [reports_iff h, SymbolTable.declareFunction_eq_ok_iff, FunctionDecl.symbol_eq_ok_iff]
  constructor
  · intro found
    rw [SymbolTable.declareFunction_eq, SymbolTable.answerOf_receive, FunctionDecl.symbol_eq]
    cases decl.faults settings t.site with
    | nil => exact Iff.rfl
    | cons fault rest => exact Iff.rfl
  · constructor
    · rintro ⟨f, after, ⟨clean, -⟩, -⟩
      exact clean
    · intro clean
      exact ⟨_, _, ⟨clean, rfl⟩, rfl⟩

end SemanticCheck
