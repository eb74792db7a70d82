import SemanticCheck.Proofs.Lockstep
import SemanticCheck.Proofs.Unplaced
import SemanticCheck.Tree.Shorthand

/-!
Programs in other places. Declarations put the places of their nodes into symbols, and the table keeps
them; but tables that differ in places only have the same scopes, find the same symbols and take the
same declarations. So two programs that differ in the places of their nodes are told the same.
-/
namespace SemanticCheck

def Scope.unplaced (s : Scope) : Scope := { s with symbols := s.symbols.map Symbol.unplaced }

def SymbolTable.unplaced (t : SymbolTable) : SymbolTable :=
  { t with scopes := t.scopes.map Scope.unplaced }

def Site.unplaced (site : Site) : Site := ⟨site.names.unplaced, site.own.unplaced, site.scope, site.kind⟩

namespace SymbolTable

theorem lookup_unplaced (s : Scope) (name : String) :
    s.unplaced.lookup name = (s.lookup name).map Symbol.unplaced := by
  refine Scope.lookup_of_map (s := s) ?_ ?_ name <;> rfl

theorem scope?_unplaced (t : SymbolTable) (i : ScopeId) :
    t.unplaced.scope? i = (t.scope? i).map Scope.unplaced :=
  List.getElem?_map

theorem top_unplaced (t : SymbolTable) : t.unplaced.top = t.top.unplaced := by
  have found := t.scope?_unplaced t.current
  change (t.unplaced.scope? t.current).getD .root = ((t.scope? t.current).getD .root).unplaced
  rw [found]
  cases t.scope? t.current <;> rfl

theorem lookupFrom_unplaced (t : SymbolTable) (name : String) (i : ScopeId) :
    t.unplaced.lookupFrom name i = (t.lookupFrom name i).map Symbol.unplaced := by
  apply lookupFrom_of_alike
  intro j
  rw [t.scope?_unplaced, Option.map_map]
  congr 1
  funext s
  exact Prod.ext (lookup_unplaced s name) rfl

theorem names_unplaced (t : SymbolTable) : t.unplaced.names = t.names.unplaced := by
  funext name
  exact t.lookupFrom_unplaced name t.current

theorem site_unplaced (t : SymbolTable) : t.unplaced.site = t.site.unplaced := by
  have own : t.unplaced.top.lookup = Names.unplaced t.top.lookup := by
    funext name
    rw [t.top_unplaced]
    exact lookup_unplaced t.top name
  rw [site, t.names_unplaced, own, t.top_unplaced]
  rfl

theorem add_unplaced (t : SymbolTable) (x : Symbol) : (t.add x).unplaced = t.unplaced.add x.unplaced := by
  have inserted : (t.scopes.modify t.current (·.insert x)).map Scope.unplaced =
      (t.scopes.map Scope.unplaced).modify t.current (·.insert x.unplaced) := by
    apply map_modify
    intro s
    simp [Scope.unplaced, Scope.insert]
  simp only [unplaced, add, inserted]

theorem push_unplaced (t : SymbolTable) (kind : ScopeKind) :
    (t.push kind).unplaced = t.unplaced.push kind := by
  have opened : (t.scopes.modify t.current (·.addChild t.scopes.length)).map Scope.unplaced =
      (t.scopes.map Scope.unplaced).modify t.current (·.addChild t.scopes.length) := by
    apply map_modify
    intro s
    rfl
  simp only [unplaced, push, List.map_append, opened, List.length_map]
  rfl

theorem close_unplaced {t after : SymbolTable} {id : ScopeId} (closed : t.close id = .ok () after) :
    t.unplaced.close id = .ok () after.unplaced := by
  obtain ⟨current, p, parent, rfl⟩ := close_eq_ok_iff.mp closed
  refine close_eq_ok_iff.mpr ⟨current, p, ?_, rfl⟩
  rw [t.top_unplaced]
  exact parent

end SymbolTable

theorem Site.duplicateFaults_sameWording (site : Site) {i i' : Ident} (name : i'.name = i.name) :
    SameWording (site.duplicateFaults i) (site.unplaced.duplicateFaults i') := by
  have lookup : site.unplaced.own i.name = (site.own i.name).map Symbol.unplaced := rfl
  simp only [Site.duplicateFaults, name, lookup]
  cases site.own i.name with
  | none => exact .nil
  | some x =>
      simp only [Option.map_some, Symbol.kind_unplaced]
      rfl

namespace VariableDecl

variable (decl : VariableDecl) (settings : AnalysisSettings) (names : Names)

theorem typeExprFaults_sameWording :
    SameWording (decl.typeExprFaults names) (decl.unplaced.typeExprFaults names.unplaced) := by
  unfold typeExprFaults written unplaced
  cases decl.typeExpr with
  | none => exact .nil
  | some a => exact (a.resolve_echoes names).faults

/-- The faults say the same, and the types are the same. -/
theorem typed_alike :
    SameWording (decl.typed settings (Expr.infer settings) names).1
        (decl.unplaced.typed settings (Expr.infer settings) names.unplaced).1 ∧
      (decl.typed settings (Expr.infer settings) names).2 =
        (decl.unplaced.typed settings (Expr.infer settings) names.unplaced).2 := by
  unfold typed written unplaced
  cases decl.typeExpr with
  | none =>
      cases decl.initializer with
      | none => exact ⟨rfl, rfl⟩
      | some value =>
          have inferred := value.infer_echoes settings names
          simp only [Option.map_none, Option.map_some]
          generalize value.infer settings names = o, value.unplaced.infer settings names.unplaced = o'
            at inferred ⊢
          cases inferred with
          | error same => exact ⟨same, rfl⟩
          | ok same =>
              subst same
              refine ⟨?_, rfl⟩
              simp only
              split
              · exact (Inference.store_echoes settings names _ value _ _).faults
              · exact .nil
  | some a =>
      have resolved := a.resolve_echoes names
      simp only [Option.map_some]
      generalize a.resolve names = o, a.unplaced.resolve names.unplaced = o' at resolved ⊢
      cases decl.initializer with
      | none => exact ⟨.nil, resolved.value?_eq⟩
      | some value =>
          cases resolved with
          | error _ => exact ⟨.nil, rfl⟩
          | ok same =>
              subst same
              exact ⟨(Inference.store_echoes settings names _ value _ _).faults, rfl⟩

theorem foldedValue_unplaced (ty : Ty) :
    decl.unplaced.foldedValue names.unplaced ty = decl.foldedValue names ty := by
  unfold foldedValue unplaced
  cases decl.initializer with
  | none => rfl
  | some value =>
      have folds := value.fold_alike names
      simp only [Option.map_some, Option.bind_some]
      generalize value.fold names = o, value.unplaced.fold names.unplaced = o' at folds ⊢
      cases folds with
      | ok same => rw [same]
      | error _ => rfl

theorem faults_sameWording (site : Site) :
    SameWording (decl.faults settings (Expr.infer settings) site)
      (decl.unplaced.faults settings (Expr.infer settings) site.unplaced) := by
  obtain ⟨typed, types⟩ := decl.typed_alike settings site.names
  have free : SameWording (site.duplicateFaults decl.name)
    (site.unplaced.duplicateFaults decl.unplaced.name) := site.duplicateFaults_sameWording rfl
  have constant : SameWording decl.constantFaults decl.unplaced.constantFaults := by
    simp only [constantFaults, unplaced, Option.isNone_map]
    exact .ite rfl .nil
  have void (ty? : Option Ty) : SameWording (decl.voidFaults ty?) (decl.unplaced.voidFaults ty?) :=
    .ite rfl .nil
  unfold faults
  rw [types]
  exact ((((decl.typeExprFaults_sameWording site.names).append free).append typed).append
    constant).append (void _)

theorem symbol_echoes (site : Site) :
    Outcome.Echoes (fun v v' => v' = v.unplaced) (decl.symbol settings (Expr.infer settings) site)
      (decl.unplaced.symbol settings (Expr.infer settings) site.unplaced) := by
  have finished : Outcome.Echoes Eq
      (Outcome.finish (decl.faults settings (Expr.infer settings) site)
        (decl.typed settings (Expr.infer settings) site.names).2)
      (Outcome.finish (decl.unplaced.faults settings (Expr.infer settings) site.unplaced)
        (decl.unplaced.typed settings (Expr.infer settings) site.unplaced.names).2) :=
    .finish (decl.faults_sameWording settings site) (decl.typed_alike settings site.names).2
  rw [symbol_eq, symbol_eq]
  generalize Outcome.finish (decl.faults settings (Expr.infer settings) site) _ = o,
    Outcome.finish (decl.unplaced.faults settings (Expr.infer settings) site.unplaced) _ = o'
    at finished ⊢
  cases finished with
  | error same => exact .error same
  | @ok ty? _ same =>
      subst same
      cases ty? with
      | none => exact .error rfl
      | some ty =>
          refine .ok ?_
          have value : decl.unplaced.foldedValue site.unplaced.names ty = decl.foldedValue site.names ty :=
            decl.foldedValue_unplaced site.names ty
          rw [value]
          rfl

end VariableDecl

theorem Parameter.isOptional_unplaced (p : Parameter) : p.unplaced.isOptional = p.isOptional := by
  simp only [Parameter.isOptional, Parameter.unplaced, Option.isSome_map]

theorem Parameter.resolve_echoes (names : Names) (p : Parameter) :
    Outcome.Echoes Eq (p.typeExpr.resolve names) (p.unplaced.typeExpr.resolve names.unplaced) :=
  p.typeExpr.resolve_echoes names

theorem Parameter.faults_sameWording (settings : AnalysisSettings) (names : Names) (p : Parameter) :
    SameWording (p.faults settings names) (p.unplaced.faults settings names.unplaced) := by
  have resolved := p.resolve_echoes names
  unfold Parameter.faults
  generalize p.typeExpr.resolve names = o, p.unplaced.typeExpr.resolve names.unplaced = o' at resolved ⊢
  cases resolved with
  | error same => exact same
  | ok same =>
      subst same
      have default : p.unplaced.default? = p.default?.map Expr.unplaced := rfl
      rw [default]
      cases p.default? with
      | none => exact .nil
      | some value => exact (Inference.store_echoes settings names _ value _ _).faults

theorem Parameter.known?_unplaced (names : Names) (p : Parameter) :
    p.unplaced.known? names.unplaced = (p.known? names).map ParameterSymbol.unplaced := by
  rw [Parameter.known?, Parameter.known?, ← (p.resolve_echoes names).value?_eq, Option.map_map,
    p.isOptional_unplaced]
  rfl

namespace FunctionDecl

variable (decl : FunctionDecl) (settings : AnalysisSettings) (names : Names)

theorem paramFaults_sameWording :
    SameWording (decl.paramFaults settings names) (decl.unplaced.paramFaults settings names.unplaced) := by
  unfold paramFaults unplaced
  induction decl.params with
  | nil => exact .nil
  | cons p rest ih => exact (p.faults_sameWording settings names).append ih

theorem paramSymbols_unplaced :
    decl.unplaced.paramSymbols names.unplaced =
      (decl.paramSymbols names).map ParameterSymbol.unplaced := by
  unfold paramSymbols unplaced
  rw [List.filterMap_map, List.map_filterMap]
  apply List.filterMap_congr
  intro p _
  exact p.known?_unplaced names

theorem resultFaults_sameWording :
    SameWording (decl.resultFaults names) (decl.unplaced.resultFaults names.unplaced) :=
  (TypeExpr.resolveResult_echoes names decl.result).faults

theorem resultTy_unplaced : decl.unplaced.resultTy names.unplaced = decl.resultTy names :=
  congrArg (·.getD .void) (TypeExpr.resolveResult_echoes names decl.result).value?_eq.symm

theorem shapeFaults_sameWording (params : List ParameterSymbol) (result : Ty) :
    SameWording (decl.shapeFaults settings params result)
      (decl.unplaced.shapeFaults settings (params.map ParameterSymbol.unplaced) result) := by
  have count : decl.unplaced.params.length = decl.params.length := List.length_map _
  unfold shapeFaults
  rw [count]
  refine SameWording.append (.append (.ite rfl .nil) ?_) (.ite .nil rfl)
  unfold SameWording
  rw [List.filter_map, List.map_map, List.map_map, List.map_map]
  rfl

theorem callbackFaults_sameWording :
    SameWording (decl.callbackFaults settings names)
      (decl.unplaced.callbackFaults settings names.unplaced) := by
  have callback : decl.unplaced.callback = decl.callback := rfl
  unfold callbackFaults
  rw [callback, decl.paramSymbols_unplaced, decl.resultTy_unplaced]
  exact .ite (decl.shapeFaults_sameWording settings _ _) .nil

/-- It matters only which names were seen, not where. -/
theorem nameFaultsFrom_sameWording (function : String) {seen seen' : List (String × Location)}
    (same : ∀ name, (seen'.lookup name).isSome = (seen.lookup name).isSome) (params : List Parameter) :
    SameWording (nameFaultsFrom function seen params)
      (nameFaultsFrom function seen' (params.map Parameter.unplaced)) := by
  induction params generalizing seen seen' with
  | nil => exact .nil
  | cons p rest ih =>
      have name : p.unplaced.name.name = p.name.name := rfl
      have here := same p.name.name
      simp only [List.map_cons, nameFaultsFrom, name]
      cases first : seen.lookup p.name.name with
      | none =>
          rw [first, Option.isSome_none, Option.isSome_eq_false_iff, Option.isNone_iff_eq_none] at here
          rw [here]
          apply ih
          intro other
          simp only [List.lookup_cons]
          split
          · rfl
          · exact same other
      | some l =>
          rw [first, Option.isSome_some, Option.isSome_iff_exists] at here
          obtain ⟨l', here⟩ := here
          rw [here]
          exact congrArg (List.cons _) (ih same)

theorem orderFaultsFrom_sameWording (first : Option Parameter) (params : List Parameter) :
    SameWording (orderFaultsFrom first params)
      (orderFaultsFrom (first.map Parameter.unplaced) (params.map Parameter.unplaced)) := by
  induction params generalizing first with
  | nil => exact .nil
  | cons p rest ih =>
      rw [List.map_cons]
      unfold orderFaultsFrom
      rw [p.isOptional_unplaced]
      cases first with
      | none =>
          split
          · exact ih (some p)
          · exact ih none
      | some q =>
          split
          · exact ih (some q)
          · exact SameWording.append rfl (ih (some q))

theorem exportFaults_sameWording (kind : ScopeKind) :
    SameWording (decl.exportFaults kind) (decl.unplaced.exportFaults kind) :=
  .ite rfl .nil

theorem namelessFaults_sameWording : SameWording decl.namelessFaults decl.unplaced.namelessFaults :=
  .ite rfl .nil

theorem faults_sameWording (site : Site) :
    SameWording (decl.faults settings site) (decl.unplaced.faults settings site.unplaced) := by
  have types := (decl.paramFaults_sameWording settings site.names).append
    (decl.resultFaults_sameWording site.names)
  have free : SameWording (site.duplicateFaults decl.name)
      (site.unplaced.duplicateFaults decl.unplaced.name) := site.duplicateFaults_sameWording rfl
  have shape := (types.append free).append (decl.callbackFaults_sameWording settings site.names)
  have named : SameWording decl.nameFaults decl.unplaced.nameFaults :=
    nameFaultsFrom_sameWording decl.name.name (fun _ => rfl) decl.params
  have params := (shape.append named).append (orderFaultsFrom_sameWording none decl.params)
  exact (params.append (decl.exportFaults_sameWording site.kind)).append decl.namelessFaults_sameWording

theorem symbol_echoes (site : Site) :
    Outcome.Echoes (fun f f' => f' = f.unplaced) (decl.symbol settings site)
      (decl.unplaced.symbol settings site.unplaced) := by
  rw [symbol_eq, symbol_eq]
  refine .finish (decl.faults_sameWording settings site) ?_
  have params : decl.unplaced.paramSymbols site.unplaced.names =
      (decl.paramSymbols site.names).map ParameterSymbol.unplaced :=
    decl.paramSymbols_unplaced site.names
  have result : decl.unplaced.resultTy site.unplaced.names = decl.resultTy site.names :=
    decl.resultTy_unplaced site.names
  rw [params, result]
  rfl

end FunctionDecl

/-- A program without its places, told the same. -/
def placement (settings : AnalysisSettings) : Variation where
  settings := settings
  other := settings
  nodes :=
    { place := fun _ => .unknown
      expr := Expr.unplaced
      assignment := Assignment.unplaced
      var := VariableDecl.unplaced
      stmt := Stmt.unplaced
      block := Block.unplaced
      function := FunctionDecl.unplaced
      stmt_declare := fun _ => rfl
      stmt_assign := fun _ => rfl
      stmt_expr := fun _ => rfl
      stmt_ret := fun _ _ => rfl
      stmt_branch := by
        intro condition yes no l
        cases no <;> rfl
      stmt_loop := fun _ _ _ => rfl
      stmt_block := fun _ => rfl
      block_mk := by
        intro statements l
        rw [Block.unplaced, Stmt.allUnplaced_eq_map]
      body_function := fun _ => rfl }
  param := ParameterSymbol.unplaced
  function := FunctionSymbol.unplaced
  Tables t t' := t' = t.unplaced
  Followed _ := True
  Alike := SameWording

theorem placement_outcomes {settings : AnalysisSettings} {α : Type} {Values : α → α → Prop}
    {o o' : Outcome α} (h : Outcome.Echoes Values o o') : (placement settings).Outcomes Values o o' := by
  cases h with
  | ok values =>
      refine ⟨?_, nofun⟩
      rintro _ ⟨⟩
      exact ⟨_, rfl, values⟩
  | error same =>
      refine ⟨nofun, ?_⟩
      rintro _ ⟨⟩ -
      exact ⟨_, rfl, same⟩

theorem placement_lockstep (settings : AnalysisSettings) : (placement settings).Lockstep where
  followed_append _ := ⟨trivial, trivial⟩
  alike_nil := .nil
  alike_append h k := h.append k
  result_eq _ := rfl
  params_eq _ := rfl
  push := by
    rintro t _ kind rfl
    exact (t.push_unplaced kind).symm
  close := by
    rintro t _ after _ outer kind rfl rfl closed
    refine ⟨outer.unplaced, ?_, rfl⟩
    rw [← t.push_unplaced]
    exact SymbolTable.close_unplaced closed
  assign := by
    rintro t _ a rfl -
    rw [t.names_unplaced]
    exact (Inference.assign_echoes settings t.names a).faults
  infer := by
    rintro t _ e rfl -
    rw [t.names_unplaced]
    exact (e.infer_echoes settings t.names).faults
  condition := by
    rintro t _ e rfl -
    rw [t.names_unplaced]
    exact e.conditionFaults_sameWording settings t.names
  result := by
    rintro t _ ty value l rfl -
    rw [t.names_unplaced]
    exact returnFaults_sameWording settings t.names ty value l .unknown
  var := by
    rintro t _ decl rfl
    rw [t.site_unplaced]
    refine placement_outcomes ((decl.symbol_echoes settings t.site).mono ?_)
    rintro x _ rfl
    exact (t.add_unplaced (.var x)).symm
  isFolded_eq := by
    rintro t _ decl rfl
    rw [t.names_unplaced]
    exact decl.isFolded_unplaced t.names
  signature := by
    rintro t _ decl rfl
    rw [t.site_unplaced]
    refine placement_outcomes ((decl.symbol_echoes settings t.site).mono ?_)
    rintro f _ rfl
    exact ⟨rfl, (t.add_unplaced (.function f)).symm⟩
  duplicate := by
    rintro t _ p rfl
    rw [t.site_unplaced]
    exact placement_outcomes (.finish (t.site.duplicateFaults_sameWording rfl)
      (t.add_unplaced (.var (p.variableIn t.current))).symm)

namespace Program

/-- Without its places a program has the same faults, worded the same, and the same table without
places. -/
theorem analyze_unplaced (settings : AnalysisSettings) (program : Program) :
    ∃ a b, program.analyze settings = .ok a ∧ program.unplaced.analyze settings = .ok b ∧
      SameWording a.faults b.faults ∧ b.table = a.table.unplaced ∧ b.moduleScope = a.moduleScope := by
  obtain ⟨a, ran, -⟩ := program.analyze_eq_ok settings
  have named : program.unplaced.module?.isSome = program.module?.isSome := Option.isSome_map
  have each : Item.unplaced = (placement settings).nodes.item := by
    funext item
    cases item <;> rfl
  have items : program.unplaced.items = program.items.map (placement settings).nodes.item := by
    rw [← each]
    rfl
  obtain ⟨b, ran', tables, same, scope⟩ :=
    Program.analyze_lockstep (placement_lockstep settings) rfl named items ran (fun _ _ => trivial)
  exact ⟨a, b, ran, ran', same, tables, scope⟩

/-- Programs that differ only in the places of their nodes have the same faults, but for places and the
texts of suggestions, and the same tables, but for places, also those inside default values. -/
theorem analyze_agree_of_unplaced_eq (settings : AnalysisSettings) (p q : Program)
    (same : p.unplaced = q.unplaced) :
    ∃ a b, p.analyze settings = .ok a ∧ q.analyze settings = .ok b ∧
      a.faults.map Fault.wording = b.faults.map Fault.wording ∧
      a.table.unplaced = b.table.unplaced ∧ a.moduleScope = b.moduleScope := by
  -- both runs answer to that of the one program that the two have in common
  obtain ⟨a, c, ran, erased, wording, table, scope⟩ := p.analyze_unplaced settings
  obtain ⟨b, d, ran', erased', wording', table', scope'⟩ := q.analyze_unplaced settings
  rw [same, erased'] at erased
  cases erased
  refine ⟨a, b, ran, ran', wording.trans wording'.symm, ?_, ?_⟩
  · rw [← table, table']
  · rw [← scope, scope']

/-- A function whose default value stands at a place. -/
def plotAt (l : Location) : FunctionDecl :=
  ((FunctionDecl.ofName "plot").withParam
    ((Parameter.ofName "color" (.ofName "byte")).withDefault (.number 7 l))).placed l

/-- A variable of its name. -/
def plotVarAt (l : Location) : VariableDecl :=
  (VariableDecl.ofName "plot" (some (.ofName "byte"))).placed l

def redeclaring (l : Location) : Program := { items := [.function (plotAt l), .var (plotVarAt l)] }

theorem redeclaring_places (l : Location) :
    ∃ a, (redeclaring l).analyze {} = .ok a ∧ a.faults.map Fault.location = [l] ∧
      a.table.top.symbols.map Symbol.location = [l] := by
  obtain ⟨f, accepted, place⟩ : ∃ f, (plotAt l).symbol {} SymbolTable.empty.site = .ok f ∧
      f.location = l := ⟨_, rfl, rfl⟩
  have first : (Item.function (plotAt l)).declare {} .empty =
      (SymbolTable.empty.add (.function f), .registered f, []) := by
    rw [Item.declare, SymbolTable.declareFunction_eq, accepted]
    rfl
  obtain ⟨fault, refused, reported⟩ : ∃ fault, (plotVarAt l).symbol {} (Expr.infer {})
      (SymbolTable.empty.add (.function f)).site = .error [fault] ∧ fault.location = l := by
    cases accepted
    exact ⟨_, rfl, rfl⟩
  have second : (SymbolTable.empty.add (.function f)).checkVariable {} (plotVarAt l) =
      (SymbolTable.empty.add (.function f), [fault]) := by
    rw [SymbolTable.checkVariable_eq, refused]
  have declared : declareItems {} (redeclaring l).items .empty =
      (SymbolTable.empty.add (.function f),
        [(.function (plotAt l), .registered f, []), (.var (plotVarAt l), .pending, [])]) := by
    simp only [redeclaring, declareItems_cons, first]
    rfl
  have passes : analyzeItems {} (redeclaring l).items .empty =
      .ok [[], [fault]] (SymbolTable.empty.add (.function f)) := by
    rw [analyzeItems_eq, declared]
    refine completeItems_cons_eq_ok_iff.mpr ⟨[], [[fault]], _, rfl, ?_, rfl⟩
    refine completeItems_cons_eq_ok_iff.mpr ⟨[fault], [], _, ?_, rfl, rfl⟩
    exact congrArg (fun p => EStateM.Result.ok p.2 p.1) second
  refine ⟨⟨_, _, none⟩, analyze_eq_ok_iff.mpr ⟨_, passes, rfl, rfl⟩, ?_, ?_⟩
  · exact congrArg (fun l => [l]) reported
  · exact congrArg (fun l => [l]) place

theorem redeclaring_agree :
    ∃ a b, (redeclaring (.point 2 1 9)).unplaced = (redeclaring (.point 7 5 80)).unplaced ∧
      (redeclaring (.point 2 1 9)).analyze {} = .ok a ∧
      (redeclaring (.point 7 5 80)).analyze {} = .ok b ∧
      a.faults.map Fault.location = [.point 2 1 9] ∧ b.faults.map Fault.location = [.point 7 5 80] ∧
      a.faults.map Fault.wording = b.faults.map Fault.wording ∧
      a.table.top.symbols.map Symbol.location = [.point 2 1 9] ∧
      b.table.top.symbols.map Symbol.location = [.point 7 5 80] ∧
      a.table.unplaced = b.table.unplaced := by
  have same : (redeclaring (.point 2 1 9)).unplaced = (redeclaring (.point 7 5 80)).unplaced := rfl
  obtain ⟨a, b, ran, ran', wording, table, -⟩ := analyze_agree_of_unplaced_eq {} _ _ same
  obtain ⟨_, known, faults, symbols⟩ := redeclaring_places (.point 2 1 9)
  obtain ⟨_, known', faults', symbols'⟩ := redeclaring_places (.point 7 5 80)
  cases known.symm.trans ran
  cases known'.symm.trans ran'
  exact ⟨a, b, same, ran, ran', faults, faults', wording, symbols, symbols', table⟩

end Program

end SemanticCheck
