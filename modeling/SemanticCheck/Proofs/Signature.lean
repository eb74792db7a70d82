import Mathlib.Data.List.Basic
import SemanticCheck.Proofs.Declaration
import SemanticCheck.Proofs.Failure
import SemanticCheck.Tree.Visit

/-!
Signatures. Without default values a signature depends on few names: those that its array sizes
mention, and its own in the scope that declares it. An accepted signature has one symbol for each
parameter, in order, and no two of them share a name.
-/
namespace SemanticCheck

variable {settings : AnalysisSettings} {names other : Names}

/-- Names stand for the same wherever one of the nodes is an identifier. -/
def Names.AgreeOn (names other : Names) (nodes : List Node) : Prop :=
  ∀ i, Node.ident i ∈ nodes → names i.name = other i.name

theorem Names.AgreeOn.mono {nodes part : List Node} (h : names.AgreeOn other nodes)
    (sub : ∀ n ∈ part, n ∈ nodes) : names.AgreeOn other part := by
  intro i member
  exact h i (sub _ member)

theorem Expr.fold_congr : (e : Expr) → names.AgreeOn other e.nodes → e.fold names = e.fold other
  | .number _ _, _ | .boolean _ _, _ | .text _ _, _ | .call _ _ _, _ | .index _ _ _, _ => rfl
  | .ident i, h => by
      have same : names i.name = other i.name := h i (by simp [Expr.nodes])
      simp only [Expr.fold, Names.constant, same]
  | .unary op operand l, h => by
      have inner := operand.fold_congr (h.mono (by simp +contextual [Expr.nodes]))
      simp only [Expr.fold, inner]
  | .binary op lhs rhs l, h => by
      have left := lhs.fold_congr (h.mono (by simp +contextual [Expr.nodes]))
      have right := rhs.fold_congr (h.mono (by simp +contextual [Expr.nodes]))
      simp only [Expr.fold, left, right]

mutual

theorem TypeExpr.resolve_congr :
    (a : TypeExpr) → names.AgreeOn other a.nodes → a.resolve names = a.resolve other
  | .named _, _ => rfl
  | .array element size l, h => by
      have inner := element.resolve_congr (h.mono (by simp +contextual [TypeExpr.nodes]))
      have count := size.fold_congr (h.mono (by simp +contextual [TypeExpr.nodes]))
      simp only [TypeExpr.resolve, inner, Ty.ofArray, count]
  | .callback params (some result) l, h => by
      have first := TypeExpr.resolveAll_congr params (h.mono (by simp +contextual [TypeExpr.nodes]))
      have last := result.resolve_congr (h.mono (by simp +contextual [TypeExpr.nodes]))
      simp only [TypeExpr.resolve, first, last]
  | .callback params none l, h => by
      have first := TypeExpr.resolveAll_congr params (h.mono (by simp +contextual [TypeExpr.nodes]))
      simp only [TypeExpr.resolve, first]

theorem TypeExpr.resolveAll_congr :
    (params : List TypeExpr) → names.AgreeOn other (TypeExpr.allNodes params) →
      TypeExpr.resolveAll names params = TypeExpr.resolveAll other params
  | [], _ => rfl
  | a :: rest, h => by
      have first := a.resolve_congr (h.mono (by simp +contextual [TypeExpr.allNodes]))
      have others := TypeExpr.resolveAll_congr rest (h.mono (by simp +contextual [TypeExpr.allNodes]))
      simp only [TypeExpr.resolveAll, first, others]

end

theorem TypeExpr.resolveResult_congr {result : Option TypeExpr}
    (h : names.AgreeOn other (nodesOf TypeExpr.nodes result)) :
    TypeExpr.resolveResult names result = TypeExpr.resolveResult other result := by
  cases result with
  | none => rfl
  | some a => exact a.resolve_congr h

theorem Parameter.faults_congr {p : Parameter} (plain : p.default? = none)
    (h : names.AgreeOn other p.typeExpr.nodes) : p.faults settings names = p.faults settings other := by
  simp only [Parameter.faults, plain, p.typeExpr.resolve_congr h]

theorem Parameter.known?_congr {p : Parameter} (h : names.AgreeOn other p.typeExpr.nodes) :
    p.known? names = p.known? other := by
  rw [Parameter.known?, Parameter.known?, p.typeExpr.resolve_congr h]

namespace FunctionDecl

variable {decl : FunctionDecl}

/-- The nodes of the written types of a signature. -/
def typeNodes (decl : FunctionDecl) : List Node :=
  decl.params.flatMap (·.typeExpr.nodes) ++ nodesOf TypeExpr.nodes decl.result

/-- The names that the array sizes of a signature mention. -/
def sizeNames (decl : FunctionDecl) : List String :=
  (decl.typeNodes.filterMap Node.ident?).map Ident.name

theorem mem_sizeNames {i : Ident} (h : Node.ident i ∈ decl.typeNodes) : i.name ∈ decl.sizeNames :=
  List.mem_map_of_mem (List.mem_filterMap.mpr ⟨_, h, rfl⟩)

/-- Where the names that a signature depends on stand for the same, it introduces the same symbol or
has the same faults. -/
theorem symbol_congr {site site' : Site} (plain : ∀ p ∈ decl.params, p.default? = none)
    (types : site.names.AgreeOn site'.names decl.typeNodes)
    (own : site.own decl.name.name = site'.own decl.name.name) (scope : site.scope = site'.scope)
    (kind : site.kind = site'.kind) : decl.symbol settings site = decl.symbol settings site' := by
  have params : ∀ p ∈ decl.params, site.names.AgreeOn site'.names p.typeExpr.nodes := by
    intro p member
    apply types.mono
    intro n part
    exact List.mem_append_left _ (List.mem_flatMap.mpr ⟨p, member, part⟩)
  have result : TypeExpr.resolveResult site.names decl.result =
      TypeExpr.resolveResult site'.names decl.result := by
    apply TypeExpr.resolveResult_congr
    apply types.mono
    intro n part
    exact List.mem_append_right _ part
  have faulty : decl.paramFaults settings site.names = decl.paramFaults settings site'.names :=
    List.flatMap_congr fun p member => Parameter.faults_congr (plain p member) (params p member)
  have known : decl.paramSymbols site.names = decl.paramSymbols site'.names :=
    List.filterMap_congr fun p member => Parameter.known?_congr (params p member)
  simp only [symbol_eq, faults, callbackFaults, resultFaults, resultTy, Site.duplicateFaults, faulty,
    known, result, own, scope, kind]

end FunctionDecl

/-- The symbol of a parameter whose type is known. -/
def Parameter.accepted (names : Names) (p : Parameter) : ParameterSymbol :=
  { name := p.name.name, ty := (Outcome.value? (p.typeExpr.resolve names)).getD .void
    optional := p.isOptional, default? := p.default?, location := p.location }

theorem Parameter.known?_of_clean {p : Parameter} (clean : p.faults settings names = []) :
    p.known? names = some (p.accepted names) := by
  have explained := p.typeExpr.resolve_explained names
  unfold Parameter.faults at clean
  unfold Parameter.known? Parameter.accepted
  cases resolved : p.typeExpr.resolve names with
  | error found =>
      simp only [resolved] at clean
      exact absurd clean (explained.faults_ne_nil resolved)
  | ok ty => rfl

namespace FunctionDecl

variable {decl : FunctionDecl}

theorem paramSymbols_of_clean (clean : decl.paramFaults settings names = []) :
    decl.paramSymbols names = decl.params.map (Parameter.accepted names) := by
  have each := List.flatMap_eq_nil_iff.mp clean
  unfold paramSymbols
  generalize decl.params = params at each ⊢
  induction params with
  | nil => rfl
  | cons p rest ih =>
      have first := Parameter.known?_of_clean (each p List.mem_cons_self)
      have others := ih fun q member => each q (List.mem_cons_of_mem p member)
      rw [List.filterMap_cons, first, others, List.map_cons]

/-- The map of the walk holds the name of every parameter passed, with the place where it stood first. -/
def FirstSeen (seen : List (String × Location)) (before : List Parameter) : Prop :=
  ∀ name, seen.lookup name = (before.find? fun q => q.name.name = name).map (·.location)

theorem FirstSeen.nil : FirstSeen [] [] := fun _ => rfl

/-- A name that was seen is reported with its first place, and any other is remembered. -/
theorem FirstSeen.step {seen : List (String × Location)} {before : List Parameter}
    (h : FirstSeen seen before) (function : String) (p : Parameter) (rest : List Parameter) :
    ∃ next, FirstSeen next (before ++ [p]) ∧
      nameFaultsFrom function seen (p :: rest) =
        ((before.find? fun q => q.name.name = p.name.name).map fun first =>
          (Cause.duplicateParam p.name.name function first.location).fault p.location).toList ++
        nameFaultsFrom function next rest := by
  have own := h p.name.name
  cases found : before.find? fun q => q.name.name = p.name.name with
  | some first =>
      rw [found, Option.map_some] at own
      refine ⟨seen, ?_, ?_⟩
      · intro name
        rw [h name, List.find?_append]
        by_cases same : p.name.name = name
        · rw [← same, found, Option.some_or]
        · simp [same]
      · simp only [nameFaultsFrom, own]
        rfl
  | none =>
      rw [found, Option.map_none] at own
      refine ⟨(p.name.name, p.location) :: seen, ?_, ?_⟩
      · intro name
        rw [List.lookup_cons, List.find?_append]
        by_cases same : p.name.name = name
        · rw [← same, found]
          simp
        · have other : (name == p.name.name) = false := by simpa using Ne.symm same
          rw [other, h name]
          simp [same]
      · simp only [nameFaultsFrom, own]
        rfl

/-- Names are free of faults exactly when they differ from each other and from those seen before. -/
theorem nameFaultsFrom_eq_nil_iff {function : String} {seen : List (String × Location)}
    {before params : List Parameter} (h : FirstSeen seen before) :
    nameFaultsFrom function seen params = [] ↔
      (params.map (·.name.name)).Nodup ∧
        ∀ p ∈ params, ∀ q ∈ before, q.name.name ≠ p.name.name := by
  induction params generalizing seen before with
  | nil => simp [nameFaultsFrom]
  | cons p rest ih =>
      obtain ⟨next, kept, walked⟩ := h.step function p rest
      rw [walked, List.append_eq_nil_iff, ih kept]
      cases found : before.find? (fun q => q.name.name = p.name.name) with
      | some q =>
          have same : q.name.name = p.name.name := by simpa using List.find?_some found
          constructor
          · rintro ⟨faultless, -⟩
            cases faultless
          · rintro ⟨-, apart⟩
            exact absurd same (apart p List.mem_cons_self q (List.mem_of_find?_eq_some found))
      | none =>
          have free : ∀ q ∈ before, q.name.name ≠ p.name.name := by simpa using found
          simp only [List.map_cons, List.nodup_cons, List.mem_map, not_exists, not_and,
            List.forall_mem_cons, List.mem_append, List.mem_singleton]
          constructor
          · rintro ⟨-, distinct, apart⟩
            refine ⟨⟨fun q member same => ?_, distinct⟩, free, fun q member r earlier => ?_⟩
            · exact apart q member p (.inr rfl) same.symm
            · exact apart q member r (.inl earlier)
          · rintro ⟨⟨new, distinct⟩, -, apart⟩
            refine ⟨rfl, distinct, fun q member r earlier => ?_⟩
            rcases earlier with old | rfl
            · exact apart q member r old
            · exact fun same => new q member same.symm

theorem name_of_symbol {site : Site} {f : FunctionSymbol} (h : decl.symbol settings site = .ok f) :
    f.name = decl.name.name := by
  obtain ⟨-, rfl⟩ := FunctionDecl.symbol_eq_ok_iff.mp h
  rfl

/-- An accepted function has the parameters that are written, in order. -/
theorem params_of_symbol {site : Site} {f : FunctionSymbol} (h : decl.symbol settings site = .ok f) :
    f.params = decl.params.map (Parameter.accepted site.names) := by
  obtain ⟨clean, rfl⟩ := FunctionDecl.symbol_eq_ok_iff.mp h
  simp only [faults, List.append_eq_nil_iff] at clean
  exact paramSymbols_of_clean clean.1.1.1.1.1.1.1

theorem nodup_params_of_symbol {site : Site} {f : FunctionSymbol}
    (h : decl.symbol settings site = .ok f) : (f.params.map (·.name)).Nodup := by
  have written := params_of_symbol h
  obtain ⟨clean, rfl⟩ := FunctionDecl.symbol_eq_ok_iff.mp h
  simp only [faults, List.append_eq_nil_iff] at clean
  have distinct := ((nameFaultsFrom_eq_nil_iff .nil).mp clean.1.1.1.2).1
  rw [written, List.map_map]
  exact distinct

end FunctionDecl

end SemanticCheck
