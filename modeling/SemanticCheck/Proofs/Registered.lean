import SemanticCheck.Proofs.Signature
import SemanticCheck.Proofs.TopLevel

/-!
Registered functions. The first pass registers a function only with an accepted signature, and the
parameters of such a function can all be declared in a fresh scope, where they are the first symbols.
-/
namespace SemanticCheck

variable {settings : AnalysisSettings} {f : FunctionSymbol}

theorem Item.declare_eq_registered {item : Item} {t : SymbolTable} {faults : List Fault}
    (h : (item.declare settings t).2 = (.registered f, faults)) :
    ∃ decl, item = .function decl ∧ decl.symbol settings t.site = .ok f := by
  cases item with
  | function decl =>
      simp only [Item.declare, SymbolTable.declareFunction_eq] at h
      cases declared : decl.symbol settings t.site with
      | error found =>
          simp only [declared] at h
          cases h
      | ok symbol =>
          simp only [declared] at h
          cases h
          exact ⟨decl, rfl, declared⟩
  | var decl =>
      simp only [Item.declare] at h
      split at h
      · cases h
      · cases h

theorem symbol_of_mem_declareItems {items : List Item} {item : Item} {t : SymbolTable}
    {faults : List Fault}
    (member : (item, Standing.registered f, faults) ∈ (declareItems settings items t).2) :
    ∃ decl site, item = .function decl ∧ decl.symbol settings site = .ok f := by
  induction items generalizing t with
  | nil => cases member
  | cons first rest ih =>
      rw [declareItems_cons] at member
      rcases List.mem_cons.mp member with here | later
      · obtain ⟨rfl, noted⟩ := Prod.mk.inj here
        obtain ⟨decl, same, declared⟩ := Item.declare_eq_registered noted.symm
        exact ⟨decl, t.site, same, declared⟩
      · exact ih later

/-- The symbol of a function whose signature was accepted somewhere. -/
def FunctionSymbol.Accepted (settings : AnalysisSettings) (f : FunctionSymbol) : Prop :=
  ∃ (decl : FunctionDecl) (site : Site), decl.symbol settings site = .ok f

theorem accepted_of_mem_declareItems {items : List Item} {t : SymbolTable}
    {entry : Item × Standing × List Fault} (member : entry ∈ (declareItems settings items t).2)
    (registered : entry.2.1 = .registered f) : f.Accepted settings := by
  obtain ⟨item, standing, faults⟩ := entry
  cases registered
  obtain ⟨decl, site, -, declared⟩ := symbol_of_mem_declareItems member
  exact ⟨decl, site, declared⟩

/-- Parameters of different names that the current scope does not have are all declared, in order. -/
theorem SymbolTable.declareParams_of_distinct (params : List ParameterSymbol) {t : SymbolTable}
    (h : t.WellFormed) (distinct : (params.map (·.name)).Nodup)
    (free : ∀ p ∈ params, t.top.lookup p.name = none) :
    ∃ after, t.declareParams params = (after, []) ∧ after.scopes.length = t.scopes.length ∧
      after.top.symbols =
        t.top.symbols ++ params.map (fun p => Symbol.var (p.variableIn t.current)) := by
  induction params generalizing t with
  | nil => exact ⟨t, rfl, rfl, (List.append_nil _).symm⟩
  | cons p rest ih =>
      obtain ⟨fresh, others⟩ := List.nodup_cons.mp distinct
      have absent : t.top.lookup p.name = none := free p List.mem_cons_self
      have k : (t.add (.var (p.variableIn t.current))).WellFormed := h.add rfl absent
      have top := h.top_add (.var (p.variableIn t.current))
      have later : ∀ q ∈ rest,
          (t.add (.var (p.variableIn t.current))).top.lookup q.name = none := by
        intro q member
        have apart : (Symbol.var (p.variableIn t.current)).name ≠ q.name := by
          intro same
          exact fresh (List.mem_map.mpr ⟨q, member, same.symm⟩)
        have lookup := h.top_formed.indexed.lookup_insert (x := .var (p.variableIn t.current)) absent
          q.name
        rw [top, lookup, if_neg apart]
        exact free q (List.mem_cons_of_mem p member)
      obtain ⟨after, ran, length, symbols⟩ := ih k others later
      refine ⟨after, ?_, ?_, ?_⟩
      · rw [declareParams_of_free rest (Site.duplicateFaults_eq_nil_iff.mpr absent), ran]
      · rw [length, length_add]
      · rw [symbols, top]
        exact List.append_assoc _ _ _

/-- The parameters of an accepted function are the first symbols of a scope opened for it. -/
theorem FunctionSymbol.Accepted.declareParams {t : SymbolTable} (accepted : f.Accepted settings)
    (h : t.WellFormed) :
    ∃ ready, (t.push .function).declareParams f.params = (ready, []) ∧
      ready.scopes.length = t.scopes.length + 1 ∧
      ready.top.symbols = f.params.map (fun p => Symbol.var (p.variableIn t.scopes.length)) := by
  obtain ⟨decl, site, declared⟩ := accepted
  have distinct := FunctionDecl.nodup_params_of_symbol declared
  have free : ∀ p ∈ f.params, (t.push .function).top.lookup p.name = none := by
    intro p member
    rw [t.top_push]
    rfl
  obtain ⟨ready, ran, length, symbols⟩ :=
    SymbolTable.declareParams_of_distinct f.params (h.push .function) distinct free
  refine ⟨ready, ran, ?_, ?_⟩
  · rw [length, SymbolTable.length_push]
  · rw [symbols, t.top_push]
    rfl

end SemanticCheck
