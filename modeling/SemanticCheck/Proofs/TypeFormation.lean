import SemanticCheck.Proofs.BodyTyping
import SemanticCheck.Proofs.IndirectCall
import SemanticCheck.Proofs.SymbolInvariant

/-!
Well-formed types. Types enter a table from what is written, with sizes that are folded, and from what
is inferred, through calls, elements and the names of functions. Neither way makes an array of nothing
or one that is too large for the address space. Nothing is also no type for a variable, unless it is a
parameter.
-/
namespace SemanticCheck

variable {settings : AnalysisSettings} {names : Names}

/-- Every array in the type, at any depth, has a size of at most 65535 and elements that are not void. -/
inductive Ty.WellFormed : Ty → Prop
  | primitive (scalar : Primitive) : WellFormed (.primitive scalar)
  | array {element : Ty} {size : Nat} : WellFormed element → element ≠ .void → size ≤ 65535 →
      WellFormed (.array element size)
  | callback {params : List Ty} {result : Ty} : (∀ p ∈ params, WellFormed p) → WellFormed result →
      WellFormed (.callback params result)

/-- All types that a symbol mentions are well-formed. -/
def Symbol.WellTyped : Symbol → Prop
  | .var v => v.ty.WellFormed
  | .function f => (∀ p ∈ f.params, p.ty.WellFormed) ∧ f.result.WellFormed

def Names.WellTyped (names : Names) : Prop := ∀ name x, names name = some x → x.WellTyped

/-- The name of a function has a well-formed type when its signature has well-formed types. -/
theorem Symbol.WellTyped.ty {x : Symbol} (h : x.WellTyped) : x.ty.WellFormed := by
  cases x with
  | var v => exact h
  | function f =>
      obtain ⟨params, result⟩ := h
      refine .callback ?_ result
      intro ty member
      obtain ⟨p, inside, rfl⟩ := List.mem_map.mp member
      exact params p inside

theorem Outcome.value?_eq_some_iff {α : Type} {o : Outcome α} {a : α} :
    Outcome.value? o = some a ↔ o = .ok a := by
  cases o with
  | ok b => simp [Outcome.value?]
  | error found => simp [Outcome.value?]

theorem Ty.WellFormed.getD_value? {o : Outcome Ty} (h : ∀ ty, o = .ok ty → ty.WellFormed) :
    ((Outcome.value? o).getD .void).WellFormed := by
  cases o with
  | ok ty => exact h ty rfl
  | error found => exact .primitive .void

theorem Ty.ofArray_wellFormed {element ty : Ty} {size : Expr} {l : Location}
    (h : element.WellFormed) (made : Ty.ofArray names element size l = .ok ty) : ty.WellFormed := by
  unfold Ty.ofArray at made
  split at made
  · cases made
  · next proper =>
      split at made
      · cases made
      · next count folded =>
          split at made
          · cases made
          · split at made
            · cases made
            · next small =>
                cases made
                refine .array h (fun void => proper (Ty.isVoid_iff.mpr void)) ?_
                simp only [wordMax] at small
                omega

theorem Ty.ofParts_wellFormed {params : List (Outcome Ty)} {result : Outcome Ty} {ty : Ty}
    (h : ∀ o ∈ params, ∀ p, o = .ok p → p.WellFormed) (k : ∀ r, result = .ok r → r.WellFormed)
    (made : Ty.ofParts params result = .ok ty) : ty.WellFormed := by
  rw [Ty.ofParts_eq] at made
  obtain ⟨-, rfl⟩ := Outcome.finish_eq_ok_iff.mp made
  refine .callback ?_ (.getD_value? k)
  intro p member
  obtain ⟨o, inside, known⟩ := List.mem_filterMap.mp member
  exact h o inside p (Outcome.value?_eq_some_iff.mp known)

mutual

theorem TypeExpr.resolve_wellFormed :
    (a : TypeExpr) → {ty : Ty} → a.resolve names = .ok ty → ty.WellFormed
  | .named i, _, made => by
      unfold TypeExpr.resolve Ty.ofIdent at made
      split at made
      · cases made
        exact .primitive _
      · cases made
  | .array element size l, _, made => by
      unfold TypeExpr.resolve at made
      split at made
      · next inner known => exact Ty.ofArray_wellFormed (element.resolve_wellFormed known) made
      · cases made
  | .callback params (some result) l, _, made =>
      Ty.ofParts_wellFormed (TypeExpr.resolveAll_wellFormed params)
        (fun _ known => result.resolve_wellFormed known) made
  | .callback params none l, _, made => by
      refine Ty.ofParts_wellFormed (TypeExpr.resolveAll_wellFormed params) ?_ made
      intro r known
      cases known
      exact .primitive .void

theorem TypeExpr.resolveAll_wellFormed :
    (params : List TypeExpr) →
      ∀ o ∈ TypeExpr.resolveAll names params, ∀ ty, o = .ok ty → ty.WellFormed
  | [], _, member, _, _ => nomatch member
  | a :: rest, o, member, ty, known => by
      rcases List.mem_cons.mp member with rfl | later
      · exact a.resolve_wellFormed known
      · exact TypeExpr.resolveAll_wellFormed rest o later ty known

end

theorem TypeExpr.resolveResult_wellFormed {result : Option TypeExpr} {ty : Ty}
    (made : TypeExpr.resolveResult names result = .ok ty) : ty.WellFormed := by
  cases result with
  | none =>
      cases made
      exact .primitive .void
  | some a => exact a.resolve_wellFormed made

theorem Ty.WellFormed.of_isNumeric {ty : Ty} (numeric : ty.isNumeric = true) : ty.WellFormed := by
  cases ty with
  | primitive p => exact .primitive p
  | array element size => cases numeric
  | callback params result => cases numeric

theorem UnaryOp.result?_wellFormed {op : UnaryOp} {operand ty : Ty}
    (typed : op.result? operand = some ty) : ty.WellFormed := by
  cases op with
  | neg | bitNot =>
      simp only [UnaryOp.result?, Option.ite_none_right_eq_some] at typed
      obtain ⟨numeric, same⟩ := typed
      cases same
      exact .of_isNumeric numeric
  | not =>
      simp only [UnaryOp.result?, Option.ite_none_right_eq_some] at typed
      obtain ⟨-, same⟩ := typed
      cases same
      exact .primitive .boolean

theorem BinaryOp.result?_wellFormed {op : BinaryOp} {lhs rhs ty : Ty}
    (typed : op.result? settings lhs rhs = some ty) : ty.WellFormed := by
  unfold BinaryOp.result? at typed
  split at typed
  · cases typed
    split
    · exact .primitive .word
    · exact .primitive .byte
  · split at typed
    · cases typed
      exact .primitive .boolean
    · split at typed
      · cases typed
        exact .primitive .boolean
      · split at typed
        · cases typed
          exact .primitive .boolean
        · cases typed

/-- Whatever is called, the result is a part of a type that the table has. -/
theorem Names.call_wellFormed (known : names.WellTyped) {callee : Expr} {args : List Argument}
    {l : Location} {ty : Ty} (called : names.call settings callee args l = .ok ty) : ty.WellFormed := by
  unfold Names.call at called
  split at called
  · cases called
  · split at called
    · next f stands =>
        rw [FunctionSymbol.call_eq] at called
        split at called
        · obtain ⟨-, rfl⟩ := Outcome.finish_eq_ok_iff.mp called
          exact (known _ _ stands).2
        · cases called
    · next v stands =>
        obtain ⟨slot, held, -, -, rfl⟩ := VariableSymbol.call_eq_ok_iff.mp called
        have formed : v.ty.WellFormed := known _ _ stands
        rw [held] at formed
        cases formed with
        | callback params result => exact result
    · cases called

theorem Expr.infer_wellFormed (known : names.WellTyped) :
    (e : Expr) → {ty : Ty} → e.infer settings names = .ok ty → ty.WellFormed
  | .boolean _ _, _, typed => by
      cases typed
      exact .primitive .boolean
  | .text _ _, _, typed => by
      cases typed
      exact .primitive .string
  | .number value l, _, typed => by
      unfold Expr.infer Ty.ofLiteral at typed
      split at typed
      · cases typed
        exact .primitive .byte
      · split at typed
        · cases typed
          exact .primitive .word
        · cases typed
  | .ident i, _, typed => by
      unfold Expr.infer Names.typeOf at typed
      split at typed
      · next x stands =>
          cases typed
          exact (known _ _ stands).ty
      · cases typed
  | .unary op operand l, _, typed => by
      obtain ⟨inner, operandTyped⟩ := UnaryOp.operand_of_infer typed
      simp only [Expr.infer, operandTyped, UnaryOp.infer] at typed
      split at typed
      · next result =>
          cases typed
          exact UnaryOp.result?_wellFormed result
      · cases typed
  | .binary op lhs rhs l, _, typed => by
      obtain ⟨left, right, -, -, result⟩ := Expr.operands_of_infer typed
      exact BinaryOp.result?_wellFormed result
  | .call callee args l, _, typed => Names.call_wellFormed known typed
  | .index target position l, _, typed => by
      simp only [Expr.infer, Ty.index_eq, Outcome.finish_eq_ok_iff, List.append_eq_nil_iff] at typed
      obtain ⟨⟨⟨⟨clean, -⟩, -⟩, indexable⟩, rfl⟩ := typed
      obtain ⟨ty, targetTyped⟩ := (target.infer_explained settings names).eq_ok clean
      have formed := target.infer_wellFormed known targetTyped
      rw [targetTyped] at indexable ⊢
      cases formed with
      | array inner _ _ =>
          simp only [Outcome.value?, Ty.element]
          split
          · exact inner
          · exact inner
      | primitive p => cases indexable
      | callback _ _ => cases indexable

theorem VariableDecl.typed_wellFormed (known : names.WellTyped) {decl : VariableDecl} {ty : Ty}
    (typed : (decl.typed settings (Expr.infer settings) names).2 = some ty) : ty.WellFormed := by
  have written : ∀ {outcome ty}, decl.written names = some outcome → outcome = .ok ty → ty.WellFormed := by
    intro outcome ty given made
    obtain ⟨a, -, rfl⟩ := Option.map_eq_some_iff.mp given
    exact a.resolve_wellFormed made
  unfold VariableDecl.typed at typed
  split at typed
  · cases typed
  · next outcome _ given _ => exact written given (Outcome.value?_eq_some_iff.mp typed)
  · cases typed
  · next given _ =>
      cases typed
      exact written given rfl
  · next value _ _ =>
      split at typed
      · cases typed
      · next source inferred =>
          cases typed
          exact value.infer_wellFormed known inferred

theorem VariableDecl.symbol_wellTyped {decl : VariableDecl} {site : Site} {v : VariableSymbol}
    (known : site.names.WellTyped)
    (declared : decl.symbol settings (Expr.infer settings) site = .ok v) : v.ty.WellFormed := by
  obtain ⟨-, ty, typed, rfl⟩ := VariableDecl.symbol_eq_ok_iff.mp declared
  exact VariableDecl.typed_wellFormed known typed

/-- Nothing is no type for a variable that is declared. -/
theorem VariableDecl.symbol_ne_void {decl : VariableDecl} {infer : Inference} {site : Site}
    {v : VariableSymbol} (declared : decl.symbol settings infer site = .ok v) : v.ty ≠ .void := by
  obtain ⟨clean, ty, typed, rfl⟩ := VariableDecl.symbol_eq_ok_iff.mp declared
  simp only [VariableDecl.faults, List.append_eq_nil_iff] at clean
  intro void
  have reported := clean.2
  simp only [VariableDecl.voidFaults, typed, Option.any_some, Ty.isVoid_iff.mpr void, if_true] at reported
  cases reported

theorem FunctionDecl.symbol_wellTyped {decl : FunctionDecl} {site : Site} {f : FunctionSymbol}
    (declared : decl.symbol settings site = .ok f) : Symbol.WellTyped (.function f) := by
  have params := FunctionDecl.params_of_symbol declared
  obtain ⟨-, same⟩ := FunctionDecl.symbol_eq_ok_iff.mp declared
  constructor
  · rw [params]
    intro p member
    obtain ⟨written, -, rfl⟩ := List.mem_map.mp member
    exact .getD_value? fun _ made => written.typeExpr.resolve_wellFormed made
  · rw [same]
    exact .getD_value? fun _ made => TypeExpr.resolveResult_wellFormed made

theorem wellTyped_inherited (settings : AnalysisSettings) (items : List Item) :
    Inherited settings items fun _ x => x.WellTyped where
  functions := by
    rintro t decl f - - - declared
    exact FunctionDecl.symbol_wellTyped declared
  vars := by
    rintro t decl v holds - declared
    refine VariableDecl.symbol_wellTyped ?_ declared
    intro name x stands
    obtain ⟨_, known⟩ := holds.of_names stands
    exact known
  params := by
    rintro kind f ⟨params, -⟩ p member id
    exact params p member

/-- In every scope, what stands behind the parameters that its outline lists is not void. -/
def SymbolTable.LocalsNotVoid (t : SymbolTable) (outlines : List Outline) : Prop :=
  ∀ (i : Nat) o s, outlines[i]? = some o → t.scope? i = some s →
    ∀ v, Symbol.var v ∈ s.symbols.drop o.params.length → v.ty ≠ .void

/-- The regions opened between two tables, all of whose variables but for the parameters are not void
if this was so before. -/
structure SymbolTable.Fills (t after : SymbolTable) (regions : List Region) : Prop where
  opens : t.Opens after regions
  locals : ∀ outlines, t.Fits outlines → t.LocalsNotVoid outlines →
    after.LocalsNotVoid (outlines ++ Region.outlineAll t.current outlines.length regions)

namespace SymbolTable

variable {t middle after : SymbolTable} {regions more : List Region} {outlines : List Outline}

theorem LocalsNotVoid.add (h : t.LocalsNotVoid outlines) {x : Symbol}
    (proper : ∀ v, x = .var v → v.ty ≠ .void) : (t.add x).LocalsNotVoid outlines := by
  intro i o s listed found v member
  obtain ⟨-, old, there, rfl⟩ | ⟨-, there⟩ := scope?_add_cases found
  · change Symbol.var v ∈ (old.symbols ++ [x]).drop o.params.length at member
    rw [List.drop_append] at member
    rcases List.mem_append.mp member with earlier | last
    · exact h i o old listed there v earlier
    · exact proper v (List.mem_singleton.mp (List.mem_of_mem_drop last)).symm
  · exact h i o s listed there v member

theorem LocalsNotVoid.of_scopes (h : t.LocalsNotVoid outlines) (same : after.scopes = t.scopes) :
    after.LocalsNotVoid outlines := by
  intro i o s listed found
  rw [scope?, same] at found
  exact h i o s listed found

/-- A table with one scope more, which has no symbols but its parameters. -/
theorem LocalsNotVoid.extend (h : t.LocalsNotVoid outlines) (fits : t.Fits outlines) {o : Outline}
    (others : ∀ i s, i ≠ t.scopes.length → after.scope? i = some s →
      ∃ old, t.scope? i = some old ∧ s.symbols = old.symbols)
    (begun : ∀ s, after.scope? t.scopes.length = some s → s.symbols.length = o.params.length) :
    after.LocalsNotVoid (outlines ++ [o]) := by
  intro i o' s listed found v member
  rw [List.getElem?_append] at listed
  split at listed
  · next lt =>
      rw [← fits.length_eq] at lt
      obtain ⟨old, there, same⟩ := others i s (Nat.ne_of_lt lt) found
      rw [same] at member
      exact h i o' old listed there v member
  · next le =>
      have last : i = t.scopes.length := by
        have bound := (List.getElem?_eq_some_iff.mp listed).1
        have same := fits.length_eq
        simp only [List.length_singleton] at bound
        omega
      subst last
      rw [fits.length_eq, Nat.sub_self] at listed
      cases listed
      rw [← begun s found, List.drop_length] at member
      cases member

theorem symbols_push (h : t.WellFormed) (kind : ScopeKind) {i : ScopeId} {s : Scope}
    (old : i ≠ t.scopes.length) (found : (t.push kind).scope? i = some s) :
    ∃ s', t.scope? i = some s' ∧ s.symbols = s'.symbols := by
  obtain ⟨new, -⟩ | ⟨-, s', there, rfl⟩ | ⟨-, -, there⟩ := scope?_push_cases h.current_lt found
  · exact absurd new old
  · exact ⟨s', there, rfl⟩
  · exact ⟨s, there, rfl⟩

/-- Parameters are declared in the current scope and nowhere else. -/
theorem scope?_declareParams {i : ScopeId} (params : List ParameterSymbol) {t : SymbolTable}
    (other : i ≠ t.current) : (t.declareParams params).1.scope? i = t.scope? i := by
  induction params generalizing t with
  | nil => rfl
  | cons p rest ih =>
      by_cases free : t.site.duplicateFaults ⟨p.name, p.location⟩ = []
      · rw [declareParams_of_free rest free, ih (t := t.add _) other, scope?_add_of_ne t _ other]
      · rw [declareParams_of_taken rest free]
        exact ih other

namespace Fills

theorem refl (h : t.WellFormed) : t.Fills t [] := by
  refine ⟨.refl h, ?_⟩
  intro outlines _ locals
  rw [Region.outlineAll, List.append_nil]
  exact locals

theorem trans (h : t.Fills middle regions) (k : middle.Fills after more) :
    t.Fills after (regions ++ more) := by
  refine ⟨h.opens.trans k.opens, ?_⟩
  intro outlines fits locals
  have both := k.locals _ (h.opens.fits outlines fits) (h.locals outlines fits locals)
  rw [h.opens.current_eq, List.length_append, List.append_assoc] at both
  rw [Region.outlineAll_append]
  exact both

theorem add (h : t.WellFormed) {x : Symbol} (admits : t.Admits x)
    (proper : ∀ v, x = .var v → v.ty ≠ .void) : t.Fills (t.add x) [] := by
  refine ⟨.add h admits, ?_⟩
  intro outlines _ locals
  rw [Region.outlineAll, List.append_nil]
  exact locals.add proper

/-- A scope with what was opened in it, from the moment when it has its parameters and nothing else. -/
theorem scope {ready inner : SymbolTable} {kind : ScopeKind} {params : List ParameterSymbol}
    (opens : t.Opens after [.mk kind params regions])
    (fits : ∀ outlines, t.Fits outlines → ready.Fits (outlines ++ [⟨kind, some t.current, params⟩]))
    (begun : ∀ outlines, t.Fits outlines → t.LocalsNotVoid outlines →
      ready.LocalsNotVoid (outlines ++ [⟨kind, some t.current, params⟩]))
    (current : ready.current = t.scopes.length) (inside : ready.Fills inner regions)
    (scopes : after.scopes = inner.scopes) : t.Fills after [.mk kind params regions] := by
  refine ⟨opens, ?_⟩
  intro outlines fit locals
  have all := inside.locals _ (fits outlines fit) (begun outlines fit locals)
  rw [current, fit.length_eq, List.length_append, List.append_assoc] at all
  rw [Region.outlineAll, Region.outlineAll, Region.outline, List.append_nil]
  exact all.of_scopes scopes

end Fills

end SymbolTable

theorem fills_walk (settings : AnalysisSettings) : ProgramWalk settings SymbolTable.Fills where
  statements nodes :=
    { stay := fun h => .refl h
      follow := fun h k => h.trans k
      var := by
        intro t decl v h _ declared
        refine .add h (VariableDecl.admits_symbol declared) ?_
        rintro w ⟨⟩
        exact VariableDecl.symbol_ne_void declared
      block := by
        intro t inner after env regions h leads inside scopes
        have fits := fun outlines (fits : t.Fits outlines) => fits.push h.current_lt .block
        refine .scope (((opens_walk settings).statements nodes).block h leads inside.opens scopes) fits ?_
          rfl inside scopes
        intro outlines fits locals
        refine locals.extend fits (fun i s => SymbolTable.symbols_push h .block) ?_
        intro s found
        rw [SymbolTable.scope?_push_length] at found
        cases found
        rfl }
  function := by
    intro t decl f h declared
    refine .add h (FunctionDecl.admits_symbol declared) ?_
    rintro v ⟨⟩
  body := by
    intro t ready inner after env regions f h accepted leads params inside scopes
    obtain ⟨current, length, fits⟩ := accepted.begins h params
    refine .scope ((opens_walk settings).body h accepted leads params inside.opens scopes) fits ?_
      current inside scopes
    intro outlines fit locals
    refine locals.extend fit ?_ ?_
    · intro i s old found
      have unchanged := SymbolTable.scope?_declareParams f.params (t := t.push .function) old
      rw [params, found] at unchanged
      exact SymbolTable.symbols_push h .function old unchanged.symm
    · intro s found
      rw [← current] at found
      rw [← length, SymbolTable.top, found]
      rfl

namespace Program

/-- The scopes of an analysis as their outlines describe them, with no void variable behind the
parameters. -/
theorem analyze_locals {settings : AnalysisSettings} {program : Program} {a : Analysis}
    (ran : program.analyze settings = .ok a) :
    a.table.Fits ((program.region settings).outline none 0) ∧
      a.table.LocalsNotVoid ((program.region settings).outline none 0) := by
  obtain ⟨after, passes, -, -, scopes, -⟩ := analyze_top ran
  have filled := analyzeItems_walk (fills_walk settings) program.topTable_wellFormed passes
  obtain ⟨start, fits, same⟩ := program.exists_outlines settings
  -- before the items are declared there is no symbol at all
  have empty : program.topTable.LocalsNotVoid start := by
    intro i o s _ found v member
    have none := (program.topTable_holds (P := fun _ _ => False)).every found
    exact (none _ (List.mem_of_mem_drop member)).elim
  rw [same]
  exact ⟨(filled.opens.fits start fits).of_scopes_eq scopes,
    (filled.locals start fits empty).of_scopes scopes⟩

/-- Every type in the table of an analysis is well-formed, and every variable behind the parameters of
its scope has a type other than void. Wherever all types are well-formed, so are those that are
inferred. -/
theorem table_types_wellFormed (settings : AnalysisSettings) :
    (∀ program : Program, ∃ a, program.analyze settings = .ok a ∧
      ∀ (i : ScopeId) (s : Scope), a.table.scope? i = some s →
        (∀ x ∈ s.symbols, x.WellTyped) ∧
        ∃ o locals, ((program.region settings).outline none 0)[i]? = some o ∧
          s.symbols = o.params.map (fun p => .var (p.variableIn i)) ++ locals ∧
          ∀ v, Symbol.var v ∈ locals → v.ty ≠ .void) ∧
    ∀ t : SymbolTable, (∀ i s, t.scope? i = some s → ∀ x ∈ s.symbols, x.WellTyped) →
      ∀ (e : Expr) (ty : Ty), e.infer settings t.names = .ok ty → ty.WellFormed := by
  constructor
  · intro program
    obtain ⟨a, ran, holds⟩ := program.analyze_holds (wellTyped_inherited settings program.items)
    refine ⟨a, ran, ?_⟩
    intro i s found
    refine ⟨holds.every found, ?_⟩
    obtain ⟨fits, notVoid⟩ := analyze_locals ran
    obtain ⟨o, listed⟩ : ∃ o, ((program.region settings).outline none 0)[i]? = some o :=
      ⟨_, List.getElem?_eq_getElem (fits.length_eq ▸ SymbolTable.scope?_lt found)⟩
    obtain ⟨_, there, described⟩ := fits.describes i o listed
    rw [found] at there
    cases there
    obtain ⟨locals, split⟩ := described.params
    refine ⟨o, locals, listed, split.symm, ?_⟩
    intro v member
    apply notVoid i o s listed found v
    rw [← split, List.drop_left' (List.length_map _)]
    exact member
  · intro t known e ty typed
    refine e.infer_wellFormed ?_ typed
    intro name x stands
    obtain ⟨i, s, found, member⟩ := SymbolTable.mem_of_names stands
    exact known i s found x member

/-- A function with a parameter that holds nothing, a table of rows, and a local row. -/
def plotting : Program :=
  { items :=
      [.function ((((FunctionDecl.ofName "plot").withParam (.ofName "nothing" (.ofName "void"))).withParam
        (.ofName "rows" (.ofArray (.ofArray (.ofName "byte") (.ofInt 40)) (.ofInt 25)))).withBody
          [.declare (.ofName "row" (some (.ofArray (.ofName "byte") (.ofInt 40))))])] }

theorem plotting_types_wellFormed :
    ∃ a s nothing row, plotting.analyze {} = .ok a ∧ a.table.scope? 1 = some s ∧
      Symbol.var nothing ∈ s.symbols ∧ nothing.ty = .void ∧
      Symbol.var row ∈ s.symbols ∧ row.ty = .array .byte 40 ∧ row.ty.WellFormed ∧ row.ty ≠ .void ∧
      (Expr.ofName "plot").infer {} a.table.names =
        .ok (.callback [.void, .array (.array .byte 40) 25] .void) ∧
      (Ty.callback [.void, .array (.array .byte 40) 25] .void).WellFormed := by
  obtain ⟨runs, infers⟩ := table_types_wellFormed {}
  obtain ⟨a, ran, each⟩ := runs plotting
  have known : plotting.analyze {} = .ok _ := rfl
  rw [known] at ran
  cases ran
  obtain ⟨typed, o, locals, listed, split, proper⟩ := each 1 _ rfl
  have described : ((plotting.region {}).outline none 0)[1]? = some _ := rfl
  rw [described] at listed
  cases listed
  obtain ⟨-, rest⟩ := List.append_inj split rfl
  subst rest
  have stands := typed _ (.tail _ (.tail _ List.mem_cons_self))
  refine ⟨_, _, _, _, known, rfl, List.mem_cons_self, rfl, .tail _ (.tail _ List.mem_cons_self), rfl,
    stands, proper _ List.mem_cons_self, ?_⟩
  refine (and_iff_left_of_imp (infers _ (fun i s found => (each i s found).1) _ _)).mpr ?_
  rw [Expr.ofName, Expr.infer, Names.typeOf, SymbolTable.names, SymbolTable.lookupFrom]
  rfl

end Program

end SemanticCheck
