import Mathlib.Data.List.Forall2
import SemanticCheck.Proofs.BodyTyping
import SemanticCheck.Tree.Visit

/-!
Written types mean what they spell. A written type has a meaning exactly when each of its parts is
proper by itself: names are those of scalars, elements are not void, and sizes fold to something that
fits an address. The meaning then has the same shape. Otherwise the parts of a callback all have their
say, one after the other, while an array speaks for itself only when its element has nothing to say.
-/
namespace SemanticCheck

variable {names : Names}

/-- The names of types, each with the scalar that it stands for. -/
def Primitive.spellings : List (String × Primitive) :=
  [("byte", .byte), ("word", .word), ("boolean", .boolean), ("bool", .boolean), ("void", .void),
    ("string", .string)]

def Primitive.typeNames : List String := Primitive.spellings.map (·.1)

theorem Primitive.ofName?_eq_some_iff {name : String} {scalar : Primitive} :
    Primitive.ofName? name = some scalar ↔ (name, scalar) ∈ Primitive.spellings := by
  unfold Primitive.ofName?
  split <;> simp_all [Primitive.spellings, eq_comm]

theorem Primitive.ofName?_eq_none_iff {name : String} :
    Primitive.ofName? name = none ↔ name ∉ Primitive.typeNames := by
  unfold Primitive.ofName?
  split <;> simp_all [Primitive.typeNames, Primitive.spellings]

namespace TypeExpr

/-- What a part of a written type needs by itself. -/
inductive Proper (names : Names) : TypeExpr → Prop
  | named {i : Ident} : i.name ∈ Primitive.typeNames →
      Proper names (.named i)
  | array {element : TypeExpr} {size : Expr} {l : Location} {n : Int64} :
      (∀ i, element = .named i → i.name ≠ "void") → size.fold names = .ok n → 0 ≤ n.toInt →
      n.toInt ≤ 65535 → Proper names (.array element size l)
  | callback (params : List TypeExpr) (result : Option TypeExpr) (l : Location) :
      Proper names (.callback params result l)

/-- The written type has the shape of the type, node for node, with its sizes folded. A result that is
not written is void. -/
inductive Spells (names : Names) : TypeExpr → Ty → Prop
  | named {i : Ident} {scalar : Primitive} : (i.name, scalar) ∈ Primitive.spellings →
      Spells names (.named i) (.primitive scalar)
  | array {element : TypeExpr} {ty : Ty} {size : Expr} {n : Int64} {count : Nat} {l : Location} :
      Spells names element ty → ty ≠ .void → size.fold names = .ok n → n.toInt = count →
      count ≤ 65535 → Spells names (.array element size l) (.array ty count)
  | callback {params : List TypeExpr} {tys : List Ty} {result : TypeExpr} {ty : Ty} {l : Location} :
      List.Forall₂ (Spells names) params tys → Spells names result ty →
      Spells names (.callback params (some result) l) (.callback tys ty)
  | procedure {params : List TypeExpr} {tys : List Ty} {l : Location} :
      List.Forall₂ (Spells names) params tys →
      Spells names (.callback params none l) (.callback tys .void)

/-- What an array is faulted for by itself: an element that is void, or else its size. -/
inductive Flawed (names : Names) (element : TypeExpr) (size : Expr) (l : Location) : Fault → Prop
  | void {i : Ident} : element = .named i → i.name = "void" →
      Flawed names element size l
        { kind := .invalidOperation, message := "arrays of void are not allowed", location := l }
  | unfolded {fault : Fault} : (∀ i, element = .named i → i.name ≠ "void") →
      size.fold names = .error fault → Flawed names element size l fault
  | negative {n : Int64} : (∀ i, element = .named i → i.name ≠ "void") → size.fold names = .ok n →
      n.toInt < 0 →
      Flawed names element size l
        { kind := .invalidOperation, message := s!"array size cannot be negative, got {n.toInt}"
          location := l }
  | tooLarge {n : Int64} : (∀ i, element = .named i → i.name ≠ "void") → size.fold names = .ok n →
      65535 < n.toInt →
      Flawed names element size l
        { kind := .invalidOperation
          message := s!"array size {n.toInt} does not fit in the 16-bit address space", location := l }

/-- All that is wrong with a written type, in order; nothing is, if the list is empty. -/
inductive Reports (names : Names) : TypeExpr → List Fault → Prop
  | known {i : Ident} : i.name ∈ Primitive.typeNames →
      Reports names (.named i) []
  | unknown {i : Ident} : i.name ∉ Primitive.typeNames →
      Reports names (.named i)
        [{ kind := .undefinedSymbol, message := s!"unknown type '{i.name}'", location := i.location
           suggestions := ["expected one of byte, word, boolean, void, string"] }]
  | element {element : TypeExpr} {size : Expr} {l : Location} {found : List Fault} :
      Reports names element found → found ≠ [] → Reports names (.array element size l) found
  | own {element : TypeExpr} {size : Expr} {l : Location} {fault : Fault} :
      Reports names element [] → Flawed names element size l fault →
      Reports names (.array element size l) [fault]
  | array {element : TypeExpr} {size : Expr} {l : Location} : Reports names element [] →
      Proper names (.array element size l) → Reports names (.array element size l) []
  | callback {params : List TypeExpr} {blocks : List (List Fault)} {result : TypeExpr}
      {last : List Fault} {l : Location} : List.Forall₂ (Reports names) params blocks →
      Reports names result last →
      Reports names (.callback params (some result) l) (blocks.flatten ++ last)
  | procedure {params : List TypeExpr} {blocks : List (List Fault)} {l : Location} :
      List.Forall₂ (Reports names) params blocks →
      Reports names (.callback params none l) blocks.flatten

end TypeExpr

theorem Ty.ofIdent_eq_ok_iff {i : Ident} {ty : Ty} :
    Ty.ofIdent i = .ok ty ↔ ∃ scalar, (i.name, scalar) ∈ Primitive.spellings ∧ ty = .primitive scalar := by
  simp only [← Primitive.ofName?_eq_some_iff]
  unfold Ty.ofIdent
  cases Primitive.ofName? i.name with
  | some scalar => simp [eq_comm]
  | none => simp [Outcome.refuse]

theorem Ty.ofIdent_of_known {i : Ident}
    (known : i.name ∈ Primitive.typeNames) :
    ∃ ty, Ty.ofIdent i = .ok ty := by
  unfold Ty.ofIdent
  cases named : Primitive.ofName? i.name with
  | some scalar => exact ⟨_, rfl⟩
  | none => exact absurd known (Primitive.ofName?_eq_none_iff.mp named)

theorem Ty.ofIdent_of_unknown {i : Ident}
    (unknown : i.name ∉ Primitive.typeNames) :
    Ty.ofIdent i = Outcome.refuse (.unknownType i.name) i.location := by
  rw [Ty.ofIdent, Primitive.ofName?_eq_none_iff.mpr unknown]

theorem Ty.ofArray_eq_ok_iff {element ty : Ty} {size : Expr} {l : Location} :
    Ty.ofArray names element size l = .ok ty ↔
      ∃ (n : Int64) (count : Nat), element ≠ .void ∧ size.fold names = .ok n ∧ n.toInt = count ∧
        count ≤ 65535 ∧ ty = .array element count := by
  unfold Ty.ofArray
  constructor
  · intro made
    split at made
    · cases made
    · next proper =>
        split at made
        · cases made
        · next n folded =>
            split at made
            · cases made
            · split at made
              · cases made
              · next small =>
                  cases made
                  simp only [wordMax] at small
                  refine ⟨n, n.toInt.toNat, ?_, folded, ?_, ?_, rfl⟩
                  · exact fun void => proper (Ty.isVoid_iff.mpr void)
                  · omega
                  · omega
  · rintro ⟨n, count, proper, folded, value, small, rfl⟩
    have notVoid : ¬ element.isVoid = true := fun void => proper (Ty.isVoid_iff.mp void)
    have notNegative : ¬ n.toInt < 0 := by omega
    have notLarge : ¬ (wordMax : Int) < n.toInt := by
      simp only [wordMax]
      omega
    have size : n.toInt.toNat = count := by omega
    simp only [if_neg notVoid, folded, if_neg notNegative, if_neg notLarge, size]

/-- A callback has a meaning when all its parts have, so no parameter is left out of it. -/
theorem Ty.ofParts_eq_ok_iff {params : List (Outcome Ty)} {result : Outcome Ty} {ty : Ty}
    (explained : ∀ o ∈ params, Outcome.Explained o) (last : Outcome.Explained result) :
    Ty.ofParts params result = .ok ty ↔
      ∃ tys r, params = tys.map Except.ok ∧ result = .ok r ∧ ty = .callback tys r := by
  rw [Ty.ofParts_eq, Outcome.finish_eq_ok_iff, List.append_eq_nil_iff]
  constructor
  · rintro ⟨⟨clean, cleanResult⟩, rfl⟩
    obtain ⟨r, rfl⟩ := last.eq_ok cleanResult
    refine ⟨params.filterMap Outcome.value?, r, ?_, rfl, rfl⟩
    clear cleanResult last
    induction params with
    | nil => rfl
    | cons o rest ih =>
        rw [List.flatMap_cons, List.append_eq_nil_iff] at clean
        rw [List.forall_mem_cons] at explained
        obtain ⟨first, rfl⟩ := explained.1.eq_ok clean.1
        rw [List.filterMap_cons, Outcome.value?, List.map_cons, ← ih explained.2 clean.2]
  · rintro ⟨tys, r, rfl, rfl, rfl⟩
    have faultless : (tys.map Except.ok).flatMap Outcome.faults = [] := by
      simp [List.flatMap_map, Outcome.faults]
    have kept : (tys.map Except.ok).filterMap Outcome.value? = tys := by
      simp [List.filterMap_map, Function.comp_def, Outcome.value?]
    rw [kept]
    exact ⟨⟨faultless, rfl⟩, rfl⟩

namespace TypeExpr

mutual

theorem spells_iff : (a : TypeExpr) → {ty : Ty} → Spells names a ty ↔ a.resolve names = .ok ty
  | .named i, ty => by
      rw [resolve, Ty.ofIdent_eq_ok_iff]
      constructor
      · rintro ⟨spelled⟩
        exact ⟨_, spelled, rfl⟩
      · rintro ⟨scalar, spelled, rfl⟩
        exact .named spelled
  | .array element size l, ty => by
      rw [resolve]
      constructor
      · intro spelled
        cases spelled with
        | array inner proper folded value small =>
            rw [element.spells_iff.mp inner]
            exact Ty.ofArray_eq_ok_iff.mpr ⟨_, _, proper, folded, value, small, rfl⟩
      · intro made
        split at made
        · next ty known =>
            obtain ⟨n, count, proper, folded, value, small, rfl⟩ := Ty.ofArray_eq_ok_iff.mp made
            exact .array (element.spells_iff.mpr known) proper folded value small
        · cases made
  | .callback params (some result) l, ty => by
      rw [resolve, Ty.ofParts_eq_ok_iff (resolveAll_explained names params)
        (result.resolve_explained names)]
      constructor
      · intro spelled
        cases spelled with
        | callback all last => exact ⟨_, _, (allSpell_iff params).mp all, result.spells_iff.mp last, rfl⟩
      · rintro ⟨tys, r, all, last, rfl⟩
        exact .callback ((allSpell_iff params).mpr all) (result.spells_iff.mpr last)
  | .callback params none l, ty => by
      rw [resolve, Ty.ofParts_eq_ok_iff (resolveAll_explained names params) (.ok _)]
      constructor
      · intro spelled
        cases spelled with
        | procedure all => exact ⟨_, _, (allSpell_iff params).mp all, rfl, rfl⟩
      · rintro ⟨tys, r, all, ⟨⟩, rfl⟩
        exact .procedure ((allSpell_iff params).mpr all)

theorem allSpell_iff : (params : List TypeExpr) → {tys : List Ty} →
    List.Forall₂ (Spells names) params tys ↔ resolveAll names params = tys.map Except.ok
  | [], tys => by
      rw [List.forall₂_nil_left_iff, resolveAll]
      exact (eq_comm.trans List.map_eq_nil_iff).symm
  | a :: rest, tys => by
      rw [List.forall₂_cons_left_iff, resolveAll, eq_comm (b := tys.map _), List.map_eq_cons_iff]
      constructor
      · rintro ⟨ty, tys, first, others, rfl⟩
        exact ⟨ty, tys, rfl, (a.spells_iff.mp first).symm, ((allSpell_iff rest).mp others).symm⟩
      · rintro ⟨ty, tys, rfl, first, others⟩
        exact ⟨ty, tys, a.spells_iff.mpr first.symm, (allSpell_iff rest).mpr others.symm, rfl⟩

end

/-- Void is written by its name and in no other way. -/
theorem resolve_eq_void_iff {a : TypeExpr} :
    a.resolve names = .ok .void ↔ ∃ i, a = .named i ∧ i.name = "void" := by
  rw [← spells_iff]
  constructor
  · rintro ⟨spelled⟩
    exact ⟨_, rfl, by simpa [Primitive.spellings] using spelled⟩
  · rintro ⟨i, rfl, void⟩
    exact .named (by simp [void, Primitive.spellings])

theorem ne_void_iff {element : TypeExpr} {ty : Ty} (known : element.resolve names = .ok ty) :
    ty ≠ .void ↔ ∀ i, element = .named i → i.name ≠ "void" := by
  constructor
  · rintro proper i rfl void
    apply proper
    rw [resolve_eq_void_iff.mpr ⟨i, rfl, void⟩] at known
    exact (Except.ok.inj known).symm
  · rintro proper rfl
    obtain ⟨i, here, void⟩ := resolve_eq_void_iff.mp known
    exact proper i here void

section Arrays

variable {element : TypeExpr} {ty : Ty} {size : Expr} {l : Location}

theorem exists_ofArray_iff (known : element.resolve names = .ok ty) :
    (∃ ty', Ty.ofArray names ty size l = .ok ty') ↔ Proper names (.array element size l) := by
  simp only [Ty.ofArray_eq_ok_iff, ne_void_iff known]
  constructor
  · rintro ⟨-, n, count, notVoid, folded, value, small, -⟩
    exact .array notVoid folded (by omega) (by omega)
  · intro proper
    cases proper with
    | @array _ _ _ n notVoid folded low high =>
        exact ⟨_, n, n.toInt.toNat, notVoid, folded, by omega, by omega, rfl⟩

/-- An array of a known element has one fault of its own exactly when it is flawed. -/
theorem ofArray_eq_error_iff (known : element.resolve names = .ok ty) {found : List Fault} :
    Ty.ofArray names ty size l = .error found ↔
      ∃ fault, found = [fault] ∧ Flawed names element size l fault := by
  constructor
  · intro failed
    unfold Ty.ofArray at failed
    split at failed
    · next void =>
        obtain ⟨i, here, named⟩ := resolve_eq_void_iff.mp (Ty.isVoid_iff.mp void ▸ known)
        cases failed
        exact ⟨_, rfl, .void here named⟩
    · next notVoid =>
        have proper := (ne_void_iff known).mp fun void => notVoid (Ty.isVoid_iff.mpr void)
        split at failed
        · next fault unfolded =>
            cases failed
            exact ⟨_, rfl, .unfolded proper unfolded⟩
        · next n folded =>
            split at failed
            · next negative =>
                cases failed
                exact ⟨_, rfl, .negative proper folded negative⟩
            · split at failed
              · next large =>
                  cases failed
                  exact ⟨_, rfl, .tooLarge proper folded large⟩
              · cases failed
  · rintro ⟨fault, rfl, flawed⟩
    have proper : (∀ i, element = .named i → i.name ≠ "void") → ¬ ty.isVoid = true :=
      fun notVoid void => (ne_void_iff known).mpr notVoid (Ty.isVoid_iff.mp void)
    cases flawed with
    | void here named =>
        rw [resolve_eq_void_iff.mpr ⟨_, here, named⟩] at known
        cases known
        rfl
    | unfolded notVoid unfolded => simp only [Ty.ofArray, if_neg (proper notVoid), unfolded]
    | negative notVoid folded negative =>
        simp only [Ty.ofArray, if_neg (proper notVoid), folded, if_pos negative]
        rfl
    | @tooLarge n notVoid folded large =>
        have notNegative : ¬ n.toInt < 0 := by omega
        have tooLarge : (wordMax : Int) < n.toInt := large
        simp only [Ty.ofArray, if_neg (proper notVoid), folded, if_neg notNegative, if_pos tooLarge]
        rfl

/-- An array speaks for itself only when its element has nothing to say. -/
theorem reports_array_iff {found : List Fault}
    (inner : ∀ found, Reports names element found ↔ Outcome.faults (element.resolve names) = found) :
    Reports names (.array element size l) found ↔
      Outcome.faults ((TypeExpr.array element size l).resolve names) = found := by
  have explained := element.resolve_explained names
  rw [resolve]
  constructor
  · intro reported
    cases reported with
    | element inside failed =>
        have said := (inner _).mp inside
        cases known : element.resolve names with
        | error found' =>
            rw [known] at said
            exact said
        | ok ty =>
            rw [known] at said
            exact absurd said.symm failed
    | own clean flawed =>
        obtain ⟨ty, known⟩ := explained.eq_ok ((inner _).mp clean)
        simp only [known, (ofArray_eq_error_iff known).mpr ⟨_, rfl, flawed⟩, Outcome.faults]
    | array clean proper =>
        obtain ⟨ty, known⟩ := explained.eq_ok ((inner _).mp clean)
        obtain ⟨ty', made⟩ := (exists_ofArray_iff known).mpr proper
        simp only [known, made, Outcome.faults]
  · rintro rfl
    cases known : element.resolve names with
    | error inside =>
        refine .element ((inner _).mpr ?_) (explained.faults_ne_nil known)
        rw [known]
    | ok ty =>
        have clean : Reports names element [] := (inner _).mpr (by rw [known]; rfl)
        simp only
        cases made : Ty.ofArray names ty size l with
        | ok ty' => exact .array clean ((exists_ofArray_iff known).mp ⟨ty', made⟩)
        | error found =>
            obtain ⟨fault, rfl, flawed⟩ := (ofArray_eq_error_iff known).mp made
            exact .own clean flawed

end Arrays

/-- The written types among the nodes are proper by themselves. -/
def AllProper (names : Names) (nodes : List Node) : Prop :=
  ∀ part, Node.typeExpr part ∈ nodes → Proper names part

theorem allProper_append_iff {nodes others : List Node} :
    AllProper names (nodes ++ others) ↔ AllProper names nodes ∧ AllProper names others := by
  simp only [AllProper, List.mem_append, or_imp, forall_and]

theorem allProper_cons_iff {a : TypeExpr} {nodes : List Node} :
    AllProper names (.typeExpr a :: nodes) ↔ Proper names a ∧ AllProper names nodes := by
  simp only [AllProper, List.mem_cons, Node.typeExpr.injEq, forall_eq_or_imp]

mutual

/-- Expressions have no written types in them. -/
theorem allProper_expr : (e : Expr) → AllProper names e.nodes
  | .number .. | .boolean .. | .text .. | .ident .. => by simp [AllProper, Expr.nodes]
  | .unary _ operand _ => by
      have inner := allProper_expr operand
      simpa [AllProper, Expr.nodes] using inner
  | .binary _ lhs rhs _ => by
      have inner := allProper_append_iff.mpr ⟨allProper_expr lhs, allProper_expr rhs⟩
      simpa [AllProper, Expr.nodes] using inner
  | .call callee args _ => by
      have inner := allProper_append_iff.mpr ⟨allProper_expr callee, allProper_exprs args⟩
      simpa [AllProper, Expr.nodes] using inner
  | .index target position _ => by
      have inner := allProper_append_iff.mpr ⟨allProper_expr target, allProper_expr position⟩
      simpa [AllProper, Expr.nodes] using inner

theorem allProper_exprs : (args : List Expr) → AllProper names (Expr.allNodes args)
  | [] => nofun
  | e :: rest => allProper_append_iff.mpr ⟨allProper_expr e, allProper_exprs rest⟩

end

mutual

theorem exists_resolve_iff : (a : TypeExpr) →
    ((∃ ty, a.resolve names = .ok ty) ↔ AllProper names a.nodes)
  | .named i => by
      rw [nodes, allProper_cons_iff, and_iff_left nofun, resolve]
      constructor
      · rintro ⟨ty, made⟩
        apply Proper.named
        by_contra unknown
        rw [Ty.ofIdent_of_unknown unknown] at made
        cases made
      · rintro ⟨known⟩
        exact Ty.ofIdent_of_known known
  | .array element size l => by
      rw [nodes, allProper_cons_iff, allProper_append_iff, ← element.exists_resolve_iff,
        and_iff_left (allProper_expr size), resolve]
      constructor
      · rintro ⟨ty', made⟩
        split at made
        · next ty known => exact ⟨(exists_ofArray_iff known).mp ⟨ty', made⟩, ty, known⟩
        · cases made
      · rintro ⟨proper, ty, known⟩
        obtain ⟨ty', made⟩ := (exists_ofArray_iff known).mpr proper
        exact ⟨ty', by rw [known]; exact made⟩
  | .callback params (some result) l => by
      rw [nodes, allProper_cons_iff, and_iff_right (.callback ..), allProper_append_iff,
        ← exists_resolveAll_iff params, ← result.exists_resolve_iff, resolve]
      simp only [Ty.ofParts_eq_ok_iff (resolveAll_explained names params) (result.resolve_explained names)]
      constructor
      · rintro ⟨-, tys, r, all, last, rfl⟩
        exact ⟨⟨tys, all⟩, r, last⟩
      · rintro ⟨⟨tys, all⟩, r, last⟩
        exact ⟨_, tys, r, all, last, rfl⟩
  | .callback params none l => by
      rw [nodes, allProper_cons_iff, and_iff_right (.callback ..), ← exists_resolveAll_iff params, resolve]
      simp only [Ty.ofParts_eq_ok_iff (resolveAll_explained names params) (.ok _)]
      constructor
      · rintro ⟨-, tys, r, all, -, rfl⟩
        exact ⟨tys, all⟩
      · rintro ⟨tys, all⟩
        exact ⟨_, tys, .void, all, rfl, rfl⟩

theorem exists_resolveAll_iff : (params : List TypeExpr) →
    ((∃ tys : List Ty, resolveAll names params = tys.map Except.ok) ↔
      AllProper names (allNodes params))
  | [] => iff_of_true ⟨[], rfl⟩ nofun
  | a :: rest => by
      rw [allNodes, allProper_append_iff, ← a.exists_resolve_iff, ← exists_resolveAll_iff rest, resolveAll]
      constructor
      · rintro ⟨tys, all⟩
        obtain ⟨ty, tys, rfl, first, others⟩ := List.map_eq_cons_iff.mp all.symm
        exact ⟨⟨ty, first.symm⟩, tys, others.symm⟩
      · rintro ⟨⟨ty, first⟩, tys, others⟩
        exact ⟨ty :: tys, by rw [first, others, List.map_cons]⟩

end

mutual

theorem reports_iff : (a : TypeExpr) → {found : List Fault} →
    Reports names a found ↔ Outcome.faults (a.resolve names) = found
  | .named i, found => by
      rw [resolve]
      by_cases known : i.name ∈ Primitive.typeNames
      · obtain ⟨ty, made⟩ := Ty.ofIdent_of_known known
        rw [made]
        constructor
        · intro reported
          cases reported with
          | known _ => rfl
          | unknown unknown => exact absurd known unknown
        · rintro rfl
          exact .known known
      · rw [Ty.ofIdent_of_unknown known]
        constructor
        · intro reported
          cases reported with
          | known listed => exact absurd listed known
          | unknown _ => rfl
        · rintro rfl
          exact .unknown known
  | .array element size l, found => reports_array_iff fun found => element.reports_iff
  | .callback params (some result) l, found => by
      rw [resolve, Ty.ofParts_eq, Outcome.faults_finish, List.flatMap_def]
      constructor
      · intro reported
        cases reported with
        | callback all last => rw [(allReport_iff params).mp all, result.reports_iff.mp last]
      · rintro rfl
        exact .callback ((allReport_iff params).mpr rfl) (result.reports_iff.mpr rfl)
  | .callback params none l, found => by
      rw [resolve, Ty.ofParts_eq, Outcome.faults_finish, List.flatMap_def]
      constructor
      · intro reported
        cases reported with
        | procedure all =>
            rw [(allReport_iff params).mp all]
            exact List.append_nil _
      · rintro rfl
        rw [Outcome.faults, List.append_nil]
        exact .procedure ((allReport_iff params).mpr rfl)

theorem allReport_iff : (params : List TypeExpr) → {blocks : List (List Fault)} →
    List.Forall₂ (Reports names) params blocks ↔
      (resolveAll names params).map Outcome.faults = blocks
  | [], blocks => by
      rw [List.forall₂_nil_left_iff, resolveAll]
      exact eq_comm
  | a :: rest, blocks => by
      rw [List.forall₂_cons_left_iff, resolveAll, List.map_cons]
      constructor
      · rintro ⟨block, blocks, first, others, rfl⟩
        rw [a.reports_iff.mp first, (allReport_iff rest).mp others]
      · rintro rfl
        exact ⟨_, _, a.reports_iff.mpr rfl, (allReport_iff rest).mpr rfl, rfl⟩

end

/-- A written type has a meaning exactly when all its parts are proper, and the meaning is the type that
it spells. Otherwise it is faulted for all that is wrong with it, in order. -/
theorem resolve_spelled (t : SymbolTable) (a : TypeExpr) :
    ((∃ ty, a.resolve t.names = .ok ty) ↔
      ∀ part, Node.typeExpr part ∈ a.nodes → part.Proper t.names) ∧
    (∀ ty, a.resolve t.names = .ok ty ↔ a.Spells t.names ty) ∧
    ∀ found, a.resolve t.names = .error found ↔ found ≠ [] ∧ a.Reports t.names found := by
  refine ⟨a.exists_resolve_iff, fun ty => a.spells_iff.symm, ?_⟩
  intro found
  rw [a.reports_iff]
  constructor
  · intro failed
    exact ⟨(a.resolve_explained t.names).faults_ne_nil failed, by rw [failed, Outcome.faults]⟩
  · rintro ⟨failed, rfl⟩
    cases resolved : a.resolve t.names with
    | ok ty =>
        rw [resolved] at failed
        exact absurd rfl failed
    | error found => rfl

end TypeExpr

end SemanticCheck
