import Mathlib.Data.List.Forall2
import SemanticCheck.Tree.Visit

/-!
Addresses in a tree. An address tells which part to go into at each level, from the outside inwards,
and parts are numbered as they are written. So the order of a dictionary on addresses is the order of
reading. The nodes of a program know nothing of addresses, yet their identifiers are those that stand
at some address, in this order and each as often as it stands somewhere.
-/
namespace SemanticCheck

/-- The numbers of the parts to go into. -/
abbrev Address := List Nat

/-- The identifiers of an expression. -/
@[grind cases, grind intro]
inductive Expr.At : Expr → Address → Ident → Prop
  | ident {i} : At (.ident i) [] i
  | operand {op operand l a i} : At operand a i → At (.unary op operand l) (0 :: a) i
  | lhs {op lhs rhs l a i} : At lhs a i → At (.binary op lhs rhs l) (0 :: a) i
  | rhs {op lhs rhs l a i} : At rhs a i → At (.binary op lhs rhs l) (1 :: a) i
  | callee {callee args l a i} : At callee a i → At (.call callee args l) (0 :: a) i
  | arg {callee args l k e a i} : args[k]? = some e → At e a i → At (.call callee args l) (1 :: k :: a) i
  | target {target position l a i} : At target a i → At (.index target position l) (0 :: a) i
  | position {target position l a i} : At position a i → At (.index target position l) (1 :: a) i

/-- The identifiers of a written type, which are those of its sizes. Names of types are none. -/
@[grind cases, grind intro]
inductive TypeExpr.At : TypeExpr → Address → Ident → Prop
  | element {element size l a i} : At element a i → At (.array element size l) (0 :: a) i
  | size {element size l a i} : size.At a i → At (.array element size l) (1 :: a) i
  | param {params result l k p a i} : params[k]? = some p → At p a i →
      At (.callback params result l) (0 :: k :: a) i
  | result {params result l a i} : At result a i → At (.callback params (some result) l) (1 :: a) i

@[grind cases, grind intro]
inductive VariableDecl.At (decl : VariableDecl) : Address → Ident → Prop
  | name : At decl [0] decl.name
  | type {written a i} : decl.typeExpr = some written → written.At a i → At decl (1 :: a) i
  | value {value a i} : decl.initializer = some value → value.At a i → At decl (2 :: a) i

/-- The identifiers of a statement. The statements of a block are numbered from its start. -/
@[grind cases, grind intro]
inductive Stmt.At : Stmt → Address → Ident → Prop
  | declare {decl a i} : decl.At a i → At (.declare decl) a i
  | target {assignment} : At (.assign assignment) [0] assignment.target
  | value {assignment a i} : assignment.value.At a i → At (.assign assignment) (1 :: a) i
  | expr {e a i} : e.At a i → At (.expr e) a i
  | ret {e l a i} : e.At a i → At (.ret (some e) l) a i
  | branch {condition yes no l a i} : condition.At a i → At (.branch condition yes no l) (0 :: a) i
  | yes {condition yes no l k s a i} : yes.statements[k]? = some s → At s a i →
      At (.branch condition yes no l) (1 :: k :: a) i
  | no {condition yes no l k s a i} : no.statements[k]? = some s → At s a i →
      At (.branch condition yes (some no) l) (2 :: k :: a) i
  | loop {condition body l a i} : condition.At a i → At (.loop condition body l) (0 :: a) i
  | body {condition body l k s a i} : body.statements[k]? = some s → At s a i →
      At (.loop condition body l) (1 :: k :: a) i
  | block {b k s a i} : b.statements[k]? = some s → At s a i → At (.block b) (k :: a) i

@[grind cases, grind intro]
inductive Parameter.At (p : Parameter) : Address → Ident → Prop
  | name : At p [0] p.name
  | type {a i} : p.typeExpr.At a i → At p (1 :: a) i
  | value {value a i} : p.default? = some value → value.At a i → At p (2 :: a) i

@[grind cases, grind intro]
inductive FunctionDecl.At (decl : FunctionDecl) : Address → Ident → Prop
  | name : At decl [0] decl.name
  | param {k p a i} : decl.params[k]? = some p → p.At a i → At decl (1 :: k :: a) i
  | result {result a i} : decl.result = some result → result.At a i → At decl (2 :: a) i
  | body {body k s a i} : decl.body = some body → body.statements[k]? = some s → s.At a i →
      At decl (3 :: k :: a) i

@[grind cases, grind intro]
inductive Item.At : Item → Address → Ident → Prop
  | function {decl a i} : decl.At a i → At (.function decl) a i
  | var {decl a i} : decl.At a i → At (.var decl) a i

/-- The identifiers of a program. The name of its module is none of them. -/
@[grind cases, grind intro]
inductive Program.At (program : Program) : Address → Ident → Prop
  | item {k item a i} : program.items[k]? = some item → item.At a i → At program (k :: a) i

namespace Ident

/-- What stands in parts that are numbered from some number on. -/
def InParts : Nat → List (Address → Ident → Prop) → Address → Ident → Prop
  | _, [], _, _ => False
  | n, part :: parts, a, i => (∃ rest, a = n :: rest ∧ part rest i) ∨ InParts (n + 1) parts a i

/-- The identifiers that stand at some address, in the order of the addresses. -/
def Listed (At : Address → Ident → Prop) (idents : List Ident) : Prop :=
  ∃ places : List (Address × Ident), places.Pairwise (fun p q => p.1 < q.1) ∧
    (∀ a i, (a, i) ∈ places ↔ At a i) ∧ places.map Prod.snd = idents

theorem InParts.exists_le {n : Nat} {parts : List (Address → Ident → Prop)} {a : Address} {i : Ident}
    (stands : InParts n parts a i) : ∃ m rest, n ≤ m ∧ a = m :: rest := by
  induction parts generalizing n with
  | nil => cases stands
  | cons part parts ih =>
      rcases stands with ⟨rest, rfl, -⟩ | later
      · exact ⟨n, rest, Nat.le_refl n, rfl⟩
      · obtain ⟨m, rest, above, rfl⟩ := ih later
        exact ⟨m, rest, by omega, rfl⟩

theorem inParts_map_iff {α : Type} {At : α → Address → Ident → Prop} {xs : List α} {n : Nat}
    {a : Address} {i : Ident} :
    InParts n (xs.map At) a i ↔ ∃ k x rest, xs[k]? = some x ∧ a = (n + k) :: rest ∧ At x rest i := by
  induction xs generalizing n with
  | nil => simp [InParts]
  | cons x xs ih =>
      rw [List.map_cons, InParts, ih]
      constructor
      · rintro (⟨rest, rfl, stands⟩ | ⟨k, y, rest, found, rfl, stands⟩)
        · exact ⟨0, x, rest, rfl, rfl, stands⟩
        · exact ⟨k + 1, y, rest, found, by rw [Nat.add_right_comm, Nat.add_assoc], stands⟩
      · rintro ⟨k, y, rest, found, rfl, stands⟩
        cases k with
        | zero =>
            cases found
            exact .inl ⟨rest, rfl, stands⟩
        | succ k => exact .inr ⟨k, y, rest, found, by rw [Nat.add_right_comm, Nat.add_assoc], stands⟩

namespace Listed

variable {At Part : Address → Ident → Prop} {idents more : List Ident}

theorem congr (h : Listed Part idents) (same : ∀ a i, Part a i ↔ At a i) : Listed At idents := by
  obtain ⟨places, ordered, each, listed⟩ := h
  exact ⟨places, ordered, fun a i => (each a i).trans (same a i), listed⟩

theorem nil (absent : ∀ a i, ¬ At a i) : Listed At [] := by
  refine ⟨[], List.Pairwise.nil, ?_, rfl⟩
  intro a i
  exact iff_of_false List.not_mem_nil (absent a i)

theorem single (b : Address) (j : Ident) : Listed (fun a i => a = b ∧ i = j) [j] := by
  refine ⟨[(b, j)], List.pairwise_singleton _ _, ?_, rfl⟩
  intro a i
  rw [List.mem_singleton, Prod.mk.injEq]

/-- The addresses of a part, seen from the whole. -/
theorem under (h : Listed At idents) (n : Nat) :
    Listed (fun a i => ∃ rest, a = n :: rest ∧ At rest i) idents := by
  obtain ⟨places, ordered, each, rfl⟩ := h
  refine ⟨places.map fun p => (n :: p.1, p.2), ?_, ?_, ?_⟩
  · apply List.pairwise_map.mpr
    apply ordered.imp
    intro p q before
    exact List.cons_lt_cons_iff.mpr (.inr ⟨rfl, before⟩)
  · intro a i
    simp only [List.mem_map, Prod.mk.injEq, Prod.exists, each]
    constructor
    · rintro ⟨rest, _, stands, rfl, rfl⟩
      exact ⟨rest, rfl, stands⟩
    · rintro ⟨rest, rfl, stands⟩
      exact ⟨rest, i, stands, rfl, rfl⟩
  · rw [List.map_map]
    rfl

theorem append (h : Listed At idents) (k : Listed Part more)
    (before : ∀ a i b j, At a i → Part b j → a < b) :
    Listed (fun a i => At a i ∨ Part a i) (idents ++ more) := by
  obtain ⟨places, ordered, each, rfl⟩ := h
  obtain ⟨others, later, every, rfl⟩ := k
  refine ⟨places ++ others, ?_, ?_, List.map_append⟩
  · apply List.pairwise_append.mpr
    refine ⟨ordered, later, ?_⟩
    intro p here q there
    exact before _ _ _ _ ((each p.1 p.2).mp here) ((every q.1 q.2).mp there)
  · intro a i
    rw [List.mem_append, each, every]

theorem numbered {parts : List (Address → Ident → Prop)} {lists : List (List Ident)}
    (each : List.Forall₂ Listed parts lists) (n : Nat) : Listed (InParts n parts) lists.flatten := by
  induction each generalizing n with
  | nil => exact nil fun _ _ => id
  | cons own _ ih =>
      apply (own.under n).append (ih (n + 1))
      rintro _ i b j ⟨rest, rfl, -⟩ later
      obtain ⟨m, other, above, rfl⟩ := later.exists_le
      exact List.cons_lt_cons_iff.mpr (.inl (by omega))

/-- The parts of something, one after the other. -/
theorem parts {parts : List (Address → Ident → Prop)} {lists : List (List Ident)}
    (each : List.Forall₂ Listed parts lists) (split : ∀ a i, InParts 0 parts a i ↔ At a i)
    (joined : lists.flatten = idents) : Listed At idents :=
  joined ▸ (numbered each 0).congr split

/-- The elements of a list, one after the other. -/
theorem all {α : Type} {At : α → Address → Ident → Prop} {idents : α → List Ident} {xs : List α}
    (each : ∀ x ∈ xs, Listed (At x) (idents x)) :
    Listed (fun a i => ∃ k x rest, xs[k]? = some x ∧ a = k :: rest ∧ At x rest i)
      (xs.flatMap idents) := by
  have parts : List.Forall₂ Listed (xs.map At) (xs.map idents) := by
    rw [List.forall₂_map_left_iff, List.forall₂_map_right_iff, List.forall₂_same]
    exact each
  rw [List.flatMap_def]
  apply (numbered parts 0).congr
  intro a i
  rw [inParts_map_iff]
  simp only [Nat.zero_add]

/-- A part that may be missing. -/
theorem optional {α : Type} {At : α → Address → Ident → Prop} {idents : α → List Ident} (o : Option α)
    (each : ∀ x, Listed (At x) (idents x)) :
    Listed (fun a i => ∃ x, o = some x ∧ At x a i) (o.elim [] idents) := by
  cases o with
  | none => exact nil fun a i missing => nomatch missing
  | some x =>
      apply (each x).congr
      intro a i
      simp only [Option.some.injEq, exists_eq_left']

/-- There is one such list. -/
theorem unique (h : Listed At idents) (k : Listed At more) : idents = more := by
  obtain ⟨places, ordered, each, rfl⟩ := h
  obtain ⟨others, sorted, every, rfl⟩ := k
  have distinct : ∀ {p q : Address × Ident}, p.1 < q.1 → p ≠ q := by
    intro p q before same
    rw [same] at before
    exact List.lt_irrefl _ before
  have perm : places.Perm others := by
    rw [List.perm_ext_iff_of_nodup (ordered.imp distinct) (sorted.imp distinct)]
    intro p
    rw [each, every]
  have antisymm : ∀ p q : Address × Ident, p ∈ places → q ∈ others → p.1 < q.1 → q.1 < p.1 → p = q :=
    fun _ _ _ _ before after => absurd after (List.lt_asymm before)
  rw [perm.eq_of_pairwise antisymm ordered sorted]

/-- Some of the identifiers. -/
theorem filter (h : Listed At idents) (keep : Ident → Bool) :
    Listed (fun a i => At a i ∧ keep i = true) (idents.filter keep) := by
  obtain ⟨places, ordered, each, rfl⟩ := h
  refine ⟨places.filter (keep ·.2), ordered.filter _, ?_, ?_⟩
  · intro a i
    rw [List.mem_filter, each]
  · rw [List.filter_map]
    rfl

theorem mem_iff (h : Listed At idents) {i : Ident} : i ∈ idents ↔ ∃ a, At a i := by
  obtain ⟨places, -, each, rfl⟩ := h
  simp only [List.mem_map, Prod.exists, exists_eq_right, each]

/-- The first one that passes a test has only ones before it that do not. -/
theorem find?_eq_some_iff (h : Listed At idents) {test : Ident → Bool} {i : Ident} :
    idents.find? test = some i ↔
      ∃ a, At a i ∧ test i = true ∧ ∀ b j, At b j → b < a → test j = false := by
  obtain ⟨places, ordered, each, rfl⟩ := h
  simp only [List.find?_map, Option.map_eq_some_iff, Prod.exists, exists_eq_right, ← each]
  apply exists_congr
  intro a
  rw [List.find?_eq_some_iff_append]
  constructor
  · rintro ⟨passes, before, after, rfl, fails⟩
    refine ⟨by simp, passes, ?_⟩
    intro b j stands earlier
    obtain ⟨-, later, -⟩ := List.pairwise_append.mp ordered
    rcases List.mem_append.mp stands with here | there
    · simpa using fails _ here
    · rcases List.mem_cons.mp there with same | behind
      · cases same
        exact absurd earlier (List.lt_irrefl _)
      · exact absurd earlier (List.lt_asymm ((List.pairwise_cons.mp later).1 _ behind))
  · rintro ⟨stands, passes, fails⟩
    obtain ⟨before, after, rfl⟩ := List.append_of_mem stands
    refine ⟨passes, before, after, rfl, ?_⟩
    intro p here
    have earlier : p.1 < a := (List.pairwise_append.mp ordered).2.2 p here (a, i) List.mem_cons_self
    simp [fails p.1 p.2 (List.mem_append_left _ here) earlier]

end Listed

end Ident

/-- The identifiers among nodes. -/
def Node.idents (nodes : List Node) : List Ident := nodes.filterMap Node.ident?

open Ident (Listed InParts)

theorem Expr.allNodes_eq_flatMap (es : List Expr) : Expr.allNodes es = es.flatMap Expr.nodes := by
  induction es with
  | nil => rfl
  | cons e rest ih => rw [Expr.allNodes, ih, List.flatMap_cons]

theorem TypeExpr.allNodes_eq_flatMap (as : List TypeExpr) :
    TypeExpr.allNodes as = as.flatMap TypeExpr.nodes := by
  induction as with
  | nil => rfl
  | cons a rest ih => rw [TypeExpr.allNodes, ih, List.flatMap_cons]

theorem Stmt.allNodes_eq_flatMap (statements : List Stmt) :
    Stmt.allNodes statements = statements.flatMap Stmt.nodes := by
  induction statements with
  | nil => rfl
  | cons s rest ih => rw [Stmt.allNodes, ih, List.flatMap_cons]

namespace Node

@[simp] theorem idents_nil : idents [] = [] := rfl

@[simp] theorem idents_cons (n : Node) (nodes : List Node) :
    idents (n :: nodes) = n.ident?.toList ++ idents nodes := by
  cases n <;> rfl

@[simp] theorem idents_append (nodes more : List Node) :
    idents (nodes ++ more) = idents nodes ++ idents more := List.filterMap_append

@[simp] theorem idents_flatMap {α : Type} (nodes : α → List Node) (xs : List α) :
    idents (xs.flatMap nodes) = xs.flatMap fun x => idents (nodes x) := by
  induction xs with
  | nil => rfl
  | cons x xs ih => rw [List.flatMap_cons, List.flatMap_cons, idents_append, ih]

@[simp] theorem idents_nodesOf {α : Type} (nodes : α → List Node) (o : Option α) :
    idents (nodesOf nodes o) = o.elim [] fun x => idents (nodes x) := by
  cases o <;> rfl

end Node

mutual

theorem Expr.listed (e : Expr) : Listed e.At (Node.idents e.nodes) := by
  cases e with
  | number value l => exact .nil fun _ _ => nofun
  | boolean value l => exact .nil fun _ _ => nofun
  | text value l => exact .nil fun _ _ => nofun
  | ident i => exact (Listed.single [] i).congr fun a j => by grind
  | unary op operand l =>
      apply Listed.parts (.cons (Expr.listed operand) .nil)
      · grind [InParts]
      · simp [Expr.nodes, Node.ident?]
  | binary op lhs rhs l =>
      apply Listed.parts (.cons (Expr.listed lhs) (.cons (Expr.listed rhs) .nil))
      · grind [InParts]
      · simp [Expr.nodes, Node.ident?]
  | call callee args l =>
      apply Listed.parts (.cons (Expr.listed callee) (.cons (.all (Expr.listed_all args)) .nil))
      · grind [InParts]
      · simp [Expr.nodes, Node.ident?, Expr.allNodes_eq_flatMap]
  | index target position l =>
      apply Listed.parts (.cons (Expr.listed target) (.cons (Expr.listed position) .nil))
      · grind [InParts]
      · simp [Expr.nodes, Node.ident?]

theorem Expr.listed_all (es : List Expr) : ∀ e ∈ es, Listed e.At (Node.idents e.nodes) := by
  cases es with
  | nil => exact List.forall_mem_nil _
  | cons e rest => exact List.forall_mem_cons.mpr ⟨Expr.listed e, Expr.listed_all rest⟩

end

mutual

theorem TypeExpr.listed (written : TypeExpr) : Listed written.At (Node.idents written.nodes) := by
  cases written with
  | named name => exact .nil fun _ _ => nofun
  | array element size l =>
      apply Listed.parts (.cons (TypeExpr.listed element) (.cons size.listed .nil))
      · grind [InParts]
      · simp [TypeExpr.nodes, Node.ident?]
  | callback params result l =>
      have all := Listed.all (TypeExpr.listed_all params)
      cases result with
      | some result =>
          apply Listed.parts (.cons all (.cons (TypeExpr.listed result) .nil))
          · grind [InParts]
          · simp [TypeExpr.nodes, Node.ident?, TypeExpr.allNodes_eq_flatMap]
      | none =>
          apply Listed.parts (.cons all .nil)
          · grind [InParts]
          · simp [TypeExpr.nodes, Node.ident?, TypeExpr.allNodes_eq_flatMap]

theorem TypeExpr.listed_all (as : List TypeExpr) :
    ∀ written ∈ as, Listed written.At (Node.idents written.nodes) := by
  cases as with
  | nil => exact List.forall_mem_nil _
  | cons a rest => exact List.forall_mem_cons.mpr ⟨TypeExpr.listed a, TypeExpr.listed_all rest⟩

end

theorem VariableDecl.listed (decl : VariableDecl) : Listed decl.At (Node.idents decl.nodes) := by
  apply Listed.parts (.cons (.single [] decl.name)
    (.cons (.optional decl.typeExpr TypeExpr.listed) (.cons (.optional decl.initializer Expr.listed) .nil)))
  · grind [InParts]
  · simp [VariableDecl.nodes, Node.ident?]

mutual

theorem Stmt.listed (s : Stmt) : Listed s.At (Node.idents s.nodes) := by
  cases s with
  | declare decl => exact decl.listed.congr fun a i => by grind
  | assign assignment =>
      apply Listed.parts (.cons (.single [] assignment.target) (.cons assignment.value.listed .nil))
      · grind [InParts]
      · simp [Stmt.nodes, Node.ident?]
  | expr e => exact e.listed.congr fun a i => by grind
  | ret value l =>
      cases value with
      | some e => exact e.listed.congr fun a i => by grind
      | none => exact .nil fun _ _ => nofun
  | branch condition yes no l =>
      cases no with
      | some no =>
          apply Listed.parts
            (.cons condition.listed (.cons (Block.listed yes) (.cons (Block.listed no) .nil)))
          · grind [InParts]
          · simp [Stmt.nodes, Node.ident?]
      | none =>
          apply Listed.parts (.cons condition.listed (.cons (Block.listed yes) .nil))
          · grind [InParts]
          · simp [Stmt.nodes, Node.ident?]
  | loop condition body l =>
      apply Listed.parts (.cons condition.listed (.cons (Block.listed body) .nil))
      · grind [InParts]
      · simp [Stmt.nodes, Node.ident?]
  | block b => exact (Block.listed b).congr fun a i => by grind

theorem Block.listed (b : Block) :
    Listed (fun a i => ∃ k s rest, b.statements[k]? = some s ∧ a = k :: rest ∧ s.At rest i)
      (Node.idents b.nodes) := by
  cases b with
  | mk statements l =>
      rw [Block.nodes, Stmt.allNodes_eq_flatMap, Node.idents_flatMap]
      exact .all (Stmt.listed_all statements)

theorem Stmt.listed_all (statements : List Stmt) :
    ∀ s ∈ statements, Listed s.At (Node.idents s.nodes) := by
  cases statements with
  | nil => exact List.forall_mem_nil _
  | cons s rest => exact List.forall_mem_cons.mpr ⟨Stmt.listed s, Stmt.listed_all rest⟩

end

theorem Parameter.listed (p : Parameter) : Listed p.At (Node.idents p.nodes) := by
  apply Listed.parts (.cons (.single [] p.name)
    (.cons p.typeExpr.listed (.cons (.optional p.default? Expr.listed) .nil)))
  · grind [InParts]
  · simp [Parameter.nodes, Node.ident?]

theorem FunctionDecl.listed (decl : FunctionDecl) : Listed decl.At (Node.idents decl.nodes) := by
  have params : ∀ p ∈ decl.params, Listed p.At (Node.idents p.nodes) := fun p _ => p.listed
  apply Listed.parts (.cons (.single [] decl.name) (.cons (.all params)
    (.cons (.optional decl.result TypeExpr.listed) (.cons (.optional decl.body Block.listed) .nil))))
  · grind [InParts]
  · simp [FunctionDecl.nodes, Node.ident?]

theorem Item.listed (item : Item) : Listed item.At (Node.idents item.nodes) := by
  cases item with
  | function decl => exact decl.listed.congr fun a i => by grind
  | var decl => exact decl.listed.congr fun a i => by grind

/-- The identifiers of a program are those at its addresses, in the order of the addresses. -/
theorem Program.listed (program : Program) : Listed program.At program.idents := by
  have items : ∀ item ∈ program.items, Listed item.At (Node.idents item.nodes) :=
    fun item _ => item.listed
  have all := Listed.all items
  rw [← Node.idents_flatMap] at all
  exact all.congr fun a i => by grind

end SemanticCheck
