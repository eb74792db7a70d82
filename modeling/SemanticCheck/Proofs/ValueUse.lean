import SemanticCheck.Proofs.Failure
import SemanticCheck.Proofs.Passes

/-!
Where a program uses values: as initializers, in assignments, as results, as default values, and as
arguments of calls at any depth. Values are listed twice, once as they are written, and once as they
are checked, with the meaning of names at that moment and the type of the slot they are meant for.
Checking a program without faults comes by every written value exactly once.
-/
namespace SemanticCheck

mutual

/-- The arguments of all calls in an expression. -/
def Expr.values : Expr → List Expr
  | .number _ _ | .boolean _ _ | .text _ _ | .ident _ => []
  | .unary _ operand _ => operand.values
  | .binary _ lhs rhs _ => lhs.values ++ rhs.values
  | .call callee args _ => callee.values ++ argumentValues args
  | .index target position _ => target.values ++ position.values

def Expr.argumentValues : List Expr → List Expr
  | [] => []
  | e :: rest => e :: (e.values ++ argumentValues rest)

end

mutual

def TypeExpr.values : TypeExpr → List Expr
  | .named _ => []
  | .array element size _ => element.values ++ size.values
  | .callback params (some result) _ => allValues params ++ result.values
  | .callback params none _ => allValues params

def TypeExpr.allValues : List TypeExpr → List Expr
  | [] => []
  | a :: rest => a.values ++ allValues rest

end

def Expr.storedValues (e : Expr) : List Expr := e :: e.values

def valuesOf {α : Type} (values : α → List Expr) : Option α → List Expr
  | some a => values a
  | none => []

def VariableDecl.values (decl : VariableDecl) : List Expr :=
  valuesOf TypeExpr.values decl.typeExpr ++ valuesOf Expr.storedValues decl.initializer

def Parameter.values (p : Parameter) : List Expr :=
  p.typeExpr.values ++ valuesOf Expr.storedValues p.default?

mutual

def Stmt.values : Stmt → List Expr
  | .declare decl => decl.values
  | .assign a => a.value.storedValues
  | .expr e => e.values
  | .ret value _ => valuesOf Expr.storedValues value
  | .branch condition yes (some no) _ => condition.values ++ yes.values ++ no.values
  | .branch condition yes none _ => condition.values ++ yes.values
  | .loop condition body _ => condition.values ++ body.values
  | .block b => b.values

def Block.values : Block → List Expr
  | .mk statements _ => Stmt.allValues statements

def Stmt.allValues : List Stmt → List Expr
  | [] => []
  | s :: rest => s.values ++ Stmt.allValues rest

end

def FunctionDecl.signatureValues (decl : FunctionDecl) : List Expr :=
  decl.params.flatMap Parameter.values ++ valuesOf TypeExpr.values decl.result

def Item.values : Item → List Expr
  | .function decl => decl.signatureValues ++ valuesOf Block.values decl.body
  | .var decl => decl.values

def Program.values (program : Program) : List Expr := program.items.flatMap Item.values

/-- A value with what names stand for where it is checked, and the type of the slot that it is to be
stored in, if that is known. -/
structure ValueUse where
  names : Names
  slot : Option Ty
  value : Expr

/-- The types of the slots that a call passes its arguments to. -/
def Names.slots (names : Names) (callee : Expr) : List Ty :=
  match callee.ident?.bind fun i => names i.name with
  | some (.function f) => f.params.map (·.ty)
  | some (.var v) => v.ty.signature?.elim [] (·.params)
  | none => []

mutual

def Expr.uses (names : Names) : Expr → List ValueUse
  | .number _ _ | .boolean _ _ | .text _ _ | .ident _ => []
  | .unary _ operand _ => operand.uses names
  | .binary _ lhs rhs _ => lhs.uses names ++ rhs.uses names
  | .call callee args _ => callee.uses names ++ argumentUses names args (names.slots callee)
  | .index target position _ => target.uses names ++ position.uses names

def Expr.argumentUses (names : Names) : List Expr → List Ty → List ValueUse
  | [], _ => []
  | e :: rest, slots =>
      ⟨names, slots.head?, e⟩ :: (e.uses names ++ argumentUses names rest slots.tail)

end

mutual

def TypeExpr.uses (names : Names) : TypeExpr → List ValueUse
  | .named _ => []
  | .array element size _ => element.uses names ++ size.uses names
  | .callback params (some result) _ => allUses names params ++ result.uses names
  | .callback params none _ => allUses names params

def TypeExpr.allUses (names : Names) : List TypeExpr → List ValueUse
  | [] => []
  | a :: rest => a.uses names ++ allUses names rest

end

def Expr.storedUses (names : Names) (slot : Option Ty) (e : Expr) : List ValueUse :=
  ⟨names, slot, e⟩ :: e.uses names

def usesOf {α : Type} (uses : α → List ValueUse) : Option α → List ValueUse
  | some a => uses a
  | none => []

/-- The slot of an initializer is the variable, whose type is the written or the inferred one. -/
def VariableDecl.uses (decl : VariableDecl) (settings : AnalysisSettings) (names : Names) :
    List ValueUse :=
  usesOf (TypeExpr.uses names) decl.typeExpr ++
    usesOf (Expr.storedUses names (decl.typed settings (Expr.infer settings) names).2) decl.initializer

def Parameter.uses (names : Names) (p : Parameter) : List ValueUse :=
  p.typeExpr.uses names ++
    usesOf (Expr.storedUses names (Outcome.value? (p.typeExpr.resolve names))) p.default?

def FunctionDecl.signatureUses (decl : FunctionDecl) (names : Names) : List ValueUse :=
  decl.params.flatMap (Parameter.uses names) ++ usesOf (TypeExpr.uses names) decl.result

mutual

/-- The values of a statement of a function with the given result type. -/
def Stmt.uses (settings : AnalysisSettings) (result : Option Ty) : Stmt → SymbolTable → List ValueUse
  | .declare decl, t => decl.uses settings t.names
  | .assign a, t => a.value.storedUses t.names ((t.names.var? a.target.name).map (·.ty))
  | .expr e, t => e.uses t.names
  | .ret value _, t => usesOf (Expr.storedUses t.names result) value
  | .branch condition yes (some no) _, t =>
      condition.uses t.names ++ yes.uses settings result t ++
        no.uses settings result (.leftBy (yes.check settings result t))
  | .branch condition yes none _, t => condition.uses t.names ++ yes.uses settings result t
  | .loop condition body _, t => condition.uses t.names ++ body.uses settings result t
  | .block b, t => b.uses settings result t

def Block.uses (settings : AnalysisSettings) (result : Option Ty) :
    Block → SymbolTable → List ValueUse
  | .mk statements _, t => Stmt.allUses settings result statements (t.push .block)

def Stmt.allUses (settings : AnalysisSettings) (result : Option Ty) :
    List Stmt → SymbolTable → List ValueUse
  | [], _ => []
  | s :: rest, t =>
      s.uses settings result t ++
        Stmt.allUses settings result rest (.leftBy (s.check settings result t))

end

def FunctionSymbol.bodyUses (settings : AnalysisSettings) (f : FunctionSymbol) (t : SymbolTable)
    (body : Block) : List ValueUse :=
  Stmt.allUses settings (some f.result) body.statements
    ((t.push .function).declareParams f.params).1

/-- The values that the first pass checks. -/
def Item.declareUses (settings : AnalysisSettings) (t : SymbolTable) : Item → List ValueUse
  | .function decl => decl.signatureUses t.names
  | .var decl => if decl.isFolded t.names then decl.uses settings t.names else []

/-- The values that the second pass checks. -/
def Item.completeUses (settings : AnalysisSettings) (t : SymbolTable) : Item → Standing → List ValueUse
  | .var decl, .pending => decl.uses settings t.names
  | .function decl, .registered f => usesOf (f.bodyUses settings t) decl.body
  | _, _ => []

def declareUses (settings : AnalysisSettings) : List Item → SymbolTable → List ValueUse
  | [], _ => []
  | item :: rest, t =>
      item.declareUses settings t ++ declareUses settings rest (item.declare settings t).1

def completeUses (settings : AnalysisSettings) :
    List (Item × Standing × List Fault) → SymbolTable → List ValueUse
  | [], _ => []
  | (item, standing, _) :: rest, t =>
      item.completeUses settings t standing ++
        completeUses settings rest (.leftBy (item.complete settings standing t))

/-- The values of a program in the order in which the two passes check them. -/
def Program.uses (settings : AnalysisSettings) (program : Program) : List ValueUse :=
  declareUses settings program.items program.topTable ++
    completeUses settings (declareItems settings program.items program.topTable).2
      (declareItems settings program.items program.topTable).1

mutual

theorem Expr.map_value_uses (names : Names) :
    (e : Expr) → (e.uses names).map ValueUse.value = e.values
  | .number _ _ | .boolean _ _ | .text _ _ | .ident _ => rfl
  | .unary op operand l => operand.map_value_uses names
  | .binary op lhs rhs l => by
      rw [Expr.uses, Expr.values, List.map_append, lhs.map_value_uses, rhs.map_value_uses]
  | .call callee args l => by
      rw [Expr.uses, Expr.values, List.map_append, callee.map_value_uses,
        Expr.map_value_argumentUses names args]
  | .index target position l => by
      rw [Expr.uses, Expr.values, List.map_append, target.map_value_uses, position.map_value_uses]

theorem Expr.map_value_argumentUses (names : Names) :
    (args : List Expr) → (slots : List Ty) →
      (Expr.argumentUses names args slots).map ValueUse.value = Expr.argumentValues args
  | [], _ => rfl
  | e :: rest, slots => by
      rw [Expr.argumentUses, Expr.argumentValues, List.map_cons, List.map_append, e.map_value_uses,
        Expr.map_value_argumentUses names rest]

end

mutual

theorem TypeExpr.map_value_uses (names : Names) :
    (a : TypeExpr) → (a.uses names).map ValueUse.value = a.values
  | .named i => rfl
  | .array element size l => by
      rw [TypeExpr.uses, TypeExpr.values, List.map_append, element.map_value_uses, size.map_value_uses]
  | .callback params (some result) l => by
      rw [TypeExpr.uses, TypeExpr.values, List.map_append, TypeExpr.map_value_allUses names params,
        result.map_value_uses]
  | .callback params none l => by
      rw [TypeExpr.uses, TypeExpr.values, TypeExpr.map_value_allUses names params]

theorem TypeExpr.map_value_allUses (names : Names) :
    (params : List TypeExpr) →
      (TypeExpr.allUses names params).map ValueUse.value = TypeExpr.allValues params
  | [] => rfl
  | a :: rest => by
      rw [TypeExpr.allUses, TypeExpr.allValues, List.map_append, a.map_value_uses,
        TypeExpr.map_value_allUses names rest]

end

theorem Expr.map_value_storedUses (names : Names) (slot : Option Ty) (e : Expr) :
    (e.storedUses names slot).map ValueUse.value = e.storedValues := by
  rw [Expr.storedUses, Expr.storedValues, List.map_cons, e.map_value_uses]

theorem map_value_usesOf {α : Type} {uses : α → List ValueUse} {values : α → List Expr}
    (h : ∀ a, (uses a).map ValueUse.value = values a) (o : Option α) :
    (usesOf uses o).map ValueUse.value = valuesOf values o := by
  cases o with
  | none => rfl
  | some a => exact h a

theorem VariableDecl.map_value_uses (decl : VariableDecl) (settings : AnalysisSettings)
    (names : Names) : (decl.uses settings names).map ValueUse.value = decl.values := by
  rw [VariableDecl.uses, VariableDecl.values, List.map_append,
    map_value_usesOf (TypeExpr.map_value_uses names), map_value_usesOf (Expr.map_value_storedUses names _)]

theorem Parameter.map_value_uses (names : Names) (p : Parameter) :
    (p.uses names).map ValueUse.value = p.values := by
  rw [Parameter.uses, Parameter.values, List.map_append, p.typeExpr.map_value_uses,
    map_value_usesOf (Expr.map_value_storedUses names _)]

theorem FunctionDecl.map_value_signatureUses (decl : FunctionDecl) (names : Names) :
    (decl.signatureUses names).map ValueUse.value = decl.signatureValues := by
  have params : (fun p : Parameter => (p.uses names).map ValueUse.value) = Parameter.values :=
    funext (Parameter.map_value_uses names)
  rw [FunctionDecl.signatureUses, FunctionDecl.signatureValues, List.map_append, List.map_flatMap,
    params, map_value_usesOf (TypeExpr.map_value_uses names)]

mutual

theorem Stmt.map_value_uses (settings : AnalysisSettings) (result : Option Ty) :
    (s : Stmt) → (t : SymbolTable) → (s.uses settings result t).map ValueUse.value = s.values
  | .declare decl, t => decl.map_value_uses settings t.names
  | .assign a, t => a.value.map_value_storedUses t.names _
  | .expr e, t => e.map_value_uses t.names
  | .ret value l, t => map_value_usesOf (Expr.map_value_storedUses t.names result) value
  | .branch condition yes (some no) l, t => by
      rw [Stmt.uses, Stmt.values, List.map_append, List.map_append, condition.map_value_uses,
        Block.map_value_uses settings result yes, Block.map_value_uses settings result no]
  | .branch condition yes none l, t => by
      rw [Stmt.uses, Stmt.values, List.map_append, condition.map_value_uses,
        Block.map_value_uses settings result yes]
  | .loop condition body l, t => by
      rw [Stmt.uses, Stmt.values, List.map_append, condition.map_value_uses,
        Block.map_value_uses settings result body]
  | .block b, t => Block.map_value_uses settings result b t

theorem Block.map_value_uses (settings : AnalysisSettings) (result : Option Ty) :
    (b : Block) → (t : SymbolTable) → (b.uses settings result t).map ValueUse.value = b.values
  | .mk statements _, t => Stmt.map_value_allUses settings result statements (t.push .block)

theorem Stmt.map_value_allUses (settings : AnalysisSettings) (result : Option Ty) :
    (statements : List Stmt) → (t : SymbolTable) →
      (Stmt.allUses settings result statements t).map ValueUse.value = Stmt.allValues statements
  | [], _ => rfl
  | s :: rest, t => by
      rw [Stmt.allUses, Stmt.allValues, List.map_append, Stmt.map_value_uses settings result s,
        Stmt.map_value_allUses settings result rest]

end

theorem FunctionSymbol.map_value_bodyUses (settings : AnalysisSettings) (f : FunctionSymbol)
    (t : SymbolTable) (body : Block) :
    (f.bodyUses settings t body).map ValueUse.value = body.values := by
  cases body with
  | mk statements l => exact Stmt.map_value_allUses settings _ statements _

/-- A function that the first pass accepts is declared, since a refused one is reported. -/
theorem Item.declare_function_of_clean {settings : AnalysisSettings} {t : SymbolTable}
    {decl : FunctionDecl} (clean : ((Item.function decl).declare settings t).2.2 = []) :
    ∃ f, decl.symbol settings t.site = .ok f ∧
      (Item.function decl).declare settings t = (t.add (.function f), .registered f, []) := by
  simp only [Item.declare, SymbolTable.declareFunction_eq] at clean ⊢
  cases found : decl.symbol settings t.site with
  | error faults =>
      simp only [found, SymbolTable.receive] at clean
      exact absurd clean ((decl.symbol_explained settings t.site).faults_ne_nil found)
  | ok f => exact ⟨f, rfl, rfl⟩

/-- An item that the first pass accepts has its values checked by the two passes together. -/
theorem Item.map_value_uses {settings : AnalysisSettings} {t : SymbolTable} (item : Item)
    (clean : (item.declare settings t).2.2 = []) (later : SymbolTable) :
    (item.declareUses settings t).map ValueUse.value ++
        (item.completeUses settings later (item.declare settings t).2.1).map ValueUse.value =
      item.values := by
  cases item with
  | function decl =>
      obtain ⟨f, -, declared⟩ := Item.declare_function_of_clean clean
      simp only [declared, Item.declareUses, Item.completeUses, Item.values]
      rw [decl.map_value_signatureUses, map_value_usesOf (f.map_value_bodyUses settings later)]
  | var decl =>
      simp only [Item.declare, Item.declareUses, Item.values]
      by_cases folded : decl.isFolded t.names
      · rw [if_pos folded, if_pos folded, decl.map_value_uses]
        exact List.append_nil _
      · rw [if_neg folded, if_neg folded]
        exact decl.map_value_uses settings later.names

/-- Two passes that accept all items check the values of the items, in an order of their own. -/
theorem map_value_uses_perm {settings : AnalysisSettings} (items : List Item) {t : SymbolTable}
    (clean : ∀ entry ∈ (declareItems settings items t).2, entry.2.2 = []) (later : SymbolTable) :
    ((declareUses settings items t).map ValueUse.value ++
      (completeUses settings (declareItems settings items t).2 later).map ValueUse.value).Perm
        (items.flatMap Item.values) := by
  induction items generalizing t later with
  | nil => exact .refl _
  | cons item rest ih =>
      simp only [declareItems_cons, List.forall_mem_cons] at clean
      simp only [declareUses, declareItems_cons, completeUses, List.map_append, List.flatMap_cons,
        ← item.map_value_uses clean.1 later, List.append_assoc]
      refine List.Perm.append_left _ ((List.perm_append_comm_assoc _ _ _).trans ?_)
      exact List.Perm.append_left _ (ih clean.2 _)

end SemanticCheck
