import SemanticCheck.Proofs.Signature
import SemanticCheck.Proofs.TopLevel
import SemanticCheck.Tree.Shorthand

/-!
The order of functions. All signatures are declared before any body is checked, so two neighbouring
functions may change places: they keep their faults, and nothing else in the program notices.
-/
namespace SemanticCheck

variable {settings : AnalysisSettings} {f g : FunctionDecl}

/-- Nothing in the signature of the first function can tell whether the second one is declared. -/
structure FunctionDecl.Ignores (f g : FunctionDecl) : Prop where
  plain : ∀ p ∈ f.params, p.default? = none
  different : g.name.name ≠ f.name.name
  unmentioned : g.name.name ∉ f.sizeNames

namespace Environment

theorem bind_comm {x y : Symbol} (different : x.name ≠ y.name) (env : Environment) :
    (env.bind x).bind y = (env.bind y).bind x := by
  cases env with
  | nil => rfl
  | cons frame rest =>
      simp only [bind, List.cons.injEq, Frame.mk.injEq, true_and, and_true]
      funext name
      by_cases first : x.name = name
      · have second : y.name ≠ name := fun same => different (first.trans same.symm)
        simp only [if_pos first, if_neg second]
      · simp only [if_neg first]

theorem names_bind_of_ne {x : Symbol} {name : String} (other : x.name ≠ name) (env : Environment) :
    (env.bind x).names name = env.names name := by
  cases env with
  | nil => rfl
  | cons frame rest => simp only [bind, names, List.findSome?_cons, if_neg other]

theorem top_bind_of_ne {x : Symbol} {name : String} (other : x.name ≠ name) (env : Environment) :
    (env.bind x).top.names name = env.top.names name := by
  cases env with
  | nil => rfl
  | cons frame rest => exact if_neg other

/-- The environment after a function declaration with the given outcome. -/
def bindOutcome (env : Environment) : Outcome FunctionSymbol → Environment
  | .ok symbol => env.bind (.function symbol)
  | .error _ => env

end Environment

/-- What the first pass notes about a function declaration with the given outcome. -/
def FunctionDecl.entry (decl : FunctionDecl) :
    Outcome FunctionSymbol → Item × Standing × List Fault
  | .ok symbol => (.function decl, .registered symbol, [])
  | .error faults => (.function decl, .settled, faults)

/-- The faults of a function declaration with the given outcome: those of its signature, or else
those of its body. -/
def FunctionDecl.blockIn (decl : FunctionDecl) (settings : AnalysisSettings) (env : Environment) :
    Outcome FunctionSymbol → List Fault
  | .ok symbol => (decl.body.map fun body => symbol.checkBodyIn settings body env).getD []
  | .error faults => faults

/-- A signature that ignores a function is the same before and after its declaration. -/
theorem FunctionDecl.Ignores.symbol_eq (h : f.Ignores g) (env : Environment) :
    f.symbol settings (env.bindOutcome (g.symbol settings env.site)).site =
      f.symbol settings env.site := by
  cases declared : g.symbol settings env.site with
  | error faults => rfl
  | ok symbol =>
      have named : (Symbol.function symbol).name = g.name.name := FunctionDecl.name_of_symbol declared
      refine FunctionDecl.symbol_congr h.plain ?_ ?_ rfl (env.kind_top_bind _)
      · intro i member
        apply Environment.names_bind_of_ne
        rw [named]
        intro same
        exact h.unmentioned (same ▸ FunctionDecl.mem_sizeNames member)
      · apply Environment.top_bind_of_ne
        rw [named]
        exact h.different

namespace Environment

theorem bindOutcome_comm (settings : AnalysisSettings) (different : g.name.name ≠ f.name.name)
    (env : Environment) (site : Site) :
    (env.bindOutcome (f.symbol settings site)).bindOutcome (g.symbol settings site) =
      (env.bindOutcome (g.symbol settings site)).bindOutcome (f.symbol settings site) := by
  cases first : f.symbol settings site with
  | error faults => rfl
  | ok x =>
      cases second : g.symbol settings site with
      | error faults => rfl
      | ok y =>
          have apart : x.name ≠ y.name := by
            rw [FunctionDecl.name_of_symbol first, FunctionDecl.name_of_symbol second]
            exact different.symm
          exact bind_comm (x := .function x) (y := .function y) apart env

theorem declareItems_function (decl : FunctionDecl) (rest : List Item) (env : Environment) :
    declareItems settings (.function decl :: rest) env =
      ((declareItems settings rest (env.bindOutcome (decl.symbol settings env.site))).1,
        decl.entry (decl.symbol settings env.site) ::
          (declareItems settings rest (env.bindOutcome (decl.symbol settings env.site))).2) := by
  simp only [declareItems, Item.declareIn]
  cases decl.symbol settings env.site <;> rfl

theorem declareItems_append (items more : List Item) (env : Environment) :
    declareItems settings (items ++ more) env =
      ((declareItems settings more (declareItems settings items env).1).1,
        (declareItems settings items env).2 ++
          (declareItems settings more (declareItems settings items env).1).2) := by
  induction items generalizing env with
  | nil => rfl
  | cons item rest ih => simp only [List.cons_append, declareItems, ih]

theorem completeItems_append (declared more : List (Item × Standing × List Fault))
    (env : Environment) :
    completeItems settings (declared ++ more) env =
      ((completeItems settings more (completeItems settings declared env).1).1,
        (completeItems settings declared env).2 ++
          (completeItems settings more (completeItems settings declared env).1).2) := by
  induction declared generalizing env with
  | nil => rfl
  | cons entry rest ih => simp only [List.cons_append, completeItems, ih]

theorem length_declareItems (items : List Item) (env : Environment) :
    (declareItems settings items env).2.length = items.length := by
  induction items generalizing env with
  | nil => rfl
  | cons item rest ih => simp only [declareItems, List.length_cons, ih]

theorem length_completeItems (declared : List (Item × Standing × List Fault)) (env : Environment) :
    (completeItems settings declared env).2.length = declared.length := by
  induction declared generalizing env with
  | nil => rfl
  | cons entry rest ih => simp only [completeItems, List.length_cons, ih]

/-- A function changes nothing for the items behind it in the second pass. -/
theorem completeItems_function (decl : FunctionDecl) (outcome : Outcome FunctionSymbol)
    (rest : List (Item × Standing × List Fault)) (env : Environment) :
    completeItems settings (decl.entry outcome :: rest) env =
      ((completeItems settings rest env).1,
        decl.blockIn settings env outcome :: (completeItems settings rest env).2) := by
  cases outcome with
  | error faults =>
      simp only [FunctionDecl.entry, completeItems, Item.completeIn, FunctionDecl.blockIn,
        List.append_nil]
  | ok symbol =>
      simp only [FunctionDecl.entry, completeItems, Item.completeIn, FunctionDecl.blockIn]
      cases decl.body <;> rfl

/-- Functions that ignore each other change places together with their blocks. -/
theorem analyzeItems_exchange (settings : AnalysisSettings) (fg : f.Ignores g) (gf : g.Ignores f)
    (pre post : List Item) (env : Environment) :
    ∃ after front ofF ofG back, front.length = pre.length ∧ back.length = post.length ∧
      analyzeItems settings (pre ++ [.function f, .function g] ++ post) env =
        (after, front ++ [ofF, ofG] ++ back) ∧
      analyzeItems settings (pre ++ [.function g, .function f] ++ post) env =
        (after, front ++ [ofG, ofF] ++ back) := by
  have both := bindOutcome_comm settings fg.different
    (declareItems settings pre env).1 (declareItems settings pre env).1.site
  simp only [analyzeItems, List.append_assoc, List.cons_append, List.nil_append, declareItems_append,
    declareItems_function, completeItems_append, completeItems_function, fg.symbol_eq, gf.symbol_eq,
    both]
  refine ⟨_, _, _, _, _, ?_, ?_, rfl, rfl⟩
  · rw [length_completeItems, length_declareItems]
  · rw [length_completeItems, length_declareItems]

end Environment

namespace Program

/-- Two neighbouring functions without default values, of which neither sizes an array in its
signature by the other's name, may change places. Their blocks of faults change places with them, the
other items keep theirs, and the top-level scope has the same symbols. -/
theorem analyze_exchange (settings : AnalysisSettings) (module? : Option Ident) (pre post : List Item)
    (f g : FunctionDecl) (different : f.name.name ≠ g.name.name)
    (plainF : ∀ p ∈ f.params, p.default? = none) (plainG : ∀ p ∈ g.params, p.default? = none)
    (apartF : g.name.name ∉ f.sizeNames) (apartG : f.name.name ∉ g.sizeNames) :
    ∃ a b front ofF ofG back,
      analyze settings ⟨module?, pre ++ [.function f, .function g] ++ post⟩ = .ok a ∧
      analyze settings ⟨module?, pre ++ [.function g, .function f] ++ post⟩ = .ok b ∧
      front.length = pre.length ∧ back.length = post.length ∧
      a.blocks = front ++ [ofF, ofG] ++ back ∧ b.blocks = front ++ [ofG, ofF] ++ back ∧
      a.topLevelScope = b.topLevelScope ∧
      (a.table.symbolsIn a.topLevelScope).Perm (b.table.symbolsIn b.topLevelScope) := by
  have fg : f.Ignores g := ⟨plainF, different.symm, apartF⟩
  have gf : g.Ignores f := ⟨plainG, different, apartG⟩
  -- the module alone decides on which table the items are declared
  have start : topTable ⟨module?, pre ++ [.function f, .function g] ++ post⟩ =
      topTable ⟨module?, pre ++ [.function g, .function f] ++ post⟩ := rfl
  obtain ⟨a, ranA, -⟩ := analyze_eq_ok settings ⟨module?, pre ++ [.function f, .function g] ++ post⟩
  obtain ⟨b, ranB, -⟩ := analyze_eq_ok settings ⟨module?, pre ++ [.function g, .function f] ++ post⟩
  obtain ⟨-, -, -, blocksA, -⟩ := analyze_top ranA
  obtain ⟨-, -, -, blocksB, -⟩ := analyze_top ranB
  obtain ⟨after, front, ofF, ofG, back, before, behind, original, exchanged⟩ :=
    Environment.analyzeItems_exchange settings fg gf pre post
      (topTable ⟨module?, pre ++ [.function g, .function f] ++ post⟩).environment
  have symbols := symbols_perm_of_environment ranA ranB start (by rw [original, exchanged])
  rw [start, original] at blocksA
  rw [exchanged] at blocksB
  exact ⟨a, b, front, ofF, ofG, back, ranA, ranB, before, behind, blocksA, blocksB, symbols⟩

/-- Fills a buffer of a size that a constant gives, and calls the function below. -/
def ping : FunctionDecl :=
  ((FunctionDecl.ofName "ping").withParam
    (.ofName "buffer" (.ofArray (.ofName "byte") (.ofName "size")))).withBody
      [.expr (.callOf "pong" [.ofName "buffer"])]

/-- Calls back, and assigns to a name that nothing declares. -/
def pong : FunctionDecl :=
  ((FunctionDecl.ofName "pong").withParam
    (.ofName "buffer" (.ofArray (.ofName "byte") (.ofName "size")))).withBody
      [.expr (.callOf "ping" [.ofName "buffer"]), .setVariable "total" (.ofInt 1)]

def bufferSize : Item :=
  .var ((VariableDecl.ofName "size" none).withValue (.ofInt 16)).asConstant

/-- Two functions that call each other, below the constant that sizes their parameters. -/
theorem analyze_exchange_ping_pong :
    (∀ p ∈ ping.params, p.default? = none) ∧ (∀ p ∈ pong.params, p.default? = none) ∧
    "pong" ∉ ping.sizeNames ∧ "ping" ∉ pong.sizeNames ∧
    ∃ a b front ofPing ofPong back,
      analyze {} ⟨some { name := "game" }, [bufferSize] ++ [.function ping, .function pong] ++ []⟩ =
        .ok a ∧
      analyze {} ⟨some { name := "game" }, [bufferSize] ++ [.function pong, .function ping] ++ []⟩ =
        .ok b ∧
      front.length = 1 ∧ back.length = 0 ∧
      a.blocks = front ++ [ofPing, ofPong] ++ back ∧ b.blocks = front ++ [ofPong, ofPing] ++ back ∧
      a.topLevelScope = b.topLevelScope ∧
      (a.table.symbolsIn a.topLevelScope).Perm (b.table.symbolsIn b.topLevelScope) := by
  have plainPing : ∀ p ∈ ping.params, p.default? = none := by decide
  have plainPong : ∀ p ∈ pong.params, p.default? = none := by decide
  have apartPing : "pong" ∉ ping.sizeNames := by decide
  have apartPong : "ping" ∉ pong.sizeNames := by decide
  exact ⟨plainPing, plainPong, apartPing, apartPong,
    analyze_exchange {} (some { name := "game" }) [bufferSize] [] ping pong (by decide) plainPing
      plainPong apartPing apartPong⟩

end Program

end SemanticCheck
