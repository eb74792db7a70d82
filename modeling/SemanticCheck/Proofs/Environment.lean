import SemanticCheck.Proofs.Lexical
import SemanticCheck.Proofs.SymbolTable
import SemanticCheck.Proofs.Unscoped

/-!
The lexical environment that a symbol table stands for: the frames of the current scope, of its
parent and so on outwards. Opening a scope enters a frame, declaring a symbol binds it in the
innermost frame, closing a scope drops that frame, and names stand for the same in both.
-/
namespace SemanticCheck

/-- What a scope declares, without scope numbers. -/
def Scope.frame (s : Scope) : Frame := ⟨s.kind, Names.unscoped s.lookup⟩

namespace SymbolTable

variable {t : SymbolTable} {i : ScopeId} {s : Scope}

/-- The scopes from a given one outwards. -/
def pathFrom (t : SymbolTable) (id : ScopeId) : List Scope :=
  match t.scope? id with
  | none => []
  | some s =>
      s :: match s.parent with
        | some parent => if parent < id then t.pathFrom parent else []
        | none => []
termination_by id

/-- Lookup takes the first scope on the way out that has the name. -/
theorem lookupFrom_eq_findSome? (t : SymbolTable) (name : String) (id : ScopeId) :
    t.lookupFrom name id = (t.pathFrom id).findSome? (·.lookup name) := by
  induction id using Nat.strongRecOn with
  | ind id ih =>
      rw [lookupFrom, pathFrom]
      cases t.scope? id with
      | none => rfl
      | some s =>
          simp only [List.findSome?_cons]
          cases s.lookup name with
          | some x => rfl
          | none =>
              cases s.parent with
              | none => rfl
              | some parent =>
                  by_cases lt : parent < id
                  · simpa only [if_pos lt] using ih parent lt
                  · simp only [if_neg lt, List.findSome?_nil]

theorem WellFormed.pathFrom_eq (h : t.WellFormed) (found : t.scope? i = some s) :
    t.pathFrom i = s :: (t.parent? i).elim [] t.pathFrom := by
  have named : t.parent? i = s.parent := by rw [SymbolTable.parent?, found]; rfl
  rw [pathFrom, found, named]
  cases hp : s.parent with
  | none => simp only [hp, Option.elim_none]
  | some p =>
      have lt := (h.parent?_lt (named.trans hp)).1
      simp only [hp, if_pos lt, Option.elim_some]

def environmentFrom (t : SymbolTable) (id : ScopeId) : Environment := (t.pathFrom id).map Scope.frame

def environment (t : SymbolTable) : Environment := t.environmentFrom t.current

theorem WellFormed.environmentFrom_eq (h : t.WellFormed) (found : t.scope? i = some s) :
    t.environmentFrom i = s.frame :: (t.parent? i).elim [] t.environmentFrom := by
  rw [environmentFrom, h.pathFrom_eq found, List.map_cons]
  cases t.parent? i <;> rfl

theorem WellFormed.environment_eq (h : t.WellFormed) :
    t.environment = t.top.frame :: (t.parent? t.current).elim [] t.environmentFrom :=
  h.environmentFrom_eq h.scope?_current

/-- Scopes that agree in frame and parent up to a number have the same environment there. -/
theorem WellFormed.environmentFrom_congr {after : SymbolTable} (h : t.WellFormed)
    (k : after.WellFormed) (bound : i < t.scopes.length)
    (same : ∀ j ≤ i, ∀ s, t.scope? j = some s →
      ∃ s', after.scope? j = some s' ∧ s'.frame = s.frame ∧ s'.parent = s.parent) :
    after.environmentFrom i = t.environmentFrom i := by
  induction i using Nat.strongRecOn with
  | ind i ih =>
      have found : t.scope? i = some t.scopes[i] := List.getElem?_eq_getElem bound
      obtain ⟨s', found', frame, parent⟩ := same i (Nat.le_refl i) _ found
      have named : after.parent? i = t.parent? i := by
        rw [SymbolTable.parent?, SymbolTable.parent?, found, found']
        exact parent
      rw [h.environmentFrom_eq found, k.environmentFrom_eq found', frame, named]
      cases hp : t.parent? i with
      | none => rfl
      | some p =>
          have lt := (h.parent?_lt hp).1
          have rest := ih p lt (Nat.lt_trans lt bound)
            (fun j le => same j (Nat.le_trans le (Nat.le_of_lt lt)))
          simp only [Option.elim_some, rest]

theorem environment_empty : SymbolTable.empty.environment = Environment.outermost := by
  rw [WellFormed.empty.environment_eq]
  rfl

theorem WellFormed.environment_push (h : t.WellFormed) (kind : ScopeKind) :
    (t.push kind).environment = t.environment.enter kind := by
  have lt := h.current_lt
  have around : (t.push kind).environmentFrom t.current = t.environmentFrom t.current := by
    apply h.environmentFrom_congr (h.push kind) lt
    intro j le s found
    have old : j ≠ t.scopes.length := Nat.ne_of_lt (Nat.lt_of_le_of_lt le lt)
    by_cases top : j = t.current
    · subst top
      refine ⟨s.addChild t.scopes.length, ?_, rfl, rfl⟩
      rw [scope?_push_current t kind lt, found]
      rfl
    · exact ⟨s, (scope?_push_of_ne t kind old top).trans found, rfl, rfl⟩
  have parent : (t.push kind).parent? t.scopes.length = some t.current := by
    rw [parent?_push t kind lt, if_pos rfl]
  have new := (h.push kind).environmentFrom_eq (scope?_push_length t kind)
  rw [parent, Option.elim_some, around] at new
  exact new

theorem WellFormed.environment_add (h : t.WellFormed) {x : Symbol} (here : x.scope = t.current)
    (free : t.top.lookup x.name = none) :
    (t.add x).environment = t.environment.bind x.unscoped := by
  have k := h.add here free
  have found := h.scope?_add x
  have frame : (t.top.insert x).frame =
      ⟨t.top.frame.kind, fun name =>
        if x.unscoped.name = name then some x.unscoped else t.top.frame.names name⟩ := by
    simp only [Scope.frame, Frame.mk.injEq]
    refine ⟨rfl, ?_⟩
    funext name
    have lookup := (h.formed h.scope?_current).indexed.lookup_insert free name
    simp only [Names.unscoped, lookup, Symbol.name_unscoped]
    split <;> rfl
  have outer : (t.parent? t.current).elim [] (t.add x).environmentFrom =
      (t.parent? t.current).elim [] t.environmentFrom := by
    cases hp : t.parent? t.current with
    | none => rfl
    | some p =>
        have lt := (h.parent?_lt hp).1
        apply h.environmentFrom_congr k (Nat.lt_trans lt h.current_lt)
        intro j le s old
        have other : j ≠ t.current := Nat.ne_of_lt (Nat.lt_of_le_of_lt le lt)
        exact ⟨s, (scope?_add_of_ne t x other).trans old, rfl, rfl⟩
  have new : (t.add x).environment = _ := k.environmentFrom_eq found
  rw [parent?_add, current_add, outer, frame] at new
  rw [new, h.environment_eq]
  rfl

/-- Closing the current scope drops the innermost frame. -/
theorem WellFormed.environment_setCurrent (h : t.WellFormed) {p : ScopeId}
    (hp : t.parent? t.current = some p) :
    SymbolTable.environment { t with current := p } = t.environment.tail := by
  have bounds := h.parent?_lt hp
  rw [h.environment_eq, hp]
  apply h.environmentFrom_congr (h.setCurrent hp) (Nat.lt_trans bounds.1 bounds.2)
  intro j _ s found
  exact ⟨s, found, rfl, rfl⟩

/-- Names stand for the same in a table and in its environment. -/
theorem names_environment (t : SymbolTable) : t.environment.names = t.names.unscoped := by
  funext name
  change ((t.pathFrom t.current).map Scope.frame).findSome? (·.names name) =
    (t.lookupFrom name t.current).map Symbol.unscoped
  rw [lookupFrom_eq_findSome?]
  induction t.pathFrom t.current with
  | nil => rfl
  | cons s rest ih =>
      have frame : s.frame.names name = (s.lookup name).map Symbol.unscoped := rfl
      rw [List.map_cons, List.findSome?_cons, List.findSome?_cons, frame]
      cases s.lookup name with
      | none => exact ih
      | some x => rfl

theorem WellFormed.site_environment (h : t.WellFormed) : t.environment.site = t.site.unscoped := by
  have frame : t.environment.top = t.top.frame := by
    rw [h.environment_eq]
    rfl
  rw [Environment.site, names_environment, frame]
  rfl

end SymbolTable

end SemanticCheck
