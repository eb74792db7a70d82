import Mathlib.Data.Finset.Card
import Mathlib.Data.List.Forall2
import SemanticCheck.Proofs.DeclarationReport
import SemanticCheck.Proofs.FunctionShape

/-!
The checks of parameters by position. Two checks go along the parameters of a function with something
in mind from those that they passed: all names so far, or the first optional parameter. What they keep
in mind never changes what they say about the positions behind them. So each says one thing about every
position that has an earlier one in its way, and it speaks of the first of the whole list.
-/
namespace SemanticCheck

/-- One fault for each of the positions that fail, from left to right, and no others. -/
def Fault.AtEach (fails : Nat → Prop) (tells : Nat → Fault → Prop) (found : List Fault) : Prop :=
  ∃ positions : List Nat, positions.Pairwise (· < ·) ∧ (∀ j, j ∈ positions ↔ fails j) ∧
    List.Forall₂ tells positions found

namespace Fault.AtEach

variable {α : Type} {fails other : Nat → Prop} {tells told : Nat → Fault → Prop} {found : List Fault}

theorem congr (each : AtEach fails tells found) (same : ∀ j, fails j ↔ other j)
    (weaker : ∀ j fault, tells j fault → told j fault) : AtEach other told found := by
  obtain ⟨positions, ordered, mem, listed⟩ := each
  refine ⟨positions, ordered, ?_, ?_⟩
  · intro j
    rw [mem, same]
  · apply listed.imp
    apply weaker

/-- The first position is in order, and the others are counted from the one behind it. -/
theorem skip (first : ¬ fails 0) (later : AtEach (fun j => fails (j + 1)) (fun j => tells (j + 1)) found) :
    AtEach fails tells found := by
  obtain ⟨positions, ordered, mem, listed⟩ := later
  refine ⟨positions.map (· + 1), ?_, ?_, ?_⟩
  · apply ordered.map
    omega
  · intro j
    cases j with
    | zero => simp [first]
    | succ j => simp [mem]
  · rw [List.forall₂_map_left_iff]
    exact listed

/-- The first position fails. -/
theorem cons {fault : Fault} (first : fails 0) (here : tells 0 fault)
    (later : AtEach (fun j => fails (j + 1)) (fun j => tells (j + 1)) found) :
    AtEach fails tells (fault :: found) := by
  obtain ⟨positions, ordered, mem, listed⟩ := later
  refine ⟨0 :: positions.map (· + 1), ?_, ?_, ?_⟩
  · rw [List.pairwise_cons]
    constructor
    · simp
    · apply ordered.map
      omega
  · intro j
    cases j with
    | zero => simp [first]
    | succ j => simp [mem]
  · apply List.Forall₂.cons here
    rw [List.forall₂_map_left_iff]
    exact listed

/-- A check that tells at most one fault at a position, by what is in front of it. -/
theorem along (told : List α → α → Option Fault) (xs : List α) :
    AtEach (fun j => ∃ x fault, xs[j]? = some x ∧ told (xs.take j) x = some fault)
      (fun j fault => ∃ x, xs[j]? = some x ∧ told (xs.take j) x = some fault)
      (Fault.along (fun before x => (told before x).toList) xs) := by
  induction xs generalizing told with
  | nil => exact ⟨[], .nil, by simp, .nil⟩
  | cons x xs ih =>
      have later := ih fun before => told (x :: before)
      rw [Fault.along]
      cases here : told [] x with
      | none =>
          apply skip
          · simp [here]
          · exact later
      | some fault =>
          apply cons
          · exact ⟨x, fault, rfl, here⟩
          · exact ⟨x, rfl, here⟩
          · exact later

end Fault.AtEach

/-- The first in the list for which the test holds. -/
def FirstOf {α : Type} (test : α → Prop) (xs : List α) (first : α) : Prop :=
  ∃ i : Nat, xs[i]? = some first ∧ test first ∧ ∀ k y, k < i → xs[k]? = some y → ¬ test y

section

variable {α : Type} {test : α → Bool} {xs : List α} {j : Nat}

/-- What is found in front of a position is the first of the whole list. -/
theorem firstOf_of_find?_take {first : α} (found : (xs.take j).find? test = some first) :
    FirstOf (test · = true) xs first := by
  rw [List.find?_eq_some_iff_getElem] at found
  obtain ⟨holds, i, short, here, earlier⟩ := found
  refine ⟨i, ?_, holds, ?_⟩
  · grind
  · intro k y before there
    have fails := earlier k before
    grind

theorem exists_find?_take_iff :
    (∃ first, (xs.take j).find? test = some first) ↔ ∃ i x, i < j ∧ xs[i]? = some x ∧ test x = true := by
  rw [← Option.isSome_iff_exists, List.find?_isSome]
  constructor
  · rintro ⟨x, member, holds⟩
    obtain ⟨i, there⟩ := List.mem_iff_getElem?.mp member
    rw [List.getElem?_take] at there
    grind
  · rintro ⟨i, x, before, there, holds⟩
    refine ⟨x, List.mem_iff_getElem?.mpr ⟨i, ?_⟩, holds⟩
    rw [List.getElem?_take, if_pos before, there]

end

/-- A check that objects to a position if something in front of it is in its way, and speaks of the
first that is. -/
theorem Fault.AtEach.along_find {α : Type} (clash : α → α → Bool) (report : α → α → Fault) (xs : List α) :
    AtEach (fun j => ∃ i p q, i < j ∧ xs[i]? = some p ∧ xs[j]? = some q ∧ clash q p = true)
      (fun j fault => ∃ first q, xs[j]? = some q ∧ FirstOf (clash q · = true) xs first ∧
        report first q = fault)
      (Fault.along (fun before q => ((before.find? (clash q)).map (report · q)).toList) xs) := by
  apply (AtEach.along (fun before q => (before.find? (clash q)).map (report · q)) xs).congr
  · intro j
    simp only [Option.map_eq_some_iff]
    constructor
    · rintro ⟨q, _, here, first, found, -⟩
      obtain ⟨i, p, before, there, clashes⟩ := exists_find?_take_iff.mp ⟨first, found⟩
      exact ⟨i, p, q, before, there, here, clashes⟩
    · rintro ⟨i, p, q, before, there, here, clashes⟩
      obtain ⟨first, found⟩ := exists_find?_take_iff.mpr ⟨i, p, before, there, clashes⟩
      exact ⟨q, _, here, first, found, rfl⟩
  · intro j fault told
    obtain ⟨q, here, told⟩ := told
    obtain ⟨first, found, reported⟩ := Option.map_eq_some_iff.mp told
    exact ⟨first, q, here, firstOf_of_find?_take found, reported⟩

/-- Calls may leave the parameter out: it is marked so, or there is a value to take instead. -/
def Parameter.Optional (p : Parameter) : Prop := p.marked = true ∨ ∃ value, p.default? = some value

theorem Parameter.isOptional_iff {p : Parameter} : p.isOptional = true ↔ p.Optional := by
  simp [Parameter.isOptional, Parameter.Optional, Option.isSome_iff_exists]

namespace FunctionDecl

/-- The name at the position stands further left already. -/
def RepeatedAt (decl : FunctionDecl) (j : Nat) : Prop :=
  ∃ i p q, i < j ∧ decl.params[i]? = some p ∧ decl.params[j]? = some q ∧ p.name.name = q.name.name

/-- The fault of a repeated name, with the place where it stands first. -/
inductive RepeatFault (decl : FunctionDecl) (j : Nat) : Fault → Prop
  | mk {first q : Parameter} : decl.params[j]? = some q →
      FirstOf (fun p => p.name.name = q.name.name) decl.params first →
      RepeatFault decl j (decl.repeated q first)

/-- The parameter at the position is required, and one further left is not. -/
def MisplacedAt (decl : FunctionDecl) (j : Nat) : Prop :=
  ∃ i p q, i < j ∧ decl.params[i]? = some p ∧ decl.params[j]? = some q ∧ p.Optional ∧ ¬ q.Optional

/-- The fault of a required parameter, with the first that is optional. -/
inductive MisplaceFault (decl : FunctionDecl) (j : Nat) : Fault → Prop
  | mk {first q : Parameter} : decl.params[j]? = some q → FirstOf Parameter.Optional decl.params first →
      MisplaceFault decl j (q.misplaced first)

theorem atEach_nameFaults (decl : FunctionDecl) :
    Fault.AtEach decl.RepeatedAt decl.RepeatFault decl.nameFaults := by
  have walk := decl.nameFaultsFrom_eq .nil decl.params
  simp only [List.nil_append, repeats?] at walk
  rw [nameFaults, walk]
  apply (Fault.AtEach.along_find (fun q p : Parameter => p.name.name = q.name.name)
    (fun first q => (Cause.duplicateParam q.name.name decl.name.name first.location).fault q.location)
    decl.params).congr
  · intro j
    simp only [RepeatedAt, decide_eq_true_eq]
  · rintro j fault ⟨first, q, here, leads, rfl⟩
    simp only [decide_eq_true_eq] at leads
    exact .mk here leads

theorem atEach_orderFaults (decl : FunctionDecl) :
    Fault.AtEach decl.MisplacedAt decl.MisplaceFault decl.orderFaults := by
  have walk := orderFaultsFrom_eq decl.params []
  have rule : ∀ before (q : Parameter), q.misplaced? before =
      (before.find? fun p => p.isOptional && !q.isOptional).map fun first =>
        (Cause.requiredAfterOptional q.name.name first.name.name).fault q.location := by
    intro before q
    rw [Parameter.misplaced?]
    cases q.isOptional with
    | true => simp
    | false => simp
  simp only [List.nil_append, List.find?_nil, rule] at walk
  rw [orderFaults, walk]
  apply (Fault.AtEach.along_find (fun q p : Parameter => p.isOptional && !q.isOptional)
    (fun first q => (Cause.requiredAfterOptional q.name.name first.name.name).fault q.location)
    decl.params).congr
  · intro j
    simp only [MisplacedAt, Bool.and_eq_true, Bool.not_eq_true', ← Bool.not_eq_true,
      Parameter.isOptional_iff]
  · rintro j fault ⟨first, q, here, ⟨i, there, clashes, earlier⟩, rfl⟩
    simp only [Bool.and_eq_true, Bool.not_eq_true', ← Bool.not_eq_true,
      Parameter.isOptional_iff] at clashes earlier
    refine .mk here ⟨i, there, clashes.1, ?_⟩
    intro k p before found optional
    exact earlier k p before found ⟨optional, clashes.2⟩

/-- While the names are checked, each parameter either adds a name that was not there or a fault. -/
theorem length_nameFaultsFrom (function : String) {seen : List (String × Location)}
    {before : List Parameter} (h : FirstSeen seen before) (params : List Parameter) :
    (nameFaultsFrom function seen params).length +
        ((before ++ params).map (·.name.name)).toFinset.card =
      params.length + (before.map (·.name.name)).toFinset.card := by
  induction params generalizing seen before with
  | nil => simp [nameFaultsFrom]
  | cons p rest ih =>
      obtain ⟨next, known, step⟩ := h.step function p rest
      have later := ih known
      rw [List.append_assoc, List.singleton_append] at later
      rw [step, List.length_append, List.length_cons]
      -- a name that was seen leaves the set as it is, any other makes it one larger
      cases found : before.find? (fun q => q.name.name = p.name.name) with
      | some q =>
          have same : q.name.name = p.name.name := by simpa using List.find?_some found
          have old : p.name.name ∈ (before.map (·.name.name)).toFinset := by
            rw [List.mem_toFinset, List.mem_map]
            exact ⟨q, List.mem_of_find?_eq_some found, same⟩
          have kept : ((before ++ [p]).map (·.name.name)).toFinset =
              (before.map (·.name.name)).toFinset := by
            ext name
            simp only [List.mem_toFinset, List.map_append, List.map_singleton, List.mem_append,
              List.mem_singleton, or_iff_left_iff_imp]
            rintro rfl
            exact List.mem_toFinset.mp old
          rw [kept] at later
          simp only [Option.map_some, Option.toList_some, List.length_singleton]
          omega
      | none =>
          have fresh : p.name.name ∉ (before.map (·.name.name)).toFinset := by
            simpa using found
          have grown : ((before ++ [p]).map (·.name.name)).toFinset.card =
              (before.map (·.name.name)).toFinset.card + 1 := by
            rw [List.map_append, List.toFinset_append, Finset.union_comm]
            exact Finset.card_insert_of_notMem fresh
          rw [grown] at later
          simp only [Option.map_none, Option.toList_none, List.length_nil]
          omega

/-- The optional parameters trail if all behind an optional one are optional. -/
theorem trailing_iff (params : List Parameter) :
    params.Pairwise (fun p q => p.Optional → q.Optional) ↔
      ∃ required optional, params = required ++ optional ∧ (∀ p ∈ required, ¬ p.Optional) ∧
        ∀ p ∈ optional, p.Optional := by
  constructor
  · intro trails
    induction params with
    | nil => exact ⟨[], [], rfl, by simp, by simp⟩
    | cons p rest ih =>
        rw [List.pairwise_cons] at trails
        by_cases first : p.Optional
        · refine ⟨[], p :: rest, rfl, by simp, ?_⟩
          rw [List.forall_mem_cons]
          exact ⟨first, fun q member => trails.1 q member first⟩
        · obtain ⟨required, optional, rfl, before, behind⟩ := ih trails.2
          refine ⟨p :: required, optional, rfl, ?_, behind⟩
          rw [List.forall_mem_cons]
          exact ⟨first, before⟩
  · rintro ⟨required, optional, rfl, before, behind⟩
    rw [List.pairwise_append]
    refine ⟨?_, ?_, ?_⟩
    · apply List.pairwise_of_forall_mem_list
      intro p member q _ given
      exact absurd given (before p member)
    · apply List.pairwise_of_forall_mem_list
      intro p _ q member _
      exact behind q member
    · intro p _ q member _
      exact behind q member

/-- The check of the names tells one fault at each position whose name stands further left already, and
so as many as there are parameters too many for their names. The check of the order tells one at each
required parameter behind an optional one. They are content with names that differ, and with optional
parameters that come last. -/
theorem parameter_faults_by_position (decl : FunctionDecl) :
    let names := decl.params.map (·.name.name)
    Fault.AtEach decl.RepeatedAt decl.RepeatFault decl.nameFaults ∧
    decl.nameFaults.length + names.toFinset.card = decl.params.length ∧
    Fault.AtEach decl.MisplacedAt decl.MisplaceFault decl.orderFaults ∧
    (decl.nameFaults = [] ↔ names.Nodup) ∧
    (decl.orderFaults = [] ↔
      ∃ required optional, decl.params = required ++ optional ∧ (∀ p ∈ required, ¬ p.Optional) ∧
        ∀ p ∈ optional, p.Optional) := by
  intro names
  have count := length_nameFaultsFrom decl.name.name .nil decl.params
  refine ⟨decl.atEach_nameFaults, ?_, decl.atEach_orderFaults, ?_, ?_⟩
  · rw [List.nil_append] at count
    exact count
  · rw [nameFaults, nameFaultsFrom_eq_nil_iff .nil]
    simp [names]
  · rw [orderFaults, orderFaultsFrom_eq_nil_iff, ← trailing_iff]
    simp [Parameter.isOptional_iff]

end FunctionDecl

end SemanticCheck
