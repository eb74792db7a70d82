import Mathlib.Data.List.Forall2
import SemanticCheck.Proofs.Relaxation

/-!
What slots accept is a partial order. Without widening a slot takes its own type, and a word takes a
byte. Widening adds functions that take a word where the slot passes a byte. Values go up from a byte
to a word and parameters down from a word to a byte, but only scalars do either, so the two directions
never meet in one place.
-/
namespace SemanticCheck

variable {widening : Bool}

/-- What a slot passes and what the function behind it takes: the same, or a byte as a word. -/
def Ty.PassesAs (passed declared : Ty) : Prop :=
  passed = declared ∨ passed = .byte ∧ declared = .word

/-- A slot of the first type holds values of the second. -/
inductive Ty.Holds (widening : Bool) : Ty → Ty → Prop
  | same (ty : Ty) : Holds widening ty ty
  | byteAsWord : Holds widening .word .byte
  | function {passed declared : List Ty} {result : Ty} : widening = true →
      List.Forall₂ Ty.PassesAs passed declared →
      Holds widening (.callback passed result) (.callback declared result)

theorem Primitive.widensTo_iff {source target : Primitive} :
    source.widensTo target = true ↔ source = target ∨ source = .byte ∧ target = .word := by
  cases source <;> cases target <;> decide

theorem Ty.canPass_self (ty : Ty) : Ty.canPass widening ty ty = true := by
  cases ty with
  | primitive p => cases widening <;> simp [Ty.canPass, Primitive.widensTo]
  | array element size => simp [Ty.canPass]
  | callback params result => simp [Ty.canPass]

theorem Ty.canPass_iff {passed declared : Ty} :
    Ty.canPass widening passed declared = true ↔
      passed = declared ∨ widening = true ∧ passed = .byte ∧ declared = .word := by
  constructor
  · intro passes
    obtain same | ⟨p, d, rfl, rfl, widens⟩ := Ty.canPass_cases passes
    · exact .inl same
    · obtain rfl | ⟨rfl, rfl⟩ := Primitive.widensTo_iff.mp widens
      · exact .inl rfl
      · cases widening with
        | false => cases passes
        | true => exact .inr ⟨rfl, rfl, rfl⟩
  · rintro (rfl | ⟨rfl, rfl, rfl⟩)
    · exact Ty.canPass_self passed
    · rfl

namespace Signature

variable {slot function : Signature}

/-- Parameters are compared pair by pair, and there are as many on either side. -/
theorem accepts_iff_forall₂ :
    slot.accepts widening function = true ↔
      List.Forall₂ (fun p d => p = d ∨ widening = true ∧ p = .byte ∧ d = .word)
        slot.params function.params ∧ slot.result = function.result := by
  rw [accepts_iff, List.forall₂_iff_zip, and_assoc]
  refine and_congr_right' (and_congr_left' ?_)
  constructor
  · intro passes p d member
    exact Ty.canPass_iff.mp (passes (p, d) member)
  · intro passes pair member
    exact Ty.canPass_iff.mpr (passes member)

theorem accepts_strict_iff : slot.accepts false function = true ↔ slot = function := by
  rw [accepts_iff_forall₂]
  simp only [Bool.false_eq_true, false_and, or_false, List.forall₂_eq_eq_eq]
  cases slot
  cases function
  exact (Signature.mk.injEq ..).symm.to_iff

theorem accepts_widening_iff :
    slot.accepts true function = true ↔
      List.Forall₂ Ty.PassesAs slot.params function.params ∧ slot.result = function.result := by
  rw [accepts_iff_forall₂]
  simp only [true_and]
  rfl

end Signature

namespace Ty

theorem accepts_iff_holds {target source : Ty} :
    target.accepts widening source = true ↔ Holds widening target source := by
  constructor
  · intro accepted
    obtain same | fits := Bool.or_eq_true_iff.mp accepted
    · rw [of_decide_eq_true same]
      exact .same source
    · split at fits
      · next t s =>
          obtain rfl | ⟨rfl, rfl⟩ := Primitive.widensTo_iff.mp fits
          · exact .same _
          · exact .byteAsWord
      · next e m f n =>
          simp only [Bool.and_eq_true, decide_eq_true_eq] at fits
          obtain ⟨rfl, rfl⟩ := fits
          exact .same _
      · next ps r qs u =>
          cases widening with
          | false =>
              cases Signature.accepts_strict_iff.mp fits
              exact .same _
          | true =>
              obtain ⟨params, result⟩ := Signature.accepts_widening_iff.mp fits
              cases result
              exact .function rfl params
      · cases fits
  · intro holds
    cases holds with
    | same => simp [accepts]
    | byteAsWord => rfl
    | @function passed declared result wide params =>
        subst wide
        have fits : Signature.accepts true ⟨passed, result⟩ ⟨declared, result⟩ = true :=
          Signature.accepts_widening_iff.mpr ⟨params, rfl⟩
        simp only [accepts, fits, Bool.or_true]

theorem PassesAs.antisymm {s t : Ty} (h : s.PassesAs t) (k : t.PassesAs s) : s = t := by
  obtain same | ⟨rfl, rfl⟩ := h
  · exact same
  · obtain same | ⟨crossed, -⟩ := k
    · exact same.symm
    · cases crossed

theorem PassesAs.trans {s t u : Ty} (h : s.PassesAs t) (k : t.PassesAs u) : s.PassesAs u := by
  obtain rfl | ⟨rfl, rfl⟩ := h
  · exact k
  · obtain rfl | ⟨crossed, -⟩ := k
    · exact .inr ⟨rfl, rfl⟩
    · cases crossed

/-- A pair with an array or a callback in it is passed as it is. -/
theorem PassesAs.eq_of_compound {passed declared : Ty} (h : passed.PassesAs declared)
    (compound : passed.primitive? = none ∨ declared.primitive? = none) : passed = declared := by
  obtain same | ⟨rfl, rfl⟩ := h
  · exact same
  · obtain none | none := compound
    · cases none
    · cases none

theorem forall₂_passesAs_antisymm {ss ts : List Ty} (h : List.Forall₂ PassesAs ss ts)
    (k : List.Forall₂ PassesAs ts ss) : ss = ts := by
  induction h with
  | nil => rfl
  | cons first _ ih =>
      cases k with
      | cons first' rest' => rw [first.antisymm first', ih rest']

theorem forall₂_passesAs_trans {ss ts us : List Ty} (h : List.Forall₂ PassesAs ss ts)
    (k : List.Forall₂ PassesAs ts us) : List.Forall₂ PassesAs ss us := by
  induction h generalizing us with
  | nil => exact k
  | cons first _ ih =>
      cases k with
      | cons first' rest' => exact .cons (first.trans first') (ih rest')

theorem Holds.antisymm {s t : Ty} (h : Holds widening s t) (k : Holds widening t s) : s = t := by
  cases h with
  | same => rfl
  | byteAsWord => cases k
  | function _ params =>
      cases k with
      | same => rfl
      | function _ params' => rw [forall₂_passesAs_antisymm params params']

theorem Holds.trans {s t u : Ty} (h : Holds widening s t) (k : Holds widening t u) :
    Holds widening s u := by
  cases h with
  | same => exact k
  | byteAsWord =>
      cases k with
      | same => exact .byteAsWord
  | function wide params =>
      cases k with
      | same => exact .function wide params
      | function _ params' => exact .function wide (forall₂_passesAs_trans params params')

/-- Widening takes nothing back. -/
theorem Holds.widened {s t : Ty} (h : Holds false s t) : Holds true s t :=
  accepts_iff_holds.mp (@accepts_relaxed false true nofun s t (accepts_iff_holds.mpr h))

theorem Holds.eq_of_array {element s t : Ty} {size : Nat} (h : Holds widening s t)
    (array : s = .array element size ∨ t = .array element size) : s = t := by
  cases h with
  | same => rfl
  | byteAsWord =>
      obtain crossed | crossed := array
      · cases crossed
      · cases crossed
  | function =>
      obtain crossed | crossed := array
      · cases crossed
      · cases crossed

/-- What slots accept is a partial order in either mode. In strict mode only a word takes something
besides its own type; widening adds slots that pass a byte to a function that takes a word, and relates
neither arrays nor what is inside a callback beyond that. -/
theorem accepts_partial_order :
    (∀ widening : Bool,
      (∀ t : Ty, t.accepts widening t = true) ∧
      (∀ s t : Ty, s.accepts widening t = true → t.accepts widening s = true → s = t) ∧
      ∀ s t u : Ty, s.accepts widening t = true → t.accepts widening u = true →
        s.accepts widening u = true) ∧
    (∀ target source : Ty, target.accepts false source = true ↔
      target = source ∨ target = .word ∧ source = .byte) ∧
    (∀ slot function : Signature, slot.accepts false function = true ↔ slot = function) ∧
    (∀ target source : Ty, target.accepts true source = true ↔
      target.accepts false source = true ∨
        ∃ passed declared result, target = .callback passed result ∧
          source = .callback declared result ∧
          List.Forall₂ (fun p d => p = d ∨ p = .byte ∧ d = .word) passed declared) ∧
    (∀ slot function : Signature, slot.accepts true function = true ↔
      List.Forall₂ (fun p d => p = d ∨ p = .byte ∧ d = .word) slot.params function.params ∧
        slot.result = function.result) ∧
    (∀ target source : Ty, target.accepts false source = true → target.accepts true source = true) ∧
    ∀ widening : Bool,
      (∀ (element : Ty) (size : Nat) (s t : Ty), s.accepts widening t = true →
        s = .array element size ∨ t = .array element size → s = t) ∧
      ∀ (passed declared : List Ty) (result result' : Ty),
        (callback passed result).accepts widening (.callback declared result') = true →
        result = result' ∧
          List.Forall₂ (fun p d => p.primitive? = none ∨ d.primitive? = none → p = d)
            passed declared := by
  simp only [accepts_iff_holds]
  refine ⟨?_, ?_, ?_, ?_, ?_, ?_, ?_⟩
  · intro widening
    exact ⟨.same, fun _ _ => Holds.antisymm, fun _ _ _ => Holds.trans⟩
  · intro target source
    constructor
    · intro holds
      cases holds with
      | same => exact .inl rfl
      | byteAsWord => exact .inr ⟨rfl, rfl⟩
      | function wide => cases wide
    · rintro (rfl | ⟨rfl, rfl⟩)
      · exact .same target
      · exact .byteAsWord
  · intro slot function
    exact Signature.accepts_strict_iff
  · intro target source
    constructor
    · intro holds
      cases holds with
      | same => exact .inl (.same target)
      | byteAsWord => exact .inl .byteAsWord
      | function _ params => exact .inr ⟨_, _, _, rfl, rfl, params⟩
    · rintro (strict | ⟨passed, declared, result, rfl, rfl, params⟩)
      · exact strict.widened
      · exact .function rfl params
  · intro slot function
    exact Signature.accepts_widening_iff
  · intro target source strict
    exact strict.widened
  · intro widening
    refine ⟨fun element size s t => Holds.eq_of_array, ?_⟩
    intro passed declared result result' holds
    cases holds with
    | same =>
        refine ⟨rfl, List.forall₂_same.mpr ?_⟩
        intro p _ _
        rfl
    | function _ params => exact ⟨rfl, params.imp fun p d => PassesAs.eq_of_compound⟩

/-- Two parameters that widen one after the other. -/
theorem pairSlot_order :
    let slot := Ty.callback [.byte, .byte, .array .byte 8] .void
    let middle := Ty.callback [.byte, .word, .array .byte 8] .void
    let function := Ty.callback [.word, .word, .array .byte 8] .void
    slot.accepts true middle = true ∧ middle.accepts true function = true ∧
      slot.accepts true function = true ∧ ¬ function.accepts true slot = true ∧
      ¬ slot.accepts false function = true := by
  intro slot middle function
  obtain ⟨order, strict, -⟩ := accepts_partial_order
  obtain ⟨-, antisymm, trans⟩ := order true
  have first : slot.accepts true middle = true := rfl
  have second : middle.accepts true function = true := rfl
  have through := trans slot middle function first second
  have apart : slot ≠ function := by simp [slot, function, byte, word]
  refine ⟨first, second, through, ?_, ?_⟩
  · intro back
    exact apart (antisymm slot function through back)
  · rw [strict slot function]
    rintro (same | ⟨crossed, -⟩)
    · exact apart same
    · simp [slot, word] at crossed

end Ty

end SemanticCheck
