import Mathlib
import SemanticCheck.Hover
import SemanticCheck.Proofs.TypeText

/-!
What a description tells. The words in front of the name say what is declared, and every part behind
them ends at a mark that the part does not hold. So symbols with proper names have the same description
exactly when they differ in nothing but scopes, places and default values, and in types that have the
same text.
-/
namespace SemanticCheck

/-- Letters, digits and underscores, as names are written. -/
def ProperName (name : String) : Prop := ∀ c ∈ name.toList, c.isAlphanum = true ∨ c = '_'

theorem ProperName.notMem {name : String} (proper : ProperName name) {mark : Char}
    (other : mark.isAlphanum = false) (bar : mark ≠ '_') : mark ∉ name.toList := by
  intro member
  rcases proper mark member with letter | same
  · rw [other] at letter
    cases letter
  · exact bar same

def ParameterSymbol.shown (p : ParameterSymbol) : ParameterSymbol :=
  { name := p.name, ty := p.ty.pushed, optional := p.optional }

def VariableSymbol.shown (v : VariableSymbol) : VariableSymbol :=
  { v with ty := v.ty.pushed, scope := 0, location := .unknown }

def FunctionSymbol.shown (f : FunctionSymbol) : FunctionSymbol :=
  { f with params := f.params.map ParameterSymbol.shown, result := f.result.pushed, scope := 0
           location := .unknown }

namespace Symbol

/-- The symbol without its scope, its places and default values, and with each type as the one that is
read from its text. -/
def shown : Symbol → Symbol
  | .var v => .var v.shown
  | .function f => .function f.shown

/-- The names in the description of a symbol. -/
def names : Symbol → List String
  | .var v => [v.name]
  | .function f => f.name :: f.params.map (·.name)

theorem describe_shown (x : Symbol) : x.shown.describe = x.describe := by
  cases x with
  | var v => simp only [shown, describe, VariableSymbol.describe, VariableSymbol.shown, Ty.text_pushed]
  | function f =>
      have each : ParameterSymbol.describe ∘ ParameterSymbol.shown = ParameterSymbol.describe := by
        funext p
        unfold Function.comp ParameterSymbol.describe ParameterSymbol.shown
        rw [Ty.text_pushed]
      simp only [shown, describe, FunctionSymbol.describe, FunctionSymbol.shown, List.map_map, each,
        Ty.text_pushed]

end Symbol

namespace VariableSymbol

def openingChars : Bool → List Char
  | true => "const ".toList
  | false => "let ".toList

def storageChars : Option Storage → List Char
  | some storage => ' ' :: storage.text.toList
  | none => []

def valueChars : Option Int64 → List Char
  | some value => " = ".toList ++ value.toInt.repr.toList
  | none => []

theorem toList_describe (v : VariableSymbol) :
    v.describe.toList = openingChars v.isConst ++ (v.name.toList ++ ':' :: ' ' :: (v.ty.chars ++
      (storageChars v.storage ++ valueChars v.constantValue))) := by
  unfold describe Ty.chars
  cases v.isConst <;> cases v.storage <;> cases v.constantValue <;>
    simp [openingChars, storageChars, valueChars] <;> rfl

theorem openingChars_append_inj {c d : Bool} {a b : List Char}
    (same : openingChars c ++ a = openingChars d ++ b) : c = d ∧ a = b := by
  cases c <;> cases d <;> simp [openingChars] at same ⊢ <;> exact same

theorem valueChars_inj {x y : Option Int64} (same : valueChars x = valueChars y) : x = y := by
  cases x with
  | none =>
      cases y with
      | none => rfl
      | some n => simp [valueChars] at same
  | some m =>
      cases y with
      | none => simp [valueChars] at same
      | some n =>
          have digits := String.toList_inj.mp (List.append_cancel_left same)
          rw [Int64.toInt_inj.mp (Int.repr_injective digits)]

/-- A storage opens with a mark, and the value with an equals sign. -/
theorem closing_inj {s t : Option Storage} {x y : Option Int64}
    (same : storageChars s ++ valueChars x = storageChars t ++ valueChars y) : s = t ∧ x = y := by
  cases s with
  | none =>
      cases t with
      | none => exact ⟨rfl, valueChars_inj same⟩
      | some t => cases t <;> cases x <;> simp [storageChars, valueChars, Storage.text] at same
  | some s =>
      cases t with
      | none => cases s <;> cases y <;> simp [storageChars, valueChars, Storage.text] at same
      | some t =>
          have stored : s = t := by
            cases s <;> cases t <;> simp [storageChars, Storage.text] at same ⊢
          subst stored
          exact ⟨rfl, valueChars_inj (List.append_cancel_left same)⟩

theorem head_closing (s : Option Storage) (x : Option Int64) :
    (storageChars s ++ valueChars x).head? ≠ some '[' := by
  cases s <;> cases x <;> simp [storageChars, valueChars]

theorem shown_eq_of_describe {v w : VariableSymbol} (hv : ProperName v.name) (hw : ProperName w.name)
    (same : v.describe = w.describe) : v.shown = w.shown := by
  have chars := congrArg String.toList same
  rw [toList_describe, toList_describe] at chars
  obtain ⟨const, chars⟩ := openingChars_append_inj chars
  obtain ⟨names, chars⟩ := Ty.before_mark (hv.notMem rfl (by decide)) (hw.notMem rfl (by decide)) chars
  simp only [List.cons.injEq, true_and] at chars
  obtain ⟨types, chars⟩ :=
    (Ty.readAlike v.ty w.ty).readsAs _ _ (head_closing _ _) (head_closing _ _) chars
  obtain ⟨storage, value⟩ := closing_inj chars
  simp only [shown, const, String.toList_inj.mp names, types, storage, value]

end VariableSymbol

namespace ParameterSymbol

def markChars : Bool → List Char
  | true => ['?']
  | false => []

def chars (p : ParameterSymbol) : List Char := p.describe.toList

theorem chars_eq (p : ParameterSymbol) :
    p.chars = p.name.toList ++ markChars p.optional ++ ':' :: ' ' :: p.ty.chars := by
  unfold chars describe Ty.chars
  cases p.optional <;> simp [markChars]

/-- The mark is no part of a proper name, so the two are told apart. -/
theorem marked_inj {p q : ParameterSymbol} (hp : ProperName p.name) (hq : ProperName q.name)
    (same : p.name.toList ++ markChars p.optional = q.name.toList ++ markChars q.optional) :
    p.name = q.name ∧ p.optional = q.optional := by
  have plain : '?' ∉ p.name.toList := hp.notMem rfl (by decide)
  have plain' : '?' ∉ q.name.toList := hq.notMem rfl (by decide)
  generalize p.optional = c, q.optional = d at same ⊢
  cases c with
  | true =>
      cases d with
      | true => exact ⟨String.toList_inj.mp (List.append_cancel_right same), rfl⟩
      | false =>
          rw [markChars, markChars, List.append_nil] at same
          exact absurd (same ▸ List.mem_append_right _ List.mem_cons_self) plain'
  | false =>
      cases d with
      | true =>
          rw [markChars, markChars, List.append_nil] at same
          exact absurd (same ▸ List.mem_append_right _ List.mem_cons_self) plain
      | false => exact ⟨String.toList_inj.mp (List.append_cancel_right same), rfl⟩

theorem colon_notMem {p : ParameterSymbol} (hp : ProperName p.name) :
    ':' ∉ p.name.toList ++ markChars p.optional := by
  have plain : ':' ∉ p.name.toList := hp.notMem rfl (by decide)
  cases p.optional <;> simp [markChars, plain]

theorem readsAs {p q : ParameterSymbol} (hp : ProperName p.name) (hq : ProperName q.name) :
    ReadsAs chars shown p q := by
  intro a b ha hb same
  simp only [chars_eq, List.append_assoc (_ ++ _), List.cons_append] at same
  obtain ⟨marked, same⟩ := Ty.before_mark (colon_notMem hp) (colon_notMem hq) same
  simp only [List.cons.injEq, true_and] at same
  obtain ⟨name, optional⟩ := marked_inj hp hq marked
  obtain ⟨types, rest⟩ := (Ty.readAlike p.ty q.ty).readsAs a b ha hb same
  simp only [shown, name, optional, types, rest, and_self]

theorem chars_append_ne_close {p : ParameterSymbol} (hp : ProperName p.name) (a b : List Char) :
    p.chars ++ a ≠ ')' :: b := by
  intro same
  have plain : ')' ∉ p.name.toList := hp.notMem rfl (by decide)
  rw [chars_eq] at same
  cases name : p.name.toList with
  | nil => cases optional : p.optional <;> simp [name, optional, markChars] at same
  | cons c rest =>
      simp only [name, List.cons_append, List.cons.injEq] at same
      exact plain (name ▸ same.1 ▸ List.mem_cons_self)

end ParameterSymbol

namespace FunctionSymbol

def openingChars (exported callback : Bool) : List Char :=
  (if exported then "export ".toList else []) ++
    ((if callback then "callback ".toList else []) ++ "function ".toList)

theorem toList_describe (f : FunctionSymbol) :
    f.describe.toList = openingChars f.isExported f.isCallback ++ (f.name.toList ++ '(' ::
      (listChars ParameterSymbol.chars f.params ++ ')' :: ':' :: ' ' :: f.result.chars)) := by
  have list : (", ".intercalate (f.params.map ParameterSymbol.describe)).toList =
      listChars ParameterSymbol.chars f.params := toList_intercalate _ f.params
  unfold describe openingChars Ty.chars
  cases f.isExported <;> cases f.isCallback <;> simp [list]

theorem openingChars_append_inj {e c e' c' : Bool} {a b : List Char}
    (same : openingChars e c ++ a = openingChars e' c' ++ b) : e = e' ∧ c = c' ∧ a = b := by
  cases e <;> cases c <;> cases e' <;> cases c' <;> simp [openingChars] at same ⊢ <;> exact same

theorem shown_eq_of_describe {f g : FunctionSymbol} (hf : ProperName f.name) (hg : ProperName g.name)
    (params : ∀ p ∈ f.params, ProperName p.name) (params' : ∀ p ∈ g.params, ProperName p.name)
    (same : f.describe = g.describe) : f.shown = g.shown := by
  have chars := congrArg String.toList same
  rw [toList_describe, toList_describe] at chars
  obtain ⟨exported, callback, chars⟩ := openingChars_append_inj chars
  obtain ⟨names, chars⟩ := Ty.before_mark (hf.notMem rfl (by decide)) (hg.notMem rfl (by decide)) chars
  obtain ⟨parts, chars⟩ := listChars_append_inj
    (fun p hp q hq => ParameterSymbol.readsAs (params p hp) (params' q hq))
    (fun p hp => ParameterSymbol.chars_append_ne_close
      ((List.mem_append.mp hp).elim (params p) (params' p))) chars
  simp only [List.cons.injEq, true_and] at chars
  have result := (Ty.text_eq_iff _ _).mp (String.toList_inj.mp chars)
  simp only [shown, exported, callback, String.toList_inj.mp names, parts, result]

end FunctionSymbol

namespace Symbol

theorem describe_var_ne_function (v : VariableSymbol) (f : FunctionSymbol) : v.describe ≠ f.describe := by
  intro same
  have chars := congrArg String.toList same
  rw [VariableSymbol.toList_describe, FunctionSymbol.toList_describe] at chars
  generalize v.isConst = c, f.isExported = e, f.isCallback = d at chars
  cases c <;> cases e <;> cases d <;>
    simp [VariableSymbol.openingChars, FunctionSymbol.openingChars] at chars

/-- A description tells all of a symbol but its scope, places and default values, and its types as far as
their texts do. -/
theorem describe_eq_iff {x y : Symbol} (hx : ∀ name ∈ x.names, ProperName name)
    (hy : ∀ name ∈ y.names, ProperName name) : x.describe = y.describe ↔ x.shown = y.shown := by
  constructor
  · intro same
    cases x with
    | var v =>
        cases y with
        | var w =>
            exact congrArg Symbol.var (VariableSymbol.shown_eq_of_describe
              (hx _ List.mem_cons_self) (hy _ List.mem_cons_self) same)
        | function g => exact absurd same (describe_var_ne_function v g)
    | function f =>
        cases y with
        | var w => exact absurd same.symm (describe_var_ne_function w f)
        | function g =>
            obtain ⟨hf, params⟩ := List.forall_mem_cons.mp hx
            obtain ⟨hg, params'⟩ := List.forall_mem_cons.mp hy
            exact congrArg Symbol.function (FunctionSymbol.shown_eq_of_describe hf hg
              (List.forall_mem_map.mp params) (List.forall_mem_map.mp params') same)
  · intro same
    rw [← x.describe_shown, ← y.describe_shown, same]

end Symbol

end SemanticCheck
