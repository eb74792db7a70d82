import Mathlib.Logic.Relation
import SemanticCheck.Ty

/-!
How far the text of a type tells the type. Sizes are written behind the element and the result of a
callback comes last, so an array of callbacks and a callback that returns an array look the same. Moving
sizes into results does not change the text, and it ends in a type where no array has callbacks for
elements. Among these a text can be read in one way only: after a type comes the end, a comma or a
closing bracket, and never another size.
-/
namespace SemanticCheck

section Lists

variable {α β : Type} {part : α → List Char} {key : α → β} {ps qs : List α} {a b : List Char}

/-- What stands behind the first part. -/
def restChars (part : α → List Char) (parts : List α) : List Char :=
  parts.flatMap fun p => ',' :: ' ' :: part p

/-- Parts with commas between them. -/
def listChars (part : α → List Char) : List α → List Char
  | [] => []
  | p :: rest => part p ++ restChars part rest

theorem toList_intercalate (text : α → String) : (parts : List α) →
    (", ".intercalate (parts.map text)).toList = listChars (fun p => (text p).toList) parts
  | [] => rfl
  | [p] => by simp [listChars, restChars]
  | p :: q :: rest => by
      have tail := toList_intercalate text (q :: rest)
      rw [List.map_cons] at tail
      rw [List.map_cons, List.map_cons, String.intercalate_cons_cons, String.toList_append,
        String.toList_append, tail]
      simp [listChars, restChars]

/-- Where two inputs that agree open with the parts, and no size stands behind them, the parts have the
same key and the inputs go on alike. -/
def ReadsAs (part : α → List Char) (key : α → β) (p q : α) : Prop :=
  ∀ a b : List Char, a.head? ≠ some '[' → b.head? ≠ some '[' → part p ++ a = part q ++ b →
    key p = key q ∧ a = b

theorem head_restChars_append (part : α → List Char) (ps : List α) (a : List Char) :
    (restChars part ps ++ ')' :: a).head? ≠ some '[' := by
  cases ps <;> simp [restChars]

theorem restChars_append_inj (alike : ∀ p ∈ ps, ∀ q ∈ qs, ReadsAs part key p q)
    (same : restChars part ps ++ ')' :: a = restChars part qs ++ ')' :: b) :
    ps.map key = qs.map key ∧ a = b := by
  induction ps generalizing qs with
  | nil =>
      cases qs with
      | nil => exact ⟨rfl, (List.cons.inj same).2⟩
      | cons q qs => simp [restChars] at same
  | cons p ps ih =>
      cases qs with
      | nil => simp [restChars] at same
      | cons q qs =>
          simp only [restChars, List.flatMap_cons, List.cons_append, List.append_assoc,
            List.cons.injEq, true_and] at same
          obtain ⟨first, same⟩ := alike p List.mem_cons_self q List.mem_cons_self _ _
            (head_restChars_append part ps a) (head_restChars_append part qs b) same
          obtain ⟨others, rest⟩ := ih (fun p hp q hq =>
            alike p (List.mem_cons_of_mem _ hp) q (List.mem_cons_of_mem _ hq)) same
          exact ⟨congrArg₂ List.cons first others, rest⟩

/-- Parts that can be told apart are told apart in a list as well, up to the bracket that closes it. -/
theorem listChars_append_inj (alike : ∀ p ∈ ps, ∀ q ∈ qs, ReadsAs part key p q)
    (some_part : ∀ p ∈ ps ++ qs, ∀ c d, part p ++ c ≠ ')' :: d)
    (same : listChars part ps ++ ')' :: a = listChars part qs ++ ')' :: b) :
    ps.map key = qs.map key ∧ a = b := by
  cases ps with
  | nil =>
      cases qs with
      | nil => exact ⟨rfl, (List.cons.inj same).2⟩
      | cons q qs =>
          rw [listChars, listChars, List.append_assoc] at same
          exact absurd same.symm (some_part q (by simp) _ _)
  | cons p ps =>
      cases qs with
      | nil =>
          rw [listChars, listChars, List.append_assoc] at same
          exact absurd same (some_part p (by simp) _ _)
      | cons q qs =>
          -- a first part without its comma
          apply restChars_append_inj alike
          simp only [restChars, List.flatMap_cons, List.cons_append]
          exact congrArg (fun cs => ',' :: ' ' :: cs) same

end Lists

namespace Ty

/-- Moves the size of one array of callbacks to their result, at any depth. -/
inductive Pushes : Ty → Ty → Prop
  | here (params : List Ty) (result : Ty) (size : Nat) :
      Pushes (.array (.callback params result) size) (.callback params (.array result size))
  | element {e e' : Ty} (size : Nat) : Pushes e e' → Pushes (.array e size) (.array e' size)
  | param {p p' : Ty} (before after : List Ty) (result : Ty) : Pushes p p' →
      Pushes (.callback (before ++ p :: after) result) (.callback (before ++ p' :: after) result)
  | result {r r' : Ty} (params : List Ty) : Pushes r r' →
      Pushes (.callback params r) (.callback params r')

/-- No array in the type has callbacks for elements. -/
inductive Plain : Ty → Prop
  | primitive (scalar : Primitive) : Plain (.primitive scalar)
  | array {element : Ty} (size : Nat) : Plain element →
      (∀ params result, element ≠ .callback params result) → Plain (.array element size)
  | callback {params : List Ty} {result : Ty} : (∀ p ∈ params, Plain p) → Plain result →
      Plain (.callback params result)

/-- An array, or the callback that looks like an array of callbacks. -/
def withSize (size : Nat) : Ty → Ty
  | .callback params result => .callback params (result.withSize size)
  | element => .array element size

mutual

/-- The type with all sizes moved as far as they go. -/
def pushed : Ty → Ty
  | .primitive scalar => .primitive scalar
  | .array element size => element.pushed.withSize size
  | .callback params result => .callback (pushedAll params) result.pushed

def pushedAll : List Ty → List Ty
  | [] => []
  | t :: ts => t.pushed :: pushedAll ts

end

theorem pushedAll_eq_map (ts : List Ty) : pushedAll ts = ts.map pushed := by
  induction ts with
  | nil => rfl
  | cons t ts ih => rw [pushedAll, ih, List.map_cons]

theorem reaches_withSize (size : Nat) :
    (t : Ty) → Relation.ReflTransGen Pushes (.array t size) (t.withSize size)
  | .primitive _ | .array _ _ => .refl
  | .callback params result =>
      .head (.here params result size)
        ((reaches_withSize size result).lift (Ty.callback params) fun _ _ => .result params)

mutual

theorem reaches_pushed : (t : Ty) → Relation.ReflTransGen Pushes t t.pushed
  | .primitive _ => .refl
  | .array element size =>
      ((reaches_pushed element).lift (Ty.array · size) fun _ _ => .element size).trans
        (reaches_withSize size element.pushed)
  | .callback params result =>
      (reaches_pushedAll [] result params).trans
        ((reaches_pushed result).lift (Ty.callback (pushedAll params)) fun _ _ => .result _)

theorem reaches_pushedAll (before : List Ty) (result : Ty) : (params : List Ty) →
    Relation.ReflTransGen Pushes (.callback (before ++ params) result)
      (.callback (before ++ pushedAll params) result)
  | [] => .refl
  | p :: rest => by
      have first := (reaches_pushed p).lift (fun p => Ty.callback (before ++ p :: rest) result)
        fun _ _ => Pushes.param before rest result
      have others := reaches_pushedAll (before ++ [p.pushed]) result rest
      simp only [List.append_assoc, List.singleton_append] at others
      exact first.trans others

end

theorem Plain.withSize (size : Nat) : {t : Ty} → t.Plain → (t.withSize size).Plain
  | .primitive _, plain => .array size plain nofun
  | .array _ _, plain => .array size plain nofun
  | .callback _ _, .callback params result => .callback params (result.withSize size)

mutual

theorem plain_pushed : (t : Ty) → t.pushed.Plain
  | .primitive scalar => .primitive scalar
  | .array element size => (plain_pushed element).withSize size
  | .callback params result => .callback (plain_pushedAll params) (plain_pushed result)

theorem plain_pushedAll : (params : List Ty) → ∀ p ∈ pushedAll params, p.Plain
  | [] => nofun
  | p :: rest => List.forall_mem_cons.mpr ⟨plain_pushed p, plain_pushedAll rest⟩

end

/-- Where no array has callbacks for elements there is nothing to move. -/
theorem Plain.not_pushes {s t : Ty} (plain : s.Plain) : ¬ Pushes s t := by
  intro step
  induction step with
  | here params result size =>
      cases plain with
      | array _ _ apart => exact apart params result rfl
  | element size _ ih =>
      cases plain with
      | array _ inner _ => exact ih inner
  | param before after result _ ih =>
      cases plain with
      | callback params _ => exact ih (params _ (List.mem_append_right _ List.mem_cons_self))
  | result params _ ih =>
      cases plain with
      | callback _ result => exact ih result

theorem pushed_eq_of_stuck {t : Ty} (stuck : ∀ u, ¬ Pushes t u) : t.pushed = t := by
  rcases Relation.ReflTransGen.cases_head (reaches_pushed t) with same | ⟨u, step, -⟩
  · exact same.symm
  · exact absurd step (stuck u)

theorem Plain.pushed_eq {t : Ty} (plain : t.Plain) : t.pushed = t :=
  pushed_eq_of_stuck fun _ => plain.not_pushes

theorem map_pushed_of_plain {ts : List Ty} (plain : ∀ t ∈ ts, t.Plain) : ts.map pushed = ts :=
  (List.map_congr_left fun t mem => (plain t mem).pushed_eq).trans (List.map_id' ts)

theorem text_array (element : Ty) (size : Nat) :
    (Ty.array element size).text = element.text ++ "[" ++ size.repr ++ "]" := by
  rw [text]
  rfl

theorem Pushes.text_eq {s t : Ty} (step : Pushes s t) : s.text = t.text := by
  induction step with
  | here params result size =>
      rw [text_array, text, text, text_array]
      simp only [String.append_assoc]
  | element size _ ih => rw [text, text, ih]
  | param before after result _ ih =>
      rw [text, text, texts_eq_map, texts_eq_map, List.map_append, List.map_append, List.map_cons,
        List.map_cons, ih]
  | result params _ ih => rw [text, text, ih]

theorem text_eq_of_reaches {s t : Ty} (steps : Relation.ReflTransGen Pushes s t) :
    s.text = t.text := by
  induction steps with
  | refl => rfl
  | tail _ step ih => exact ih.trans step.text_eq

def chars (t : Ty) : List Char := t.text.toList

def sizeChars (size : Nat) : List Char := '[' :: (Nat.toDigits 10 size ++ [']'])

theorem chars_array (element : Ty) (size : Nat) :
    (Ty.array element size).chars = element.chars ++ sizeChars size := by
  rw [chars, text_array]
  simp [chars, sizeChars]

theorem chars_callback (params : List Ty) (result : Ty) : (Ty.callback params result).chars =
    "callback(".toList ++ (listChars chars params ++ ')' :: ':' :: ' ' :: result.chars) := by
  have list : (", ".intercalate (params.map text)).toList = listChars chars params :=
    toList_intercalate text params
  rw [chars, text, texts_eq_map, String.toList_append, String.toList_append, String.toList_append, list]
  simp [chars]

/-- Of two texts that agree, what stands before the first mark agrees, and what stands behind it. -/
theorem before_mark {mark : Char} {a b c d : List Char} (ha : mark ∉ a) (hb : mark ∉ b)
    (same : a ++ mark :: c = b ++ mark :: d) : a = b ∧ c = d := by
  induction a generalizing b with
  | nil =>
      cases b with
      | nil => exact ⟨rfl, (List.cons.inj same).2⟩
      | cons y b => exact absurd ((List.cons.inj same).1 ▸ List.mem_cons_self) hb
  | cons x a ih =>
      cases b with
      | nil => exact absurd ((List.cons.inj same).1 ▸ List.mem_cons_self) ha
      | cons y b =>
          obtain ⟨rfl, tails⟩ := List.cons.inj same
          obtain ⟨rfl, rest⟩ := ih (List.not_mem_of_not_mem_cons ha) (List.not_mem_of_not_mem_cons hb)
            tails
          exact ⟨rfl, rest⟩

/-- Of two texts that agree, what stands behind the last mark agrees, and what stands before it. -/
theorem after_mark {mark : Char} {a b c d : List Char} (hc : mark ∉ c) (hd : mark ∉ d)
    (same : a ++ mark :: c = b ++ mark :: d) : a = b ∧ c = d := by
  have reversed : c.reverse ++ mark :: a.reverse = d.reverse ++ mark :: b.reverse := by
    simpa using congrArg List.reverse same
  obtain ⟨tails, rest⟩ := before_mark (mt List.mem_reverse.mp hc) (mt List.mem_reverse.mp hd) reversed
  exact ⟨List.reverse_inj.mp rest, List.reverse_inj.mp tails⟩

theorem notMem_digits {mark : Char} (other : mark.isDigit = false) (size : Nat) :
    mark ∉ Nat.toDigits 10 size := by
  intro mem
  have digit := Nat.isDigit_of_mem_toDigits (by decide) (by decide) mem
  rw [other] at digit
  cases digit

theorem sizeChars_append_inj {m n : Nat} {a b : List Char}
    (same : sizeChars m ++ a = sizeChars n ++ b) : m = n ∧ a = b := by
  simp only [sizeChars, List.cons_append, List.append_assoc, List.nil_append, List.cons.injEq,
    true_and] at same
  obtain ⟨digits, rest⟩ := before_mark (notMem_digits rfl m) (notMem_digits rfl n) same
  have sizes := congrArg (Nat.ofDigitChars 10 · 0) digits
  simp only [Nat.ofDigitChars_toDigits (b := 10) (by decide) (by decide)] at sizes
  exact ⟨sizes, rest⟩

theorem sizes_append_inj {ms ns : List Nat} {a b : List Char} (ha : a.head? ≠ some '[')
    (hb : b.head? ≠ some '[') (same : ms.flatMap sizeChars ++ a = ns.flatMap sizeChars ++ b) :
    ms = ns ∧ a = b := by
  induction ms generalizing ns with
  | nil =>
      cases ns with
      | nil => exact ⟨rfl, same⟩
      | cons n ns => exact absurd (by rw [show a = _ from same]; rfl) ha
  | cons m ms ih =>
      cases ns with
      | nil => exact absurd (by rw [show b = _ from same.symm]; rfl) hb
      | cons n ns =>
          rw [List.flatMap_cons, List.flatMap_cons, List.append_assoc, List.append_assoc] at same
          obtain ⟨rfl, rest⟩ := sizeChars_append_inj same
          obtain ⟨rfl, ends⟩ := ih rest
          exact ⟨rfl, ends⟩

def withSizes (sizes : List Nat) (t : Ty) : Ty := sizes.foldl (fun ty size => ty.withSize size) t

theorem withSizes_callback (params : List Ty) (result : Ty) (sizes : List Nat) :
    (Ty.callback params result).withSizes sizes = .callback params (result.withSizes sizes) := by
  induction sizes generalizing result with
  | nil => rfl
  | cons size sizes ih => exact ih (result.withSize size)

/-- Where two inputs that agree open with the types and sizes, they open with the same type once the
sizes are moved, and they go on alike. -/
def ReadAlike (s t : Ty) : Prop :=
  ∀ (ms ns : List Nat) (a b : List Char), a.head? ≠ some '[' → b.head? ≠ some '[' →
    s.chars ++ (ms.flatMap sizeChars ++ a) = t.chars ++ (ns.flatMap sizeChars ++ b) →
      s.pushed.withSizes ms = t.pushed.withSizes ns ∧ a = b

theorem ReadAlike.symm {s t : Ty} (alike : s.ReadAlike t) : t.ReadAlike s := by
  intro ms ns a b ha hb same
  obtain ⟨types, rest⟩ := alike ns ms b a hb ha same.symm
  exact ⟨types.symm, rest.symm⟩

/-- The size of an array is the first of the sizes behind its element. -/
theorem ReadAlike.array {s t : Ty} (size : Nat) (alike : s.ReadAlike t) :
    (Ty.array s size).ReadAlike t := by
  intro ms ns a b ha hb same
  rw [chars_array, List.append_assoc, ← List.append_assoc (sizeChars size), ← List.flatMap_cons] at same
  rw [pushed]
  exact alike (size :: ms) ns a b ha hb same

theorem readAlike_primitives (p q : Primitive) : (Ty.primitive p).ReadAlike (.primitive q) := by
  intro ms ns a b ha hb same
  simp only [chars, text] at same
  have scalars : p = q := by
    cases p <;> cases q <;> simp [Primitive.text] at same <;> rfl
  subst scalars
  obtain ⟨rfl, rest⟩ := sizes_append_inj ha hb (List.append_cancel_left same)
  exact ⟨rfl, rest⟩

theorem readAlike_primitive_callback (p : Primitive) (params : List Ty) (result : Ty) :
    (Ty.primitive p).ReadAlike (.callback params result) := by
  intro ms ns a b _ _ same
  rw [chars, text, chars_callback] at same
  cases p <;> simp [Primitive.text] at same

/-- No type opens with the bracket that closes the parameters. -/
theorem chars_append_ne_close (a b : List Char) : (t : Ty) → t.chars ++ a ≠ ')' :: b
  | .primitive p => by
      rw [chars, text]
      cases p <;> simp [Primitive.text]
  | .array element size => by
      rw [chars_array, List.append_assoc]
      exact chars_append_ne_close _ b element
  | .callback params result => by simp [chars_callback]

theorem quote_notMem_listChars {params : List Ty} (each : ∀ p ∈ params, '\'' ∉ p.chars) :
    '\'' ∉ listChars chars params := by
  cases params with
  | nil => simp [listChars]
  | cons p rest =>
      obtain ⟨first, others⟩ := List.forall_mem_cons.mp each
      simpa [listChars, restChars, first] using others

/-- No type has a quote in its text, so it can be quoted. -/
theorem quote_notMem_chars : (t : Ty) → '\'' ∉ t.chars
  | .primitive p => by
      rw [chars, text]
      cases p <;> decide
  | .array element size => by
      have digits : '\'' ∉ Nat.toDigits 10 size := notMem_digits rfl size
      simp [chars_array, sizeChars, quote_notMem_chars element, digits]
  | .callback params result => by
      have each := quote_notMem_listChars fun p (_ : p ∈ params) => quote_notMem_chars p
      simp [chars_callback, each, quote_notMem_chars result]

theorem ReadAlike.readsAs {s t : Ty} (alike : s.ReadAlike t) : ReadsAs chars pushed s t :=
  alike [] []

theorem readAlike_callbacks {ps qs : List Ty} {r u : Ty} (params : ∀ p ∈ ps, ∀ q ∈ qs, p.ReadAlike q)
    (results : r.ReadAlike u) : (Ty.callback ps r).ReadAlike (.callback qs u) := by
  intro ms ns a b ha hb same
  simp only [chars_callback, List.append_assoc, List.cons_append] at same
  obtain ⟨params, same⟩ := listChars_append_inj (fun p hp q hq => (params p hp q hq).readsAs)
    (fun p _ c d => chars_append_ne_close c d p) (List.append_cancel_left same)
  simp only [List.cons.injEq, true_and] at same
  obtain ⟨results, rest⟩ := results ms ns a b ha hb same
  rw [pushed, pushed, withSizes_callback, withSizes_callback, pushedAll_eq_map, pushedAll_eq_map,
    params, results]
  exact ⟨rfl, rest⟩

theorem readAlike : (s t : Ty) → s.ReadAlike t
  -- sizes come off either type first, so that scalars and callbacks are left to compare
  | .array e n, t => (readAlike e t).array n
  | .primitive p, .array f n => ((readAlike (.primitive p) f).symm.array n).symm
  | .callback ps r, .array f n => ((readAlike (.callback ps r) f).symm.array n).symm
  | .primitive p, .primitive q => readAlike_primitives p q
  | .primitive p, .callback qs u => readAlike_primitive_callback p qs u
  | .callback ps r, .primitive q => (readAlike_primitive_callback q ps r).symm
  | .callback ps r, .callback qs u =>
      readAlike_callbacks (fun p _ q _ => readAlike p q) (readAlike r u)

theorem text_pushed (t : Ty) : t.pushed.text = t.text :=
  (text_eq_of_reaches (reaches_pushed t)).symm

theorem text_eq_iff (s t : Ty) : s.text = t.text ↔ s.pushed = t.pushed := by
  constructor
  · intro same
    have chars : s.chars ++ ([] ++ []) = t.chars ++ ([] ++ []) := by rw [chars, chars, same]
    exact (readAlike s t [] [] [] [] (by decide) (by decide) chars).1
  · intro same
    rw [← text_pushed s, ← text_pushed t, same]

theorem map_text_eq_iff (ss ts : List Ty) :
    ss.map text = ts.map text ↔ ss.map pushed = ts.map pushed := by
  induction ss generalizing ts with
  | nil => cases ts <;> simp
  | cons s ss ih => cases ts <;> simp [text_eq_iff, ih]

end Ty

end SemanticCheck
