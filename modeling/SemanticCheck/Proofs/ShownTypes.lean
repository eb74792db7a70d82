import SemanticCheck.Fault
import SemanticCheck.Proofs.TypeText

/-!
What a message tells about the types that it shows. Types stand in quotes and their texts have none, so
a type can be cut out where the words next to it are known. Names can be any text, but in no message do
types stand between two names: those before the names are read from the start and those behind them
from the end. Which words to look for is told by the opening of the message.
-/
namespace SemanticCheck

namespace Ty

/-- A type is cut out by the quote behind it. -/
theorem chars_append_inj {s t : Ty} {word : String} (quoted : word.toList.head? = some '\'')
    {a b : List Char} (same : s.chars ++ (word.toList ++ a) = t.chars ++ (word.toList ++ b)) :
    s.text = t.text ∧ a = b := by
  obtain ⟨w, split⟩ := List.head?_eq_some_iff.mp quoted
  rw [split, List.cons_append, List.cons_append] at same
  obtain ⟨types, rest⟩ := before_mark (quote_notMem_chars s) (quote_notMem_chars t) same
  exact ⟨String.toList_inj.mp types, List.append_cancel_left rest⟩

/-- A type is cut out by the quote before it. -/
theorem append_chars_inj {s t : Ty} {word : String} (quoted : word.toList.getLast? = some '\'')
    {a b : List Char} (same : a ++ word.toList ++ s.chars = b ++ word.toList ++ t.chars) :
    a = b ∧ s.text = t.text := by
  obtain ⟨w, split⟩ := List.getLast?_eq_some_iff.mp quoted
  rw [split, ← List.append_assoc, ← List.append_assoc, List.append_assoc (a ++ w),
    List.append_assoc (b ++ w)] at same
  obtain ⟨rest, types⟩ := after_mark (quote_notMem_chars s) (quote_notMem_chars t) same
  exact ⟨List.append_cancel_right rest, String.toList_inj.mp types⟩

end Ty

/-- The signature with all sizes moved in its types. -/
def Signature.pushed (s : Signature) : Signature := ⟨Ty.pushedAll s.params, s.result.pushed⟩

/-- A message about types cut into pieces: words that open it, types with the words behind them, names
and numbers, words with the types behind them, and words that end it. -/
structure Sentence where
  opening : String
  front : List (Ty × String) := []
  free : List String := []
  back : List (String × Ty) := []
  ending : List String := []

/-- The words of a sentence that do not change with its types and names. -/
structure Layout where
  opening : String
  behind : List String
  before : List String
  ending : List String
  deriving DecidableEq

namespace Sentence

def layout (s : Sentence) : Layout :=
  ⟨s.opening, s.front.map Prod.snd, s.back.map Prod.fst, s.ending⟩

def types (s : Sentence) : List Ty := s.front.map Prod.fst ++ s.back.map Prod.snd

def pieces (s : Sentence) : List String :=
  s.front.flatMap (fun part => [part.1.text, part.2]) ++ s.free ++
    s.back.flatMap (fun part => [part.1, part.2.text]) ++ s.ending

def text (s : Sentence) : String := s.pieces.foldl (· ++ ·) s.opening

def frontChars (front : List (Ty × String)) : List Char :=
  front.flatMap fun part => part.1.chars ++ part.2.toList

def backChars (back : List (String × Ty)) : List Char :=
  back.flatMap fun part => part.1.toList ++ part.2.chars

theorem toList_foldl_append (pieces : List String) (start : String) :
    (pieces.foldl (· ++ ·) start).toList = start.toList ++ pieces.flatMap String.toList := by
  induction pieces generalizing start with
  | nil => simp
  | cons piece pieces ih => simp [ih]

theorem toList_text (s : Sentence) : s.text.toList = s.opening.toList ++ (frontChars s.front ++
    (s.free.flatMap String.toList ++ (backChars s.back ++ s.ending.flatMap String.toList))) := by
  rw [text, toList_foldl_append, pieces]
  simp only [List.flatMap_append, List.flatMap_assoc, List.append_assoc, List.flatMap_cons,
    List.flatMap_nil, List.append_nil]
  rfl

theorem opening_isPrefix (s : Sentence) : s.opening.toList <+: s.text.toList :=
  ⟨_, s.toList_text.symm⟩

theorem frontChars_append_inj {ps qs : List (Ty × String)} {a b : List Char}
    (words : ps.map Prod.snd = qs.map Prod.snd)
    (quoted : ∀ w ∈ ps.map Prod.snd, w.toList.head? = some '\'')
    (same : frontChars ps ++ a = frontChars qs ++ b) :
    (ps.map Prod.fst).map Ty.text = (qs.map Prod.fst).map Ty.text ∧ a = b := by
  induction ps generalizing qs with
  | nil =>
      obtain rfl : qs = [] := by simpa using words
      exact ⟨rfl, same⟩
  | cons p ps ih =>
      obtain ⟨q, qs, rfl, word, words⟩ := List.map_eq_cons_iff.mp words.symm
      obtain ⟨first, others⟩ := List.forall_mem_cons.mp quoted
      simp only [frontChars, List.flatMap_cons, List.append_assoc, word] at same
      obtain ⟨ty, same⟩ := Ty.chars_append_inj first same
      obtain ⟨types, rest⟩ := ih words.symm others same
      exact ⟨congrArg₂ List.cons ty types, rest⟩

theorem append_backChars_inj {ps qs : List (String × Ty)} {a b : List Char}
    (words : ps.map Prod.fst = qs.map Prod.fst)
    (quoted : ∀ w ∈ ps.map Prod.fst, w.toList.getLast? = some '\'')
    (same : a ++ backChars ps = b ++ backChars qs) :
    a = b ∧ (ps.map Prod.snd).map Ty.text = (qs.map Prod.snd).map Ty.text := by
  induction ps generalizing qs a b with
  | nil =>
      obtain rfl : qs = [] := by simpa using words
      exact ⟨List.append_cancel_right same, rfl⟩
  | cons p ps ih =>
      obtain ⟨q, qs, rfl, word, words⟩ := List.map_eq_cons_iff.mp words.symm
      obtain ⟨first, others⟩ := List.forall_mem_cons.mp quoted
      simp only [backChars, List.flatMap_cons, ← List.append_assoc a, ← List.append_assoc b, word] at same
      -- the last type is read first
      obtain ⟨same, types⟩ := ih words.symm others same
      obtain ⟨rest, ty⟩ := Ty.append_chars_inj first same
      exact ⟨rest, congrArg₂ List.cons ty types⟩

/-- The sentence with all sizes moved in its types. -/
def pushed (s : Sentence) : Sentence :=
  { s with
    front := s.front.map fun part => (part.1.pushed, part.2)
    back := s.back.map fun part => (part.1, part.2.pushed) }

theorem types_pushed (s : Sentence) : s.pushed.types = s.types.map Ty.pushed := by
  simp only [types, pushed, List.map_append, List.map_map]
  rfl

theorem text_pushed (s : Sentence) : s.pushed.text = s.text := by
  simp only [text, pieces, pushed, List.flatMap_map, Ty.text_pushed]

/-- Sentences of one layout that read the same show types that read the same. -/
theorem types_of_text {s r : Sentence} (layout : s.layout = r.layout)
    (behind : ∀ w ∈ s.layout.behind, w.toList.head? = some '\'')
    (before : ∀ w ∈ s.layout.before, w.toList.getLast? = some '\'') (same : s.text = r.text) :
    s.types.map Ty.text = r.types.map Ty.text := by
  obtain ⟨opening, fronts, backs, ending⟩ := Layout.mk.inj layout
  have chars := congrArg String.toList same
  rw [toList_text, toList_text, opening] at chars
  obtain ⟨front, chars⟩ := frontChars_append_inj fronts behind (List.append_cancel_left chars)
  rw [ending, ← List.append_assoc, ← List.append_assoc] at chars
  obtain ⟨-, back⟩ := append_backChars_inj backs before (List.append_cancel_right chars)
  rw [types, types, List.map_append, List.map_append, front, back]

end Sentence

namespace Cause

/-- The message as a sentence about types, where it shows any. -/
def sentence? : Cause → Option Sentence
  | .unaryOperand op operand => some {
      opening := "operator '", free := [op.text], back := [("' cannot be applied to '", operand)],
      ending := ["'"] }
  | .binaryOperands op lhs rhs => some {
      opening := "operator '", free := [op.text],
      back := [("' cannot be applied to '", lhs), ("' and '", rhs)], ending := ["'"] }
  | .positionNotNumeric found => some {
      opening := "array index must be a byte or word, found '", front := [(found, "'")] }
  | .positionOutOfBounds position array => some {
      opening := "index ", free := [toString position],
      back := [(" is out of bounds for '", array)], ending := ["'"] }
  | .notIndexable found => some {
      opening := "cannot index into a value of type '", front := [(found, "'")] }
  | .argumentMismatch position callee expected found => some {
      opening := "argument ", free := [toString position, " of '", callee],
      back := [("' expects '", expected), ("', found '", found)], ending := ["'"] }
  | .notCallable name ty => some {
      opening := "'", free := [name], back := [("' has type '", ty)],
      ending := ["' and cannot be called"] }
  | .functionAsValue target function _ => some {
      opening := "cannot assign to non-callback type '", front := [(target, "': '")],
      free := [function], ending := ["' is a function"] }
  | .signatureMismatch slot function signature => some {
      opening := "callback signature mismatch: expected '", front := [(slot.ty, "', '")],
      free := [function], back := [("' has '", signature.ty)], ending := ["'"] }
  | .valueMismatch source target => some {
      opening := "cannot assign a value of type '", front := [(source, "' to '"), (target, "'")] }
  | .unsafeParam param function ty => some {
      opening := "parameter '", free := [param, "' of callback function '", function],
      back := [("' has type '", ty)],
      ending := ["', ", "callback parameters must be byte, word, boolean or void"] }
  | .unsafeResult function ty => some {
      opening := "callback function '", free := [function], back := [("' returns '", ty)],
      ending := ["', ", "callbacks must return byte, word, boolean or void"] }
  | .missingResult expected => some {
      opening := "missing return value, expected '", front := [(expected, "'")] }
  | .conditionNotBoolean found => some {
      opening := "condition must be 'boolean', found '", front := [(found, "'")] }
  | _ => none

theorem message_of_sentence {c : Cause} {s : Sentence} (said : c.sentence? = some s) :
    c.message = s.text := by
  cases c <;> cases said <;> rfl

/-- The layouts of all sentences about types. One cause of each sort gives them, since they depend on
nothing else. -/
def layouts : List Layout :=
  ([.unaryOperand .not .void, .binaryOperands .add .void .void, .positionNotNumeric .void,
    .positionOutOfBounds 0 .void, .notIndexable .void, .argumentMismatch 0 "" .void .void,
    .notCallable "" .void, .functionAsValue .void "" ⟨[], .void⟩,
    .signatureMismatch ⟨[], .void⟩ "" ⟨[], .void⟩, .valueMismatch .void .void,
    .unsafeParam "" "" .void, .unsafeResult "" .void, .missingResult .void,
    .conditionNotBoolean .void] : List Cause).filterMap fun c => c.sentence?.map Sentence.layout

theorem layout_mem {c : Cause} {s : Sentence} (said : c.sentence? = some s) :
    s.layout ∈ layouts := by
  cases c <;> cases said <;> exact List.mem_of_elem_eq_true rfl

theorem layouts_apart : ∀ x ∈ layouts, ∀ y ∈ layouts, x.opening.toList <+: y.opening.toList →
    x = y ∨ x.opening = "operator '" ∧ y.opening = "operator '" := by
  decide +kernel

theorem layouts_quoted : ∀ x ∈ layouts, (∀ w ∈ x.behind, w.toList.head? = some '\'') ∧
    ∀ w ∈ x.before, w.toList.getLast? = some '\'' := by
  decide +kernel

/-- The words before the last type tell the operators of one operand from those of two. -/
theorem unaryOperand_message_ne (op : UnaryOp) (operand : Ty) (op' : BinaryOp) (lhs rhs : Ty) :
    (unaryOperand op operand).message ≠ (binaryOperands op' lhs rhs).message := by
  intro same
  rw [message_of_sentence (c := unaryOperand op operand) rfl,
    message_of_sentence (c := binaryOperands op' lhs rhs) rfl] at same
  have chars := congrArg String.toList same
  rw [Sentence.toList_text, Sentence.toList_text] at chars
  have cut : ("operator '".toList ++ op.text.toList ++ "' cannot be applied to ".toList) ++
      '\'' :: operand.chars ++ ['\''] =
      ("operator '".toList ++ op'.text.toList ++ "' cannot be applied to '".toList ++ lhs.chars ++
        "' and ".toList) ++ '\'' :: rhs.chars ++ ['\''] := by
    simpa [Sentence.frontChars, Sentence.backChars] using chars
  obtain ⟨words, -⟩ := Ty.after_mark operand.quote_notMem_chars rhs.quote_notMem_chars
    (List.append_cancel_right cut)
  have reversed := congrArg List.reverse words
  simp at reversed

theorem operator_of_opening {c : Cause} {s : Sentence} (said : c.sentence? = some s)
    (opening : s.opening = "operator '") :
    (∃ op operand, c = .unaryOperand op operand) ∨ ∃ op lhs rhs, c = .binaryOperands op lhs rhs := by
  cases c with
  | unaryOperand op operand => exact .inl ⟨op, operand, rfl⟩
  | binaryOperands op lhs rhs => exact .inr ⟨op, lhs, rhs, rfl⟩
  | _ => cases said <;> simp at opening

/-- A message tells its layout. -/
theorem layout_of_message {c d : Cause} {s r : Sentence} (hs : c.sentence? = some s)
    (hr : d.sentence? = some r) (same : c.message = d.message) : s.layout = r.layout := by
  have texts : s.text = r.text := by rw [← message_of_sentence hs, ← message_of_sentence hr, same]
  have apart : s.layout = r.layout ∨ s.opening = "operator '" ∧ r.opening = "operator '" := by
    rcases List.prefix_or_prefix_of_prefix s.opening_isPrefix (texts ▸ r.opening_isPrefix) with
      before | before
    · exact layouts_apart _ (layout_mem hs) _ (layout_mem hr) before
    · exact (layouts_apart _ (layout_mem hr) _ (layout_mem hs) before).imp Eq.symm And.symm
  rcases apart with layout | ⟨left, right⟩
  · exact layout
  -- only operators share their opening
  · obtain ⟨op, operand, rfl⟩ | ⟨op, lhs, rhs, rfl⟩ := operator_of_opening hs left
    · obtain ⟨op', operand', rfl⟩ | ⟨op', lhs, rhs, rfl⟩ := operator_of_opening hr right
      · cases hs
        cases hr
        rfl
      · exact absurd same (unaryOperand_message_ne op operand op' lhs rhs)
    · obtain ⟨op', operand, rfl⟩ | ⟨op', lhs', rhs', rfl⟩ := operator_of_opening hr right
      · exact absurd same.symm (unaryOperand_message_ne op' operand op lhs rhs)
      · cases hs
        cases hr
        rfl

/-- The types that the message shows, in the order of the text. -/
def shown (c : Cause) : List Ty := (c.sentence?.map Sentence.types).getD []

theorem exists_sentence {c : Cause} (shows : c.shown ≠ []) :
    ∃ s, c.sentence? = some s ∧ c.shown = s.types := by
  cases said : c.sentence? with
  | none => simp [shown, said] at shows
  | some s => exact ⟨s, rfl, by simp [shown, said]⟩

/-- A message tells the types that it shows as far as their texts do. -/
theorem shown_of_message {c d : Cause} (hc : c.shown ≠ []) (hd : d.shown ≠ [])
    (same : c.message = d.message) : c.shown.map Ty.pushed = d.shown.map Ty.pushed := by
  obtain ⟨s, hs, shown⟩ := exists_sentence hc
  obtain ⟨r, hr, shown'⟩ := exists_sentence hd
  have layout := layout_of_message hs hr same
  obtain ⟨behind, before⟩ := layouts_quoted _ (layout_mem hs)
  rw [message_of_sentence hs, message_of_sentence hr] at same
  rw [shown, shown', ← Ty.map_text_eq_iff]
  exact Sentence.types_of_text layout behind before same

/-- The cause with all sizes moved in the types that its message shows. -/
def pushed : Cause → Cause
  | .unaryOperand op operand => .unaryOperand op operand.pushed
  | .binaryOperands op lhs rhs => .binaryOperands op lhs.pushed rhs.pushed
  | .positionNotNumeric found => .positionNotNumeric found.pushed
  | .positionOutOfBounds position array => .positionOutOfBounds position array.pushed
  | .notIndexable found => .notIndexable found.pushed
  | .argumentMismatch position callee expected found =>
      .argumentMismatch position callee expected.pushed found.pushed
  | .notCallable name ty => .notCallable name ty.pushed
  | .functionAsValue target function signature => .functionAsValue target.pushed function signature
  | .signatureMismatch slot function signature => .signatureMismatch slot.pushed function signature.pushed
  | .valueMismatch source target => .valueMismatch source.pushed target.pushed
  | .unsafeParam param function ty => .unsafeParam param function ty.pushed
  | .unsafeResult function ty => .unsafeResult function ty.pushed
  | .missingResult expected => .missingResult expected.pushed
  | .conditionNotBoolean found => .conditionNotBoolean found.pushed
  | c => c

theorem sentence?_pushed (c : Cause) : c.pushed.sentence? = c.sentence?.map Sentence.pushed := by
  cases c <;> rfl

theorem shown_pushed (c : Cause) : c.pushed.shown = c.shown.map Ty.pushed := by
  rw [shown, shown, sentence?_pushed]
  cases c.sentence? with
  | none => rfl
  | some s => exact s.types_pushed

theorem message_pushed (c : Cause) : c.pushed.message = c.message := by
  cases said : c.sentence? with
  | none => cases c <;> cases said <;> rfl
  | some s =>
      have said' : c.pushed.sentence? = some s.pushed := by rw [sentence?_pushed, said]; rfl
      rw [message_of_sentence said, message_of_sentence said', s.text_pushed]

/-- A message tells its types where no array of callbacks is among them. -/
theorem shown_eq_of_message {c d : Cause} (hc : c.shown ≠ []) (hd : d.shown ≠ [])
    (same : c.message = d.message) (plain : ∀ t ∈ c.shown ++ d.shown, t.Plain) :
    c.shown = d.shown := by
  have types := shown_of_message hc hd same
  rw [Ty.map_pushed_of_plain fun t mem => plain t (List.mem_append_left _ mem),
    Ty.map_pushed_of_plain fun t mem => plain t (List.mem_append_right _ mem)] at types
  exact types

end Cause

namespace Ty

/-- The text of a type tells the type up to sizes moved from an array of callbacks to their result. All
ways of moving sizes end in one type, and a type without an array of callbacks is told by its text. A
message tells the types in it to the same extent, whatever names it holds. -/
theorem text_identifies :
    (∀ s t : Ty, s.text = t.text ↔ s.pushed = t.pushed) ∧
    (∀ t : Ty, Relation.ReflTransGen Pushes t t.pushed ∧ (∀ u, ¬ Pushes t.pushed u) ∧
      ∀ u, Relation.ReflTransGen Pushes t u → (∀ v, ¬ Pushes u v) → u = t.pushed) ∧
    (∀ s t : Ty, s.Plain → t.Plain → s.text = t.text → s = t) ∧
    (∀ c : Cause, c.pushed.message = c.message ∧ c.pushed.shown = c.shown.map pushed) ∧
    ∀ c d : Cause, c.shown ≠ [] → d.shown ≠ [] → c.message = d.message →
      c.shown.map pushed = d.shown.map pushed ∧
        ((∀ t ∈ c.shown ++ d.shown, t.Plain) → c.shown = d.shown) := by
  refine ⟨text_eq_iff, ?_, ?_, ?_, ?_⟩
  · intro t
    refine ⟨reaches_pushed t, fun u => (plain_pushed t).not_pushes, ?_⟩
    intro u steps stuck
    rw [(text_eq_iff t u).mp (text_eq_of_reaches steps), pushed_eq_of_stuck stuck]
  · intro s t hs ht same
    rw [← hs.pushed_eq, ← ht.pushed_eq, (text_eq_iff s t).mp same]
  · intro c
    exact ⟨c.message_pushed, c.shown_pushed⟩
  · intro c d hc hd same
    exact ⟨Cause.shown_of_message hc hd same, Cause.shown_eq_of_message hc hd same⟩

/-- Four handlers, which look like one handler that returns four bytes. -/
def handlers : Ty := .array (.callback [byte] byte) 4

def handler : Ty := .callback [byte] (.array byte 4)

theorem bytes_plain : (Ty.array byte 4).Plain := .array 4 (.primitive .byte) nofun

theorem handler_plain : handler.Plain := .callback (by simp [byte, Plain.primitive]) bytes_plain

theorem handlers_identified :
    (handlers ≠ handler ∧ handlers.text = handler.text ∧ handler = handlers.pushed) ∧
    ((Cause.valueMismatch handlers word).message = (Cause.valueMismatch handler word).message ∧
      (Cause.valueMismatch handlers word).shown.map pushed =
        (Cause.valueMismatch handler word).shown.map pushed) ∧
    handler.text ≠ (Ty.array byte 4).text ∧
    (Cause.valueMismatch handler word).message ≠ (Cause.valueMismatch (.array byte 4) word).message := by
  obtain ⟨texts, ends, plain, messages, told⟩ := text_identifies
  have moved : handler = handlers.pushed :=
    (ends handlers).2.2 handler (.single (.here [byte] byte 4)) fun _ => handler_plain.not_pushes
  have alike : (Cause.valueMismatch handlers word).message = (Cause.valueMismatch handler word).message :=
    (messages (.valueMismatch handlers word)).1.symm
  refine ⟨⟨nofun, (texts handlers handler).mpr rfl, moved⟩, ⟨alike, ?_⟩, ?_, ?_⟩
  · exact (told (.valueMismatch handlers word) (.valueMismatch handler word) nofun nofun alike).1
  · intro same
    exact nomatch plain handler (.array byte 4) handler_plain bytes_plain same
  · intro same
    have types := (told (.valueMismatch handler word) (.valueMismatch (.array byte 4) word) nofun nofun
      same).2 (by simp [Cause.shown, Cause.sentence?, Sentence.types, handler_plain, bytes_plain, word,
        Plain.primitive])
    exact nomatch types

end Ty

end SemanticCheck
