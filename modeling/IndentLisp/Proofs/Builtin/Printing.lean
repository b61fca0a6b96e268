import IndentLisp.Proofs.Builtin
import IndentLisp.Value.Leaves

/-!
# Printing

Printing writes the texts of all its arguments or nothing. The text of a value is put together from
its leaves, however its lists are nested, if only the stack holds them.
-/

set_option autoImplicit false

namespace IndentLisp

/-! ## Texts that are joined twice -/

/-- Joining joined parts is joining all that they are joined of, if no part is empty. -/
private theorem intercalate_flatMap {α : Type} (separator : String) {texts : α → List String}
    {parts : List α} (filled : ∀ part ∈ parts, texts part ≠ []) :
    separator.intercalate (parts.map fun part => separator.intercalate (texts part)) =
      separator.intercalate (parts.flatMap texts) := by
  induction parts with
  | nil => simp
  | cons part parts ih =>
      obtain ⟨first, others⟩ := List.forall_mem_cons.mp filled
      cases parts with
      | nil => simp
      | cons next parts =>
          have behind : (next :: parts).flatMap texts ≠ [] := by
            simp [others next List.mem_cons_self]
          rw [List.flatMap_cons, String.intercalate_append_of_ne_nil first behind, ← ih others]
          simp

namespace Value

/-! ## Leaves -/

private theorem leaves_ne_nil (value : Value) : value.leaves ≠ [] := by
  cases value with
  | list items =>
      cases items with
      | nil => simp [leaves]
      | cons item items =>
          have first := leaves_ne_nil item
          simp [leaves, leavesOf, first]
  | nothing | bool | int | float | text | builtin | host => simp [leaves]

private theorem leavesOf_eq_flatMap (items : List Value) :
    leavesOf items = items.flatMap leaves := by
  induction items with
  | nil => rfl
  | cons item items ih => rw [leavesOf, ih, List.flatMap_cons]

/-- The text of a list is that of the items inside it, one after the other. -/
private theorem flatText_list (items : List Value) :
    flatText (.list items) = ",".intercalate (items.map flatText) := by
  have filled : ∀ item ∈ items, item.leaves.map leafText ≠ [] := fun item _ => by
    simp [leaves_ne_nil item]
  have joined := intercalate_flatMap "," filled
  unfold flatText
  rw [joined, ← List.map_flatMap, ← leavesOf_eq_flatMap, leaves]
  split
  · next empty =>
    rw [List.isEmpty_iff.mp empty]
    simp [leavesOf, leafText]
  · rfl

/-! ## Values that are printed -/

section

variable {functionText : Value → String} {room : Nat}

private theorem nesting_le_nestingOf {items : List Value} {item : Value} (member : item ∈ items) :
    item.nesting ≤ nestingOf items := by
  induction member with
  | head => exact Nat.le_max_left _ _
  | tail _ _ ih => exact Nat.le_trans ih (Nat.le_max_right _ _)

private theorem mem_integersOf {items : List Value} {item : Value} (member : item ∈ items)
    {number : Int} (inside : number ∈ item.integers) : number ∈ integersOf items := by
  induction member with
  | head => exact List.mem_append_left _ inside
  | tail _ _ ih => exact List.mem_append_right _ ih

mutual

/-- What is printed fits into the stack and has only integers that are short enough. -/
private theorem within_of_toText (value : Value) {room : Nat} {text : String}
    (found : value.toText functionText room = .ok text) :
    value.nesting ≤ room ∧ ∀ number ∈ value.integers, Numeral.fits number = true := by
  cases value with
  | int number =>
      refine ⟨Nat.zero_le room, List.forall_mem_singleton.mpr ?_⟩
      rw [toText] at found
      split at found
      · next fits => exact fits
      · cases found
  | list items =>
      cases room with
      | zero => cases found
      | succ inner =>
          cases inside : texts functionText inner items with
          | error => simp [toText, inside, bind, Except.bind] at found
          | ok =>
              obtain ⟨held, short⟩ := within_of_texts items inside
              exact ⟨Nat.succ_le_succ held, short⟩
  | nothing | bool | float | text | builtin | host =>
      exact ⟨Nat.zero_le room, List.forall_mem_nil _⟩

private theorem within_of_texts (values : List Value) {room : Nat} {list : List String}
    (found : texts functionText room values = .ok list) :
    nestingOf values ≤ room ∧ ∀ number ∈ integersOf values, Numeral.fits number = true := by
  cases values with
  | nil => exact ⟨Nat.zero_le room, List.forall_mem_nil _⟩
  | cons value values =>
      cases first : value.toText functionText room with
      | error =>
          rw [texts, first] at found
          cases found
      | ok =>
          cases others : texts functionText room values with
          | error =>
              rw [texts, first, others] at found
              cases found
          | ok =>
              obtain ⟨held, short⟩ := within_of_toText value first
              obtain ⟨held', short'⟩ := within_of_texts values others
              exact ⟨Nat.max_le.mpr ⟨held, held'⟩, List.forall_mem_append.mpr ⟨short, short'⟩⟩

end

private theorem texts_of_each {items : List Value} {text : Value → String}
    (each : ∀ item ∈ items, item.toText functionText room = .ok (text item)) :
    texts functionText room items = .ok (items.map text) := by
  induction items with
  | nil => rfl
  | cons item items ih =>
      obtain ⟨first, others⟩ := List.forall_mem_cons.mp each
      rw [texts, first, ih others]
      rfl

/-- A value that fits into the stack and has only integers that are short enough is printed as the
text of its leaves. -/
private theorem Plain.toText_eq_flatText {value : Value} (plain : value.Plain)
    (held : value.nesting ≤ room)
    (short : ∀ number ∈ value.integers, Numeral.fits number = true) :
    value.toText functionText room = .ok value.flatText := by
  induction plain generalizing room with
  | nothing | text => simp [toText, flatText, leaves, leafText]
  | bool value => cases value <;> simp [toText, flatText, leaves, leafText]
  | int number =>
      have fits := short number List.mem_cons_self
      simp [toText, fits, flatText, leaves, leafText]
  | @list items _ ih =>
      cases room with
      | zero => cases held
      | succ inner =>
          have each : ∀ item ∈ items, item.toText functionText inner = .ok item.flatText :=
            fun item member => ih item member
              (Nat.le_trans (nesting_le_nestingOf member) (Nat.le_of_succ_le_succ held))
              fun number inside => short number (mem_integersOf member inside)
          rw [toText, texts_of_each each, flatText_list]
          rfl

end

end Value

/-! ## Calls -/

namespace Builtin

variable {functionText : Value → String} {room : Nat} {arguments : List Value}

private theorem printed_of_plain (plain : ∀ argument ∈ arguments, argument.Plain)
    (held : Value.nestingOf arguments ≤ room)
    (short : ∀ number ∈ Value.integersOf arguments, Numeral.fits number = true) :
    printed functionText room arguments = .ok (String.join (arguments.map Value.flatText)) := by
  have each : ∀ argument ∈ arguments, argument.toText functionText room = .ok argument.flatText :=
    fun argument member => (plain argument member).toText_eq_flatText
      (Nat.le_trans (Value.nesting_le_nestingOf member) held)
      fun number inside => short number (Value.mem_integersOf member inside)
  rw [printed, Value.texts_of_each each]
  rfl

/-- Arguments that do not fit into the stack, or with an integer that is too long, are not
printed. -/
private theorem printed_of_not_within (beyond : ¬ (Value.nestingOf arguments ≤ room ∧
      ∀ number ∈ Value.integersOf arguments, Numeral.fits number = true)) :
    ∃ error, printed functionText room arguments = .error error ∧
      Value.Unprintable room arguments error := by
  unfold printed
  cases inside : Value.texts functionText room arguments with
  | ok => exact absurd (Value.within_of_texts arguments inside) beyond
  | error error => exact ⟨error, rfl, Value.unprintable_of_texts arguments inside⟩

end Builtin

/-- A call of printing that does not print anything fails and has no effects. -/
private theorem call_print_of_error {σ : Type} {context : Context σ} {depth : Int}
    {arguments : List Value} {error : CallError}
    (failed : Builtin.printed context.interpreter.functionText (context.room depth) arguments =
      .error error) (head : Node) (line : Int) (effects : Effects σ) :
    call context depth head line (.builtin .print) arguments effects =
      (.error (.ofCall line error), effects) := by
  simp only [call, Builtin.call, failed]
  rfl

/-- Where the stack holds the lists inside the arguments, printing fails on an integer that is too
long, wherever it stands, and then writes nothing; otherwise it writes and gives the texts of the
arguments in a row, each put together from the leaves of the argument. Where the stack does not hold
the lists, printing fails and writes nothing, and it names an integer as the reason only if there is
one that is too long. -/
theorem print_allOrNothing {σ : Type} (context : Context σ) (depth : Int) (head : Node) (line : Int)
    {arguments : List Value} (plain : ∀ argument ∈ arguments, argument.Plain)
    (effects : Effects σ) :
    (Value.nestingOf arguments ≤ context.room depth →
      ((∃ number ∈ Value.integersOf arguments,
          Numeral.digitLimit < (Nat.toDigits 10 number.natAbs).length) →
        ∃ error, call context depth head line (.builtin .print) arguments effects =
            (.error error, effects) ∧
          error.kind = .failure .value) ∧
      ((∀ number ∈ Value.integersOf arguments,
          (Nat.toDigits 10 number.natAbs).length ≤ Numeral.digitLimit) →
        let written := String.join (arguments.map Value.flatText)
        call context depth head line (.builtin .print) arguments effects =
          (.ok (.text written), { effects with output := effects.output ++ written }))) ∧
    (context.room depth < Value.nestingOf arguments →
      ∃ error, call context depth head line (.builtin .print) arguments effects =
          (.error error, effects) ∧
        (error.kind = .failure .recursion ∨ error.kind = .failure .value ∧
          ∃ number ∈ Value.integersOf arguments,
            Numeral.digitLimit < (Nat.toDigits 10 number.natAbs).length)) := by
  refine ⟨fun held => ⟨?_, ?_⟩, ?_⟩
  · rintro ⟨number, member, long⟩
    have beyond : ¬ Numeral.fits number = true := by
      rw [Numeral.fits_iff_length_le]
      exact Nat.not_le.mpr long
    obtain ⟨error, failed, unprintable⟩ :=
      Builtin.printed_of_not_within fun within => beyond (within.2 number member)
    refine ⟨_, call_print_of_error failed head line effects, ?_⟩
    cases unprintable with
    | numeralTooLong => rfl
    | stackOverflow deep => exact absurd held (Nat.not_le.mpr deep)
  · intro short written
    have printed := @Builtin.printed_of_plain context.interpreter.functionText _ _ plain held
      fun number member => (Numeral.fits_iff_length_le number).mpr (short number member)
    simp only [call, Builtin.call, printed]
    rfl
  · intro deep
    obtain ⟨error, failed, unprintable⟩ :=
      Builtin.printed_of_not_within fun within => Nat.not_le.mpr deep within.1
    refine ⟨_, call_print_of_error failed head line effects, ?_⟩
    cases unprintable with
    | @numeralTooLong number member long =>
        have beyond : ¬ Numeral.fits number = true := Bool.eq_false_iff.mp long
        rw [Numeral.fits_iff_length_le, Nat.not_le] at beyond
        exact .inr ⟨rfl, number, member, beyond⟩
    | stackOverflow => exact .inl rfl

theorem print_allOrNothing_nestedLists :
    let context : Context Unit := ⟨⟨500, 3, fun _ => "f"⟩, .idle, .standard, none⟩
    let nested : Value := .list [.list [], .bool true, .list [.nothing, .int 7]]
    let long : Value := .list [.list [.int Numeral.bound]]
    call context 1 (.symbol "печатать" 1) 1 (.builtin .print) [nested, .text "x"] ⟨"a", ()⟩ =
        (.ok (.text ",true,,7x"), ⟨"a,true,,7x", ()⟩) ∧
      (∃ error,
        call context 1 (.symbol "печатать" 1) 1 (.builtin .print) [nested, long] ⟨"a", ()⟩ =
          (.error error, ⟨"a", ()⟩) ∧
        error.kind = .failure .value) ∧
      ∃ error, call context 2 (.symbol "печатать" 1) 1 (.builtin .print) [nested] ⟨"a", ()⟩ =
          (.error error, ⟨"a", ()⟩) ∧
        error.kind = .failure .recursion := by
  intro context nested long
  have inner : (Value.list [.nothing, .int 7]).Plain :=
    .list (List.forall_mem_cons.mpr ⟨.nothing, List.forall_mem_singleton.mpr (.int 7)⟩)
  have plain : nested.Plain :=
    .list (List.forall_mem_cons.mpr ⟨.list (List.forall_mem_nil _),
      List.forall_mem_cons.mpr ⟨.bool true, List.forall_mem_singleton.mpr inner⟩⟩)
  have plainLong : long.Plain :=
    .list (List.forall_mem_singleton.mpr (.list (List.forall_mem_singleton.mpr (.int _))))
  have digits : Numeral.digitLimit < (Nat.toDigits 10 (Numeral.bound : Int).natAbs).length := by
    have tooLong : ¬ Numeral.fits Numeral.bound = true := by
      rw [Numeral.fits, decide_eq_true_iff, Int.natAbs_natCast]
      exact Nat.lt_irrefl Numeral.bound
    rwa [Numeral.fits_iff_length_le, Nat.not_le] at tooLong
  refine ⟨?_, ?_, ?_⟩
  · have held : Value.nestingOf [nested, .text "x"] ≤ context.room 1 := by decide
    exact ((print_allOrNothing context 1 (.symbol "печатать" 1) 1
      (List.forall_mem_cons.mpr ⟨plain, List.forall_mem_singleton.mpr (.text "x")⟩)
      ⟨"a", ()⟩).1 held).2 (List.forall_mem_singleton.mpr (by decide))
  · have held : Value.nestingOf [nested, long] ≤ context.room 1 := Nat.le_refl 2
    exact ((print_allOrNothing context 1 (.symbol "печатать" 1) 1
      (List.forall_mem_cons.mpr ⟨plain, List.forall_mem_singleton.mpr plainLong⟩)
      ⟨"a", ()⟩).1 held).1 ⟨Numeral.bound, List.mem_cons_of_mem _ List.mem_cons_self, digits⟩
  · have deep : context.room 2 < Value.nestingOf [nested] := by decide
    obtain ⟨error, failed, kind | ⟨-, number, member, tooLong⟩⟩ :=
      (print_allOrNothing context 2 (.symbol "печатать" 1) 1
        (List.forall_mem_singleton.mpr plain) ⟨"a", ()⟩).2 deep
    · exact ⟨error, failed, kind⟩
    · rw [List.mem_singleton.mp member] at tooLong
      exact absurd tooLong (by decide)

/-! ## Lists that the stack does not hold -/

/-- The value inside so many lists. -/
def Value.wrapped (value : Value) : Nat → Value
  | 0 => value
  | count + 1 => .list [value.wrapped count]

private theorem Value.Plain.wrapped {value : Value} (plain : value.Plain) (count : Nat) :
    (value.wrapped count).Plain := by
  induction count with
  | zero => exact plain
  | succ count ih => exact .list (List.forall_mem_singleton.mpr ih)

private theorem Value.integers_wrapped (value : Value) (count : Nat) :
    (value.wrapped count).integers = value.integers := by
  induction count with
  | zero => rfl
  | succ count ih => simp only [wrapped, integers, integersOf, ih, List.append_nil]

private theorem Value.nesting_wrapped (value : Value) (count : Nat) :
    (value.wrapped count).nesting = value.nesting + count := by
  induction count with
  | zero => rfl
  | succ count ih => simp only [wrapped, nesting, nestingOf, ih, Nat.max_zero, Nat.add_assoc]

/-- A list that is nested too deep for the stack below two hundred nodes is not printed, though it
contains no more than a short integer. -/
theorem print_wrapped_tooDeep :
    let context : Context Unit := ⟨⟨500, 300, fun _ => "f"⟩, .idle, .standard, none⟩
    let value : Value := (Value.int 7).wrapped 280
    value.Plain ∧
      (∀ number ∈ value.integers,
        (Nat.toDigits 10 number.natAbs).length ≤ Numeral.digitLimit) ∧
      call context 202 (.symbol "печатать" 1) 1 (.builtin .print) [value] ⟨"a", ()⟩ =
        (.error (.call .stackOverflow), ⟨"a", ()⟩) := by
  intro context value
  have integers : value.integers = [7] := Value.integers_wrapped (.int 7) 280
  have nesting : value.nesting = 280 := Value.nesting_wrapped (.int 7) 280
  have deep : context.room 202 < Value.nestingOf [value] := by
    rw [Value.nestingOf, nesting]
    decide
  refine ⟨(Value.Plain.int 7).wrapped 280, ?_, ?_⟩
  · rw [integers]
    exact List.forall_mem_singleton.mpr (by decide)
  · obtain ⟨error, failed, unprintable⟩ := Builtin.printed_of_not_within
      (fun within => Nat.not_le.mpr deep within.1)
    have spec := call_print_of_error failed (.symbol "печатать" 1) 1 ⟨"a", ()⟩
    cases unprintable with
    | stackOverflow => exact spec
    | numeralTooLong member long =>
        rw [Value.integersOf, integers] at member
        have short : Numeral.fits 7 = true := (Numeral.fits_iff_length_le 7).mpr (by decide)
        rw [List.mem_singleton.mp member] at long
        exact absurd (long.symm.trans short) Bool.false_ne_true

end IndentLisp
