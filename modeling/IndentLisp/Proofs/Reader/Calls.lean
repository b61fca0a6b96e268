import IndentLisp.Proofs.Reader.Bounds

/-!
# Calls

What is called while a text is read: readers, functions that skip, and the rounds of their loops. A
call starts others at its own place or further on. The rounds of one loop start further and further
on, and of two calls at the same place the one that starts the other has the higher rank. So no
chain of calls goes on for ever, and what holds of a call if it holds of those that it starts, holds
of every call.
-/

set_option autoImplicit false

namespace IndentLisp.Reader

/-- The readers that find their subject absent where the next character cannot start it. The number
is the nesting that is left. -/
inductive ItemReader where
  | number
  | string
  | array (nesting : Nat)
  | parenthesised (nesting : Nat)
  | symbol
  | item (nesting : Nat)
  | head (nesting : Nat)
  | phrase (nesting : Nat)

def ItemReader.read : ItemReader → State → Reply Node
  | number => readNumber
  | string => readString
  | array nesting => readArray (readItem nesting)
  | parenthesised nesting => readParenthesised (readItem nesting)
  | symbol => readSymbol
  | item nesting => readItem nesting
  | head nesting => readHead (readItem nesting)
  | phrase nesting => fun state => (Reader.phrase nesting state).map Phrase.toNode

inductive Enclosure where
  | array
  | parenthesis

def Enclosure.closer : Enclosure → Char
  | array => ']'
  | parenthesis => ')'

def Enclosure.problem : Enclosure → Nat → Problem
  | array => .arrayItems
  | parenthesis => .arguments

/-- What can be called at a state. `items`, `arguments` and `lines` are rounds of the loops over the
items in brackets, after so many of them, over the arguments on a line and over the lines of a
block; `blankLines` is also a round of its own loop. -/
inductive Task where
  | reads (reader : ItemReader)
  | line (nesting : Nat)
  | block (nesting : Nat)
  | space
  | comment
  | lineEnd
  | blankLines
  | items (enclosure : Enclosure) (nesting count : Nat)
  | arguments (nesting : Nat)
  | lines (nesting : Nat)

/-- Where reading stands when the task is done. -/
def Task.place : Task → State → State
  | reads reader, state => (reader.read state).stop
  | line nesting, state => (Reader.line nesting state).stop
  | block nesting, state => (Reader.block nesting state).stop
  | space, state => state.skipSpace
  | comment, state => state.skipComment
  | lineEnd, state => state.endLine?.getD state
  | blankLines, state => state.skipBlankLines
  | items enclosure nesting count, state =>
    (itemsUntil nesting enclosure.closer enclosure.problem count state).stop
  | arguments nesting, state => (Reader.arguments nesting state).stop
  | lines nesting, state => (Reader.lines nesting state).stop

/-- `Calls caller here callee there`: the first task, started at the first state, starts the second
task at the second state. -/
inductive Calls : Task → State → Task → State → Prop where
  | token {nesting : Nat} {reader : ItemReader} {state : State} :
      reader ∈ [.number, .string, .symbol] →
      Calls (.reads (.item nesting)) state (.reads reader) state
  | array {nesting : Nat} {state : State} :
      Calls (.reads (.item (nesting + 1))) state (.reads (.array nesting)) state
  | parenthesised {nesting : Nat} {state : State} :
      Calls (.reads (.item (nesting + 1))) state (.reads (.parenthesised nesting)) state
  | arrayItems {nesting : Nat} {state inside : State} : state.take? '[' = some inside →
      Calls (.reads (.array nesting)) state (.items .array nesting 0) inside
  | headGap {nesting : Nat} {state inside : State} : state.take? '(' = some inside →
      Calls (.reads (.parenthesised nesting)) state .blankLines inside
  | headSpace {nesting : Nat} {state inside : State} : state.take? '(' = some inside →
      Calls (.reads (.parenthesised nesting)) state .space inside.skipBlankLines
  | head {nesting : Nat} {state inside : State} : state.take? '(' = some inside →
      Calls (.reads (.parenthesised nesting)) state (.reads (.head nesting)) inside.skipGap
  | headItem {nesting : Nat} {state : State} :
      Calls (.reads (.head nesting)) state (.reads (.item nesting)) state
  | tail {nesting : Nat} {state inside next : State} {head : Node} :
      state.take? '(' = some inside →
      readHead (readItem nesting) inside.skipGap = .found head next →
      Calls (.reads (.parenthesised nesting)) state (.items .parenthesis nesting 0) next
  | itemsGap {enclosure : Enclosure} {nesting count : Nat} {state : State} :
      Calls (.items enclosure nesting count) state .blankLines state
  | itemsSpace {enclosure : Enclosure} {nesting count : Nat} {state : State} :
      Calls (.items enclosure nesting count) state .space state.skipBlankLines
  | itemsItem {enclosure : Enclosure} {nesting count : Nat} {state : State} :
      Calls (.items enclosure nesting count) state (.reads (.item nesting)) state.skipGap
  | itemsNext {enclosure : Enclosure} {nesting count : Nat} {state next : State} {node : Node} :
      readItem nesting state.skipGap = .found node next →
      Calls (.items enclosure nesting count) state (.items enclosure nesting (count + 1)) next
  | phraseHead {nesting : Nat} {state : State} :
      Calls (.reads (.phrase nesting)) state (.reads (.head nesting)) state
  | phraseArguments {nesting : Nat} {state next : State} {head : Node} :
      readHead (readItem nesting) state = .found head next →
      Calls (.reads (.phrase nesting)) state (.arguments nesting) next
  | argumentsSpace {nesting : Nat} {state : State} : Calls (.arguments nesting) state .space state
  | argumentsItem {nesting : Nat} {state : State} :
      Calls (.arguments nesting) state (.reads (.item nesting)) state.skipSpace
  | argumentsNext {nesting : Nat} {state next : State} {node : Node} :
      readItem nesting state.skipSpace = .found node next →
      Calls (.arguments nesting) state (.arguments nesting) next
  | lineSpace {nesting : Nat} {state : State} : Calls (.line nesting) state .space state
  | linePhrase {nesting : Nat} {state : State} :
      Calls (.line nesting) state (.reads (.phrase nesting)) state.skipSpace
  | lineEnd {nesting : Nat} {state stop : State} {value : Phrase} :
      phrase nesting state.skipSpace = .found value stop →
      Calls (.line nesting) state .lineEnd stop
  | lineBody {nesting : Nat} {state stop next : State} {value : Phrase} :
      phrase nesting state.skipSpace = .found value stop → stop.endLine? = some next →
      Calls (.line nesting) state (.block nesting) next
  | linesLine {nesting : Nat} {state : State} : Calls (.lines nesting) state (.line nesting) state
  | linesGap {nesting : Nat} {state stop : State} {node : Node} :
      line nesting state = .found node stop → Calls (.lines nesting) state .blankLines stop
  | linesNext {nesting : Nat} {state stop next : State} {node : Node} :
      line nesting state = .found node stop → stop.skipBlankLines.atEnd = false →
      stop.skipBlankLines.dedent = .absent stop.skipBlankLines →
      stop.skipBlankLines.nodent = .found () next →
      Calls (.lines nesting) state (.lines nesting) next
  | blockGap {nesting : Nat} {state : State} : Calls (.block nesting) state .blankLines state
  | blockLines {nesting : Nat} {state inside : State} :
      state.skipBlankLines.atEnd = false → state.skipBlankLines.indent = .found () inside →
      Calls (.block (nesting + 1)) state (.lines nesting) inside
  | blankSpace {state : State} : Calls .blankLines state .space state
  | blankEnd {state : State} : Calls .blankLines state .lineEnd state.skipSpace
  | blankNext {state next : State} :
      state.skipSpace.endLine? = some next → Calls .blankLines state .blankLines next
  | comment {state : State} : Calls .lineEnd state .comment state

/-- The task is started at the state while the program is read. -/
inductive During (nesting : Nat) (source : String) : Task → State → Prop where
  | program : During nesting source (.block nesting) (.start source)
  | call {caller callee : Task} {here there : State} :
      During nesting source caller here → Calls caller here callee there →
      During nesting source callee there

/-! ## Chains of calls -/

/-- Of two tasks at the same place, one that starts the other has the higher rank. -/
def Task.rank : Task → Nat
  | space | comment => 0
  | lineEnd => 1
  | blankLines => 2
  | reads (.item _) => 2
  | reads (.head _) | items .. | arguments _ => 3
  | reads (.phrase _) => 4
  | reads _ => 1
  | line _ => 5
  | lines _ => 6
  | block _ => 7

/-- A call starts further on than the one that starts it, or it has a lower rank. -/
theorem starts_later {caller callee : Task} {here there : State}
    (call : Calls caller here callee there) :
    there.rest.length < here.rest.length ∨
      there.rest.length ≤ here.rest.length ∧ callee.rank < caller.rank := by
  have less {nesting : Nat} {state next : State} {node : Node}
      (found : readItem nesting state = .found node next) :=
    consumes_readItem nesting found
  cases call with
  | @token nesting reader state member =>
      refine .inr ⟨Nat.le_refl _, ?_⟩
      simp only [List.mem_cons, List.not_mem_nil, or_false] at member
      rcases member with rfl | rfl | rfl <;> exact Nat.lt_succ_self 1
  | array | parenthesised | headItem | itemsGap | phraseHead | argumentsSpace | lineSpace
  | linesLine | blockGap | blankSpace | comment =>
      exact .inr ⟨Nat.le_refl _, by simp only [Task.rank, Nat.reduceLT]⟩
  | itemsSpace => exact .inr ⟨length_skipBlankLines_le here, by simp only [Task.rank, Nat.reduceLT]⟩
  | itemsItem => exact .inr ⟨length_skipGap_le here, Nat.lt_succ_self _⟩
  | argumentsItem | linePhrase | blankEnd =>
      exact .inr ⟨here.length_skipSpace_le, Nat.lt_succ_self _⟩
  | arrayItems taken | headGap taken => exact .inl (length_lt_of_take? taken)
  | @headSpace _ _ inside taken =>
      have skipped := length_skipBlankLines_le inside
      have first := length_lt_of_take? taken
      exact .inl (by omega)
  | @head _ _ inside taken =>
      have skipped := length_skipGap_le inside
      have first := length_lt_of_take? taken
      exact .inl (by omega)
  | @tail _ _ inside _ _ taken found =>
      have skipped := length_skipGap_le inside
      have first := length_lt_of_take? taken
      have second := less (readHead_eq_found_iff.mp found).1
      exact .inl (by omega)
  | itemsNext found =>
      have skipped := length_skipGap_le here
      have first := less found
      exact .inl (by omega)
  | phraseArguments found => exact .inl (less (readHead_eq_found_iff.mp found).1)
  | argumentsNext found =>
      have skipped := here.length_skipSpace_le
      have first := less found
      exact .inl (by omega)
  | lineEnd read =>
      have skipped := here.length_skipSpace_le
      have first := consumes_phrase read
      exact .inl (by omega)
  | lineBody read ended =>
      have skipped := here.length_skipSpace_le
      have first := consumes_phrase read
      have last := State.length_lt_of_endLine? ended
      exact .inl (by omega)
  | linesGap read => exact .inl (consumes_line _ read)
  | @linesNext _ _ stop _ _ read _ _ stays =>
      have skipped := length_skipBlankLines_le stop
      have first := consumes_line _ read
      rw [State.rest_of_nodent stays]
      exact .inl (by omega)
  | blockLines _ opened =>
      rw [State.rest_of_indent opened]
      exact .inr ⟨length_skipBlankLines_le here, Nat.lt_succ_self _⟩
  | blankNext ended =>
      have skipped := here.length_skipSpace_le
      have last := State.length_lt_of_endLine? ended
      exact .inl (by omega)

/-- No chain of calls goes on for ever. -/
theorem wellFounded_calls :
    WellFounded fun later earlier : Task × State =>
      Calls earlier.1 earlier.2 later.1 later.2 := by
  refine Subrelation.wf (fun {later earlier} call => ?_)
    (InvImage.wf (fun call : Task × State => (call.2.rest.length, call.1.rank))
      (Prod.lex Nat.lt_wfRel Nat.lt_wfRel).wf)
  rcases starts_later call with further | ⟨within, lower⟩
  · exact .left _ _ further
  · rcases Nat.lt_or_eq_of_le within with further | same
    · exact .left _ _ further
    · rw [InvImage, same]
      exact .right _ lower

theorem calls_induction {motive : Task → State → Prop}
    (step : ∀ caller here,
      (∀ callee there, Calls caller here callee there → motive callee there) → motive caller here)
    (task : Task) (state : State) : motive task state :=
  wellFounded_calls.induction (C := fun call => motive call.1 call.2) (task, state)
    fun call inner => step call.1 call.2 fun callee there called => inner (callee, there) called

end IndentLisp.Reader
