import IndentLisp.Proofs.Reader.Bounds
import Mathlib.Data.List.DropRight
import Mathlib.Data.List.Forall2

/-!
# Two readings in step

Two texts that differ only where no reader looks are read in step. It is enough to say which states
of the two readings correspond, and to check that skipping, the readers of single tokens and the
look at the tabs keep them in correspondence. Then whole programs are read in step, to
corresponding trees or to corresponding failures.
-/

set_option autoImplicit false

namespace IndentLisp.Reader

/-- The replies are of one kind, and their contents correspond. Which causes of failure correspond
may depend on the line of the first failure. -/
inductive Reply.Corresponds {α β : Type} (states : State → State → Prop) (moved : Int → Int)
    (causes : Int → Failure → Failure → Prop) (values : α → β → Prop) :
    Reply α → Reply β → Prop where
  | found {value : α} {value' : β} {next next' : State} :
      values value value' → states next next' →
      Corresponds states moved causes values (.found value next) (.found value' next')
  | absent {stay stay' : State} :
      states stay stay' → Corresponds states moved causes values (.absent stay) (.absent stay')
  | failed {failure failure' : Failure} {stop stop' : State} :
      causes stop.line failure failure' → stop'.line = moved stop.line →
      Corresponds states moved causes values (.failed failure stop) (.failed failure' stop')

namespace Reply.Corresponds

variable {α β γ δ : Type} {states states' : State → State → Prop} {moved : Int → Int}
  {causes : Int → Failure → Failure → Prop} {values : α → β → Prop} {values' : γ → δ → Prop}
  {reply : Reply α} {reply' : Reply β}

theorem imp (replies : Corresponds states moved causes values reply reply')
    (weaker : ∀ {state state'}, states state state' → states' state state') :
    Corresponds states' moved causes values reply reply' := by
  cases replies with
  | found same step => exact .found same (weaker step)
  | absent step => exact .absent (weaker step)
  | failed same line => exact .failed same line

theorem map {f : α → γ} {f' : β → δ} (replies : Corresponds states moved causes values reply reply')
    (change : ∀ {value value'}, values value value' → values' (f value) (f' value')) :
    Corresponds states moved causes values' (reply.map f) (reply'.map f') := by
  cases replies with
  | found same step => exact .found (change same) step
  | absent step => exact .absent step
  | failed same line => exact .failed same line

private theorem bind {goOn : α → State → Reply γ} {goOn' : β → State → Reply δ}
    (replies : Corresponds states moved causes values reply reply')
    (further : ∀ {value value' next next'}, values value value' → states next next' →
      Corresponds states moved causes values' (goOn value next) (goOn' value' next')) :
    Corresponds states moved causes values' (reply.bind goOn) (reply'.bind goOn') := by
  cases replies with
  | found same step => exact further same step
  | absent step => exact .absent step
  | failed same line => exact .failed same line

theorem outcome (replies : Corresponds states moved causes values reply reply') :
    (∃ value value' next next', reply = .found value next ∧ reply' = .found value' next' ∧
        values value value' ∧ states next next') ∨
      (∃ stay stay', reply = .absent stay ∧ reply' = .absent stay' ∧ states stay stay') ∨
      ∃ failure failure' stop stop', reply = .failed failure stop ∧
        reply' = .failed failure' stop' ∧ causes stop.line failure failure' ∧
          stop'.line = moved stop.line := by
  cases replies with
  | found same step => exact .inl ⟨_, _, _, _, rfl, rfl, same, step⟩
  | absent step => exact .inr (.inl ⟨_, _, rfl, rfl, step⟩)
  | failed same line => exact .inr (.inr ⟨_, _, _, _, rfl, rfl, same, line⟩)

end Reply.Corresponds

section

variable {α β : Type} {related related' : α → β → Prop} {left : Option α} {right : Option β}

theorem rel_imp (weaker : ∀ {a b}, related a b → related' a b)
    (both : Option.Rel related left right) : Option.Rel related' left right := by
  cases both with
  | none => exact .none
  | some step => exact .some (weaker step)

theorem rel_outcome (both : Option.Rel related left right) :
    (∃ a b, left = some a ∧ right = some b ∧ related a b) ∨ (left = none ∧ right = none) := by
  cases both with
  | none => exact .inr ⟨rfl, rfl⟩
  | some step => exact .inl ⟨_, _, rfl, rfl, step⟩

end

/-- Blank lines are skipped in step if their ends are. Past one of them, the states still
correspond, or they do once the blank lines that follow have been skipped. -/
theorem skipBlankLines_inStep {states starts : State → State → Prop} {state state' : State}
    (endLine : ∀ {state state' : State}, states state state' →
      Option.Rel starts state.skipSpace.endLine? state'.skipSpace.endLine?)
    (goOn : ∀ {next next' : State}, starts next next' →
      states next next' ∨ states next.skipBlankLines next'.skipBlankLines)
    (step : states state state') : states state.skipBlankLines state'.skipBlankLines := by
  induction state using State.skipBlankLines.induct generalizing state' with
  | case1 state next ended ih =>
      rcases rel_outcome (endLine step) with ⟨below, next', last, ended', on⟩ | ⟨none, -⟩
      · obtain rfl := Option.some.inj (ended.symm.trans last)
        rw [skipBlankLines_of_endLine? ended, skipBlankLines_of_endLine? ended']
        rcases goOn on with on | skipped
        · exact ih on
        · exact skipped
      · rw [ended] at none
        cases none
  | case2 state content =>
      rcases rel_outcome (endLine step) with ⟨_, _, last, -⟩ | ⟨-, content'⟩
      · rw [content] at last
        cases last
      · rwa [skipBlankLines_eq_self content, skipBlankLines_eq_self content']

theorem atom_cases {motive : (State → Reply Node) → Prop} {reader : State → Reply Node}
    (token : reader ∈ [readNumber, readString, readSymbol]) (number : motive readNumber)
    (string : motive readString) (symbol : motive readSymbol) : motive reader := by
  simp only [List.mem_cons, List.not_mem_nil, or_false] at token
  rcases token with rfl | rfl | rfl
  · exact number
  · exact string
  · exact symbol

/-- Whether a problem is an escape that a literal cannot hold. -/
def isBadEscape : Problem → Bool
  | .badEscape _ => true
  | _ => false

/-- Which states, lines, causes of failure and nodes of two readings correspond. -/
structure Correspondence where
  /-- Correspondence of states from which items are read. -/
  states : State → State → Prop
  /-- Correspondence of states from which blank lines are skipped. -/
  starts : State → State → Prop
  moved : Int → Int
  /-- Correspondence of causes of failure, the first of which is found on the given line. -/
  causes : Int → Failure → Failure → Prop
  nodes : Node → Node → Prop
  starts_of_states {state state' : State} : states state state' → starts state state'
  lineMoved {state state' : State} : states state state' → state'.line = moved state.line
  sameLevel {state state' : State} : states state state' → state'.level = state.level
  withLevel {state state' : State} (level : Int) :
    states state state' → states { state with level := level } { state' with level := level }
  sameEnd {state state' : State} : states state state' → state'.atEnd = state.atEnd
  sameTabs {state state' : State} :
    starts state state' → state'.skipBlankLines.tabs? = state.skipBlankLines.tabs?
  skipSpace {state state' : State} : states state state' → states state.skipSpace state'.skipSpace
  skipBlankLines {state state' : State} :
    starts state state' → states state.skipBlankLines state'.skipBlankLines
  endLine {state state' : State} : states state state' →
    Option.Rel starts state.skipSpace.endLine? state'.skipSpace.endLine?
  bracket {state state' : State} {c : Char} : c ∈ ['[', ']', '(', ')'] → states state state' →
    Option.Rel states (state.take? c) (state'.take? c)
  atom {state state' : State} {reader : State → Reply Node} :
    reader ∈ [readNumber, readString, readSymbol] → states state state' →
    Reply.Corresponds states moved causes nodes (reader state) (reader state')
  sameProblem (line : Int) {problem : Problem} : isBadEscape problem = false →
    causes line (.problem problem) (.problem problem)
  sameHeadProblem {node node' : Node} : nodes node node' → headProblem? node' = headProblem? node
  nodesBlock {children children' : List Node} (line : Int) : List.Forall₂ nodes children children' →
    nodes (.block children line) (.block children' (moved line))
  nodesExpression {head head' : Node} {tail tail' : List Node} (lineForm : Bool) (line : Int) :
    nodes head head' → List.Forall₂ nodes tail tail' →
    nodes (.expression head tail lineForm line) (.expression head' tail' lineForm (moved line))
  nodesArray {items items' : List Node} (line : Int) : List.Forall₂ nodes items items' →
    nodes (.array items line) (.array items' (moved line))

namespace Correspondence

variable (both : Correspondence)

/-- Correspondence of replies, for a correspondence of what is found. -/
abbrev Replies {α β : Type} (values : α → β → Prop) : Reply α → Reply β → Prop :=
  Reply.Corresponds both.states both.moved both.causes values

section

variable {both} {α β : Type} {state state' : State}

/-- Outside of literals, both readings are refused for the same cause. -/
private theorem Replies.refuse {values : α → β → Prop} (step : both.states state state')
    {cause : Problem} (outside : isBadEscape cause = false) :
    both.Replies values (state.refuse cause) (state'.refuse cause) :=
  .failed (both.sameProblem _ outside) (both.lineMoved step)

private theorem Replies.firstOf {readers : List (State → Reply α)} {values : α → α → Prop}
    (each : ∀ reader ∈ readers, ∀ {state state' : State}, both.states state state' →
      both.Replies values (reader state) (reader state'))
    (step : both.states state state') :
    both.Replies values (firstOf readers state) (firstOf readers state') := by
  induction readers generalizing state state' with
  | nil => exact .absent step
  | cons reader readers ih =>
      obtain ⟨first, others⟩ := List.forall_mem_cons.mp each
      rw [Reader.firstOf, Reader.firstOf]
      rcases (first step).outcome with ⟨_, _, _, _, found, found', same, on⟩ |
        ⟨_, _, absent, absent', stay⟩ | ⟨_, _, _, _, failed, failed', same, line⟩
      · rw [found, found']
        exact .found same on
      · rw [absent, absent']
        exact ih others stay
      · rw [failed, failed']
        exact .failed same line

end

/-! ## Items -/

variable {both} {state state' : State}

private theorem skipGap_inStep (step : both.starts state state') :
    both.states state.skipGap state'.skipGap :=
  both.skipSpace (both.skipBlankLines step)

def InStep (both : Correspondence) (reader : State → Reply Node) : Prop :=
  ∀ {state state' : State}, both.states state state' →
    both.Replies both.nodes (reader state) (reader state')

private theorem isBadEscape_of_headProblem? {node : Node} {problem : Problem}
    (cause : headProblem? node = some problem) : isBadEscape problem = false := by
  cases node <;> cases cause <;> rfl

private theorem readHead_inStep {reader : State → Reply Node} (items : both.InStep reader)
    (step : both.states state state') :
    both.Replies both.nodes (readHead reader state) (readHead reader state') := by
  refine (items step).bind fun {node node' next next'} same step' => ?_
  rw [both.sameHeadProblem same]
  cases cause : headProblem? node with
  | none => exact .found same step'
  | some problem => exact Replies.refuse step' (isBadEscape_of_headProblem? cause)

private theorem takes (step : both.states state state') {c : Char}
    (isBracket : c ∈ ['[', ']', '(', ')']) :
    (∃ next next', state.take? c = some next ∧ state'.take? c = some next' ∧
        both.states next next') ∨ (state.take? c = none ∧ state'.take? c = none) :=
  rel_outcome (both.bracket isBracket step)

private theorem itemsUntil_inStep {nesting : Nat} (items : both.InStep (readItem nesting))
    {closer : Char} (closes : closer ∈ ['[', ']', '(', ')']) (problem : Nat → Problem)
    (outside : ∀ count, isBadEscape (problem count) = false) (count : Nat)
    (step : both.starts state state') :
    both.Replies (List.Forall₂ both.nodes) (itemsUntil nesting closer problem count state)
      (itemsUntil nesting closer problem count state') := by
  -- An item takes up text in the first reading. The texts need not be equally long.
  induction long : state.rest.length using Nat.strongRecOn generalizing state state' count with
  | ind size ih =>
      have skipped := length_skipGap_le state
      rw [itemsUntil_eq, itemsUntil_eq]
      rcases (items (skipGap_inStep step)).outcome with
        ⟨node, node', next, next', found, found', same, on⟩ | ⟨_, _, absent, absent', -⟩ |
        ⟨_, _, _, _, failed, failed', same, line⟩
      · rw [found, found']
        have less := consumes_readItem nesting found
        exact (ih _ (by omega) (count + 1) (both.starts_of_states on) rfl).map (.cons same)
      · rw [absent, absent']
        rcases takes (skipGap_inStep step) closes with ⟨_, _, taken, taken', on⟩ | ⟨none, none'⟩
        · simp only [taken, taken']
          exact .found .nil on
        · simp only [none, none']
          exact .refuse (skipGap_inStep step) (outside count)
      · rw [failed, failed']
        exact .failed same line

private theorem readArray_inStep {nesting : Nat} (items : both.InStep (readItem nesting)) :
    both.InStep (readArray (readItem nesting)) := by
  intro state state' step
  rw [readArray_eq, readArray_eq]
  rcases takes step (c := '[') (by decide) with ⟨_, _, taken, taken', on⟩ | ⟨none, none'⟩
  · simp only [taken, taken', both.lineMoved step]
    have starts := both.starts_of_states on
    exact (itemsUntil_inStep items (by decide) .arrayItems (fun _ => rfl) 0 starts).map
      (both.nodesArray state.line)
  · simp only [none, none']
    exact .absent step

private theorem readParenthesised_inStep {nesting : Nat} (items : both.InStep (readItem nesting)) :
    both.InStep (readParenthesised (readItem nesting)) := by
  intro state state' step
  rw [readParenthesised_eq, readParenthesised_eq]
  rcases takes step (c := '(') (by decide) with ⟨_, _, taken, taken', on⟩ | ⟨none, none'⟩
  · have skipped := skipGap_inStep (both.starts_of_states on)
    simp only [taken, taken', both.lineMoved step]
    rcases (readHead_inStep items skipped).outcome with ⟨_, _, _, _, found, found', same, further⟩
      | ⟨_, _, absent, absent', -⟩ | ⟨_, _, _, _, failed, failed', same, line⟩
    · simp only [found, found']
      have starts := both.starts_of_states further
      exact (itemsUntil_inStep items (by decide) .arguments (fun _ => rfl) 0 starts).map
        (both.nodesExpression false state.line same)
    · simp only [absent, absent']
      exact .refuse skipped rfl
    · simp only [failed, failed']
      exact .failed same line
  · simp only [none, none']
    exact .absent step

theorem refuseBracket_eq (state : State) :
    refuseBracket state =
      if (state.take? '[').isSome || (state.take? '(').isSome then state.refuse .tooDeep
      else .absent state := by
  obtain ⟨text, line, level⟩ := state
  cases text with
  | nil => rfl
  | cons c rest =>
      by_cases isArray : c = '['
      · subst isArray
        rfl
      · by_cases isParenthesis : c = '('
        · subst isParenthesis
          rfl
        · simp [refuseBracket, State.take?, isArray, isParenthesis]

private theorem refuseBracket_inStep : both.InStep refuseBracket := by
  intro state state' step
  rw [refuseBracket_eq, refuseBracket_eq]
  rcases takes step (c := '[') (by decide) with ⟨_, _, taken, taken', -⟩ | ⟨none, none'⟩
  · rw [taken, taken']
    exact .refuse step rfl
  · rw [none, none']
    rcases takes step (c := '(') (by decide) with ⟨_, _, taken, taken', -⟩ | ⟨none, none'⟩
    · rw [taken, taken']
      exact .refuse step rfl
    · rw [none, none']
      exact .absent step

private theorem readItem_inStep (nesting : Nat) : both.InStep (readItem nesting) := by
  refine readItem_induction (motive := both.InStep) ?_ (both.atom (by simp)) (both.atom (by simp))
    refuseBracket_inStep (both.atom (by simp)) (fun _ => readArray_inStep)
    (fun _ => readParenthesised_inStep) nesting
  exact fun _ _ each _ _ step => Replies.firstOf each step

/-! ## Phrases -/

structure Phrases (both : Correspondence) (phrase phrase' : Phrase) : Prop where
  head : both.nodes phrase.head phrase'.head
  arguments : List.Forall₂ both.nodes phrase.arguments phrase'.arguments
  line : phrase'.line = both.moved phrase.line

structure Bodies (both : Correspondence) (body body' : Body) : Prop where
  children : List.Forall₂ both.nodes body.children body'.children
  line : body'.line = both.moved body.line

private theorem nodes_withBody {phrase phrase' : Phrase} {body body' : Body}
    (phrases : both.Phrases phrase phrase') (bodies : both.Bodies body body') :
    both.nodes (phrase.withBody body) (phrase'.withBody body') := by
  obtain ⟨children, line⟩ := body
  obtain ⟨children', line'⟩ := body'
  obtain ⟨same, rfl⟩ := bodies
  rw [Phrase.withBody, Phrase.withBody, Phrase.toNode, Phrase.toNode, phrases.line]
  cases same with
  | nil => exact both.nodesExpression true phrase.line phrases.head phrases.arguments
  | cons first rest =>
      have block := both.nodesBlock line (.cons first rest)
      have tail := List.rel_append phrases.arguments (.cons block .nil)
      exact both.nodesExpression true phrase.line phrases.head tail

private theorem arguments_inStep (nesting : Nat) (step : both.states state state') :
    both.Replies (List.Forall₂ both.nodes) (arguments nesting state)
      (arguments nesting state') := by
  induction long : state.rest.length using Nat.strongRecOn generalizing state state' with
  | ind size ih =>
      have skipped := state.length_skipSpace_le
      rw [arguments_eq, arguments_eq]
      rcases (readItem_inStep nesting (both.skipSpace step)).outcome with
        ⟨_, _, next, next', found, found', same, on⟩ | ⟨_, _, absent, absent', -⟩ |
        ⟨_, _, _, _, failed, failed', same, line⟩
      · have less := consumes_readItem nesting found
        simp only [found, found']
        exact (ih _ (by omega) on rfl).map (.cons same)
      · simp only [absent, absent']
        exact .found .nil (both.skipSpace step)
      · simp only [failed, failed']
        exact .failed same line

private theorem phrase_inStep (nesting : Nat) (step : both.states state state') :
    both.Replies both.Phrases (phrase nesting state) (phrase nesting state') := by
  rw [phrase_eq, phrase_eq]
  refine (readHead_inStep (readItem_inStep nesting) step).bind fun head on => ?_
  exact (arguments_inStep nesting on).map fun rest => ⟨head, rest, both.lineMoved step⟩

theorem skipSpace_of_phrase {nesting : Nat} {state next : State} {value : Phrase}
    (found : phrase nesting state = .found value next) : next.skipSpace = next := by
  obtain ⟨last, rfl, -⟩ := exists_end_of_phrase found
  rw [State.skipSpace, State.skipSpace, List.dropWhile_idempotent]

/-! ## Lines and blocks -/

section

variable (on : both.states state state') (same : state'.tabs? = state.tabs?)

include on same

private theorem checked_inStep {next next' : State} (onNext : both.states next next')
    (passes : Nat → Prop) [DecidablePred passes] :
    both.Replies (fun _ _ => True) (state.checked next passes) (state'.checked next' passes) := by
  rw [State.checked, State.checked, same]
  cases state.tabs? with
  | none => exact .refuse on rfl
  | some count =>
      dsimp only
      split
      · exact .found trivial onNext
      · exact .absent on

private theorem indent_inStep : both.Replies (fun _ _ => True) state.indent state'.indent := by
  rw [State.indent_eq, State.indent_eq, both.sameLevel on]
  exact checked_inStep on same (both.withLevel (state.level + 1) on) _

private theorem dedent_inStep : both.Replies (fun _ _ => True) state.dedent state'.dedent := by
  rw [State.dedent_eq, State.dedent_eq, both.sameLevel on]
  exact checked_inStep on same (both.withLevel (state.level - 1) on) _

private theorem nodent_inStep : both.Replies (fun _ _ => True) state.nodent state'.nodent := by
  rw [State.nodent_eq, State.nodent_eq, both.sameLevel on]
  exact checked_inStep on same on _

end

/-- Blocks are read in step where so much nesting is left. -/
def BlocksInStep (both : Correspondence) (nesting : Nat) : Prop :=
  ∀ {state state' : State}, both.starts state state' →
    both.Replies both.Bodies (block nesting state) (block nesting state')

section

variable {nesting : Nat} (blocks : both.BlocksInStep nesting)

include blocks

private theorem line_inStep (step : both.states state state') :
    both.Replies both.nodes (line nesting state) (line nesting state') := by
  rw [line_eq, line_eq]
  rcases (phrase_inStep nesting (both.skipSpace step)).outcome with
    ⟨_, _, stop, stop', found, found', same, on⟩ | ⟨_, _, absent, absent', -⟩ |
    ⟨_, _, _, _, failed, failed', same, line⟩
  · -- Line ends correspond behind white space, and a phrase is read with the white space after it.
    have ends := both.endLine on
    rw [skipSpace_of_phrase found, skipSpace_of_phrase found'] at ends
    simp only [found, found']
    rcases rel_outcome ends with ⟨below, below', last, last', starts⟩ | ⟨none, none'⟩
    · simp only [last, last']
      exact (blocks starts).map (nodes_withBody same)
    · simp only [none, none']
      exact .refuse on rfl
  · simp only [absent, absent']
    exact .refuse (both.skipSpace step) rfl
  · simp only [failed, failed']
    exact .failed same line

private theorem lines_inStep (step : both.states state state') :
    both.Replies (List.Forall₂ both.nodes) (lines nesting state) (lines nesting state') := by
  -- A line takes up text in the first reading. The texts need not be equally long.
  induction long : state.rest.length using Nat.strongRecOn generalizing state state' with
  | ind size ih =>
      rw [lines_eq, lines_eq]
      rcases (line_inStep blocks step).outcome with
        ⟨_, _, stop, stop', found, found', same, on⟩ | ⟨_, _, absent, absent', stay⟩ |
        ⟨_, _, _, _, failed, failed', same, line⟩
      · have less := consumes_line nesting found
        have skipped := length_skipBlankLines_le stop
        have starts := both.starts_of_states on
        have next := both.skipBlankLines starts
        have tabs := both.sameTabs starts
        simp only [found, found', Reply.bind, both.sameEnd next]
        split
        · exact .found (.cons same .nil) next
        · rcases (dedent_inStep next tabs).outcome with ⟨_, _, _, _, closed, closed', -, outside⟩ |
            ⟨_, _, stays, stays', -⟩ | ⟨_, _, _, _, failed, failed', cause, line⟩
          · simp only [closed, closed']
            exact .found (.cons same .nil) outside
          · simp only [stays, stays']
            rcases (nodent_inStep next tabs).outcome with ⟨_, _, _, _, again, again', -, further⟩ |
              ⟨_, _, deeper, deeper', -⟩ | ⟨_, _, _, _, failed, failed', cause, line⟩
            · have kept := State.rest_of_nodent again
              simp only [again, again']
              exact (ih _ (by rw [kept]; omega) further rfl).map (.cons same)
            · simp only [deeper, deeper']
              exact .refuse next rfl
            · simp only [failed, failed']
              exact .failed cause line
          · simp only [failed, failed']
            exact .failed cause line
      · simp only [absent, absent', Reply.bind]
        exact .absent stay
      · simp only [failed, failed', Reply.bind]
        exact .failed same line

end

private theorem block_inStep_of_linesWithin {nesting : Nat}
    (within : ∀ {state state' : State}, both.states state state' →
      both.Replies (List.Forall₂ both.nodes) (linesWithin nesting state)
        (linesWithin nesting state')) : both.BlocksInStep nesting := by
  intro state state' step
  have next := both.skipBlankLines step
  have empty : both.Bodies ⟨[], state.skipBlankLines.line⟩ ⟨[], state'.skipBlankLines.line⟩ :=
    ⟨.nil, both.lineMoved next⟩
  rw [block_eq, block_eq, both.sameEnd next]
  split
  · exact .found empty next
  · rcases (indent_inStep next (both.sameTabs step)).outcome with
      ⟨_, _, inside, inside', opened, opened', -, on⟩ | ⟨_, _, none, none', -⟩ |
      ⟨_, _, _, _, failed, failed', cause, line⟩
    · simp only [opened, opened']
      exact (within on).map fun same => ⟨same, both.lineMoved next⟩
    · simp only [none, none']
      exact .found empty next
    · simp only [failed, failed']
      exact .failed cause line

private theorem block_inStep (nesting : Nat) : both.BlocksInStep nesting := by
  induction nesting with
  | zero => exact block_inStep_of_linesWithin fun step => .refuse step rfl
  | succ nesting ih => exact block_inStep_of_linesWithin (lines_inStep ih)

/-- Programs whose first states correspond are read in step. -/
theorem program_inStep (nesting : Nat) (step : both.starts state state') :
    both.Replies both.Bodies (program nesting state) (program nesting state') := by
  refine (block_inStep nesting step).bind fun {body body' stop stop'} same on => ?_
  rw [both.sameEnd on]
  split
  · exact .found same on
  · exact Replies.refuse on rfl

end Correspondence

end IndentLisp.Reader
