import IndentLisp.Probe
import IndentLisp.Proofs.Reader.Calls
import IndentLisp.Proofs.Reader.Stops

/-!
# Places

Whatever is called at a place of a text, reading stands at that place or further on when it is done
and wherever it calls something else, and the line has been counted on over the text in between. So
a probe can go there, and it is inside its text.
-/

set_option autoImplicit false

namespace IndentLisp.Reader

open Grammar

/-- Reading on from the first state leads to the second one, whatever their levels. -/
def Onward (state next : State) : Prop := ∃ text, Passes state text next

namespace Onward

variable {α : Type} {state middle next : State} {reply : Reply α}

theorem refl (state : State) : Onward state state := ⟨[], .refl state⟩

theorem trans (before : Onward state middle) (after : Onward middle next) : Onward state next := by
  obtain ⟨left, passes⟩ := before
  obtain ⟨right, further⟩ := after
  exact ⟨left ++ right, passes.trans further⟩

private theorem of_take? {c : Char} (taken : state.take? c = some next)
    (inside : isLineBreak c = false) :
    Onward state next :=
  ⟨[c], .of_take? taken inside⟩

private theorem of_found {value : α} (onward : Onward state reply.stop)
    (found : reply = .found value next) : Onward state next := by
  rw [found] at onward
  exact onward

theorem of_failed {failure : Failure} (onward : Onward state reply.stop)
    (failed : reply = .failed failure next) : Onward state next := by
  rw [failed] at onward
  exact onward

private theorem of_reaches (reaches : reply.Reaches state) : Onward state reply.stop := by
  cases reaches with
  | found passes | failed passes => exact ⟨_, passes⟩

private theorem of_stops (stops : reply.Stops state) : Onward state reply.stop := by
  cases stops with
  | absent => exact .refl state
  | reaches reaches => exact .of_reaches reaches

theorem length_le (onward : Onward state next) : next.rest.length ≤ state.rest.length := by
  obtain ⟨text, passes⟩ := onward
  rw [passes.rest, List.length_append]
  exact Nat.le_add_left _ _

theorem ended (onward : Onward state next) (ended : Ended state.rest) : Ended next.rest := by
  obtain ⟨text, passes⟩ := onward
  rw [passes.rest] at ended
  exact Ended.of_append ended

end Onward

/-! ## Readers of items -/

theorem ItemReader.stops (reader : ItemReader) (state : State) :
    (reader.read state).Stops state := by
  cases reader with
  | number => exact readNumber_stops state
  | string => exact readString_stops state
  | array nesting => exact readArray_stops (readItem_stops nesting) state
  | parenthesised nesting => exact readParenthesised_stops (readItem_stops nesting) state
  | symbol => exact readSymbol_stops state
  | item nesting => exact readItem_stops nesting state
  | head nesting => exact readHead_stops (readItem_stops nesting) state
  | phrase nesting => exact (phrase_stops nesting state).map

theorem ItemReader.consumes (reader : ItemReader) : Consumes reader.read := by
  cases reader with
  | number => exact consumes_readNumber
  | string => exact consumes_readString
  | array nesting =>
      exact consumes_readArray (consumes_readItem nesting) (keepsPlace_readItem nesting)
  | parenthesised nesting =>
      exact consumes_readParenthesised (consumes_readItem nesting) (keepsPlace_readItem nesting)
  | symbol => exact consumes_readSymbol
  | item nesting => exact consumes_readItem nesting
  | head nesting => exact consumes_readHead (consumes_readItem nesting)
  | phrase nesting =>
      intro state next node found
      obtain ⟨value, read, -⟩ := Reply.map_eq_found_iff.mp found
      exact consumes_phrase read

namespace Onward

variable {state next : State}

private theorem item {nesting : Nat} {node : Node}
    (found : readItem nesting state = .found node next) :
    Onward state next :=
  .of_found (.of_stops (readItem_stops nesting state)) found

private theorem head {nesting : Nat} {node : Node}
    (found : readHead (readItem nesting) state = .found node next) : Onward state next :=
  .item (readHead_eq_found_iff.mp found).1

private theorem phrase {nesting : Nat} {value : Phrase}
    (found : phrase nesting state = .found value next) :
    Onward state next :=
  .of_found (.of_stops (phrase_stops nesting state)) found

end Onward

/-! ## Readers of lines -/

/-- The checks of the indentation read nothing. -/
private theorem Onward.checked {state next : State} {passes : Nat → Prop} [DecidablePred passes]
    (rest : next.rest = state.rest) (line : next.line = state.line) :
    Onward state (state.checked next passes).stop := by
  have stays : Onward state next :=
    ⟨[], rest.symm, line.trans (Int.add_zero _).symm, .of_inside (List.forall_mem_nil _)⟩
  cases tabs : state.tabs? with
  | none =>
      rw [State.checked_of_none tabs]
      exact .refl state
  | some count =>
      by_cases pass : passes count
      · rw [State.checked_of_passes tabs pass]
        exact stays
      · rw [State.checked_of_not_passes tabs pass]
        exact .refl state

private theorem Onward.indent (state : State) : Onward state state.indent.stop := by
  rw [State.indent_eq]
  exact .checked rfl rfl

private theorem Onward.dedent (state : State) : Onward state state.dedent.stop := by
  rw [State.dedent_eq]
  exact .checked rfl rfl

private theorem Onward.nodent (state : State) : Onward state state.nodent.stop := by
  rw [State.nodent_eq]
  exact .checked rfl rfl

/-- The reply is not that the subject is absent, and reading has gone on. -/
inductive Reply.Arrives {α : Type} (state : State) : Reply α → Prop where
  | found {value : α} {next : State} : Onward state next → Arrives state (.found value next)
  | failed {failure : Failure} {stop : State} :
      Onward state stop → Arrives state (.failed failure stop)

namespace Reply.Arrives

variable {α β : Type} {state middle : State} {reply : Reply α}

theorem refuse (state : State) (cause : Problem) : (state.refuse cause : Reply α).Arrives state :=
  .failed (.refl state)

private theorem after (before : Onward state middle) (arrives : reply.Arrives middle) :
    reply.Arrives state := by
  cases arrives with
  | found further => exact .found (before.trans further)
  | failed further => exact .failed (before.trans further)

private theorem map {f : α → β} (arrives : reply.Arrives state) : (reply.map f).Arrives state := by
  cases arrives with
  | found onward => exact .found onward
  | failed onward => exact .failed onward

theorem bind {goOn : α → State → Reply β} (arrives : reply.Arrives state)
    (further : ∀ value next, reply = .found value next → (goOn value next).Arrives next) :
    (reply.bind goOn).Arrives state := by
  cases arrives with
  | found onward => exact .after onward (further _ _ rfl)
  | failed onward => exact .failed onward

theorem ne_absent (arrives : reply.Arrives state) (next : State) : reply ≠ .absent next := by
  cases arrives <;> intro same <;> cases same

theorem onward (arrives : reply.Arrives state) : Onward state reply.stop := by
  cases arrives with
  | found onward => exact onward
  | failed onward => exact onward

end Reply.Arrives

variable {nesting : Nat}

private theorem line_arrives {state : State}
    (body : ∀ {value : Phrase} {stop below : State},
      phrase nesting state.skipSpace = .found value stop → stop.endLine? = some below →
        (block nesting below).Arrives below) :
    (line nesting state).Arrives state := by
  have onward : Onward state.skipSpace (phrase nesting state.skipSpace).stop :=
    .of_stops (phrase_stops nesting _)
  rw [line_eq]
  refine .after (Passes.skipSpace state) ?_
  cases read : phrase nesting state.skipSpace with
  | absent => exact .refuse _ _
  | failed failure stop => exact .failed (.of_failed onward read)
  | found value stop =>
      refine .after (.of_found onward read) ?_
      dsimp only
      cases ended : stop.endLine? with
      | none => exact .refuse stop _
      | some below => exact .after (Passes.endLine? ended) (body read ended).map

private theorem lines_arrives {state : State} (first : (line nesting state).Arrives state)
    (others : ∀ {node : Node} {stop next : State}, line nesting state = .found node stop →
      stop.skipBlankLines.atEnd = false →
      stop.skipBlankLines.dedent = .absent stop.skipBlankLines →
      stop.skipBlankLines.nodent = .found () next → (lines nesting next).Arrives next) :
    (lines nesting state).Arrives state := by
  rw [lines_eq]
  refine first.bind fun node stop read => ?_
  refine .after (Passes.skipBlankLines stop) ?_
  by_cases done : stop.skipBlankLines.atEnd = true
  · rw [if_pos done]
    exact .found (.refl _)
  · rw [if_neg done]
    cases closed : stop.skipBlankLines.dedent with
    | found _ outside => exact .found (.of_found (.dedent _) closed)
    | failed failure last => exact .failed (.of_failed (.dedent _) closed)
    | absent =>
        obtain rfl := State.keepsPlace_dedent closed
        cases stays : stop.skipBlankLines.nodent with
        | absent => exact .refuse _ _
        | failed failure last => exact .failed (.of_failed (.nodent _) stays)
        | found _ next =>
            have more : stop.skipBlankLines.atEnd = false := by simpa using done
            exact .after (.of_found (.nodent _) stays) (others read more closed stays).map

private theorem block_arrives {state : State}
    (inner : ∀ {inside : State}, state.skipBlankLines.atEnd = false →
      state.skipBlankLines.indent = .found () inside →
      (linesWithin nesting inside).Arrives inside) :
    (block nesting state).Arrives state := by
  rw [block_eq]
  refine .after (Passes.skipBlankLines state) ?_
  by_cases done : state.skipBlankLines.atEnd = true
  · rw [if_pos done]
    exact .found (.refl _)
  · rw [if_neg done]
    cases opened : state.skipBlankLines.indent with
    | absent => exact .found (.refl _)
    | failed failure stop => exact .failed (.of_failed (.indent _) opened)
    | found _ inside =>
        have more : state.skipBlankLines.atEnd = false := by simpa using done
        exact .after (.of_found (.indent _) opened) (inner more opened).map

/-- What is read of lines arrives somewhere; nothing is said of other tasks. -/
def Task.Arrives : Task → State → Prop
  | line nesting, state => (Reader.line nesting state).Arrives state
  | lines nesting, state => (Reader.lines nesting state).Arrives state
  | block nesting, state => (Reader.block nesting state).Arrives state
  | _, _ => True

theorem Task.arrives (task : Task) (state : State) : task.Arrives state := by
  refine calls_induction (fun caller here inner => ?_) task state
  cases caller with
  | line nesting => exact line_arrives fun read ended => inner _ _ (.lineBody read ended)
  | lines nesting =>
      exact lines_arrives (inner _ _ .linesLine) fun read more closed stays =>
        inner _ _ (.linesNext read more closed stays)
  | block nesting =>
      refine block_arrives fun more opened => ?_
      cases nesting with
      | zero => exact .refuse _ _
      | succ nesting => exact inner _ _ (.blockLines more opened)
  | _ => exact trivial

/-! ## Calls -/

private theorem Onward.skipComment (state : State) : Onward state state.skipComment := by
  obtain ⟨comment, isComment, split⟩ := exists_comment state.rest
  refine ⟨comment, split, ?_, .of_inside isComment.inside⟩
  rw [lineEnds_eq_zero_of_inside isComment.inside]
  exact (Int.add_zero _).symm

private theorem Onward.itemsUntil (enclosure : Enclosure) (nesting count : Nat) (state : State) :
    Onward state (itemsUntil nesting enclosure.closer enclosure.problem count state).stop := by
  have closes : isLineBreak enclosure.closer = false := by cases enclosure <;> rfl
  exact .of_reaches
    (readItems_reaches (readItem_stops nesting) closes enclosure.problem _ count state)

/-- Where reading stands when a task is done. -/
theorem Task.onward (task : Task) (state : State) : Onward state (task.place state) := by
  have arrives := task.arrives state
  cases task with
  | reads reader => exact .of_stops (reader.stops state)
  | line | lines | block => exact arrives.onward
  | space => exact Passes.skipSpace state
  | comment => exact Onward.skipComment state
  | lineEnd =>
      rw [Task.place]
      cases ended : state.endLine? with
      | none => exact .refl state
      | some next => exact Passes.endLine? ended
  | blankLines => exact Passes.skipBlankLines state
  | items enclosure nesting count => exact Onward.itemsUntil enclosure nesting count state
  | arguments nesting => exact .of_reaches (arguments_reaches nesting state)

theorem Onward.line {state next : State} {node : Node}
    (found : line nesting state = .found node next) : Onward state next :=
  .of_found ((Task.line nesting).onward state) found

/-- A task starts others where it starts itself or further on. -/
private theorem Onward.of_calls {caller callee : Task} {here there : State}
    (call : Calls caller here callee there) : Onward here there := by
  cases call with
  | token | array | parenthesised | headItem | itemsGap | phraseHead | argumentsSpace | lineSpace
  | linesLine | blockGap | blankSpace | comment => exact .refl here
  | arrayItems taken | headGap taken => exact .of_take? taken rfl
  | headSpace taken => exact .trans (.of_take? taken rfl) (Passes.skipBlankLines _)
  | head taken => exact .trans (.of_take? taken rfl) (Passes.skipGap _)
  | tail taken found =>
      have gap : Onward here _ := .trans (.of_take? taken rfl) (Passes.skipGap _)
      exact gap.trans (.head found)
  | itemsSpace => exact Passes.skipBlankLines here
  | itemsItem => exact Passes.skipGap here
  | itemsNext found => exact .trans (Passes.skipGap here) (.item found)
  | phraseArguments found => exact .head found
  | argumentsItem | linePhrase | blankEnd => exact Passes.skipSpace here
  | argumentsNext found => exact .trans (Passes.skipSpace here) (.item found)
  | lineEnd read => exact .trans (Passes.skipSpace here) (.phrase read)
  | lineBody read ended =>
      have content : Onward here _ := .trans (Passes.skipSpace here) (.phrase read)
      exact content.trans (Passes.endLine? ended)
  | linesGap read => exact .line read
  | linesNext read _ _ stays =>
      have blank : Onward here _ := .trans (.line read) (Passes.skipBlankLines _)
      exact blank.trans (.of_found (.nodent _) stays)
  | blockLines _ opened =>
      exact .trans (Passes.skipBlankLines here) (.of_found (.indent _) opened)
  | blankNext ended => exact .trans (Passes.skipSpace here) (Passes.endLine? ended)

/-- Wherever something is called while a program is read, reading has come there from the start. -/
theorem During.onward {source : String} {task : Task} {state : State}
    (during : During nesting source task state) : Onward (.start source) state := by
  induction during with
  | program => exact .refl _
  | call _ called ih => exact ih.trans (.of_calls called)

end IndentLisp.Reader

namespace IndentLisp.Probe

open Reader

/-! ## Probes -/

/-- The probe when a task is done that has been started at its place. -/
def afterTask (probe : Probe) (task : Task) : Probe := probe.goTo (task.place probe.state)

section

variable {probe : Probe} {text : List Char} {next : State}
  (passes : Passes probe.state text next)

include passes

theorem cursor_goTo : (probe.goTo next).cursor = probe.cursor + text.length := by
  have split : probe.state.rest = text ++ next.rest := passes.rest
  have long := congrArg List.length split
  rw [List.length_append] at long
  rw [goTo]
  dsimp only
  omega

theorem cursor_goTo_le (inside : probe.cursor ≤ probe.text.length) :
    (probe.goTo next).cursor ≤ probe.text.length := by
  have split : probe.text.drop probe.cursor = text ++ next.rest := passes.rest
  have long := congrArg List.length split
  rw [List.length_drop, List.length_append] at long
  rw [cursor_goTo passes]
  omega

/-- The probe has gone to the place at which the state stands. -/
theorem state_goTo : (probe.goTo next).state = next := by
  have split : probe.text.drop probe.cursor = text ++ next.rest := passes.rest
  have rest : probe.text.drop (probe.goTo next).cursor = next.rest := by
    rw [cursor_goTo passes, ← List.drop_drop, split, List.drop_left]
  exact congrArg (State.mk · next.line next.level) rest

theorem extract_goTo : probe.text.extract probe.cursor (probe.goTo next).cursor = text := by
  have split : probe.text.drop probe.cursor = text ++ next.rest := passes.rest
  rw [cursor_goTo passes, List.extract_eq_take_drop, Nat.add_sub_cancel_left, split,
    List.take_left]

/-- Where a probe has gone on, it does not part a carriage return from its line feed. -/
theorem joins_goTo :
    (probe.goTo next).cursor = probe.cursor ∨
      Joins (probe.text.take (probe.goTo next).cursor)
        (probe.text.drop (probe.goTo next).cursor) := by
  have split : probe.text.drop probe.cursor = text ++ next.rest := passes.rest
  rw [cursor_goTo passes]
  by_cases empty : text = []
  · exact .inl (by rw [empty, List.length_nil, Nat.add_zero])
  · refine .inr ?_
    rw [List.take_add, ← List.drop_drop, split, List.take_left, List.drop_left]
    exact passes.joins.append_left empty _

end

end IndentLisp.Probe
