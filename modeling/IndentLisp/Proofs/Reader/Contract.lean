import IndentLisp.Proofs.Reader.Places

/-!
# The contract of the readers

A reader of items leaves everything as it was, or goes on and keeps the level. A reader of lines or
blocks always finds something or fails. Nothing that is called goes back, or beyond the end of the
text. So reading ends on every text, and no loop takes more rounds than there are characters to
read.
-/

set_option autoImplicit false

namespace IndentLisp

open Reader

/-- What is promised of a reply at the probe's place. -/
structure Probe.Keeps {α : Type} (probe : Probe) (reply : Reply α) : Prop where
  absent : ∀ next, reply = .absent next → next = probe.state ∧ probe.after reply = probe
  found : ∀ value next, reply = .found value next →
    (probe.after reply).state = next ∧ probe.cursor < (probe.after reply).cursor ∧
      (probe.after reply).level = probe.level
  failed : ∀ failure stop, reply = .failed failure stop →
    (probe.after reply).state = stop ∧ probe.cursor ≤ (probe.after reply).cursor ∧
      (probe.after reply).level = probe.level

namespace Reader

/-- No loop takes more rounds than there are characters to read: with any bound beyond that, the
replies are the same. -/
structure BoundsNeverShow : Prop where
  items : ∀ (nesting : Nat) (closer : Char) (problem : Nat → Problem) (bound count : Nat)
    (state : State), state.rest.length ≤ bound →
      readItems (readItem nesting) closer problem bound count state =
        itemsUntil nesting closer problem count state
  arguments : ∀ (nesting bound : Nat) (state : State), state.rest.length ≤ bound →
    readArguments (readItem nesting) bound state = arguments nesting state
  lines : ∀ (nesting bound : Nat) (state : State), state.rest.length ≤ bound →
    readLines (line nesting) bound state = lines nesting state

private theorem boundsNeverShow : BoundsNeverShow where
  items _ _ _ _ _ _ enough := readItems_bound enough (Nat.le_refl _)
  arguments _ _ _ enough := readArguments_bound enough (Nat.le_refl _)
  lines _ _ _ enough := readLines_bound enough (Nat.le_refl _)

theorem program_arrives (nesting : Nat) (state : State) :
    (program nesting state).Arrives state := by
  have arrives : (block nesting state).Arrives state := (Task.block nesting).arrives state
  refine arrives.bind fun body stop _ => ?_
  by_cases done : stop.atEnd = true
  · rw [if_pos done]
    exact .found (.refl stop)
  · rw [if_neg done]
    exact .refuse stop _

end Reader

namespace Probe

variable {α : Type} {probe : Probe} {reply : Reply α}

private theorem cursor_lt_goTo {next : State} (onward : Onward probe.state next)
    (less : next.rest.length < probe.state.rest.length) :
    probe.cursor < (probe.goTo next).cursor := by
  obtain ⟨text, passes⟩ := onward
  have split := congrArg List.length passes.rest
  rw [List.length_append] at split
  rw [cursor_goTo passes]
  omega

private theorem cursor_le_goTo {next : State} (onward : Onward probe.state next) :
    probe.cursor ≤ (probe.goTo next).cursor := by
  obtain ⟨text, passes⟩ := onward
  rw [cursor_goTo passes]
  exact Nat.le_add_right _ _

private theorem goTo_state (probe : Probe) : probe.goTo probe.state = probe := by
  rw [goTo, Nat.sub_self]
  rfl

private theorem keeps_of_stops (stops : reply.Stops probe.state)
    (consumes : ∀ value next, reply = .found value next →
      next.rest.length < probe.state.rest.length) : probe.Keeps reply where
  absent next absent := by
    subst absent
    cases stops with
    | absent => exact ⟨rfl, goTo_state probe⟩
    | reaches reaches => cases reaches
  found value next found := by
    subst found
    cases stops.reaches_of_found with
    | found passes level =>
        exact ⟨state_goTo passes, cursor_lt_goTo ⟨_, passes⟩ (consumes value next rfl), level⟩
  failed failure stop failed := by
    subst failed
    cases stops.reaches_of_failed with
    | failed passes level => exact ⟨state_goTo passes, cursor_le_goTo ⟨_, passes⟩, level⟩

private theorem afterTask_inside (inside : probe.cursor ≤ probe.text.length) (task : Task) :
    (probe.afterTask task).state = task.place probe.state ∧
      probe.cursor ≤ (probe.afterTask task).cursor ∧
      (probe.afterTask task).cursor ≤ probe.text.length := by
  obtain ⟨text, passes⟩ := task.onward probe.state
  exact ⟨state_goTo passes, cursor_le_goTo ⟨text, passes⟩, cursor_goTo_le passes inside⟩

end Probe

/-- At every place of a text, a reader of items that finds its subject absent hands on the state it
was given, so place, line and level are as they were; one that finds something goes on, one that
fails does not go back, and both keep the level. Lines and blocks are never absent, and a line that
is found takes up some text. Whatever is called, reading stands at the probe's place or further on
afterwards, inside the text. A call starts further on than the one that it comes from, or it has a
lower rank, as no further round of a loop has; so chains of calls end, no bound on a loop shows, and
the reading of a program ends with a block or with a failure. -/
theorem readers_keep_contract :
    (∀ probe : Probe, probe.cursor ≤ probe.text.length →
      (∀ reader : ItemReader, probe.Keeps (reader.read probe.state)) ∧
      (∀ nesting next, line nesting probe.state ≠ .absent next ∧
        block nesting probe.state ≠ .absent next) ∧
      (∀ nesting node next, line nesting probe.state = .found node next →
        probe.cursor < (probe.goTo next).cursor) ∧
      ∀ task : Task, (probe.afterTask task).state = task.place probe.state ∧
        probe.cursor ≤ (probe.afterTask task).cursor ∧
        (probe.afterTask task).cursor ≤ probe.text.length) ∧
    (∀ {caller callee : Task} {here there : State}, Calls caller here callee there →
      caller.rank ≤ callee.rank → there.rest.length < here.rest.length) ∧
    (WellFounded fun later earlier : Task × State =>
      Calls earlier.1 earlier.2 later.1 later.2) ∧
    BoundsNeverShow ∧
    ∀ (nesting : Nat) (source : String),
      (∃ body stop, program nesting (.start source) = .found body stop) ∨
        ∃ failure stop, program nesting (.start source) = .failed failure stop := by
  refine ⟨fun probe inside => ⟨fun reader => ?_, fun nesting next => ⟨?_, ?_⟩,
    fun nesting node next found => ?_, ?_⟩, ?_, wellFounded_calls, boundsNeverShow,
    fun nesting source => ?_⟩
  · exact Probe.keeps_of_stops (reader.stops probe.state) fun _ _ found => reader.consumes found
  · exact Reply.Arrives.ne_absent ((Task.line nesting).arrives probe.state) next
  · exact Reply.Arrives.ne_absent ((Task.block nesting).arrives probe.state) next
  · exact Probe.cursor_lt_goTo (.line found) (consumes_line nesting found)
  · exact Probe.afterTask_inside inside
  · intro caller callee here there call rank
    rcases starts_later call with further | ⟨-, lower⟩
    · exact further
    · exact absurd lower (Nat.not_lt.mpr rank)
  · cases result : program nesting (.start source) with
    | absent next => exact absurd result ((program_arrives nesting _).ne_absent next)
    | found body stop => exact .inl ⟨body, stop, rfl⟩
    | failed failure stop => exact .inr ⟨failure, stop, rfl⟩

/-- An array over three lines is found, and the stray bracket behind it is no item. -/
theorem readers_keep_contract_array :
    let probe : Probe :=
      { text := "f [a\r\n\t'b\nc' 1] )\n".toList, cursor := 2, line := 7, level := 3 }
    probe.cursor ≤ probe.text.length ∧
      (∃ node next, readItem 1 probe.state = .found node next ∧
        probe.cursor < (probe.after (readItem 1 probe.state)).cursor ∧
        (probe.after (readItem 1 probe.state)).level = 3) ∧
      { probe with cursor := 16 }.after (readItem 1 { probe with cursor := 16 }.state) =
        { probe with cursor := 16 } := by
  intro probe
  obtain ⟨keeps, -⟩ := readers_keep_contract
  have inside : probe.cursor ≤ probe.text.length := by decide
  have behind : { probe with cursor := 16 }.cursor ≤ probe.text.length := by decide
  have found : readItem 1 probe.state =
      .found (.array [.symbol "a" 7, .string "b\nc" 8, .number 1 9] 7)
        ⟨[' ', ')', '\n'], 9, 3⟩ := by decide +kernel
  have absent : readItem 1 { probe with cursor := 16 }.state =
      .absent { probe with cursor := 16 }.state := by decide +kernel
  obtain ⟨-, further, level⟩ := ((keeps probe inside).1 (.item 1)).found _ _ found
  exact ⟨inside, ⟨_, _, found, further, level⟩,
    (((keeps { probe with cursor := 16 } behind).1 (.item 1)).absent _ absent).2⟩

end IndentLisp
