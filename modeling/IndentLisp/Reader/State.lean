import IndentLisp.Diagnostic
import IndentLisp.Text.Lines

/-!
# Reading states and replies

A reader looks at the unread text only. It replies in one of three ways: it found something, what it
looks for is absent, or it failed. Each reply says where the reader has left reading. The line of a
diagnostic is the line at which the reader stopped.
-/

set_option autoImplicit false

namespace IndentLisp.Reader

/-- Where reading stands: the unread text, the number of the current line and the indentation level
of the innermost open block. Before the first block the level is below that of any block. -/
structure State where
  rest : List Char
  line : Int := 1
  level : Int := -1
  deriving DecidableEq, Repr

inductive Failure where
  | problem (cause : Problem)
  | numeralTooLong (digits : Nat)
  deriving DecidableEq, Repr

/-- The reply of a reader, and where reading stands after it. A reader that finds its subject absent
should not have moved; that is not built in. -/
inductive Reply (α : Type) where
  | found (value : α) (next : State)
  | absent (next : State)
  | failed (failure : Failure) (stop : State)
  deriving DecidableEq, Repr

/-- The refusal of a text that stops at the given state. -/
def Failure.atState (stop : State) : Failure → ParseError
  | problem cause => .diagnosed ⟨cause, stop.line⟩
  | numeralTooLong digits => .numeralTooLong digits

/-- The state before anything of a source text has been read. Its text ends in a line feed. -/
def State.start (source : String) : State := { rest := terminated source.toList }

def State.atEnd (state : State) : Bool := state.rest.isEmpty

/-- Fails here for the given cause. -/
def State.refuse {α : Type} (state : State) (cause : Problem) : Reply α :=
  .failed (.problem cause) state

def State.take? (state : State) (expected : Char) : Option State :=
  match state.rest with
  | c :: rest => if c = expected then some { state with rest := rest } else none
  | [] => none

namespace Reply

variable {α β : Type}

/-- Where the reader has left reading. -/
def stop : Reply α → State
  | found _ next => next
  | absent next => next
  | failed _ stop => stop

def map (f : α → β) : Reply α → Reply β
  | found value next => found (f value) next
  | absent next => absent next
  | failed failure stop => failed failure stop

def bind (reply : Reply α) (continuation : α → State → Reply β) : Reply β :=
  match reply with
  | found value next => continuation value next
  | absent next => absent next
  | failed failure stop => failed failure stop

theorem map_eq_found_iff {f : α → β} {reply : Reply α} {result : β} {next : State} :
    reply.map f = found result next ↔ ∃ value, reply = found value next ∧ f value = result := by
  cases reply with
  | found => simp only [map, found.injEq]; grind
  | absent => simp [map]
  | failed => simp [map]

theorem map_eq_absent_iff {f : α → β} {reply : Reply α} {next : State} :
    reply.map f = absent next ↔ reply = absent next := by
  cases reply <;> simp [map]

theorem map_eq_failed_iff {f : α → β} {reply : Reply α} {failure : Failure} {stop : State} :
    reply.map f = failed failure stop ↔ reply = failed failure stop := by
  cases reply <;> simp [map]

theorem bind_eq_found_iff {reply : Reply α} {continuation : α → State → Reply β} {result : β}
    {last : State} :
    reply.bind continuation = found result last ↔
      ∃ value next, reply = found value next ∧ continuation value next = found result last := by
  cases reply with
  | found => simp only [bind, found.injEq]; grind
  | absent => simp [bind]
  | failed => simp [bind]

end Reply

/-- A reader that finds its subject absent has not moved. -/
def KeepsPlace {α : Type} (reader : State → Reply α) : Prop :=
  ∀ {state next : State}, reader state = .absent next → next = state

/-- The reply of the first reader that does not find its subject absent. Each reader is tried where
the one before it has left reading. -/
def firstOf {α : Type} : List (State → Reply α) → State → Reply α
  | [], state => .absent state
  | reader :: readers, state =>
    match reader state with
    | .absent next => firstOf readers next
    | reply => reply

section

variable {α : Type} {readers : List (State → Reply α)} {state next : State}

theorem firstOf_eq_absent_iff (keep : ∀ reader ∈ readers, KeepsPlace reader) :
    firstOf readers state = .absent next ↔
      next = state ∧ ∀ reader ∈ readers, reader state = .absent state := by
  induction readers with
  | nil => simp [firstOf, eq_comm]
  | cons reader readers inductionHypothesis =>
    obtain ⟨first, others⟩ := List.forall_mem_cons.mp keep
    cases reply : reader state with
    | found | failed => simp [firstOf, reply]
    | absent stop =>
      obtain rfl := first reply
      simp [firstOf, reply, inductionHypothesis others]

theorem exists_mem_of_firstOf_eq_found {value : α} (keep : ∀ reader ∈ readers, KeepsPlace reader)
    (result : firstOf readers state = .found value next) :
    ∃ reader ∈ readers, reader state = .found value next := by
  induction readers with
  | nil => simp [firstOf] at result
  | cons reader readers inductionHypothesis =>
    obtain ⟨first, others⟩ := List.forall_mem_cons.mp keep
    cases reply : reader state with
    | found => exact ⟨reader, List.mem_cons_self, by simpa [firstOf, reply] using result⟩
    | failed => simp [firstOf, reply] at result
    | absent stop =>
      obtain rfl := first reply
      obtain ⟨later, member, later_result⟩ :=
        inductionHypothesis others (by simpa [firstOf, reply] using result)
      exact ⟨later, List.mem_cons_of_mem _ member, later_result⟩

end

end IndentLisp.Reader
