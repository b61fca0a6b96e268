import IndentLisp.Parse

/-!
# Probing a text

A probe is a place in a text at which single readers can be tried. Unlike a reading state it knows
the whole text, so that its place is a number, counted in characters, and can be set freely.
-/

set_option autoImplicit false

namespace IndentLisp

/-- A text, a place in it, and the line and the indentation level that hold there. A place beyond
the end counts as the end. -/
structure Probe where
  text : List Char
  cursor : Nat := 0
  line : Int := 1
  level : Int := -1

/-- What stands at a position of a text. -/
inductive Glimpse where
  | character (c : Char)
  | pastEnd
  /-- The position is further before the end than the text is long. -/
  | outOfRange
  deriving DecidableEq, Repr

namespace Probe

def ofSource (source : String) : Probe := { text := terminated source.toList }

def state (probe : Probe) : Reader.State :=
  { rest := probe.text.drop probe.cursor, line := probe.line, level := probe.level }

/-- The probe at a state that is reached by reading on from its place. -/
def goTo (probe : Probe) (state : Reader.State) : Probe :=
  { probe with
    cursor := probe.cursor + (probe.state.rest.length - state.rest.length)
    line := state.line
    level := state.level }

/-- The probe where a reader has left reading. -/
def after {α : Type} (probe : Probe) (reply : Reader.Reply α) : Probe := probe.goTo reply.stop

/-- The character at a distance from the probe's place. Positions before the start of the text are
counted from its end. -/
def glimpse (probe : Probe) (offset : Int) : Glimpse :=
  let position := probe.cursor + offset
  let position := if position < 0 then position + probe.text.length else position
  if position < 0 then .outOfRange
  else
    match probe.text[position.toNat]? with
    | some c => .character c
    | none => .pastEnd

end Probe

end IndentLisp
