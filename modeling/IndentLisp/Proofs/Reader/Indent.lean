import IndentLisp.Reader.Indent

/-!
# Checks of the indentation

The checks look at the tabs of a line and at nothing else. They move between blocks and leave the
text and the line as they are.
-/

set_option autoImplicit false

namespace IndentLisp.Reader.State

theorem tabs?_eq (state : State) :
    state.tabs? =
      if (state.rest.dropWhile (· == '\t')).head? = some ' ' then none
      else some (state.rest.takeWhile (· == '\t')).length := by
  rw [tabs?]
  split
  · next rest split => rw [split, List.head?_cons, if_pos rfl]
  · next other =>
    rw [if_neg]
    intro first
    obtain ⟨rest, split⟩ := List.head?_eq_some_iff.mp first
    exact other rest split

/-- The reply of a check: reading goes on at the next state if the number of tabs passes. -/
def checked (state next : State) (passes : Nat → Prop) [DecidablePred passes] : Reply Unit :=
  match state.tabs? with
  | none => state.refuse .spacesInIndent
  | some count => if passes count then .found () next else .absent state

theorem indent_eq (state : State) :
    state.indent = state.checked { state with level := state.level + 1 } fun count =>
      (count : Int) = state.level + 1 := by
  cases tabs : state.tabs? <;> simp only [indent, countTabs, checked, tabs] <;> rfl

theorem dedent_eq (state : State) :
    state.dedent = state.checked { state with level := state.level - 1 } fun count =>
      (count : Int) < state.level := by
  cases tabs : state.tabs? <;> simp only [dedent, countTabs, checked, tabs] <;> rfl

theorem nodent_eq (state : State) :
    state.nodent = state.checked state fun count => (count : Int) = state.level := by
  cases tabs : state.tabs? <;> simp only [nodent, countTabs, checked, tabs] <;> rfl

section

variable {state next last : State} {passes : Nat → Prop} [DecidablePred passes]

theorem checked_of_none (tabs : state.tabs? = none) :
    state.checked next passes = state.refuse .spacesInIndent := by
  rw [checked, tabs]

theorem checked_of_passes {count : Nat} (tabs : state.tabs? = some count) (pass : passes count) :
    state.checked next passes = .found () next := by
  rw [checked, tabs]
  exact if_pos pass

theorem checked_of_not_passes {count : Nat} (tabs : state.tabs? = some count)
    (fail : ¬ passes count) : state.checked next passes = .absent state := by
  rw [checked, tabs]
  exact if_neg fail

theorem eq_of_checked_found (found : state.checked next passes = .found () last) :
    last = next := by
  rw [checked] at found
  cases tabs : state.tabs? with
  | none => simp [tabs, refuse] at found
  | some count =>
      rw [tabs] at found
      dsimp only at found
      split at found
      · exact ((Reply.found.inj found).2).symm
      · cases found

private theorem eq_of_checked_absent (absent : state.checked next passes = .absent last) :
    last = state := by
  rw [checked] at absent
  cases tabs : state.tabs? with
  | none => simp [tabs, refuse] at absent
  | some count =>
      rw [tabs] at absent
      dsimp only at absent
      split at absent
      · cases absent
      · exact (Reply.absent.inj absent).symm

end

theorem keepsPlace_indent : KeepsPlace indent := by
  intro state next absent
  rw [indent_eq] at absent
  exact eq_of_checked_absent absent

theorem keepsPlace_dedent : KeepsPlace dedent := by
  intro state next absent
  rw [dedent_eq] at absent
  exact eq_of_checked_absent absent

theorem keepsPlace_nodent : KeepsPlace nodent := by
  intro state next absent
  rw [nodent_eq] at absent
  exact eq_of_checked_absent absent

theorem rest_of_indent {state next : State} (found : state.indent = .found () next) :
    next.rest = state.rest := by
  rw [indent_eq] at found
  rw [eq_of_checked_found found]

theorem rest_of_dedent {state next : State} (found : state.dedent = .found () next) :
    next.rest = state.rest := by
  rw [dedent_eq] at found
  rw [eq_of_checked_found found]

theorem rest_of_nodent {state next : State} (found : state.nodent = .found () next) :
    next.rest = state.rest := by
  rw [nodent_eq] at found
  rw [eq_of_checked_found found]

end IndentLisp.Reader.State
