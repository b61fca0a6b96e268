import IndentLisp.Text.Lines

/-!
# Counting line ends

The line ends of a text add up over its parts, as long as no part ends between a carriage return
and its line feed.
-/

set_option autoImplicit false

namespace IndentLisp

/-- The texts meet at a place that does not part a carriage return from its line feed. -/
def Joins (left right : List Char) : Prop :=
  left.getLast? = some '\r' → right.head? ≠ some '\n'

@[simp] theorem lineEnds_nil : lineEnds [] = 0 := rfl

@[simp] theorem lineEnds_return_feed (rest : List Char) :
    lineEnds ('\r' :: '\n' :: rest) = lineEnds rest + 1 := rfl

@[simp] theorem lineEnds_feed (rest : List Char) :
    lineEnds ('\n' :: rest) = lineEnds rest + 1 := rfl

private theorem lineEnds_return {rest : List Char} (alone : rest.head? ≠ some '\n') :
    lineEnds ('\r' :: rest) = lineEnds rest + 1 := by
  cases rest with
  | nil => rfl
  | cons c rest =>
      have different : c ≠ '\n' := by simpa using alone
      rw [lineEnds, if_pos (by decide)]
      intro tail _ same
      exact different (List.cons.inj same).1

theorem lineEnds_cons_of_inside {c : Char} (inside : isLineBreak c = false) (rest : List Char) :
    lineEnds (c :: rest) = lineEnds rest := by
  rw [lineEnds, if_neg (by simp [inside])]
  rintro tail rfl -
  exact absurd inside (by decide)

theorem lineEnds_append_of_inside {left : List Char}
    (inside : ∀ c ∈ left, isLineBreak c = false) (right : List Char) :
    lineEnds (left ++ right) = lineEnds right := by
  induction left with
  | nil => rfl
  | cons c left ih =>
      rw [List.cons_append, lineEnds_cons_of_inside (inside c List.mem_cons_self)]
      exact ih fun d member => inside d (List.mem_cons_of_mem c member)

theorem lineEnds_eq_zero_of_inside {text : List Char}
    (inside : ∀ c ∈ text, isLineBreak c = false) : lineEnds text = 0 := by
  simpa using lineEnds_append_of_inside inside []

theorem Joins.of_head {left right : List Char} (other : right.head? ≠ some '\n') :
    Joins left right :=
  fun _ => other

theorem joins_return_feed (right : List Char) : Joins ['\r', '\n'] right := by
  intro last
  cases last

private theorem Joins.of_cons {c : Char} {left right : List Char} (joins : Joins (c :: left) right)
    (more : left ≠ []) : Joins left right := by
  intro last
  apply joins
  rw [List.getLast?_cons_of_ne_nil more]
  exact last

theorem Joins.of_last {left right : List Char}
    (inside : ∀ c ∈ left.getLast?, isLineBreak c = false) : Joins left right :=
  fun last => absurd (inside _ last) (by decide)

theorem Joins.of_inside {left right : List Char} (inside : ∀ c ∈ left, isLineBreak c = false) :
    Joins left right :=
  .of_last fun c last => inside c (List.mem_of_getLast? last)

theorem Joins.of_singleton {c : Char} (inside : isLineBreak c = false) (right : List Char) :
    Joins [c] right := by
  intro last
  cases last
  cases inside

theorem Joins.of_closer {c : Char} (inside : isLineBreak c = false) (left : List Char) :
    Joins left [c] := by
  apply Joins.of_head
  intro first
  cases first
  cases inside

theorem Joins.of_append_right {left right more : List Char} (joins : Joins left (right ++ more)) :
    Joins left right := by
  intro last
  cases right with
  | nil => simp
  | cons c right => exact joins last

theorem getLast?_append {left : List Char} (nonempty : left ≠ []) (more : List Char) :
    (more ++ left).getLast? = left.getLast? := by
  rw [List.getLast?_append, List.getLast?_eq_some_getLast nonempty, Option.some_or]

theorem Joins.append_left {left right : List Char} (joins : Joins left right)
    (nonempty : left ≠ []) (more : List Char) : Joins (more ++ left) right := by
  intro last
  exact joins (getLast?_append nonempty more ▸ last)

theorem lineEnds_append {left right : List Char} (joins : Joins left right) :
    lineEnds (left ++ right) = lineEnds left + lineEnds right := by
  fun_induction lineEnds left with
  | case1 left ih =>
      by_cases done : left = []
      · subst done
        simp [Nat.add_comm]
      · have more : Joins left right := (joins.of_cons (by simp)).of_cons done
        simp only [List.cons_append, lineEnds_return_feed, ih more]
        omega
  | case2 c left notPair isBreak ih =>
      by_cases done : left = []
      · subst done
        obtain rfl | rfl : c = '\n' ∨ c = '\r' := by simpa [isLineBreak] using isBreak
        · simp [Nat.add_comm]
        · simp [lineEnds_return (joins rfl), Nat.add_comm]
      · have step : lineEnds (c :: (left ++ right)) = lineEnds (left ++ right) + 1 := by
          rw [lineEnds, if_pos isBreak]
          intro tail isReturn same
          cases left with
          | nil => exact done rfl
          | cons d left =>
              obtain ⟨rfl, -⟩ := List.cons.inj same
              exact notPair left isReturn rfl
        rw [List.cons_append, step, ih (joins.of_cons done)]
        omega
  | case3 c left notPair notBreak ih =>
      have inside : isLineBreak c = false := by simpa using notBreak
      rw [List.cons_append, lineEnds_cons_of_inside inside]
      by_cases done : left = []
      · subst done
        simp
      · exact ih (joins.of_cons done)
  | case4 => simp

theorem lineEnds_eq_count {text : List Char} (noReturn : '\r' ∉ text) :
    lineEnds text = text.count '\n' := by
  induction text with
  | nil => rfl
  | cons c text ih =>
      obtain ⟨other, noRest⟩ := not_or.mp (mt List.mem_cons.mpr noReturn)
      by_cases isFeed : c = '\n'
      · subst isFeed
        rw [lineEnds_feed, ih noRest, List.count_cons_self]
      · have inside : isLineBreak c = false := by simp [isLineBreak, isFeed, Ne.symm other]
        rw [lineEnds_cons_of_inside inside, ih noRest, List.count_cons_of_ne isFeed]

/-! ## Texts that end in a line feed -/

theorem terminated_of_feed {text : List Char} (feed : text.getLast? = some '\n') :
    terminated text = text :=
  if_pos feed

theorem terminated_append {left right : List Char} (some : right ≠ []) :
    terminated (left ++ right) = left ++ terminated right := by
  rw [terminated, terminated, getLast?_append some]
  split
  · rfl
  · rw [List.append_assoc]

theorem terminated_cons {c : Char} (other : c ≠ '\n') (text : List Char) :
    terminated (c :: text) = c :: terminated text := by
  cases text with
  | nil => simp [terminated, other]
  | cons d text => exact @terminated_append [c] (d :: text) (List.cons_ne_nil d text)

theorem head?_terminated {text : List Char} (some : text ≠ []) :
    (terminated text).head? = text.head? := by
  obtain ⟨c, text, rfl⟩ := List.exists_cons_of_ne_nil some
  rw [terminated]
  split <;> rfl

theorem exists_terminated (right : List Char) :
    ∃ behind, ∀ left, terminated (left ++ '\n' :: right) = left ++ '\n' :: behind := by
  by_cases empty : right = []
  · refine ⟨[], fun left => ?_⟩
    rw [empty]
    exact terminated_of_feed (by simp)
  · refine ⟨terminated right, fun left => ?_⟩
    have split : left ++ '\n' :: right = left ++ ['\n'] ++ right := by simp
    rw [split, terminated_append empty]
    simp

end IndentLisp
