import IndentLisp.Proofs.Reader.Insertion
import IndentLisp.Proofs.RoundTrip

/-!
# Blank lines and trailing blanks

A blank line moves the lines below it, and changes nothing else about what is parsed or refused.
White space and a comment at the end of a line change nothing at all.
-/

set_option autoImplicit false

namespace IndentLisp

open Grammar Reader

namespace Reader

def trailingBlank (line : Int) (behind : List Char) : Insertion where
  behind := behind
  changed := behind
  line := line
  offset := 0
  skips level := by rw [Int.natCast_zero, Int.add_zero]

private theorem moved_trailingBlank (line : Int) (behind : List Char) :
    (trailingBlank line behind).correspondence.moved = id := by
  funext other
  have nothing : other + ((0 : Nat) : Int) = other := by omega
  exact (ite_congr rfl (fun _ => nothing) fun _ => rfl).trans (ite_self other)

private theorem skipBlankLines_blank {blank : List Char} (isBlank : Blank blank)
    (behind : List Char) (line level : Int) :
    State.skipBlankLines ⟨blank ++ '\n' :: behind, line, level⟩ =
      State.skipBlankLines ⟨behind, line + 1, level⟩ := by
  obtain @⟨spaces, comment, space, isComment⟩ := isBlank
  have solid : StartsWithout isSpace (comment ++ '\n' :: behind) := by
    cases isComment <;> exact startsWithout_cons.mpr rfl
  apply skipBlankLines_of_endLine?
  rw [List.append_assoc, skipSpace_append space solid, endLine?_of_comment isComment]

def blankLine (line : Int) {blank : List Char} (isBlank : Blank blank) (behind : List Char) :
    Insertion where
  behind := behind
  changed := blank ++ '\n' :: behind
  line := line
  offset := 1
  skips level := skipBlankLines_blank isBlank behind (line + 1) level

end Reader

private theorem moveLines_id (outcome : Except ParseError Node) :
    moveLines id outcome = outcome := by
  cases outcome with
  | ok tree => exact congrArg Except.ok tree.mapLines_id
  | error refusal => cases refusal <;> rfl

private theorem endsInLiteral_of_append_feed {text : List Char}
    (outside : endsInLiteral (text ++ ['\n']) = false) : endsInLiteral text = false := by
  rw [endsInLiteral, run_append] at outside
  rw [endsInLiteral]
  cases mode : Mode.code.run text <;> rw [mode] at outside <;> first | rfl | cases outside

section

variable {nesting : Nat} {before blank after : String}

private theorem parse_insert_trailing (isBlank : Blank blank.toList)
    (noReturn : '\r' ∉ before.toList) (outside : endsInLiteral before.toList = false) :
    parse nesting (before ++ blank ++ "\n" ++ after) =
      parse nesting (before ++ "\n" ++ after) := by
  obtain ⟨behind, ends⟩ := exists_terminated after.toList
  have feed : "\n".toList = ['\n'] := rfl
  have first : State.start (before ++ "\n" ++ after) =
      ⟨before.toList ++ '\n' :: behind, 1, -1⟩ := by
    rw [State.start, ← ends]
    simp [String.toList_append, feed]
  have second : State.start (before ++ blank ++ "\n" ++ after) =
      ⟨before.toList ++ (blank.toList ++ '\n' :: behind), 1, -1⟩ := by
    rw [State.start, ← List.append_assoc, ← ends]
    simp [String.toList_append, feed]
  have step : (trailingBlank (1 + lineEnds before.toList) behind).Starts
      (.start (before ++ "\n" ++ after)) (.start (before ++ blank ++ "\n" ++ after)) := by
    rw [first, second]
    exact .inl (.inl (.mk isBlank noReturn outside rfl))
  have moves := (trailingBlank (1 + lineEnds before.toList) behind).movesLines.parse_eq nesting step
  rw [moves, moved_trailingBlank, moveLines_id]

private theorem parse_insert_line (isBlank : Blank blank.toList) (noReturn : '\r' ∉ before.toList)
    (outside : endsInLiteral before.toList = false)
    (fed : before = "" ∨ before.toList.getLast? = some '\n')
    (some : ¬(before = "" ∧ after = "")) :
    parse nesting (before ++ blank ++ "\n" ++ after) =
      moveLines (fun line => if (before.toList.count '\n' : Int) < line then line + 1 else line)
        (parse nesting (before ++ after)) := by
  have feed : "\n".toList = ['\n'] := rfl
  rcases fed with rfl | fed
  · have filled : after.toList ≠ [] := by
      intro empty
      exact some ⟨rfl, String.toList_eq_nil_iff.mp empty⟩
    have second : State.start ("" ++ blank ++ "\n" ++ after) =
        ⟨blank.toList ++ '\n' :: terminated after.toList, 1, -1⟩ := by
      rw [State.start, String.toList_append, terminated_append filled]
      simp [String.toList_append, feed]
    -- Both readings begin as if they had just passed a line feed.
    have step : (blankLine 0 isBlank (terminated after.toList)).Starts (.start ("" ++ after))
        (.start ("" ++ blank ++ "\n" ++ after)) := by
      rw [second, String.empty_append]
      exact .inr (.mk (-1))
    exact (blankLine 0 isBlank (terminated after.toList)).movesLines.parse_eq nesting step
  · -- The blank line comes behind the last line feed of the first part.
    obtain ⟨start, split⟩ := List.getLast?_eq_some_iff.mp fed
    obtain ⟨behind, ends⟩ := exists_terminated after.toList
    rw [split] at noReturn outside
    have noStart : '\r' ∉ start := fun member => noReturn (List.mem_append_left _ member)
    have first : State.start (before ++ after) = ⟨start ++ '\n' :: behind, 1, -1⟩ := by
      rw [State.start, ← ends]
      simp [String.toList_append, split]
    have second : State.start (before ++ blank ++ "\n" ++ after) =
        ⟨start ++ ([] ++ '\n' :: (blank.toList ++ '\n' :: behind)), 1, -1⟩ := by
      have lines := ends (start ++ '\n' :: blank.toList)
      rw [List.append_assoc, List.cons_append, List.append_assoc, List.cons_append] at lines
      rw [State.start, List.nil_append, ← lines]
      simp [String.toList_append, split, feed]
    have step : (blankLine (1 + lineEnds start) isBlank behind).Starts (.start (before ++ after))
        (.start (before ++ blank ++ "\n" ++ after)) := by
      rw [first, second]
      exact .inl (.inl (.mk (blank_of_comment .none) noStart
        (endsInLiteral_of_append_feed outside) rfl))
    have moves := (blankLine (1 + lineEnds start) isBlank behind).movesLines.parse_eq nesting step
    have count : (before.toList.count '\n' : Int) = 1 + lineEnds start := by
      rw [split, List.count_append, lineEnds_eq_count noStart]
      simp
      omega
    rw [moves, count]
    rfl

end

/-- Where a text does not end inside a literal, white space and a comment can be inserted before a
line feed without any effect. With a line feed of their own they can be inserted between two lines.
Then the lines below are moved down by one, in the tree and in the diagnostic. -/
theorem parse_insert_blank {nesting : Nat} {before blank after : String}
    (isBlank : Blank blank.toList)
    (noReturn : '\r' ∉ before.toList) (outside : endsInLiteral before.toList = false) :
    ((before = "" ∨ before.toList.getLast? = some '\n') → ¬(before = "" ∧ after = "") →
      parse nesting (before ++ blank ++ "\n" ++ after) =
        moveLines (fun line => if (before.toList.count '\n' : Int) < line then line + 1 else line)
          (parse nesting (before ++ after))) ∧
    parse nesting (before ++ blank ++ "\n" ++ after) = parse nesting (before ++ "\n" ++ after) :=
  ⟨fun fed some => parse_insert_line isBlank noReturn outside fed some,
    parse_insert_trailing isBlank noReturn outside⟩

theorem parse_insert_blank_bodyProgram :
    (Blank "\t; 'note".toList ∧ '\r' ∉ "f ['x']\n".toList ∧
      endsInLiteral "f ['x']\n".toList = false) ∧
    parse 2 ("f ['x']\n" ++ "\t; 'note" ++ "\n" ++ "\tg") =
      .ok (.block [.expression (.symbol "f" 1)
        [.array [.string "x" 1] 1, .block [.expression (.symbol "g" 3) [] true 3] 3]
        true 1] 1) := by
  have isBlank : Blank "\t; 'note".toList :=
    @Blank.mk ['\t'] [';', ' ', '\'', 'n', 'o', 't', 'e'] (by simp [isSpace])
      (.some (by simp [isLineBreak]))
  have noReturn : '\r' ∉ "f ['x']\n".toList := by decide
  have outside : endsInLiteral "f ['x']\n".toList = false := by decide
  have moved := (@parse_insert_blank 2 _ _ "\tg" isBlank noReturn outside).1 (.inr (by decide))
    (by decide)
  have parsed : parse 2 ("f ['x']\n" ++ "\tg") = .ok bodyProgram := parse_bodyProgram
  rw [parsed] at moved
  exact ⟨⟨isBlank, noReturn, outside⟩, moved.trans (by decide)⟩

end IndentLisp
