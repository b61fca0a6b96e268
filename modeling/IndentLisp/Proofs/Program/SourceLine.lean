import IndentLisp.Parse
import IndentLisp.Proofs.Program.Forest
import IndentLisp.Proofs.Reader.Nesting
import IndentLisp.Proofs.Reader.Phrase

/-!
# Lines of a program

A line is written as tabs, perhaps a space that does not belong there, and the text of a phrase. The
phrase may itself take up several lines of the text. It is read wherever enough nesting is left.
-/

set_option autoImplicit false

namespace IndentLisp

open Grammar Reader

theorem Reader.Phrase.shiftLines_zero (phrase : Phrase) : phrase.shiftLines 0 = phrase := by
  have still : (fun line : Int => line + 0) = id := funext Int.add_zero
  have moved : Node.shiftLines 0 = id := by
    funext node
    unfold Node.shiftLines
    rw [still, Node.mapLines_id, id]
  unfold shiftLines
  rw [moved, List.map_id, Int.add_zero, id]

/-- A line of a program: its depth, whether a space follows the tabs, and a text that is read as a
phrase up to its line end, with some nesting. -/
structure SourceLine where
  depth : Nat
  spaced : Bool
  content : List Char
  phrase : Phrase
  reads : ∃ nesting next, Reader.phrase nesting ⟨content ++ ['\n'], 1, -1⟩ = .found phrase next ∧
    next.rest = ['\n']

namespace SourceLine

/-- What stands before the content of a line. -/
def indentation (line : SourceLine) : List Char :=
  List.replicate line.depth '\t' ++ if line.spaced then [' '] else []

/-- The line as it is written, with its line end. -/
def text (line : SourceLine) : List Char :=
  line.indentation ++ line.content ++ ['\n']

def textOf (lines : List SourceLine) : List Char := lines.flatMap text

/-- No line has a space before its content, the first line is not indented, and no line is more than
one level deeper than the line above it. -/
def WellIndented (lines : List SourceLine) : Prop :=
  (∀ line ∈ lines, line.spaced = false) ∧ Steps 0 (lines.map depth)

instance (lines : List SourceLine) : Decidable (WellIndented lines) :=
  inferInstanceAs (Decidable ((∀ line ∈ lines, line.spaced = false) ∧ Steps 0 (lines.map depth)))

/-- The blocks around each line and the brackets on it are nested no deeper than the limit. A line
of the outermost block is in one block. -/
def Fits (nesting : Nat) (lines : List SourceLine) : Prop :=
  ∀ line ∈ lines, line.depth + line.phrase.nesting < nesting

instance (nesting : Nat) (lines : List SourceLine) : Decidable (Fits nesting lines) :=
  inferInstanceAs (Decidable (∀ line ∈ lines, line.depth + line.phrase.nesting < nesting))

/-- The depths and the phrases of the lines, with each phrase moved down to the place at which its
line begins. The number counts the line ends above. -/
def placed (above : Nat) : List SourceLine → List (Nat × Phrase)
  | [] => []
  | line :: lines =>
    (line.depth, line.phrase.shiftLines above) :: placed (above + lineEnds line.text) lines

/-! ## The content -/

theorem ended_feed (text : List Char) : Ended (text ++ ['\n']) := by
  intro c last
  rw [List.getLast?_concat] at last
  cases last
  rfl

theorem written (line : SourceLine) : WrittenPhrase 1 line.content line.phrase ['\n'] := by
  obtain ⟨nesting, next, found, stop⟩ := line.reads
  obtain ⟨text, advances, derived, -⟩ := written_of_readPhrase (ended_feed _) found
  have same : line.content = text := by
    have split := advances.rest
    rw [stop] at split
    exact List.append_cancel_right split
  rwa [stop, ← same] at derived

theorem starts (line : SourceLine) : StartsWith (fun c => !endsNumber c) line.content :=
  WrittenPhrase.starts line.written

private theorem content_solid (line : SourceLine) (more : List Char) :
    StartsWithout opensGap (line.content ++ more) :=
  StartsWith.solid line.starts more

private theorem isSpace_of_mem_indentation {line : SourceLine} {c : Char}
    (member : c ∈ line.indentation) : isSpace c = true := by
  rcases List.mem_append.mp member with tab | space
  · rw [List.eq_of_mem_replicate tab]
    rfl
  · split at space
    · rw [List.mem_singleton.mp space]
      rfl
    · cases space

theorem lineEnds_text (line : SourceLine) : lineEnds line.text = lineEnds line.content + 1 := by
  have blank : ∀ c ∈ line.indentation, isLineBreak c = false := fun c member =>
    not_isLineBreak_of_isSpace (isSpace_of_mem_indentation member)
  rw [text, List.append_assoc, lineEnds_append_of_inside blank,
    lineEnds_append (WrittenPhrase.joins line.written _)]
  rfl

/-- The phrase of a line is read on whatever line and before whatever text it stands, if enough
nesting is left. -/
theorem phrase_content (line : SourceLine) {nesting : Nat} (fits : line.phrase.nesting ≤ nesting)
    (above : Nat) (level : Int) (more : List Char) :
    Reader.phrase nesting ⟨line.content ++ '\n' :: more, 1 + above, level⟩ =
      .found (line.phrase.shiftLines above)
        ⟨'\n' :: more, 1 + above + lineEnds line.content, level⟩ := by
  have moved := WrittenPhrase.shift line.written above
  have followed : WrittenPhrase (1 + above) line.content (line.phrase.shiftLines above)
      ('\n' :: more) :=
    WrittenPhrase.congr_after moved rfl
  refine readPhrase_of_written followed (endsPhrase_feed more) ?_ level
  rwa [Phrase.nesting_shiftLines]

/-- With enough nesting, the content of a line is read alone. -/
theorem exists_phrase_content (line : SourceLine) {nesting : Nat}
    (fits : line.phrase.nesting ≤ nesting) :
    ∃ next, Reader.phrase nesting ⟨line.content ++ ['\n'], 1, -1⟩ = .found line.phrase next ∧
      next.rest = ['\n'] := by
  have read : Reader.phrase nesting ⟨line.content ++ ['\n'], 1, -1⟩ =
      .found (line.phrase.shiftLines 0) _ := line.phrase_content fits 0 (-1) []
  rw [line.phrase.shiftLines_zero] at read
  exact ⟨_, read, rfl⟩

/-- With less nesting left, the phrase is refused on one of its lines. -/
theorem phrase_content_tooDeep (line : SourceLine) {nesting : Nat}
    (tooDeep : nesting < line.phrase.nesting) (above : Nat) (level : Int) {more : List Char}
    (ended : Ended ('\n' :: more)) :
    ∃ stop, Reader.phrase nesting ⟨line.content ++ '\n' :: more, 1 + above, level⟩ =
        .failed (.problem .tooDeep) stop ∧
      1 + above ≤ stop.line ∧ stop.line ≤ 1 + above + lineEnds line.content := by
  have cuts := phrase_cutsTo (Nat.le_of_lt tooDeep) ⟨line.content ++ '\n' :: more, 1 + above, level⟩
  have stops := phrase_stops nesting ⟨line.content ++ '\n' :: more, 1 + above, level⟩
  rw [line.phrase_content (Nat.le_refl _)] at cuts
  generalize read : Reader.phrase nesting _ = short at cuts stops
  cases cuts with
  | tooDeep before => exact ⟨_, rfl, stops.line_le, before⟩
  | same =>
      have endedAll := Ended.append_left ended (List.cons_ne_nil _ _) line.content
      obtain ⟨_, _, _, within⟩ := written_of_readPhrase endedAll read
      rw [Phrase.nesting_shiftLines] at within
      exact absurd within (Nat.not_le.mpr tooDeep)

/-! ## The indentation -/

private theorem text_append (line : SourceLine) (more : List Char) :
    line.text ++ more = line.indentation ++ (line.content ++ '\n' :: more) := by
  simp [text]

theorem tabs?_text (line : SourceLine) (number level : Int) (more : List Char) :
    State.tabs? ⟨line.text ++ more, number, level⟩ =
      if line.spaced then none else some line.depth := by
  obtain ⟨c, rest, same, outside⟩ := line.starts
  have noTab : c ≠ '\t' := by intro isTab; subst isTab; cases outside
  have noSpace : c ≠ ' ' := by intro isSpace; subst isSpace; cases outside
  have tabs : ∀ c ∈ List.replicate line.depth '\t', (c == '\t') = true := fun c member =>
    beq_iff_eq.mpr (List.eq_of_mem_replicate member)
  rw [text_append, indentation, List.append_assoc, same]
  cases line.spaced with
  | true =>
      have outside : StartsWithout (· == '\t') (' ' :: c :: (rest ++ '\n' :: more)) :=
        startsWithout_cons.mpr rfl
      simp only [State.tabs?, ↓reduceIte, List.cons_append, List.nil_append,
        dropWhile_append_of_without tabs outside]
  | false =>
      have outside : StartsWithout (· == '\t') (c :: (rest ++ '\n' :: more)) :=
        startsWithout_cons.mpr (by simpa using noTab)
      simp only [State.tabs?, Bool.false_eq_true, ↓reduceIte, List.nil_append, List.cons_append,
        dropWhile_append_of_without tabs outside, takeWhile_append_of_without tabs outside,
        List.length_replicate]
      split
      · next first => exact absurd (List.cons.inj first).1 noSpace
      · rfl

theorem skipSpace_text (line : SourceLine) (number level : Int) (more : List Char) :
    State.skipSpace ⟨line.text ++ more, number, level⟩ =
      ⟨line.content ++ '\n' :: more, number, level⟩ := by
  have blank : ∀ c ∈ line.indentation, isSpace c = true := fun c member =>
    isSpace_of_mem_indentation member
  rw [text_append]
  exact skipSpace_append blank (StartsWithout.noSpace (line.content_solid _)) number level

theorem skipBlankLines_text (line : SourceLine) (number level : Int) (more : List Char) :
    State.skipBlankLines ⟨line.text ++ more, number, level⟩ =
      ⟨line.text ++ more, number, level⟩ := by
  apply skipBlankLines_eq_self
  rw [skipSpace_text]
  exact endLine?_eq_none (line.content_solid _)

end SourceLine

end IndentLisp
