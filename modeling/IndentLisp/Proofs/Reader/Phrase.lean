import IndentLisp.Proofs.Reader.Item.Completeness
import IndentLisp.Proofs.Reader.Item.Soundness

/-!
# Phrases

A phrase is read exactly where the grammar derives it. So it is read in the same way on any other
line and before any other text that goes on alike.
-/

set_option autoImplicit false

namespace IndentLisp.Reader

open Grammar

def Phrase.nesting (phrase : Phrase) : Nat :=
  max phrase.head.nesting (Node.nestingList phrase.arguments)

/-- Neither white space nor an item starts here. -/
def EndsPhrase (after : List Char) : Prop :=
  StartsWithout isSpace after ∧ StartsWithout (fun c => !endsNumber c) after

/-! ## Completeness -/

private theorem length_le_of_arguments {line : Int} {text after : List Char} {nodes : List Node}
    (derived : Arguments line text nodes after) : nodes.length ≤ text.length := by
  induction derived with
  | nil => exact Nat.zero_le _
  | cons _ item _ ih =>
      obtain ⟨c, rest, rfl, -⟩ := item.starts
      simp only [List.length_cons, List.length_append]
      omega

theorem lineEnds_arguments {line : Int} {spaces text after : List Char} {node : Node}
    (blank : ∀ c ∈ spaces, isSpace c = true) (derived : Item line text node after)
    (rest : List Char) :
    lineEnds (spaces ++ text ++ rest) = lineEnds text + lineEnds rest := by
  rw [lineEnds_items derived,
    lineEnds_eq_zero_of_inside fun c member => not_isLineBreak_of_isSpace (blank c member),
    Nat.zero_add]

private theorem readArguments_of_arguments {line : Int} {text after : List Char} {nodes : List Node}
    {nesting : Nat} (derived : Arguments line text nodes after) (ends : EndsPhrase after)
    (within : Node.nestingList nodes ≤ nesting) (level : Int) :
    ∀ bound, nodes.length ≤ bound →
      readArguments (readItem nesting) bound ⟨text ++ after, line, level⟩ =
        .found nodes ⟨after, line + lineEnds text, level⟩ := by
  induction derived with
  | @nil line spaces after blank =>
      intro bound _
      have skipped := skipSpace_append blank ends.1 line level
      have absent : readItem nesting ⟨after, line, level⟩ = .absent ⟨after, line, level⟩ :=
        readItem_eq_absent_iff.mpr ⟨rfl, ends.2⟩
      have inside := lineEnds_eq_zero_of_inside fun c member =>
        not_isLineBreak_of_isSpace (blank c member)
      cases bound <;> simp [readArguments, skipped, absent, inside]
  | @cons line spaces text rest after node nodes blank item arguments ih =>
      intro bound enough
      obtain _ | bound := bound
      · cases enough
      obtain ⟨first, others⟩ := Nat.max_le.mp within
      have noSpace := StartsWithout.noSpace (Item.solid item (rest ++ after))
      have skipped := skipSpace_append blank noSpace line level
      have read := readItem_of_item item first level
      have readRest := ih ends others bound (Nat.le_of_succ_le_succ enough)
      have split : spaces ++ text ++ rest ++ after = spaces ++ (text ++ (rest ++ after)) := by
        simp
      have lines : line + lineEnds (spaces ++ text ++ rest) =
          line + lineEnds text + lineEnds rest := by
        rw [lineEnds_arguments blank item]
        simp only [Int.natCast_add, Int.add_assoc]
      simp only [split, lines, readArguments, skipped, read, readRest]
      rfl

/-- Every derived phrase is read, up to where neither white space nor an item starts. -/
theorem readPhrase_of_written {line : Int} {text after : List Char} {phrase : Phrase}
    {nesting : Nat} (written : WrittenPhrase line text phrase after) (ends : EndsPhrase after)
    (within : phrase.nesting ≤ nesting) (level : Int) :
    readPhrase (readItem nesting) ⟨text ++ after, line, level⟩ =
      .found phrase ⟨after, line + lineEnds text, level⟩ := by
  cases written with
  | @mk text rest _ head arguments leads item derived =>
      obtain ⟨first, others⟩ := Nat.max_le.mp within
      have few := length_le_of_arguments derived
      have enough : arguments.length ≤ (rest ++ after).length := by
        simp only [List.length_append]
        omega
      have read := readItem_of_item item first level
      have readRest := readArguments_of_arguments derived ends others level _ enough
      have lines : line + lineEnds (text ++ rest) = line + lineEnds text + lineEnds rest := by
        rw [lineEnds_append (item.joins rest), Int.natCast_add, Int.add_assoc]
      rw [lines, List.append_assoc]
      simp only [readPhrase, readHead, read, Reply.bind, headProblem?_eq_none leads, readRest]
      rfl

/-! ## Soundness -/

private theorem arguments_of_readArguments {item : State → Reply Node} {nesting : Nat}
    (sound : Sound item nesting) (keeps : KeepsPlace item) {bound : Nat} :
    ∀ {state next : State} {nodes : List Node}, Ended state.rest →
      readArguments item bound state = .found nodes next →
        ∃ text, Advances state text next ∧ Arguments state.line text nodes next.rest ∧
          Node.nestingList nodes ≤ nesting := by
  induction bound with
  | zero =>
      intro state next nodes ended found
      obtain ⟨rfl, rfl⟩ := Reply.found.inj found
      obtain ⟨spaces, blank, advances⟩ := skipSpace_advances state
      exact ⟨spaces, advances, .nil blank, Nat.zero_le _⟩
  | succ bound ih =>
      intro state next nodes ended found
      obtain ⟨spaces, blank, skipped⟩ := skipSpace_advances state
      have endedStart := Ended.of_advances ended skipped
      cases result : item state.skipSpace with
      | failed => simp [readArguments, result] at found
      | absent =>
          obtain rfl := keeps result
          simp only [readArguments, result] at found
          obtain ⟨rfl, rfl⟩ := Reply.found.inj found
          exact ⟨spaces, skipped, .nil blank, Nat.zero_le _⟩
      | found node middle =>
          simp only [readArguments, result] at found
          obtain ⟨others, readRest, rfl⟩ := Reply.map_eq_found_iff.mp found
          obtain ⟨text, advances, derived, within⟩ := sound endedStart result
          obtain ⟨rest, last, derivedRest, withinRest⟩ :=
            ih (Ended.of_advances endedStart advances) readRest
          have joins : Joins spaces text := (derived.joins_left spaces []).of_append_right
          have meets : Joins (spaces ++ text) rest :=
            (derived.joins rest).append_left derived.ne_nil spaces
          have whole := (skipped.trans advances joins).trans last meets
          have sameLine : state.skipSpace.line = state.line := rfl
          rw [sameLine, last.rest] at derived
          rw [advances.line, sameLine] at derivedRest
          exact ⟨_, whole, .cons blank derived derivedRest, Nat.max_le.mpr ⟨within, withinRest⟩⟩

theorem written_of_readPhrase {nesting : Nat} {state next : State} {phrase : Phrase}
    (ended : Ended state.rest)
    (found : readPhrase (readItem nesting) state = .found phrase next) :
    ∃ text, Advances state text next ∧ WrittenPhrase state.line text phrase next.rest ∧
      phrase.nesting ≤ nesting := by
  obtain ⟨head, middle, first, found⟩ := Reply.bind_eq_found_iff.mp found
  obtain ⟨read, leads⟩ := readHead_eq_found_iff.mp first
  obtain ⟨arguments, readRest, rfl⟩ := Reply.map_eq_found_iff.mp found
  obtain ⟨text, advances, derived, within⟩ := readItem_sound nesting ended read
  obtain ⟨rest, last, derivedRest, withinRest⟩ :=
    arguments_of_readArguments (readItem_sound nesting) (keepsPlace_readItem nesting)
      (Ended.of_advances ended advances) readRest
  have valid := canLead_of_headProblem? leads derived.isItem
  have whole := advances.trans last (derived.joins rest)
  rw [last.rest] at derived
  rw [advances.line] at derivedRest
  exact ⟨_, whole, .mk valid derived derivedRest, Nat.max_le.mpr ⟨within, withinRest⟩⟩

/-! ## Moving a phrase -/

/-- A phrase that is moved down by so many lines. -/
def Phrase.shiftLines (count : Int) (phrase : Phrase) : Phrase where
  head := phrase.head.shiftLines count
  arguments := phrase.arguments.map (Node.shiftLines count)
  line := phrase.line + count

@[simp] theorem Phrase.nesting_shiftLines (count : Int) (phrase : Phrase) :
    (phrase.shiftLines count).nesting = phrase.nesting := by
  simp only [Phrase.nesting, Phrase.shiftLines, Node.shiftLines, Node.nesting_mapLines]
  rw [show List.map (Node.shiftLines count) = List.map (Node.mapLines (· + count)) from rfl,
    Node.nestingList_map_mapLines]

private theorem Arguments.congr_after {line : Int} {text after after' : List Char}
    {nodes : List Node}
    (derived : Arguments line text nodes after) (same : after.head? = after'.head?) :
    Arguments line text nodes after' := by
  induction derived with
  | nil blank => exact .nil blank
  | cons blank item _ ih =>
      exact .cons blank (item.congr_after (head?_append_congr same)) (ih same)

private theorem Arguments.shift {line : Int} {text after : List Char} {nodes : List Node}
    (derived : Arguments line text nodes after) (count : Int) :
    Arguments (line + count) text (nodes.map (Node.shiftLines count)) after := by
  induction derived with
  | nil blank => exact .nil blank
  | cons blank item _ ih =>
      rw [Int.add_right_comm] at ih
      exact .cons blank (item.shift count) ih

theorem WrittenPhrase.congr_after {line : Int} {text after after' : List Char} {phrase : Phrase}
    (written : WrittenPhrase line text phrase after) (same : after.head? = after'.head?) :
    WrittenPhrase line text phrase after' := by
  cases written with
  | mk leads item derived =>
      exact .mk leads (item.congr_after (head?_append_congr same))
        (Arguments.congr_after derived same)

theorem WrittenPhrase.shift {line : Int} {text after : List Char} {phrase : Phrase}
    (written : WrittenPhrase line text phrase after) (count : Int) :
    WrittenPhrase (line + count) text (phrase.shiftLines count) after := by
  cases written with
  | mk leads item derived =>
      have moved := Arguments.shift derived count
      rw [Int.add_right_comm] at moved
      exact .mk ((Node.canLead_mapLines _ _).trans leads) (item.shift count) moved

/-! ## The end of a phrase -/

private theorem forall_getLast?_append {left right : List Char} {motive : Char → Prop}
    (lastLeft : ∀ c ∈ left.getLast?, motive c) (lastRight : ∀ c ∈ right.getLast?, motive c) :
    ∀ c ∈ (left ++ right).getLast?, motive c := by
  intro c last
  rw [List.getLast?_append, Option.mem_def, Option.or_eq_some_iff] at last
  rcases last with right | left
  · exact lastRight c right
  · exact lastLeft c left.2

private theorem Arguments.last_inside {line : Int} {text after : List Char} {nodes : List Node}
    (derived : Arguments line text nodes after) : ∀ c ∈ text.getLast?, isLineBreak c = false := by
  induction derived with
  | nil blank =>
      intro c last
      exact not_isLineBreak_of_isSpace (blank c (List.mem_of_getLast? last))
  | cons blank item _ ih =>
      have spaces := fun c last => not_isLineBreak_of_isSpace (blank c (List.mem_of_getLast? last))
      exact forall_getLast?_append (forall_getLast?_append spaces item.last_inside) ih

theorem WrittenPhrase.last_inside {line : Int} {text after : List Char} {phrase : Phrase}
    (written : WrittenPhrase line text phrase after) :
    ∀ c ∈ text.getLast?, isLineBreak c = false := by
  cases written with
  | mk _ item derived =>
      exact forall_getLast?_append item.last_inside (Arguments.last_inside derived)

theorem WrittenPhrase.joins {line : Int} {text after : List Char} {phrase : Phrase}
    (written : WrittenPhrase line text phrase after) (right : List Char) : Joins text right :=
  .of_last (WrittenPhrase.last_inside written)

theorem WrittenPhrase.starts {line : Int} {text after : List Char} {phrase : Phrase}
    (written : WrittenPhrase line text phrase after) :
    StartsWith (fun c => !endsNumber c) text := by
  cases written with
  | mk _ item _ =>
      obtain ⟨c, rest, rfl, outside⟩ := item.starts
      exact ⟨c, _, rfl, outside⟩

theorem WrittenPhrase.line_eq {line : Int} {text after : List Char} {phrase : Phrase}
    (written : WrittenPhrase line text phrase after) : phrase.line = line := by
  cases written
  rfl

theorem endsPhrase_feed (more : List Char) : EndsPhrase ('\n' :: more) :=
  ⟨startsWithout_cons.mpr rfl, startsWithout_cons.mpr rfl⟩

end IndentLisp.Reader
