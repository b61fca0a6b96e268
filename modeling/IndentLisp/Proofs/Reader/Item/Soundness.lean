import IndentLisp.Proofs.Reader.Item.Absence

/-!
# What is read as an item is one

Whatever the reader of items finds, the grammar derives from the text that was read, and its
brackets are nested no deeper than the reader follows.
-/

set_option autoImplicit false

namespace IndentLisp.Reader

open Grammar

theorem Ended.of_append {left right : List Char} (ended : Ended (left ++ right)) :
    Ended right := by
  intro c last
  apply ended c
  rw [List.getLast?_append, Option.mem_def.mp last]
  rfl

theorem Ended.append_left {right : List Char} (ended : Ended right) (some : right ≠ [])
    (left : List Char) : Ended (left ++ right) := by
  intro c last
  obtain ⟨d, final⟩ := Option.isSome_iff_exists.mp (List.getLast?_isSome.mpr some)
  rw [List.getLast?_append, final] at last
  exact ended c (final.trans last)

theorem Ended.of_advances {state next : State} {text : List Char} (ended : Ended state.rest)
    (advances : Advances state text next) : Ended next.rest := by
  rw [advances.rest] at ended
  exact Ended.of_append ended

theorem canLead_of_headProblem? {node : Node} (leads : headProblem? node = none)
    (valid : node.isItem = true) : node.canLead = true := by
  cases node with
  | expression head tail lineForm line =>
      simp only [Node.isItem, Bool.and_eq_true] at valid
      exact valid.1.1.1
  | symbol => rfl
  | number | string | array => cases leads
  | block | unknown => cases valid

theorem readHead_eq_found_iff {item : State → Reply Node} {state next : State} {head : Node} :
    readHead item state = .found head next ↔
      item state = .found head next ∧ headProblem? head = none := by
  cases result : item state with
  | absent => simp [readHead, result, Reply.bind]
  | failed => simp [readHead, result, Reply.bind]
  | found node stop =>
      simp only [readHead, result, Reply.bind]
      cases problem : headProblem? node with
      | some cause =>
          simp only [State.refuse, reduceCtorEq, Reply.found.injEq, false_iff]
          intro accepted
          obtain ⟨⟨same, -⟩, leads⟩ := accepted
          rw [← same, problem] at leads
          cases leads
      | none =>
          simp only [Reply.found.injEq]
          constructor
          · intro found
            exact ⟨found, found.1 ▸ problem⟩
          · exact And.left

/-- Whatever the reader finds, the grammar derives from what was read. -/
def Sound (item : State → Reply Node) (nesting : Nat) : Prop :=
  ∀ {state next : State} {node : Node}, Ended state.rest → item state = .found node next →
    ∃ text, Advances state text next ∧ Item state.line text node next.rest ∧
      node.nesting ≤ nesting

private theorem Sound.items {item : State → Reply Node} {nesting : Nat} (sound : Sound item nesting)
    (keeps : KeepsPlace item) {closer : Char} (closes : isLineBreak closer = false)
    (problem : Nat → Problem) {bound : Nat} :
    ∀ {count : Nat} {state next : State} {nodes : List Node}, Ended state.rest →
      readItems item closer problem bound count state = .found nodes next →
        ∃ text, Advances state (text ++ [closer]) next ∧
          Items state.line text nodes (closer :: next.rest) ∧ Node.nestingList nodes ≤ nesting := by
  induction bound with
  | zero =>
      intro count state next nodes ended found
      cases found
  | succ bound ih =>
      intro count state next nodes ended found
      obtain ⟨gap, isGap, skipped⟩ := skipGap_advances state
      have endedStart := Ended.of_advances ended skipped
      cases result : item state.skipGap with
      | failed => simp [readItems, result] at found
      | absent =>
          obtain rfl := keeps result
          cases closed : state.skipGap.take? closer with
          | none => simp [readItems, result, closed, State.refuse] at found
          | some stop =>
              simp only [readItems, result, closed] at found
              obtain ⟨rfl, rfl⟩ := Reply.found.inj found
              have advances := skipped.trans (.of_take? closed closes) (.of_closer closes gap)
              refine ⟨gap, advances, .nil isGap, ?_⟩
              exact Nat.zero_le _
      | found node middle =>
          simp only [readItems, result] at found
          obtain ⟨others, readRest, rfl⟩ := Reply.map_eq_found_iff.mp found
          obtain ⟨text, advances, derived, within⟩ := sound endedStart result
          obtain ⟨rest, last, derivedRest, withinRest⟩ :=
            ih (Ended.of_advances endedStart advances) readRest
          have meets : Joins (gap ++ text) (rest ++ [closer]) :=
            (derived.joins _).append_left derived.ne_nil gap
          have joins : Joins gap text := (derived.joins_left gap []).of_append_right
          have whole := (skipped.trans advances joins).trans last meets
          rw [← List.append_assoc] at whole
          rw [skipped.line, last.rest, List.append_assoc] at derived
          rw [advances.line, skipped.line] at derivedRest
          exact ⟨_, whole, .cons isGap derived derivedRest, Nat.max_le.mpr ⟨within, withinRest⟩⟩

private theorem Sound.array {item : State → Reply Node} {nesting : Nat} (sound : Sound item nesting)
    (keeps : KeepsPlace item) : Sound (readArray item) (nesting + 1) := by
  intro state next node ended found
  cases opened : state.take? '[' with
  | none => simp [readArray, opened] at found
  | some inside =>
      simp only [readArray, opened] at found
      obtain ⟨items, read, rfl⟩ := Reply.map_eq_found_iff.mp found
      have first : Advances state ['['] inside := .of_take? opened rfl
      obtain ⟨text, advances, derived, within⟩ :=
        sound.items keeps rfl .arrayItems (Ended.of_advances ended first) read
      rw [line_eq_of_take? opened] at derived
      refine ⟨_, first.trans advances (.of_singleton rfl _), .array derived, ?_⟩
      exact Nat.succ_le_succ within

private theorem Sound.parenthesised {item : State → Reply Node} {nesting : Nat}
    (sound : Sound item nesting) (keeps : KeepsPlace item) :
    Sound (readParenthesised item) (nesting + 1) := by
  intro state next node ended found
  cases opened : state.take? '(' with
  | none => simp [readParenthesised, opened] at found
  | some inside =>
      have first : Advances state ['('] inside := .of_take? opened rfl
      have endedInside := Ended.of_advances ended first
      obtain ⟨gap, isGap, skipped⟩ := skipGap_advances inside
      have endedStart := Ended.of_advances endedInside skipped
      cases result : readHead item inside.skipGap with
      | absent => simp [readParenthesised, opened, result, State.refuse] at found
      | failed => simp [readParenthesised, opened, result] at found
      | found head middle =>
          simp only [readParenthesised, opened, result] at found
          obtain ⟨tail, read, rfl⟩ := Reply.map_eq_found_iff.mp found
          obtain ⟨readFirst, leads⟩ := readHead_eq_found_iff.mp result
          obtain ⟨text, advances, derived, within⟩ := sound endedStart readFirst
          obtain ⟨arguments, last, derivedTail, withinTail⟩ :=
            sound.items keeps rfl .arguments (Ended.of_advances endedStart advances) read
          have meets : Joins ('(' :: gap) text := (derived.joins_left _ []).of_append_right
          have closes : Joins ('(' :: gap ++ text) (arguments ++ [')']) :=
            (derived.joins _).append_left derived.ne_nil _
          have opens := first.trans skipped (.of_singleton rfl gap)
          have whole := (opens.trans advances meets).trans last closes
          have valid := canLead_of_headProblem? leads derived.isItem
          rw [skipped.line, line_eq_of_take? opened, last.rest, List.append_assoc] at derived
          rw [advances.line, skipped.line, line_eq_of_take? opened] at derivedTail
          rw [← List.append_assoc] at whole
          refine ⟨_, whole, .parenthesised isGap valid derived derivedTail, ?_⟩
          exact Nat.succ_le_succ (Nat.max_le.mpr ⟨within, withinTail⟩)

private theorem firstOf_cons_eq_found {α : Type} {reader : State → Reply α}
    {readers : List (State → Reply α)} {state next : State} {value : α} (keeps : KeepsPlace reader)
    (found : firstOf (reader :: readers) state = .found value next) :
    reader state = .found value next ∨
      reader state = .absent state ∧ firstOf readers state = .found value next := by
  cases result : reader state with
  | found => exact .inl (by simpa [firstOf, result] using found)
  | failed => simp [firstOf, result] at found
  | absent =>
      obtain rfl := keeps result
      exact .inr ⟨rfl, by simpa [firstOf, result] using found⟩

theorem refuseBracket_ne_found (state next : State) (node : Node) :
    refuseBracket state ≠ .found node next := by
  unfold refuseBracket
  split <;> nofun

private theorem sound_of_bracketReaders {nesting : Nat}
    (sound : ∀ reader ∈ bracketReaders nesting, Sound reader nesting) :
    Sound (readItem nesting) nesting := by
  intro state next node ended found
  rw [readItem_eq_firstOf] at found
  rcases firstOf_cons_eq_found keepsPlace_readNumber found with number | ⟨noNumber, found⟩
  · obtain ⟨text, advances, derived, flat⟩ := item_of_readNumber ended number
    exact ⟨text, advances, derived, flat ▸ Nat.zero_le _⟩
  -- Only the reader of symbols needs to know that an earlier one, that of numbers, found nothing.
  obtain ⟨reader, member, read⟩ := exists_mem_of_firstOf_eq_found
    (List.forall_mem_cons.mp (keepsPlace_readers nesting)).2 found
  rcases List.mem_cons.mp member with rfl | member
  · obtain ⟨text, advances, derived, flat⟩ := item_of_readString read
    exact ⟨text, advances, derived, flat ▸ Nat.zero_le _⟩
  rcases List.mem_append.mp member with bracket | symbol
  · exact sound reader bracket ended read
  · obtain rfl := List.mem_singleton.mp symbol
    obtain ⟨text, advances, derived, flat⟩ :=
      item_of_readSymbol (readNumber_eq_absent_iff.mp noNumber).2 read
    exact ⟨text, advances, derived, flat ▸ Nat.zero_le _⟩

/-- What is found as an item is one, and is nested no deeper than the reader follows. -/
theorem readItem_sound (nesting : Nat) : Sound (readItem nesting) nesting := by
  induction nesting with
  | zero =>
      apply sound_of_bracketReaders
      intro reader member state next node ended found
      rw [List.mem_singleton.mp member] at found
      exact absurd found (refuseBracket_ne_found state next node)
  | succ nesting ih =>
      apply sound_of_bracketReaders
      intro reader member
      rcases List.mem_cons.mp member with rfl | member
      · exact ih.array (keepsPlace_readItem nesting)
      · rw [List.mem_singleton.mp member]
        exact ih.parenthesised (keepsPlace_readItem nesting)

end IndentLisp.Reader
