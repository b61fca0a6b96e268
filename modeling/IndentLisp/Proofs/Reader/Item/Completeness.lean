import IndentLisp.Proofs.Reader.Item.Absence

/-!
# Derived items are read

Wherever the grammar derives an item within the nesting that is left, the reader finds it and stops
behind it. So no reader that comes first in the order of alternatives stands in the way of another.
-/

set_option autoImplicit false

namespace IndentLisp.Reader

open Grammar

theorem startsWithout_cons {class_ : Char → Bool} {c : Char} {rest : List Char} :
    StartsWithout class_ (c :: rest) ↔ class_ c = false := by
  simp [StartsWithout]

theorem endsNumber_of_opensGap {c : Char} (opens : opensGap c = true) : endsNumber c = true := by
  simp only [opensGap, isSpace, isLineBreak, Bool.or_eq_true, beq_iff_eq] at opens
  rcases opens with ((rfl | rfl) | rfl | rfl) | rfl <;> decide

theorem StartsWith.solid {text : List Char} (starts : StartsWith (fun c => !endsNumber c) text)
    (more : List Char) : StartsWithout opensGap (text ++ more) := by
  obtain ⟨c, rest, rfl, outside⟩ := starts
  rw [List.cons_append, startsWithout_cons]
  cases opens : opensGap c with
  | false => rfl
  | true => simp [endsNumber_of_opensGap opens] at outside

theorem Item.solid {line : Int} {text after : List Char} {node : Node}
    (derived : Item line text node after) (more : List Char) :
    StartsWithout opensGap (text ++ more) :=
  StartsWith.solid derived.starts more

private theorem length_le_of_items : {line : Int} → {text after : List Char} → {nodes : List Node} →
    Items line text nodes after → nodes.length ≤ text.length
  | _, _, _, _, .nil _ => Nat.zero_le _
  | _, _, _, _, .cons _ item items => by
      obtain ⟨c, rest, rfl, -⟩ := item.starts
      have others := length_le_of_items items
      simp only [List.length_cons, List.length_append]
      omega

theorem lineEnds_append_closer {closer : Char} (closes : isLineBreak closer = false)
    (text : List Char) : lineEnds (text ++ [closer]) = lineEnds text := by
  have noFeed : closer ≠ '\n' := by
    rintro rfl
    cases closes
  rw [lineEnds_append (.of_head (by simpa using noFeed)), lineEnds_cons_of_inside closes]
  rfl

theorem lineEnds_items {line : Int} {gap text after : List Char} {node : Node}
    (derived : Item line text node after) (rest : List Char) :
    lineEnds (gap ++ text ++ rest) = lineEnds gap + lineEnds text + lineEnds rest := by
  have before := derived.joins_left gap rest
  rw [List.append_assoc, lineEnds_append before, lineEnds_append (derived.joins rest),
    Nat.add_assoc]

theorem headProblem?_eq_none {node : Node} (leads : node.canLead = true) :
    headProblem? node = none := by
  cases node <;> first | rfl | cases leads

/-! ## Bracketed items -/

private theorem readArray_append {item : State → Reply Node} {text after : List Char}
    {items : List Node} {line level : Int}
    (read : readItems item ']' .arrayItems (text ++ ']' :: after).length 0
      ⟨text ++ ']' :: after, line, level⟩ = .found items ⟨after, line + lineEnds text, level⟩) :
    readArray item ⟨'[' :: text ++ [']'] ++ after, line, level⟩ =
      .found (.array items line) ⟨after, line + lineEnds ('[' :: text ++ [']']), level⟩ := by
  rw [lineEnds_append_closer rfl, lineEnds_cons_of_inside rfl, List.append_assoc]
  simp only [readArray, State.take?, List.cons_append, List.nil_append, ↓reduceIte, read]
  rfl

private theorem readParenthesised_append {item : State → Reply Node}
    {gap text arguments after : List Char}
    {head : Node} {tail : List Node} {line level : Int} (isGap : Gap gap)
    (leads : head.canLead = true)
    (derived : Item (line + lineEnds gap) text head (arguments ++ ')' :: after))
    (readFirst : item ⟨text ++ (arguments ++ ')' :: after), line + lineEnds gap, level⟩ =
      .found head ⟨arguments ++ ')' :: after, line + lineEnds gap + lineEnds text, level⟩)
    (readTail : readItems item ')' .arguments (arguments ++ ')' :: after).length 0
      ⟨arguments ++ ')' :: after, line + lineEnds gap + lineEnds text, level⟩ =
        .found tail ⟨after, line + lineEnds gap + lineEnds text + lineEnds arguments, level⟩) :
    readParenthesised item ⟨'(' :: gap ++ text ++ arguments ++ [')'] ++ after, line, level⟩ =
      .found (.expression head tail false line)
        ⟨after, line + lineEnds ('(' :: gap ++ text ++ arguments ++ [')']), level⟩ := by
  have skipped := skipGap_append isGap (Item.solid derived (arguments ++ ')' :: after)) line level
  have count : line + lineEnds ('(' :: gap ++ text ++ arguments ++ [')']) =
      line + lineEnds gap + lineEnds text + lineEnds arguments := by
    rw [lineEnds_append_closer rfl, List.cons_append, List.cons_append,
      lineEnds_cons_of_inside rfl, lineEnds_items derived]
    simp only [Int.natCast_add, Int.add_assoc]
  have split : '(' :: gap ++ text ++ arguments ++ [')'] ++ after =
      '(' :: (gap ++ (text ++ (arguments ++ ')' :: after))) := by
    simp
  rw [count, split]
  simp only [readParenthesised, State.take?, ↓reduceIte, skipped, readHead, readFirst,
    Reply.bind, headProblem?_eq_none leads, readTail]
  rfl

mutual

/-- Every derived item is read, and reading stops behind it. -/
theorem readItem_of_item {line : Int} {text after : List Char} {node : Node} {nesting : Nat}
    (derived : Item line text node after) (within : node.nesting ≤ nesting) (level : Int) :
    readItem nesting ⟨text ++ after, line, level⟩ =
      .found node ⟨after, line + lineEnds text, level⟩ := by
  rw [readItem_eq_firstOf]
  cases derived with
  | number nonempty decimal short follows =>
      have found := readNumber_digits nonempty decimal short follows line level
      exact firstOf_eq_found (List.forall_mem_nil _) found _
  | @string line written denoted after literal =>
      have found := readString_append literal after line level
      have absent : ∀ reader ∈ [readNumber],
          reader ⟨'\'' :: written ++ ['\''] ++ after, line, level⟩ =
            .absent ⟨'\'' :: written ++ ['\''] ++ after, line, level⟩ := by
        simp [readNumber_eq_absent_iff, startsWithout_cons]
      exact firstOf_eq_found absent found _
  | @symbol _ name _ valid ends =>
      have found := readSymbol_name valid ends line level
      obtain ⟨c, rest, rfl⟩ := List.exists_cons_of_ne_nil (isSymbolName_iff.mp valid).1
      -- The first letter keeps all readers that come before the one of symbols from starting.
      have letter : endsSymbol c = false := endsSymbol_eq_false_of_mem valid c List.mem_cons_self
      have noDigit : c.isDigit = false := (isSymbolName_iff.mp valid).2.1 c rfl
      have noQuote : c ≠ '\'' := by intro same; subst same; cases letter
      have noArray : c ≠ '[' := by intro same; subst same; cases letter
      have noParenthesis : c ≠ '(' := by intro same; subst same; cases letter
      have absent : ∀ reader ∈ readNumber :: readString :: bracketReaders nesting,
          reader ⟨c :: rest ++ after, line, level⟩ =
            .absent ⟨c :: rest ++ after, line, level⟩ := by
        simp only [List.forall_mem_cons, bracketReaders_absent_iff, readNumber_eq_absent_iff,
          readString_eq_absent_iff]
        simp [startsWithout_cons, noDigit, noQuote, noArray, noParenthesis]
      exact firstOf_eq_found absent found []
  | @array _ text _ items derived =>
      obtain _ | nesting := nesting
      · simp [Node.nesting] at within
      have inner : Node.nestingList items ≤ nesting := Nat.le_of_succ_le_succ within
      have enough : items.length < (text ++ ']' :: after).length := by
        have few := length_le_of_items derived
        simp only [List.length_append, List.length_cons]
        omega
      have read := readItems_of_items derived ⟨rfl, rfl⟩ inner .arrayItems _ 0 enough level
      have absent : ∀ reader ∈ [readNumber, readString],
          reader ⟨'[' :: text ++ [']'] ++ after, line, level⟩ =
            .absent ⟨'[' :: text ++ [']'] ++ after, line, level⟩ := by
        simp [readNumber_eq_absent_iff, readString_eq_absent_iff, startsWithout_cons]
      exact firstOf_eq_found absent (readArray_append read) _
  | @parenthesised _ gap text arguments _ head tail isGap leads first items =>
      obtain _ | nesting := nesting
      · simp [Node.nesting] at within
      obtain ⟨headWithin, tailWithin⟩ := Nat.max_le.mp (Nat.le_of_succ_le_succ within)
      have enough : tail.length < (arguments ++ ')' :: after).length := by
        have few := length_le_of_items items
        simp only [List.length_append, List.length_cons]
        omega
      have readFirst := readItem_of_item first headWithin level
      have readTail := readItems_of_items items ⟨rfl, rfl⟩ tailWithin .arguments _ 0 enough level
      have absent : ∀ reader ∈ [readNumber, readString, readArray (readItem nesting)],
          reader ⟨'(' :: gap ++ text ++ arguments ++ [')'] ++ after, line, level⟩ =
            .absent ⟨'(' :: gap ++ text ++ arguments ++ [')'] ++ after, line, level⟩ := by
        simp [readNumber_eq_absent_iff, readString_eq_absent_iff, readArray_eq_absent_iff,
          startsWithout_cons]
      have found := readParenthesised_append isGap leads first readFirst readTail
      exact firstOf_eq_found absent found _

/-- Every derived sequence of items is read with its closing bracket. -/
private theorem readItems_of_items {line : Int} {text after : List Char} {nodes : List Node}
    {nesting : Nat} {closer : Char} (derived : Items line text nodes (closer :: after))
    (closes : endsNumber closer = true ∧ opensGap closer = false)
    (within : Node.nestingList nodes ≤ nesting) (problem : Nat → Problem) (bound count : Nat)
    (enough : nodes.length < bound) (level : Int) :
    readItems (readItem nesting) closer problem bound count
      ⟨text ++ closer :: after, line, level⟩ =
        .found nodes ⟨after, line + lineEnds text, level⟩ := by
  obtain _ | bound := bound
  · cases enough
  cases derived with
  | nil isGap =>
      have solid : StartsWithout opensGap (closer :: after) := startsWithout_cons.mpr closes.2
      have skipped := skipGap_append isGap solid line level
      have absent : readItem nesting ⟨closer :: after, line + lineEnds text, level⟩ =
          .absent ⟨closer :: after, line + lineEnds text, level⟩ :=
        readItem_eq_absent_iff.mpr ⟨rfl, startsWithout_cons.mpr (by simp [closes.1])⟩
      simp only [readItems, skipped, absent, State.take?, ↓reduceIte]
  | @cons _ gap text rest _ node nodes isGap item items =>
      obtain ⟨first, others⟩ := Nat.max_le.mp within
      have skipped := skipGap_append isGap (Item.solid item (rest ++ closer :: after)) line level
      have read := readItem_of_item item first level
      have readRest := readItems_of_items items closes others problem bound (count + 1)
        (Nat.lt_of_succ_lt_succ enough) level
      have split : gap ++ text ++ rest ++ closer :: after =
          gap ++ (text ++ (rest ++ closer :: after)) := by
        simp
      have lines : line + lineEnds (gap ++ text ++ rest) =
          line + lineEnds gap + lineEnds text + lineEnds rest := by
        rw [lineEnds_items item]
        simp only [Int.natCast_add, Int.add_assoc]
      simp only [split, lines, readItems, skipped, read, readRest]
      rfl

end

end IndentLisp.Reader
