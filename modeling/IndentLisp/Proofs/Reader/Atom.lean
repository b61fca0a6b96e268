import IndentLisp.Node.Measure
import IndentLisp.Proofs.Grammar.Derivation
import IndentLisp.Proofs.Reader.Advance
import IndentLisp.Reader.Atom

/-!
# Atoms

The readers of numbers, strings and symbols find exactly what the grammar derives, and find nothing
exactly before the characters that start no such atom.
-/

set_option autoImplicit false

namespace IndentLisp.Reader

open Grammar

/-! ## Literals -/

private theorem Reply.map_map {α β γ : Type} (f : α → β) (g : β → γ) (reply : Reply α) :
    (reply.map f).map g = reply.map (g ∘ f) := by
  cases reply <;> rfl

theorem not_isLineBreak_of_unescape? {c meant : Char} (escape : Quoted.unescape? c = some meant) :
    isLineBreak c = false := by
  unfold Quoted.unescape? at escape
  split at escape <;> first | rfl | cases escape

/-- A raw character of a literal is a line end unless it is the carriage return of a pair. -/
theorem readLiteral_raw {c : Char} {rest : List Char} (noQuote : c ≠ '\'') (noEscape : c ≠ '\\')
    (joins : Joins [c] rest) (level line : Int) :
    readLiteral level (c :: rest) line =
      (readLiteral level rest (line + lineEnds [c])).map (c :: ·) := by
  have count : line + lineEnds [c] = if isLineBreak c then line + 1 else line := by
    cases isBreak : isLineBreak c with
    | true =>
        obtain rfl | rfl : c = '\n' ∨ c = '\r' := by simpa [isLineBreak] using isBreak
        all_goals rfl
    | false => simp [lineEnds_cons_of_inside isBreak]
  rw [count, readLiteral]
  · exact noQuote
  · intro isEscape _
    exact noEscape isEscape
  · intro d tail isEscape _
    exact noEscape isEscape
  · rintro tail rfl rfl
    exact joins rfl rfl

theorem ne_backslash {c : Char} {rest : List Char} (lone : c = '\\' → rest = [] → False)
    (noEscape : ∀ d tail, c = '\\' → rest = d :: tail → False) : c ≠ '\\' := by
  intro isEscape
  cases rest with
  | nil => exact lone isEscape rfl
  | cons d rest => exact noEscape d rest isEscape rfl

private theorem readLiteral_return_feed (rest : List Char) (level line : Int) :
    readLiteral level ('\r' :: '\n' :: rest) line =
      (readLiteral level ('\n' :: rest) line).map ('\r' :: ·) := by
  rw [readLiteral, @readLiteral_raw '\n' rest (by decide) (by decide) nofun, Reply.map_map]
  rfl

private theorem readLiteral_append {written denoted : List Char} (literal : Literal written denoted)
    (after : List Char) (level line : Int) :
    readLiteral level (written ++ '\'' :: after) line =
      .found denoted ⟨after, line + lineEnds written, level⟩ := by
  induction literal generalizing line with
  | nil => simp [readLiteral]
  | @raw c written denoted noQuote noEscape literal ih =>
      by_cases joins : Joins [c] written
      · have behind : Joins [c] (written ++ '\'' :: after) := by
          cases written with
          | nil => exact .of_head (by simp)
          | cons => exact joins
        rw [List.cons_append, readLiteral_raw noQuote noEscape behind, ih, Int.add_assoc,
          ← Int.natCast_add, ← lineEnds_append joins]
        rfl
      · obtain ⟨last, followed⟩ := Classical.not_imp.mp joins
        obtain rfl : c = '\r' := by simpa using last
        obtain ⟨rest, rfl⟩ := List.head?_eq_some_iff.mp (Classical.not_not.mp followed)
        have inner := ih line
        rw [List.cons_append] at inner
        rw [List.cons_append, List.cons_append, readLiteral_return_feed, inner]
        rfl
  | escape escape literal ih =>
      have inside := not_isLineBreak_of_unescape? escape
      simp only [List.cons_append, readLiteral, escape, ih]
      rw [lineEnds_cons_of_inside rfl, lineEnds_cons_of_inside inside]
      rfl

theorem literal_of_readLiteral {level line : Int} {text denoted : List Char} {next : State}
    (found : readLiteral level text line = .found denoted next) :
    ∃ written, Literal written denoted ∧ text = written ++ '\'' :: next.rest := by
  fun_induction readLiteral level text line generalizing denoted with
  | case1 => cases found
  | case2 => cases found; exact ⟨[], .nil, rfl⟩
  | case3 => cases found
  | case4 line c rest meant escape ih =>
      obtain ⟨inner, read, rfl⟩ := Reply.map_eq_found_iff.mp found
      obtain ⟨written, literal, rfl⟩ := ih read
      exact ⟨_, .escape escape literal, rfl⟩
  | case5 => cases found
  | case6 line rest ih =>
      obtain ⟨inner, read, rfl⟩ := Reply.map_eq_found_iff.mp found
      obtain ⟨written, literal, rfl⟩ := ih read
      exact ⟨_, .raw (by decide) (by decide) (.raw (by decide) (by decide) literal), rfl⟩
  | case7 line c rest noQuote lone noEscape _ ih =>
      obtain ⟨inner, read, rfl⟩ := Reply.map_eq_found_iff.mp found
      obtain ⟨written, literal, rfl⟩ := ih read
      refine ⟨_, .raw noQuote ?_ literal, rfl⟩
      rintro rfl
      cases written with
      | nil => exact noEscape _ _ rfl rfl
      | cons => exact noEscape _ _ rfl rfl

theorem readString_append {written denoted : List Char} (literal : Literal written denoted)
    (after : List Char) (line level : Int) :
    readString ⟨'\'' :: written ++ ['\''] ++ after, line, level⟩ =
      .found (.string (String.ofList denoted) line)
        ⟨after, line + lineEnds ('\'' :: written ++ ['\'']), level⟩ := by
  have count : lineEnds ('\'' :: written ++ ['\'']) = lineEnds written := by
    rw [List.cons_append, lineEnds_cons_of_inside rfl, lineEnds_append (.of_head (by simp))]
    rfl
  rw [count, List.append_assoc]
  simp only [readString, State.take?, List.cons_append, List.nil_append, ↓reduceIte,
    readLiteral_append literal]
  rfl

theorem item_of_readString {state next : State} {node : Node}
    (found : readString state = .found node next) :
    ∃ text, Advances state text next ∧ Item state.line text node next.rest ∧ node.nesting = 0 := by
  cases opened : state.take? '\'' with
  | none => simp [readString, opened] at found
  | some inside =>
      obtain ⟨split, same⟩ := take?_eq_some_iff.mp opened
      have result := found
      simp only [readString, opened] at result
      obtain ⟨denoted, read, rfl⟩ := Reply.map_eq_found_iff.mp result
      obtain ⟨written, literal, behind⟩ := literal_of_readLiteral read
      have whole : state.rest = '\'' :: written ++ ['\''] ++ next.rest := by
        rw [split, behind]
        simp
      obtain ⟨-, advances⟩ := Advances.of_complete found whole (readString_append literal _ _ _)
      exact ⟨_, advances, .string literal, rfl⟩

private theorem readLiteral_ne_absent (level line : Int) (text : List Char) (next : State) :
    readLiteral level text line ≠ .absent next := by
  fun_induction readLiteral level text line with
  | case1 | case2 | case3 | case5 => nofun
  | case4 _ _ _ _ _ ih | case6 _ _ ih | case7 _ _ _ _ _ _ _ ih =>
      rw [ne_eq, Reply.map_eq_absent_iff]
      exact ih

theorem readString_eq_absent_iff {state next : State} :
    readString state = .absent next ↔ next = state ∧ StartsWithout (· == '\'') state.rest := by
  rw [← take?_eq_none_iff]
  cases opened : state.take? '\'' with
  | none => simp [readString, opened, eq_comm]
  | some inside =>
      simp [readString, opened, Reply.map_eq_absent_iff, readLiteral_ne_absent]

/-! ## Numbers -/

theorem exists_run (p : Char → Bool) (text : List Char) :
    ∃ run after, text = run ++ after ∧ (∀ c ∈ run, p c = true) ∧ StartsWithout p after := by
  refine ⟨text.takeWhile p, text.dropWhile p, List.takeWhile_append_dropWhile.symm,
    List.all_eq_true.mp List.all_takeWhile, ?_⟩
  intro c first
  have stopped := List.head?_dropWhile_not p text
  rw [Option.mem_def.mp first] at stopped
  exact stopped

theorem takeWhile_append_of_without {p : Char → Bool} {run after : List Char}
    (inside : ∀ c ∈ run, p c = true) (outside : StartsWithout p after) :
    (run ++ after).takeWhile p = run := by
  rw [List.takeWhile_append_of_pos inside]
  cases after with
  | nil => simp
  | cons c after => simp [outside c rfl]

theorem dropWhile_append_of_without {p : Char → Bool} {run after : List Char}
    (inside : ∀ c ∈ run, p c = true) (outside : StartsWithout p after) :
    (run ++ after).dropWhile p = after := by
  rw [List.dropWhile_append_of_pos inside]
  cases after with
  | nil => rfl
  | cons c after => simp [outside c rfl]

theorem readNumber_append {digits after : List Char} (decimal : ∀ c ∈ digits, c.isDigit = true)
    (outside : StartsWithout Char.isDigit after) (line level : Int) :
    readNumber ⟨digits ++ after, line, level⟩ =
      if digits = [] then .absent ⟨after, line, level⟩
      else
        match numberObstacle? after with
        | some c => State.refuse ⟨after, line, level⟩ (.numberRunsInto c)
        | none =>
          if digits.length ≤ Numeral.digitLimit then
            .found (.number (Numeral.ofDigits digits) line) ⟨after, line, level⟩
          else .failed (.numeralTooLong digits.length) ⟨after, line, level⟩ := by
  have run := takeWhile_append_of_without decimal outside
  have rest := dropWhile_append_of_without decimal outside
  cases digits with
  | nil => simp only [readNumber, run, rest, List.isEmpty_nil, if_true]
  | cons =>
      cases obstacle : numberObstacle? after <;>
        simp only [readNumber, run, rest, obstacle, List.isEmpty_cons, reduceCtorEq,
          Bool.false_eq_true, if_false]

private theorem startsWith_endsNumber_iff {after : List Char} :
    StartsWith endsNumber after ↔ after ≠ [] ∧ numberObstacle? after = none := by
  cases after with
  | nil => simp [StartsWith]
  | cons c after => simp [StartsWith, numberObstacle?]

theorem StartsWith.not_isDigit {after : List Char} (follows : StartsWith endsNumber after) :
    StartsWithout Char.isDigit after :=
  StartsWith.without follows fun _ => isDigit_eq_false_of_endsNumber

theorem readNumber_digits {digits after : List Char} (nonempty : digits ≠ [])
    (decimal : ∀ c ∈ digits, c.isDigit = true) (short : digits.length ≤ Numeral.digitLimit)
    (follows : StartsWith endsNumber after) (line level : Int) :
    readNumber ⟨digits ++ after, line, level⟩ =
      .found (.number (Numeral.ofDigits digits) line)
        ⟨after, line + lineEnds digits, level⟩ := by
  have inside : ∀ c ∈ digits, isLineBreak c = false := fun c member =>
    not_isLineBreak_of_isDigit (decimal c member)
  rw [readNumber_append decimal (StartsWith.not_isDigit follows), if_neg nonempty,
    (startsWith_endsNumber_iff.mp follows).2, lineEnds_eq_zero_of_inside inside]
  simp [short]

theorem item_of_readNumber {state next : State} {node : Node} (ended : Ended state.rest)
    (found : readNumber state = .found node next) :
    ∃ text, Advances state text next ∧ Item state.line text node next.rest ∧ node.nesting = 0 := by
  obtain ⟨text, line, level⟩ := state
  obtain ⟨digits, after, rfl, decimal, outside⟩ := exists_run Char.isDigit text
  have result := found
  rw [readNumber_append decimal outside] at result
  by_cases empty : digits = []
  · simp [empty] at result
  rw [if_neg empty] at result
  cases free : numberObstacle? after with
  | some c => simp [free, State.refuse] at result
  | none =>
      simp only [free] at result
      split at result
      · next short =>
        obtain ⟨rfl, rfl⟩ := Reply.found.inj result
        have more : after ≠ [] := by
          rintro rfl
          rw [List.append_nil] at ended
          have last := List.getLast?_eq_some_getLast empty
          have digit := decimal _ (List.mem_of_getLast? last)
          rw [ended _ last] at digit
          exact absurd digit (by decide)
        have follows := startsWith_endsNumber_iff.mpr ⟨more, free⟩
        obtain ⟨-, advances⟩ := Advances.of_complete found rfl
          (readNumber_digits empty decimal short follows line level)
        exact ⟨digits, advances, .number empty decimal short follows, rfl⟩
      · cases result

theorem readNumber_eq_absent_iff {state next : State} :
    readNumber state = .absent next ↔ next = state ∧ StartsWithout Char.isDigit state.rest := by
  obtain ⟨text, line, level⟩ := state
  obtain ⟨digits, after, rfl, decimal, outside⟩ := exists_run Char.isDigit text
  rw [readNumber_append decimal outside]
  cases digits with
  | nil => simp [outside, eq_comm]
  | cons c digits =>
      have isDigit : c.isDigit = true := decimal c List.mem_cons_self
      simp only [reduceCtorEq, ↓reduceIte]
      constructor
      · intro absent
        split at absent
        · cases absent
        · split at absent <;> cases absent
      · intro without
        rw [without.2 c rfl] at isDigit
        cases isDigit

/-! ## Symbols -/

theorem readSymbol_append {name after : List Char} (valid : ∀ c ∈ name, (!endsSymbol c) = true)
    (outside : StartsWithout (fun c => !endsSymbol c) after) (line level : Int) :
    readSymbol ⟨name ++ after, line, level⟩ =
      if name = [] then .absent ⟨after, line, level⟩
      else .found (.symbol (String.ofList name) line) ⟨after, line, level⟩ := by
  simp only [readSymbol, takeWhile_append_of_without valid outside,
    dropWhile_append_of_without valid outside, List.isEmpty_iff]

theorem isSymbolName_iff {name : List Char} :
    Node.isSymbolName name = true ↔
      name ≠ [] ∧ StartsWithout Char.isDigit name ∧ ∀ c ∈ name, (!endsSymbol c) = true := by
  cases name with
  | nil => simp [Node.isSymbolName]
  | cons c name => simp [Node.isSymbolName, StartsWithout]

theorem readSymbol_name {name after : List Char} (valid : Node.isSymbolName name = true)
    (outside : StartsWithout (fun c => !endsSymbol c) after) (line level : Int) :
    readSymbol ⟨name ++ after, line, level⟩ =
      .found (.symbol (String.ofList name) line) ⟨after, line + lineEnds name, level⟩ := by
  obtain ⟨nonempty, -, letters⟩ := isSymbolName_iff.mp valid
  have inside : ∀ c ∈ name, isLineBreak c = false := fun c member =>
    not_isLineBreak_of_not_endsSymbol (letters c member)
  rw [readSymbol_append letters outside, if_neg nonempty, lineEnds_eq_zero_of_inside inside]
  simp

theorem item_of_readSymbol {state next : State} {node : Node}
    (noDigit : StartsWithout Char.isDigit state.rest)
    (found : readSymbol state = .found node next) :
    ∃ text, Advances state text next ∧ Item state.line text node next.rest ∧ node.nesting = 0 := by
  obtain ⟨text, line, level⟩ := state
  obtain ⟨name, after, rfl, letters, outside⟩ := exists_run (fun c => !endsSymbol c) text
  have result := found
  rw [readSymbol_append letters outside] at result
  by_cases empty : name = []
  · simp [empty] at result
  rw [if_neg empty] at result
  obtain ⟨rfl, rfl⟩ := Reply.found.inj result
  have first : StartsWithout Char.isDigit name := by
    intro c first
    cases name with
    | nil => cases first
    | cons d name => exact noDigit c first
  have valid := isSymbolName_iff.mpr ⟨empty, first, letters⟩
  obtain ⟨-, advances⟩ := Advances.of_complete found rfl (readSymbol_name valid outside line level)
  exact ⟨name, advances, .symbol valid outside, rfl⟩

theorem readSymbol_eq_absent_iff {state next : State} :
    readSymbol state = .absent next ↔
      next = state ∧ StartsWithout (fun c => !endsSymbol c) state.rest := by
  obtain ⟨text, line, level⟩ := state
  obtain ⟨name, after, rfl, letters, outside⟩ := exists_run (fun c => !endsSymbol c) text
  rw [readSymbol_append letters outside]
  cases name with
  | nil => simp [outside, eq_comm]
  | cons c name =>
      have letter : (!endsSymbol c) = true := letters c List.mem_cons_self
      simp only [reduceCtorEq, ↓reduceIte, false_iff]
      intro without
      have stopped : (!endsSymbol c) = false := without.2 c rfl
      rw [stopped] at letter
      cases letter

end IndentLisp.Reader
