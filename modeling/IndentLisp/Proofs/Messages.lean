import IndentLisp.Diagnostic
import IndentLisp.Evaluation.Machine
import IndentLisp.Proofs.Text.Numeral

/-!
# The wording of messages

How messages begin. That of a problem tells the problem. One that names a line names it once, at its
beginning.
-/

set_option autoImplicit false

namespace IndentLisp

private theorem head?_toList_append {left : String} {c : Char} (right : String)
    (first : left.toList.head? = some c) : (left ++ right).toList.head? = some c := by
  rw [String.toList_append, List.head?_append, first]
  rfl

/-! ## Problems -/

theorem Problem.message_eq_internal_iff {problem : Problem} :
    problem.message = "Internal error (bug in a parser)." ↔ problem = .indentedStart := by
  constructor
  · intro same
    cases problem with
    | indentedStart => rfl
    | numberRunsInto | badEscape | arrayItems | arguments =>
        -- These messages are put together, but none starts with that letter.
        have first := congrArg (fun text => text.toList.head?) same
        unfold Problem.message at first
        rw [head?_toList_append _ (head?_toList_append _ rfl)] at first
        exact absurd first (by decide)
    | _ => exact absurd same (by decide)
  · rintro rfl
    rfl

/-- A text that is put in between two others is known from the whole. -/
private theorem append_between_inj {left right middle middle' : String} :
    left ++ middle ++ right = left ++ middle' ++ right ↔ middle = middle' := by
  rw [String.append_left_inj, String.append_right_inj]

private theorem take_append_between {left : String} {count : Nat}
    (short : count ≤ left.toList.length) (middle right : String) :
    (left ++ middle ++ right).toList.take count = left.toList.take count := by
  rw [String.append_assoc, String.toList_append, List.take_append_of_le_length short]

private theorem Numeral.text_natCast_inj {value value' : Nat} :
    Numeral.text value = Numeral.text value' ↔ value = value' := by
  constructor
  · intro same
    have digits := String.ofList_injective same
    rw [← Numeral.ofDigits_toText value, digits, Numeral.ofDigits_toText]
  · rintro rfl
    rfl

/-- How the messages of problems begin, as far as they have to be read to be told apart. -/
def Problem.headings : List String :=
  ["Malformed ind", "Incorrect ind", "Internal erro", "Nesting is to", "Unexpected ch",
    "STRING has no", "Unsupported e", "Cannot read a", "No expression", "Cannot read e",
    "NUMBER cannot", "STRING cannot", "ARRAY cannot ", "Malformed lin"]

private theorem Problem.idxOf_heading (problem : Problem) :
    Problem.headings.idxOf (String.ofList (problem.message.toList.take 13)) =
      problem.ctorIdx := by
  cases problem with
  | numberRunsInto | badEscape | arrayItems | arguments =>
      unfold Problem.message
      rw [take_append_between (by decide +kernel)]
      rfl
  | _ => decide +kernel

/-- The message tells the problem. -/
theorem Problem.message_inj {problem problem' : Problem} :
    problem.message = problem'.message ↔ problem = problem' := by
  constructor
  · intro same
    have index : problem.ctorIdx = problem'.ctorIdx := by
      rw [← idxOf_heading, same, idxOf_heading]
    -- Of two different problems the indices are different numbers.
    cases problem <;> cases problem' <;> cases index <;> try rfl
    · have next := String.ofList_injective (append_between_inj.mp same)
      rw [(List.cons.inj next).1]
    · next shown shown' =>
      have next := String.ofList_injective (append_between_inj.mp same)
      cases shown <;> cases shown' <;> cases next <;> rfl
    · rw [Numeral.text_natCast_inj.mp (append_between_inj.mp same)]
    · rw [Numeral.text_natCast_inj.mp (append_between_inj.mp same)]
  · rintro rfl
    rfl

/-! ## Lines in messages -/

theorem RunError.message_failedCall (line : Int) (error : CallError) :
    (failedCall line error).message =
      "line " ++ Numeral.text line ++ ": " ++ error.message := by
  unfold message
  with_reducible rfl

theorem RunError.message_notCallable (line : Int) (symbol : Option String) :
    (notCallable line symbol).message =
      "line " ++ Numeral.text line ++ ": " ++ (symbol.getD "expression" ++ " is not callable") := by
  unfold message
  simp only [String.append_assoc]

/-- The text begins with a line. -/
def NamesLine (text : String) : Prop :=
  ∃ line rest, text = "line " ++ Numeral.text line ++ ": " ++ rest

private theorem NamesLine.chars {text : String} (names : NamesLine text) :
    ∃ line rest, text.toList = ['l', 'i', 'n', 'e'] ++ ' ' :: (Numeral.toText line ++ rest) := by
  obtain ⟨line, rest, rfl⟩ := names
  refine ⟨line, (": " ++ rest).toList, ?_⟩
  have number : (Numeral.text line).toList = Numeral.toText line := String.toList_ofList
  have start : "line ".toList = ['l', 'i', 'n', 'e'] ++ [' '] := rfl
  rw [String.append_assoc, String.toList_append, String.toList_append, number, start,
    List.append_assoc, List.append_assoc]
  rfl

private theorem not_namesLine_of_head? {text : String} {c : Char}
    (first : text.toList.head? = some c) (other : c ≠ 'l') : ¬ NamesLine text := by
  intro names
  obtain ⟨line, rest, split⟩ := names.chars
  rw [split] at first
  exact other (Option.some.inj first).symm

/-- The error of a builtin function does not name a line itself. -/
theorem CallError.not_namesLine {error : CallError} (own : ∀ kind text, error ≠ .host kind text) :
    ¬ NamesLine error.message := by
  cases error with
  | host kind text => exact absurd rfl (own kind text)
  | operands operator left right =>
      have first : (operands operator left right).message.toList.head? = some 'u' := by
        unfold message
        iterate 6 apply head?_toList_append
        rfl
      exact not_namesLine_of_head? first (by decide)
  | repeatCount typeName =>
      have first : (repeatCount typeName).message.toList.head? = some 'c' := by
        unfold message
        iterate 2 apply head?_toList_append
        rfl
      exact not_namesLine_of_head? first (by decide)
  | divideArguments count =>
      have first : (divideArguments count).message.toList.head? = some '\'' := by
        unfold message
        apply head?_toList_append
        rfl
      exact not_namesLine_of_head? first (by decide)
  | numeralTooLong =>
      have first : numeralTooLong.message.toList.head? = some 'E' := by
        unfold message
        apply head?_toList_append
        rfl
      exact not_namesLine_of_head? first (by decide)
  | _ => exact not_namesLine_of_head? rfl (by decide)

/-- The text of a number starts with a digit or with the sign. -/
private theorem Numeral.exists_toText_eq_cons (value : Int) :
    ∃ c rest, toText value = c :: rest ∧ c ≠ 'i' := by
  have digits : ∃ c rest, Nat.toDigits 10 value.natAbs = c :: rest ∧ c ≠ 'i' := by
    obtain ⟨c, rest, split⟩ :=
      List.exists_cons_of_ne_nil (Nat.toDigits_ne_nil : Nat.toDigits 10 value.natAbs ≠ [])
    refine ⟨c, rest, split, ?_⟩
    rintro rfl
    have member : 'i' ∈ Nat.toDigits 10 value.natAbs := split ▸ List.mem_cons_self
    exact absurd (Nat.isDigit_of_mem_toDigits (by decide) (by decide) member) (by decide)
  unfold toText
  split
  · exact ⟨'-', _, rfl, by decide⟩
  · exact digits

private theorem takeWhile_word {word : List Char} (solid : ' ' ∉ word) (after : List Char) :
    (word ++ ' ' :: after).takeWhile (· != ' ') = word := by
  rw [List.takeWhile_append_of_pos, List.takeWhile_cons, if_neg (by decide), List.append_nil]
  intro c member
  exact bne_iff_ne.mpr fun space => solid (space ▸ member)

/-- What is said of a name without spaces does not begin with a line, even if the name is that
word. -/
theorem not_namesLine_of_name {name : String} (solid : ' ' ∉ name.toList) :
    ¬ NamesLine (name ++ " is not callable") := by
  intro names
  obtain ⟨line, rest, split⟩ := names.chars
  have whole : (name ++ " is not callable").toList =
      name.toList ++ ' ' :: 'i' :: "s not callable".toList := by
    rw [String.toList_append]
    rfl
  rw [whole] at split
  have word := congrArg (List.takeWhile (· != ' ')) split
  rw [takeWhile_word solid, takeWhile_word (by decide)] at word
  rw [word] at split
  obtain ⟨c, digits, number, other⟩ := Numeral.exists_toText_eq_cons line
  have behind := (List.cons.inj (List.append_cancel_left split)).2
  rw [number] at behind
  exact other (List.cons.inj behind).1.symm

end IndentLisp
