import IndentLisp.Proofs.Program.Refusal

/-!
# Outcomes of parsing

A text is parsed as a block or refused with a diagnostic, and a caller who is called back hears of
it once. The exception is a numeral beyond the digit limit: there is no diagnostic for it.
-/

set_option autoImplicit false

namespace IndentLisp

open Grammar Reader

namespace Reader

/-- The line feed that may be added to a text is no part of a numeral. -/
private theorem isInfix_of_terminated {numeral text : List Char}
    (isInfix : numeral <:+: terminated text) (inside : '\n' ∉ numeral) : numeral <:+: text := by
  unfold terminated at isInfix
  split at isInfix
  · exact isInfix
  · obtain ⟨before, after, split⟩ := isInfix
    by_cases last : after = []
    · rw [last, List.append_nil] at split
      by_cases empty : numeral = []
      · rw [empty]
        exact List.nil_infix
      · have final := congrArg List.getLast? split
        rw [getLast?_append empty, List.getLast?_concat] at final
        exact absurd (List.mem_of_getLast? final) inside
    · refine ⟨before, after.dropLast, ?_⟩
      have cut := congrArg List.dropLast split
      rwa [List.dropLast_append_of_ne_nil last, List.dropLast_concat] at cut

/-- A text that is refused for a long numeral has one. -/
theorem exists_longNumeral {nesting : Nat} {source : String} {digits : Nat}
    (refused : parse nesting source = .error (.numeralTooLong digits)) :
    ∃ numeral, numeral <:+: source.toList ∧ (∀ c ∈ numeral, c.isDigit = true) ∧
      numeral.length = digits ∧ Numeral.digitLimit < digits := by
  obtain ⟨text, stop, failure, passes, same, long⟩ := parse_refusedBehind refused
  cases failure with
  | problem => cases same
  | numeralTooLong count =>
      cases same
      obtain ⟨numeral, ends, decimal, size⟩ := long digits rfl
      refine ⟨numeral, isInfix_of_terminated ?_ ?_, decimal, size⟩
      · have split : terminated source.toList = text ++ stop.rest := passes.rest
        rw [split]
        exact ends.isInfix.trans (List.prefix_append text _).isInfix
      · intro member
        exact absurd (decimal '\n' member) (by decide)

/-! ## Long numerals -/

section

variable (nesting : Nat) {digits : List Char} (decimal : ∀ c ∈ digits, c.isDigit = true)
  (long : Numeral.digitLimit < digits.length)

include decimal long

/-- A call whose only argument is a numeral. -/
def callText (digits : List Char) : List Char := ['f'] ++ (' ' :: (digits ++ ['\n']))

private theorem item_longNumeral (line level : Int) :
    readItem nesting ⟨digits ++ ['\n'], line, level⟩ =
      .failed (.numeralTooLong digits.length) ⟨['\n'], line, level⟩ := by
  have some : digits ≠ [] := by
    rintro rfl
    cases long
  have read := readNumber_append decimal (startsWithout_cons.mpr rfl : StartsWithout _ ['\n'])
    line level
  have free : numberObstacle? ['\n'] = none := rfl
  rw [if_neg some, free] at read
  dsimp only at read
  rw [if_neg (Nat.not_le.mpr long)] at read
  cases nesting <;> simp only [readItem_eq_firstOf, firstOf, read]

private theorem arguments_longNumeral (line level : Int) :
    arguments nesting ⟨' ' :: (digits ++ ['\n']), line, level⟩ =
      .failed (.numeralTooLong digits.length) ⟨['\n'], line, level⟩ := by
  have solid : StartsWithout isSpace (digits ++ ['\n']) := by
    intro c first
    cases digits with
    | nil => cases long
    | cons d digits =>
        obtain rfl : d = c := Option.some.inj first
        have isDigit := decimal d List.mem_cons_self
        cases space : isSpace d with
        | false => rfl
        | true =>
            obtain rfl | rfl : d = ' ' ∨ d = '\t' := by simpa [isSpace] using space
            all_goals cases isDigit
  have skipped : State.skipSpace ⟨' ' :: (digits ++ ['\n']), line, level⟩ =
      ⟨digits ++ ['\n'], line, level⟩ := by
    rw [skipSpace_cons rfl, skipSpace_eq_self solid]
  rw [arguments_eq, skipped, item_longNumeral nesting decimal long]

private theorem phrase_longNumeral (line level : Int) :
    phrase nesting ⟨callText digits, line, level⟩ =
      .failed (.numeralTooLong digits.length) ⟨['\n'], line, level⟩ := by
  have name : Item line ['f'] (.symbol "f" line) (' ' :: (digits ++ ['\n'])) :=
    @Item.symbol line ['f'] _ (by decide) (startsWithout_cons.mpr rfl)
  have first : readItem nesting ⟨callText digits, line, level⟩ =
      .found (.symbol "f" line) ⟨' ' :: (digits ++ ['\n']), line + lineEnds ['f'], level⟩ :=
    readItem_of_item name (Nat.zero_le _) level
  have same : line + (lineEnds ['f'] : Int) = line := Int.add_zero line
  rw [same] at first
  rw [phrase_eq, readHead_eq_found_iff.mpr ⟨first, rfl⟩, Reply.bind,
    arguments_longNumeral nesting decimal long]
  rfl

/-- A numeral beyond the limit is an error, however many of its digits are leading zeros. -/
theorem parse_longNumeral (held : 0 < nesting) :
    parse nesting ("f " ++ String.ofList digits) = .error (.numeralTooLong digits.length) := by
  have some : digits ≠ [] := by
    rintro rfl
    cases long
  have start : State.start ("f " ++ String.ofList digits) = ⟨callText digits, 1, -1⟩ := by
    have whole : ("f " ++ String.ofList digits).toList = ['f', ' '] ++ digits := by simp
    have final : ('f' :: ' ' :: digits).getLast? ≠ .some '\n' := by
      intro final
      have last : digits.getLast? = .some '\n' := (getLast?_append some ['f', ' ']).symm.trans final
      exact absurd (decimal _ (List.mem_of_getLast? last)) (by decide)
    rw [State.start, whole, terminated]
    exact congrArg (State.mk · 1 (-1)) (if_neg final)
  have content : State.skipBlankLines ⟨callText digits, 1, -1⟩ = ⟨callText digits, 1, -1⟩ :=
    skipBlankLines_eq_self (endLine?_eq_none (startsWithout_cons.mpr rfl))
  have opens : OpensLine nesting none ⟨callText digits, 1, -1⟩ 0 := by
    constructor
    · rw [content]
      rfl
    · rw [content]
      rfl
    · exact Nat.le_refl 0
    · exact held
  have begins : phraseStart ⟨callText digits, 1, -1⟩ 0 = ⟨callText digits, 1, 0⟩ := by
    rw [phraseStart, content]
    rfl
  have refuses := Refuses.phrase opens
    (by rw [begins]; exact phrase_longNumeral (nesting - 1) decimal long 1 0)
  exact parse_of_listing_error (start ▸ refuses.listing_eq)

end

end Reader

/-! ## The caller -/

/-- A text is parsed as a block, or it is refused with a diagnostic, and one that is called back is
called once, with the one or the other. Only a text with a numeral beyond the digit limit can be
refused otherwise: then nobody is called. -/
theorem parse_reaches_callback (nesting : Nat) (source : String) :
    (∃ children line, parse nesting source = .ok (.block children line) ∧
      ∀ {m : Type → Type} [Monad m] {α : Type} (callback : Option Diagnostic → Option Node → m α),
        parseWith nesting source callback = .lift (callback none (some (.block children line)))) ∨
    (∃ diagnostic, parse nesting source = .error (.diagnosed diagnostic) ∧
      ∀ {m : Type → Type} [Monad m] {α : Type} (callback : Option Diagnostic → Option Node → m α),
        parseWith nesting source callback = .lift (callback (some diagnostic) none)) ∨
    ∃ numeral, numeral <:+: source.toList ∧ (∀ c ∈ numeral, c.isDigit = true) ∧
      Numeral.digitLimit < numeral.length ∧
      parse nesting source = .error (.numeralTooLong numeral.length) ∧
      ∀ {m : Type → Type} [Monad m] {α : Type} (callback : Option Diagnostic → Option Node → m α),
        parseWith nesting source callback = throw (.numeralTooLong numeral.length) := by
  cases outcome : parse nesting source with
  | ok tree =>
      obtain ⟨forest, line, rfl, -, -⟩ := exists_forest_of_parse outcome
      refine .inl ⟨forest.nodes, line, rfl, fun callback => ?_⟩
      rw [parseWith, outcome]
  | error refusal =>
      cases refusal with
      | diagnosed diagnostic =>
          refine .inr (.inl ⟨diagnostic, rfl, fun callback => ?_⟩)
          rw [parseWith, outcome]
      | numeralTooLong digits =>
          obtain ⟨numeral, inside, decimal, rfl, long⟩ := exists_longNumeral outcome
          refine .inr (.inr ⟨numeral, inside, decimal, long, rfl, fun callback => ?_⟩)
          rw [parseWith, outcome]

/-- There are texts that are neither parsed nor diagnosed. -/
theorem parse_without_diagnostic :
    ¬ ∀ source : String, (∃ tree, parse 500 source = .ok tree) ∨
      ∃ diagnostic, parse 500 source = .error (.diagnosed diagnostic) := by
  intro reached
  have decimal : ∀ c ∈ List.replicate (Numeral.digitLimit + 1) '0', c.isDigit = true := by
    intro c member
    rw [List.eq_of_mem_replicate member]
    rfl
  have refused := parse_longNumeral 500 decimal (by simp) (by decide)
  rcases reached ("f " ++ String.ofList (List.replicate (Numeral.digitLimit + 1) '0')) with
    ⟨tree, parsed⟩ | ⟨diagnostic, diagnosed⟩
  · rw [refused] at parsed
    cases parsed
  · rw [refused] at diagnosed
    cases diagnosed

end IndentLisp
