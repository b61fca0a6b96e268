import IndentLisp.Probe
import IndentLisp.Proofs.Layout.Item
import IndentLisp.Proofs.Reader.Atom

/-!
# Quoting a text and reading it back

A quoted text stands on one line and ends at its last apostrophe, since every other one is escaped.
So the reader of literals finds the text again, whatever stands behind it.
-/

set_option autoImplicit false

namespace IndentLisp

open Grammar Reader

/-! ## Backslashes at the end of a text -/

/-- Whether a text ends in a backslash that escapes what comes next: of the backslashes at its end
each second one is itself escaped. -/
def endsInEscape (text : List Char) : Bool :=
  (text.reverse.takeWhile (· == '\\')).length % 2 == 1

private theorem takeWhile_append_cons {α : Type} {p : α → Bool} {a : α} (outside : p a = false)
    (left right : List α) : (left ++ a :: right).takeWhile p = left.takeWhile p := by
  induction left with
  | nil => simp [outside]
  | cons b left ih => cases inside : p b <;> simp [inside, ih]

/-- What stands before a character other than a backslash does not matter. -/
private theorem endsInEscape_append_cons {c : Char} (other : c ≠ '\\') (left right : List Char) :
    endsInEscape (left ++ c :: right) = endsInEscape right := by
  have outside : (c == '\\') = false := beq_eq_false_iff_ne.mpr other
  rw [endsInEscape, List.reverse_append, List.reverse_cons, List.append_assoc,
    List.singleton_append, takeWhile_append_cons (p := (· == '\\')) outside]
  rfl

/-- A pair of backslashes escapes nothing behind it. -/
private theorem endsInEscape_cons_cons (text : List Char) :
    endsInEscape ('\\' :: '\\' :: text) = endsInEscape text := by
  rw [endsInEscape, endsInEscape, List.reverse_cons, List.reverse_cons, List.append_assoc,
    List.takeWhile_append]
  split
  · next whole => simp [whole]
  · rfl

namespace Quoted

/-! ## The characters of a quoted text -/

/-- Of a plain character only itself is written, and of an escaped one a pair that begins with a
backslash. -/
private theorem encodeChar_cases (c : Char) :
    (encodeChar c = [c] ∧ c ∉ ['\\', '\r', '\n', '\t', '\'']) ∨
      ∃ letter, encodeChar c = ['\\', letter] ∧ letter ∈ ['\\', 'r', 'n', 't', '\''] := by
  unfold encodeChar escape?
  split
  · next letter escaped =>
    refine .inr ⟨letter, rfl, ?_⟩
    split at escaped <;> cases escaped <;> decide
  · next plain =>
    refine .inl ⟨rfl, ?_⟩
    split at plain <;> simp_all

private theorem endsInEscape_encodeChar_append (c : Char) (text : List Char) :
    endsInEscape (encodeChar c ++ text) = endsInEscape text := by
  rcases encodeChar_cases c with ⟨written, plain⟩ | ⟨letter, written, -⟩
  · rw [written]
    exact endsInEscape_append_cons (fun same => plain (by simp [same])) [] text
  · rw [written]
    by_cases pair : letter = '\\'
    · rw [pair]
      exact endsInEscape_cons_cons text
    · exact endsInEscape_append_cons pair ['\\'] text

private theorem endsInEscape_of_encodeChar {c : Char} {left right : List Char}
    (split : encodeChar c = left ++ '\'' :: right) : endsInEscape left = true := by
  rcases encodeChar_cases c with ⟨written, plain⟩ | ⟨letter, written, -⟩
  · rw [written] at split
    have same : '\'' = c := by
      have member : '\'' ∈ [c] := split ▸ List.mem_append_right left List.mem_cons_self
      exact List.mem_singleton.mp member
    exact absurd (by simp [← same]) plain
  · rw [written] at split
    cases left with
    | nil => simp at split
    | cons first left =>
        cases left with
        | nil =>
            obtain ⟨rfl, -⟩ := List.cons.inj split
            decide
        | cons => simp at split

/-- An apostrophe inside a quoted text is escaped. -/
private theorem endsInEscape_of_encode {text left right : List Char}
    (split : encode text = left ++ '\'' :: right) : endsInEscape left = true := by
  induction text generalizing left with
  | nil => simp [encode] at split
  | cons c text ih =>
      rw [encode, List.flatMap_cons] at split
      rcases List.append_eq_append_iff.mp split with ⟨inside, rfl, behind⟩ | ⟨rest, whole, behind⟩
      · rw [endsInEscape_encodeChar_append]
        exact ih behind
      · cases rest with
        | nil =>
            rw [List.append_nil] at whole
            have before := endsInEscape_encodeChar_append c []
            rw [List.append_nil, whole] at before
            rw [before]
            exact ih behind.symm
        | cons d rest =>
            obtain ⟨rfl, -⟩ := List.cons.inj behind
            exact endsInEscape_of_encodeChar whole

private theorem not_mem_of_mem_encodeChar {original c : Char} (written : c ∈ encodeChar original) :
    c ∉ ['\r', '\n', '\t'] := by
  rcases encodeChar_cases original with ⟨same, plain⟩ | ⟨letter, same, escapes⟩
  · obtain rfl : c = original := by simpa [same] using written
    simp_all
  · have pair : c = '\\' ∨ c = letter := by simpa [same] using written
    cases pair with
    | inl backslash => simp [backslash]
    | inr behind =>
        subst behind
        simp only [List.mem_cons, List.not_mem_nil, or_false] at escapes
        rcases escapes with rfl | rfl | rfl | rfl | rfl <;> decide

private theorem not_mem_of_mem_quote {text : String} {c : Char} (member : c ∈ quote text) :
    c ∉ ['\r', '\n', '\t'] := by
  simp only [quote, List.cons_append, List.mem_cons, List.mem_append, List.not_mem_nil, or_false]
    at member
  rcases member with opening | written | closing
  · simp [opening]
  · obtain ⟨original, -, inside⟩ := List.mem_flatMap.mp written
    exact not_mem_of_mem_encodeChar inside
  · simp [closing]

/-- The apostrophes of a quoted text are its first and its last character, or escaped. -/
private theorem quote_eq_append_cons {text : String} {left right : List Char}
    (split : quote text = left ++ '\'' :: right) :
    left = [] ∨ right = [] ∨ endsInEscape left = true := by
  cases left with
  | nil => exact .inl rfl
  | cons c left =>
      refine .inr ?_
      rw [quote, List.cons_append, List.cons_append] at split
      obtain ⟨rfl, behind⟩ := List.cons.inj split
      rcases right.eq_nil_or_concat with done | ⟨init, last, rfl⟩
      · exact .inl done
      · refine .inr ?_
        rw [List.concat_eq_append, ← List.cons_append, ← List.append_assoc] at behind
        have written := (List.append_inj' behind rfl).1
        have before := endsInEscape_append_cons (c := '\'') (by decide) [] left
        rw [List.nil_append] at before
        rw [before]
        exact endsInEscape_of_encode written

private theorem not_isLineBreak_of_mem_quote {text : String} {c : Char} (member : c ∈ quote text) :
    isLineBreak c = false := by
  have outside := not_mem_of_mem_quote member
  simp only [List.mem_cons, not_or] at outside
  simp [isLineBreak, outside]

end Quoted

namespace Reader

/-! ## Reading back -/

private theorem readString_quote (text : String) (after : List Char) (line level : Int) :
    readString ⟨Quoted.quote text ++ after, line, level⟩ =
      .found (.string text line) ⟨after, line, level⟩ := by
  have count : lineEnds (Quoted.quote text) = 0 :=
    lineEnds_eq_zero_of_inside fun c member => Quoted.not_isLineBreak_of_mem_quote member
  have read := readString_append (.of_encode text.toList) after line level
  rw [← Quoted.quote, String.ofList_toList] at read
  rw [read, count]
  simp

private theorem exists_text_of_readString {state next : State} {node : Node}
    (found : readString state = .found node next) : ∃ text, node = .string text state.line := by
  rw [readString] at found
  cases opened : state.take? '\'' with
  | none => simp [opened] at found
  | some inside =>
      rw [opened] at found
      obtain ⟨text, -, same⟩ := Reply.map_eq_found_iff.mp found
      exact ⟨_, same.symm⟩

end Reader

private theorem exists_terminated_eq_append (text : List Char) :
    ∃ feed, terminated text = text ++ feed := by
  rw [terminated]
  split
  · exact ⟨[], (List.append_nil text).symm⟩
  · exact ⟨['\n'], rfl⟩

/-- A quoted text is read back at any place of any source, up to its end and on its line. It is what
escaping in passes makes of the text, without raw line breaks and tabs, and with no apostrophe
inside that is not escaped. The text of any literal that is read can be quoted and read again. -/
theorem quote_reads_back :
    (∀ (text before after : String) (line level : Int),
      let source := before ++ String.ofList (Quoted.quote text) ++ after
      let probe : Probe := { Probe.ofSource source with cursor := before.length, line, level }
      (∃ next, readString probe.state = .found (.string text line) next) ∧
        probe.after (readString probe.state) =
          { probe with cursor := before.length + (Quoted.quote text).length }) ∧
    (∀ text : String,
      Quoted.quote text =
          '\'' :: Quoted.escapes.foldl Quoted.escapeAll text.toList ++ ['\''] ∧
        (∀ c ∈ Quoted.quote text, c ∉ ['\r', '\n', '\t']) ∧
        ∀ left right, Quoted.quote text = left ++ '\'' :: right →
          left = [] ∨ right = [] ∨ endsInEscape left = true) ∧
    ∀ state node next, readString state = .found node next →
      ∃ text, node = .string text state.line ∧ ∀ after line level,
        readString ⟨Quoted.quote text ++ after, line, level⟩ =
          .found (.string text line) ⟨after, line, level⟩ := by
  refine ⟨?_, ?_, ?_⟩
  · intro text before after line level source probe
    obtain ⟨feed, ends⟩ := exists_terminated_eq_append source.toList
    have whole : probe.text = before.toList ++ (Quoted.quote text ++ (after.toList ++ feed)) := by
      have same : probe.text = source.toList ++ feed := ends
      simpa [source] using same
    have rest : probe.state = ⟨Quoted.quote text ++ (after.toList ++ feed), line, level⟩ := by
      simp only [Probe.state, whole]
      exact congrArg (State.mk · line level) (List.drop_left' before.length_toList)
    have read := readString_quote text (after.toList ++ feed) line level
    rw [← rest] at read
    refine ⟨⟨_, read⟩, ?_⟩
    rw [read, Probe.after, Probe.goTo, rest]
    simp [probe, Reply.stop]
  · intro text
    refine ⟨?_, fun c member => Quoted.not_mem_of_mem_quote member, fun left right =>
      Quoted.quote_eq_append_cons⟩
    rw [Quoted.quote, Quoted.encode_eq_foldl_escapes]
  · intro state node next found
    obtain ⟨text, same⟩ := exists_text_of_readString found
    exact ⟨text, same, fun after line level => readString_quote text after line level⟩

theorem quote_reads_back_lineBreak :
    readString ⟨"'it\\'s\n\\\\' x".toList, 3, 0⟩ =
        .found (.string "it's\n\\" 3) ⟨[' ', 'x'], 4, 0⟩ ∧
      Quoted.quote "it's\n\\" = "'it\\'s\\n\\\\'".toList ∧
      readString ⟨Quoted.quote "it's\n\\" ++ ['\''], 1, 2⟩ =
        .found (.string "it's\n\\" 1) ⟨['\''], 1, 2⟩ := by
  have found : readString ⟨"'it\\'s\n\\\\' x".toList, 3, 0⟩ =
      .found (.string "it's\n\\" 3) ⟨[' ', 'x'], 4, 0⟩ := by decide
  obtain ⟨text, same, again⟩ := quote_reads_back.2.2 _ _ _ found
  obtain rfl : "it's\n\\" = text := by simpa using same
  exact ⟨found, by decide, again ['\''] 1 2⟩

end IndentLisp
