import IndentLisp.Node.Strings
import IndentLisp.Proofs.Reader.LineMove

/-!
# Other line ends

A text and the same text with other line ends are read in step, because no reader looks at how a
line ends. Only two things show it: the strings, whose literals may hold line ends, and a refused
escape of a line end.
-/

set_option autoImplicit false

namespace IndentLisp.Reader

open Grammar

/-- The second text is the first one, from the given line on, with other line ends. A line feed on
one of the first `lines` lines has become a carriage return or comes behind one. A line feed behind
these lines ends both texts. -/
inductive Respelt (lines : Int) : Int → List Char → List Char → Prop where
  | nil {line : Int} : Respelt lines line [] []
  | last {line : Int} : lines < line → Respelt lines line ['\n'] ['\n']
  | inside {line : Int} {c : Char} {text text' : List Char} :
      isLineBreak c = false → Respelt lines line text text' →
      Respelt lines line (c :: text) (c :: text')
  | pair {line : Int} {text text' : List Char} :
      line ≤ lines → Respelt lines (line + 1) text text' →
      Respelt lines line ('\n' :: text) ('\r' :: '\n' :: text')
  | alone {line : Int} {text text' : List Char} :
      line ≤ lines → text'.head? ≠ some '\n' → Respelt lines (line + 1) text text' →
      Respelt lines line ('\n' :: text) ('\r' :: text')

namespace Respelt

variable {lines line : Int} {text text' : List Char}

section

variable {p : Char → Bool}

private theorem dropWhile (stops : ∀ c, isLineBreak c = true → p c = false)
    (respelt : Respelt lines line text text') :
    Respelt lines line (text.dropWhile p) (text'.dropWhile p) := by
  have feed : ¬p '\n' = true := Bool.eq_false_iff.mp (stops '\n' rfl)
  have carriage : ¬p '\r' = true := Bool.eq_false_iff.mp (stops '\r' rfl)
  induction respelt with
  | nil => exact .nil
  | last late =>
      rw [List.dropWhile_cons_of_neg feed]
      exact .last late
  | @inside _ c _ _ inside rest ih =>
      by_cases passes : p c = true
      · rwa [List.dropWhile_cons_of_pos passes, List.dropWhile_cons_of_pos passes]
      · rw [List.dropWhile_cons_of_neg passes, List.dropWhile_cons_of_neg passes]
        exact .inside inside rest
  | pair early rest _ =>
      rw [List.dropWhile_cons_of_neg feed, List.dropWhile_cons_of_neg carriage]
      exact .pair early rest
  | alone early single rest _ =>
      rw [List.dropWhile_cons_of_neg feed, List.dropWhile_cons_of_neg carriage]
      exact .alone early single rest

private theorem takeWhile_eq (stops : ∀ c, isLineBreak c = true → p c = false)
    (respelt : Respelt lines line text text') : text'.takeWhile p = text.takeWhile p := by
  have feed : ¬p '\n' = true := Bool.eq_false_iff.mp (stops '\n' rfl)
  have carriage : ¬p '\r' = true := Bool.eq_false_iff.mp (stops '\r' rfl)
  induction respelt with
  | nil | last => rfl
  | @inside _ c _ _ _ _ ih =>
      by_cases passes : p c = true
      · rw [List.takeWhile_cons_of_pos passes, List.takeWhile_cons_of_pos passes, ih]
      · rw [List.takeWhile_cons_of_neg passes, List.takeWhile_cons_of_neg passes]
  | pair | alone => rw [List.takeWhile_cons_of_neg feed, List.takeWhile_cons_of_neg carriage]

end

private theorem isEmpty_eq (respelt : Respelt lines line text text') :
    text'.isEmpty = text.isEmpty := by
  cases respelt <;> rfl

private theorem head?_eq_iff {c : Char} (inside : isLineBreak c = false)
    (respelt : Respelt lines line text text') : text'.head? = some c ↔ text.head? = some c := by
  have noFeed : '\n' ≠ c := by
    rintro rfl
    cases inside
  have noReturn : '\r' ≠ c := by
    rintro rfl
    cases inside
  cases respelt <;> simp [noFeed, noReturn]

private theorem numberObstacle?_eq (respelt : Respelt lines line text text') :
    numberObstacle? text' = numberObstacle? text := by
  cases respelt <;> rfl

private theorem dropComment (respelt : Respelt lines line text text') :
    Respelt lines line (Reader.dropComment text) (Reader.dropComment text') := by
  cases respelt with
  | nil => exact .nil
  | last late => exact .last late
  | pair early rest => exact .pair early rest
  | alone early single rest => exact .alone early single rest
  | @inside _ c text text' inside rest =>
      by_cases isComment : c = ';'
      · subst isComment
        exact rest.dropWhile fun c isBreak => by rw [isBreak]; rfl
      · have kept (more : List Char) : Reader.dropComment (c :: more) = c :: more := by
          rw [Reader.dropComment]
          intro rest same
          exact isComment (List.cons.inj same).1
        rw [kept, kept]
        exact .inside inside rest

private theorem dropLineEnd? (respelt : Respelt lines line text text') :
    Option.Rel (Respelt lines (line + 1)) (IndentLisp.dropLineEnd? text)
      (IndentLisp.dropLineEnd? text') := by
  cases respelt with
  | nil => exact .none
  | last => exact .some .nil
  | pair _ rest => exact .some rest
  | @alone _ text text' _ single rest =>
      have dropped : IndentLisp.dropLineEnd? ('\r' :: text') = some text' :=
        dropLineEnd?_eq_some_iff.mpr ⟨['\r'], .return, rfl, fun _ => single⟩
      rw [dropped]
      exact .some rest
  | @inside _ c text text' inside rest =>
      have none (more : List Char) : IndentLisp.dropLineEnd? (c :: more) = none := by
        unfold IndentLisp.dropLineEnd?
        split
        all_goals first | rfl | (rename_i same; cases same; cases inside)
      rw [none, none]
      exact .none

end Respelt

/-- Causes of failure on the given line. They differ only if the line end itself is escaped. -/
inductive SameCause (lines line : Int) : Failure → Failure → Prop where
  | same {failure : Failure} :
      (line ≤ lines → failure ≠ .problem (.badEscape (some '\n'))) →
      SameCause lines line failure failure
  | escape : line ≤ lines →
      SameCause lines line (.problem (.badEscape (some '\n'))) (.problem (.badEscape (some '\r')))

private theorem SameCause.outside {lines line : Int} {problem : Problem}
    (outside : isBadEscape problem = false) :
    SameCause lines line (.problem problem) (.problem problem) := by
  refine .same fun _ same => ?_
  cases same
  cases outside

private theorem SameCause.numeralTooLong (lines line : Int) (digits : Nat) :
    SameCause lines line (.numeralTooLong digits) (.numeralTooLong digits) := by
  refine .same fun _ same => ?_
  cases same

/-- The nodes differ in their strings only. -/
def SameShape (node node' : Node) : Prop := node'.withoutStrings = node.withoutStrings

namespace SameShape

variable {nodes nodes' : List Node}

private theorem list (same : List.Forall₂ SameShape nodes nodes') :
    Node.withoutStringsList nodes' = Node.withoutStringsList nodes := by
  induction same with
  | nil => rfl
  | cons first _ ih => exact congrArg₂ List.cons first ih

private theorem headProblem?_eq {node node' : Node} (same : SameShape node node') :
    headProblem? node' = headProblem? node := by
  cases node <;> cases node' <;> first | rfl | cases same

theorem block (line : Int) (same : List.Forall₂ SameShape nodes nodes') :
    SameShape (.block nodes line) (.block nodes' line) :=
  congrArg (Node.block · line) (list same)

private theorem expression {head head' : Node} (lineForm : Bool) (line : Int)
    (first : SameShape head head') (same : List.Forall₂ SameShape nodes nodes') :
    SameShape (.expression head nodes lineForm line) (.expression head' nodes' lineForm line) :=
  congrArg₂ (Node.expression · · lineForm line) first (list same)

private theorem array (line : Int) (same : List.Forall₂ SameShape nodes nodes') :
    SameShape (.array nodes line) (.array nodes' line) :=
  congrArg (Node.array · line) (list same)

end SameShape

/-- The unread text of the second state is that of the first with other line ends. -/
inductive Respells (lines : Int) : State → State → Prop where
  | mk {text text' : List Char} {line : Int} (level : Int) :
      Respelt lines line text text' → Respells lines ⟨text, line, level⟩ ⟨text', line, level⟩

namespace Respells

variable {lines : Int} {state state' : State}

abbrev InStep (lines : Int) (reader : State → Reply Node) (state state' : State) : Prop :=
  Reply.Corresponds (Respells lines) id (SameCause lines) SameShape (reader state) (reader state')

private theorem stops_of_inside {p : Char → Bool} (inside : ∀ c, p c = true → isLineBreak c = false)
    (c : Char) (isBreak : isLineBreak c = true) : p c = false := by
  cases passes : p c with
  | false => rfl
  | true =>
      rw [inside c passes] at isBreak
      cases isBreak

private theorem skipSpace (respells : Respells lines state state') :
    Respells lines state.skipSpace state'.skipSpace := by
  obtain ⟨level, respelt⟩ := respells
  exact .mk level (respelt.dropWhile (stops_of_inside fun _ => not_isLineBreak_of_isSpace))

private theorem endLine? (respells : Respells lines state state') :
    Option.Rel (Respells lines) state.endLine? state'.endLine? := by
  obtain ⟨level, respelt⟩ := respells
  rw [State.endLine?, State.endLine?]
  rcases rel_outcome respelt.dropComment.dropLineEnd? with
    ⟨rest, rest', dropped, dropped', below⟩ | ⟨none, none'⟩
  · rw [dropped, dropped']
    exact .some (.mk level below)
  · rw [none, none']
    exact .none

private theorem skipBlankLines (respells : Respells lines state state') :
    Respells lines state.skipBlankLines state'.skipBlankLines :=
  skipBlankLines_inStep (fun on => on.skipSpace.endLine?) .inl respells

private theorem take?_of_isLineBreak {c d : Char} (inside : isLineBreak c = false)
    (isBreak : isLineBreak d = true) (rest : List Char) (line level : Int) :
    State.take? ⟨d :: rest, line, level⟩ c = none := by
  apply if_neg
  rintro rfl
  rw [inside] at isBreak
  cases isBreak

private theorem take? {c : Char} (inside : isLineBreak c = false)
    (respells : Respells lines state state') :
    Option.Rel (Respells lines) (state.take? c) (state'.take? c) := by
  obtain ⟨level, respelt⟩ := respells
  have feed := @take?_of_isLineBreak _ '\n' inside rfl
  have carriage := @take?_of_isLineBreak _ '\r' inside rfl
  cases respelt with
  | nil => exact .none
  | last | pair | alone =>
      simp only [feed, carriage]
      exact .none
  | inside _ rest =>
      rw [State.take?, State.take?]
      dsimp only
      split
      · exact .some (.mk level rest)
      · exact .none

private theorem tabs?_eq (respells : Respells lines state state') : state'.tabs? = state.tabs? := by
  obtain ⟨level, respelt⟩ := respells
  have stops (c : Char) (isBreak : isLineBreak c = true) : (c == '\t') = false := by
    rw [beq_eq_false_iff_ne]
    rintro rfl
    cases isBreak
  have behind := (respelt.dropWhile stops).head?_eq_iff (c := ' ') rfl
  rw [State.tabs?_eq, State.tabs?_eq, respelt.takeWhile_eq stops]
  exact ite_congr (propext behind) (fun _ => rfl) fun _ => rfl

private theorem readNumber (respells : Respells lines state state') :
    InStep lines Reader.readNumber state state' := by
  obtain ⟨level, respelt⟩ := respells
  have stops := stops_of_inside fun _ => not_isLineBreak_of_isDigit
  have rest := respelt.dropWhile stops
  simp only [InStep, Reader.readNumber, respelt.takeWhile_eq stops, rest.numberObstacle?_eq]
  split
  · exact .absent (.mk level rest)
  · split
    · exact .failed (.outside rfl) rfl
    · split
      · exact .found rfl (.mk level rest)
      · exact .failed (.numeralTooLong _ _ _) rfl

private theorem readSymbol (respells : Respells lines state state') :
    InStep lines Reader.readSymbol state state' := by
  obtain ⟨level, respelt⟩ := respells
  have stops := stops_of_inside fun _ => not_isLineBreak_of_not_endsSymbol
  simp only [InStep, Reader.readSymbol, respelt.takeWhile_eq stops]
  split
  · exact .absent (.mk level (respelt.dropWhile stops))
  · exact .found rfl (.mk level (respelt.dropWhile stops))

/-- Literals are read in step. Where their texts differ is not said here. -/
private theorem readLiteral {line : Int} {text text' : List Char} (level : Int)
    (respelt : Respelt lines line text text') :
    Reply.Corresponds (Respells lines) id (SameCause lines) (fun _ _ => True)
      (readLiteral level text line) (readLiteral level text' line) := by
  fun_induction Reader.readLiteral level text line generalizing text' with
  | case1 =>
      cases respelt
      exact .failed (.outside rfl) rfl
  | case2 rest line =>
      cases respelt with
      | inside _ rest => exact .found trivial (.mk level rest)
  | case3 =>
      cases respelt with
      | inside _ rest =>
          cases rest
          exact .failed (.same fun _ same => by cases same) rfl
  | case4 c rest line meant escape ih =>
      cases respelt with
      | inside _ rest =>
          have letter := not_isLineBreak_of_unescape? escape
          cases rest with
          | inside _ rest =>
              rw [Reader.readLiteral, escape]
              exact (ih rest).map fun _ => trivial
          | last | pair | alone => cases letter
  | case5 c rest line unknown =>
      cases respelt with
      | inside _ rest =>
          cases rest with
          | inside letter _ =>
              rw [Reader.readLiteral, unknown]
              refine .failed (.same fun _ => ?_) rfl
              rintro ⟨⟩
              cases letter
          | last late => exact .failed (.same fun early => absurd late (Int.not_lt.mpr early)) rfl
          | pair early | alone early => exact .failed (.escape early) rfl
  | case6 rest line ih =>
      cases respelt with
      | inside isBreak => cases isBreak
  | case7 c rest line noQuote lone noEscape noPair ih =>
      cases respelt with
      | last => exact (ih .nil).map fun _ => trivial
      | inside letter respelt =>
          rw [readLiteral_raw noQuote (ne_backslash lone noEscape) (.of_singleton letter _),
            lineEnds_cons_of_inside letter]
          rw [if_neg (Bool.eq_false_iff.mp letter)] at ih ⊢
          simpa using (ih respelt).map fun _ => trivial
      | pair _ rest => exact (ih rest).map fun _ => trivial
      | @alone _ _ text' _ single rest =>
          rw [@readLiteral_raw '\r' text' (by decide) (by decide) fun _ => single]
          exact (ih rest).map fun _ => trivial

private theorem readString (respells : Respells lines state state') :
    InStep lines Reader.readString state state' := by
  have opens := respells.take? (c := '\'') rfl
  obtain ⟨level, respelt⟩ := respells
  rw [InStep, Reader.readString, Reader.readString]
  generalize State.take? _ '\'' = inside' at opens ⊢
  generalize State.take? _ '\'' = inside at opens ⊢
  cases opens with
  | none => exact .absent (.mk level respelt)
  | some within =>
      obtain ⟨level, within⟩ := within
      exact (readLiteral level within).map fun _ => rfl

private theorem atom {reader : State → Reply Node}
    (token : reader ∈ [Reader.readNumber, Reader.readString, Reader.readSymbol])
    (respells : Respells lines state state') : InStep lines reader state state' :=
  atom_cases (motive := fun reader => InStep lines reader state state') token
    respells.readNumber respells.readString respells.readSymbol

end Respells

/-- A text and the same text with other line ends are read in step. -/
def respelling (lines : Int) : Correspondence where
  states := Respells lines
  starts := Respells lines
  moved := id
  causes := SameCause lines
  nodes := SameShape
  starts_of_states respells := respells
  lineMoved := by rintro _ _ ⟨⟩; rfl
  sameLevel := by rintro _ _ ⟨⟩; rfl
  withLevel := by
    rintro _ _ level ⟨_, respelt⟩
    exact .mk level respelt
  sameEnd := by
    rintro _ _ ⟨_, respelt⟩
    exact respelt.isEmpty_eq
  sameTabs respells := respells.skipBlankLines.tabs?_eq
  skipSpace := Respells.skipSpace
  skipBlankLines := Respells.skipBlankLines
  endLine respells := respells.skipSpace.endLine?
  bracket isBracket respells := by
    apply respells.take?
    simp only [List.mem_cons, List.not_mem_nil, or_false] at isBracket
    rcases isBracket with rfl | rfl | rfl | rfl <;> rfl
  atom token respells := respells.atom token
  sameProblem _ _ outside := .outside outside
  sameHeadProblem := SameShape.headProblem?_eq
  nodesBlock := SameShape.block
  nodesExpression := SameShape.expression
  nodesArray := SameShape.array

end IndentLisp.Reader
