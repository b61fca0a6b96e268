import IndentLisp.Proofs.Layout.Lines
import IndentLisp.Proofs.Program.Listing

/-!
# Indentation is block structure

A program of lines has a tree exactly if its lines are well indented and fit into the nesting. The
tree is the forest that the lines list. Otherwise the first line that breaks one of the rules is the
one that is reported.
-/

set_option autoImplicit false

namespace IndentLisp

open Grammar Reader

/-! ## Depths -/

private theorem steps_concat_iff {above : Option Nat} {depths : List Nat} {depth : Nat} :
    Steps (depthLimit above) (depths ++ [depth]) ↔
      Steps (depthLimit above) depths ∧ depth ≤ depthLimit (depthAbove above depths) := by
  induction depths generalizing above with
  | nil => simp [Steps, depthAbove]
  | cons first depths ih =>
      have further : Steps (first + 1) (depths ++ [depth]) ↔ _ := @ih (some first)
      rw [List.cons_append, Steps, Steps, further, depthAbove, and_assoc]
      rfl

private theorem excess_depthAbove (depths : List Nat) :
    excess (depthAbove none depths) =
      if depths.isEmpty then .indentedStart else .excessiveIndent := by
  have later : ∀ (depths : List Nat) (depth : Nat),
      excess (depthAbove (some depth) depths) = .excessiveIndent := by
    intro depths
    induction depths with
    | nil => exact fun _ => rfl
    | cons next depths ih => exact fun _ => ih next
  cases depths with
  | nil => rfl
  | cons depth depths => exact later depths depth

private theorem Forest.steps_preorder_append {α : Type} (forest : Forest α) {depth limit : Nat}
    {rest : List Nat} (within : depth ≤ limit) (steps : ∀ limit, depth ≤ limit → Steps limit rest) :
    Steps limit ((forest.preorder depth).map Prod.fst ++ rest) := by
  induction forest generalizing depth limit rest with
  | empty => exact steps limit within
  | cons root below others belowIH othersIH =>
      rw [preorder, List.map_cons, List.map_append, List.cons_append, List.append_assoc]
      refine ⟨within, belowIH (Nat.le_refl _) fun limit deeper => ?_⟩
      exact othersIH (Nat.le_of_succ_le deeper) steps

namespace SourceLine

/-! ## Listing lines -/

section

variable {nesting : Nat} {above : Option Nat} {line : SourceLine}

private theorem listing_text (plain : line.spaced = false) (number level : Int) (more : List Char) :
    listing nesting above ⟨line.text ++ more, number, level⟩ =
      if depthLimit above < line.depth then .error (.diagnosed ⟨excess above, number⟩)
      else listingFrom nesting line.depth ⟨line.text ++ more, number, level⟩ := by
  rw [listing_eq, skipBlankLines_text, atEnd_text, tabs?_text, plain]
  rfl

private theorem listing_spaced (spaced : line.spaced = true) (number level : Int)
    (more : List Char) :
    listing nesting above ⟨line.text ++ more, number, level⟩ =
      .error (.diagnosed ⟨.spacesInIndent, number⟩) := by
  rw [listing_eq, skipBlankLines_text, atEnd_text, tabs?_text, spaced]
  rfl

private theorem listingFrom_text (fits : line.depth + line.phrase.nesting < nesting) (count : Nat)
    (level : Int) (more : List Char) :
    listingFrom nesting line.depth ⟨line.text ++ more, 1 + count, level⟩ =
      (listing nesting (some line.depth)
          ⟨more, 1 + (count + lineEnds line.text : Nat), line.depth⟩).map
        ((line.depth, line.phrase.shiftLines count) :: ·) := by
  obtain ⟨inner, left⟩ : ∃ inner, nesting - line.depth = inner + 1 :=
    Nat.exists_eq_add_one.mpr (by omega)
  have read := @phrase_content line inner (by omega) count line.depth more
  have ended : State.endLine? ⟨'\n' :: more, 1 + count + lineEnds line.content, line.depth⟩ =
      some ⟨more, 1 + (count + lineEnds line.text : Nat), line.depth⟩ := by
    have next : (1 + count + lineEnds line.content + 1 : Int) =
        1 + (count + (lineEnds line.content + 1) : Nat) := by omega
    rw [lineEnds_text, ← next]
    rfl
  rw [listingFrom, left, skipSpace_text]
  dsimp only
  rw [read]
  dsimp only
  rw [ended]

/-- A line that is nested too deep is refused on one of its lines. -/
private theorem listingFrom_tooDeep (tooDeep : nesting ≤ line.depth + line.phrase.nesting)
    (count : Nat) (level : Int) {more : List Char} (ended : Ended ('\n' :: more)) :
    ∃ number : Int, 1 + count ≤ number ∧ number ≤ 1 + count + lineEnds line.content ∧
      listingFrom nesting line.depth ⟨line.text ++ more, 1 + count, level⟩ =
        .error (.diagnosed ⟨.tooDeep, number⟩) := by
  rw [listingFrom, skipSpace_text]
  cases left : nesting - line.depth with
  | zero => exact ⟨1 + count, by omega, by omega, rfl⟩
  | succ inner =>
      obtain ⟨stop, read, first, last⟩ :=
        @phrase_content_tooDeep line inner (by omega) count line.depth more ended
      exact ⟨stop.line, first, last, by dsimp only; rw [read]; rfl⟩

end

/-- Before its line feed, the text of lines does not end in a line break. -/
private theorem exists_textOf_eq_concat {lines : List SourceLine} (some : lines ≠ []) :
    ∃ body, textOf lines = body ++ ['\n'] ∧ ∀ c ∈ body.getLast?, isLineBreak c = false := by
  have last : lines = lines.dropLast ++ [lines.getLast some] :=
    (List.dropLast_concat_getLast some).symm
  generalize lines.dropLast = init, lines.getLast some = line at last
  obtain ⟨c, rest, content, -⟩ := line.starts
  refine ⟨textOf init ++ line.indentation ++ line.content, ?_, ?_⟩
  · simp [last, textOf, text]
  · intro d final
    apply WrittenPhrase.last_inside line.written
    rw [content] at final ⊢
    rwa [List.getLast?_append, List.getLast?_cons, Option.some_or, ← List.getLast?_cons] at final

private theorem terminated_textOf {lines : List SourceLine} (some : lines ≠ []) :
    terminated (textOf lines) = textOf lines := by
  obtain ⟨body, same, -⟩ := exists_textOf_eq_concat some
  rw [same]
  exact if_pos List.getLast?_concat

/-- The last line feed of the text may be left out. -/
theorem terminated_of_concat {lines : List SourceLine} (some : lines ≠ []) {body : List Char}
    (same : body ++ ['\n'] = textOf lines) : terminated body = textOf lines := by
  obtain ⟨other, split, inside⟩ := exists_textOf_eq_concat some
  obtain rfl := List.append_cancel_right (same.trans split)
  rw [split]
  exact if_neg fun last => absurd (inside _ last) (by decide)

private theorem ended_feed_textOf (lines : List SourceLine) : Ended ('\n' :: textOf lines) := by
  cases lines with
  | nil => exact ended_feed []
  | cons line lines =>
      obtain ⟨body, same, -⟩ := exists_textOf_eq_concat (List.cons_ne_nil line lines)
      rw [same]
      exact ended_feed ('\n' :: body)

theorem start_textOf {lines : List SourceLine} (some : lines ≠ []) :
    State.start (String.ofList (textOf lines)) = ⟨textOf lines, 1, -1⟩ := by
  rw [State.start, String.toList_ofList, terminated_textOf some]

private theorem listing_append {nesting : Nat} {above : Option Nat} {before : List SourceLine}
    (plain : ∀ line ∈ before, line.spaced = false)
    (steps : Steps (depthLimit above) (before.map depth)) (fits : Fits nesting before)
    (after : List SourceLine) (count : Nat) (level : Int) :
    listing nesting above ⟨textOf (before ++ after), 1 + count, level⟩ =
      (listing nesting (depthAbove above (before.map depth))
          ⟨textOf after, 1 + (count + lineEnds (textOf before) : Nat), level⟩).map
        (placed count before ++ ·) := by
  induction before generalizing above count level with
  | nil =>
      change listing nesting above ⟨textOf after, 1 + count, level⟩ =
        (listing nesting above ⟨textOf after, 1 + count, level⟩).map ([] ++ ·)
      cases listing nesting above ⟨textOf after, 1 + count, level⟩ <;> rfl
  | cons line before ih =>
      obtain ⟨plainLine, plain⟩ := List.forall_mem_cons.mp plain
      obtain ⟨fitsLine, fits⟩ := List.forall_mem_cons.mp fits
      obtain ⟨within, steps⟩ := steps
      rw [List.cons_append, textOf_cons, listing_text plainLine, if_neg (Nat.not_lt.mpr within),
        listingFrom_text fitsLine, @ih (some line.depth) plain steps fits, lineEnds_textOf_cons,
        ← Nat.add_assoc, List.map_cons, depthAbove, ← listing_withLevel _ level]
      dsimp only
      cases listing nesting (depthAbove (some line.depth) (before.map depth)) _ <;> rfl

/-! ## Parsing -/

variable {nesting : Nat}

def indentProblem (before : List SourceLine) (bad : SourceLine) : Problem :=
  if bad.spaced then .spacesInIndent
  else if before.isEmpty then .indentedStart else .excessiveIndent

private theorem message_indentProblem (before : List SourceLine) (bad : SourceLine) :
    (indentProblem before bad).message =
      if bad.spaced then "Malformed indentation (spaces)."
      else if before.isEmpty then "Internal error (bug in a parser)."
      else "Incorrect indentation (excessive)." := by
  unfold indentProblem
  split
  · rfl
  · split <;> rfl

private theorem wellIndented_concat_iff {before : List SourceLine} {line : SourceLine} :
    WellIndented (before ++ [line]) ↔
      WellIndented before ∧ line.spaced = false ∧
        line.depth ≤ depthLimit (depthAbove none (before.map depth)) := by
  have steps : Steps 0 (before.map depth ++ [line.depth]) ↔ _ := @steps_concat_iff none _ _
  simp only [WellIndented, List.map_append, List.map_cons, List.map_nil, steps,
    List.forall_mem_append, List.forall_mem_singleton, depthLimit]
  exact ⟨fun ⟨⟨old, new⟩, first, later⟩ => ⟨⟨old, first⟩, new, later⟩,
    fun ⟨⟨old, first⟩, new, later⟩ => ⟨⟨old, new⟩, first, later⟩⟩

theorem Lists.wellIndented {above : Nat} {lines : List SourceLine} {forest : Forest Phrase}
    (lists : Lists above 0 lines forest) : WellIndented lines := by
  refine ⟨lists.plain, ?_⟩
  have nothing (limit : Nat) (_ : 0 ≤ limit) : Steps limit [] := trivial
  have steps := forest.steps_preorder_append (Nat.le_refl 0) nothing
  rwa [List.append_nil, ← lists.placed, map_fst_placed] at steps

private theorem listing_textOf {lines : List SourceLine} (well : WellIndented lines)
    (fits : Fits nesting lines) :
    listing nesting none ⟨textOf lines, 1, -1⟩ = .ok (placed 0 lines) := by
  have whole := @listing_append nesting none lines well.1 well.2 fits [] 0 (-1)
  have ending (number : Int) (above : Option Nat) :
      listing nesting above ⟨textOf [], number, -1⟩ = .ok [] :=
    listing_of_atEnd (congrArg State.atEnd (@skipBlankLines_eq_self ⟨[], number, -1⟩ rfl))
  rw [List.append_nil, ending] at whole
  exact whole.trans (congrArg Except.ok (List.append_nil _))

theorem parse_of_listed {lines : List SourceLine} (some : lines ≠ []) (well : WellIndented lines)
    (fits : Fits nesting lines) {forest : Forest Phrase}
    (listed : forest.preorder 0 = placed 0 lines) :
    parse nesting (String.ofList (textOf lines)) = .ok (.block forest.nodes 1) := by
  have whole : listing nesting none (.start (String.ofList (textOf lines))) =
      .ok (forest.preorder 0) := by
    rw [start_textOf some, listing_textOf well fits, listed]
  obtain ⟨line, read, starts⟩ := parse_of_listing whole
  cases lines with
  | nil => exact absurd rfl some
  | cons first lines =>
      cases forest with
      | empty => cases listed
      | cons root below others =>
          obtain ⟨_, _, -, -, -, -, begins⟩ := placed_eq_cons listed.symm
          rw [read, ← starts root below others rfl, begins]
          rfl

/-- Lines that break neither rule are read as the only forest that they list. -/
private theorem parse_of_wellIndented {lines : List SourceLine} (some : lines ≠ [])
    (well : WellIndented lines) (fits : Fits nesting lines) :
    ∃ forest : Forest Phrase, forest.preorder 0 = placed 0 lines ∧
      (∀ other : Forest Phrase, other.preorder 0 = placed 0 lines → other = forest) ∧
      parse nesting (String.ofList (textOf lines)) = .ok (.block forest.nodes 1) := by
  have steps : Steps 0 ((placed 0 lines).map Prod.fst) := (map_fst_placed 0 lines).symm ▸ well.2
  obtain ⟨forest, listed⟩ := Forest.exists_preorder_eq steps
  refine ⟨forest, listed, ?_, parse_of_listed some well fits listed⟩
  intro other listed'
  exact Forest.eq_of_preorder_eq (listed'.trans listed.symm)

section

variable {before after : List SourceLine} {bad : SourceLine} (well : WellIndented before)
  (fits : Fits nesting before)

include well fits

/-- What is refused behind lines that break no rule is refused in the whole program. -/
private theorem parse_of_listing_after {error : ParseError}
    (refused : listing nesting (depthAbove none (before.map depth))
      ⟨textOf (bad :: after), 1 + (lineEnds (textOf before) : Nat), -1⟩ = .error error) :
    parse nesting (String.ofList (textOf (before ++ bad :: after))) = .error error := by
  have some : before ++ bad :: after ≠ [] := List.append_ne_nil_of_right_ne_nil before nofun
  apply parse_of_listing_error
  have whole := @listing_append nesting none before well.1 well.2 fits (bad :: after) 0 (-1)
  rw [Nat.zero_add, refused] at whole
  rw [start_textOf some]
  exact whole

private theorem parse_of_break (broken : ¬ WellIndented (before ++ [bad])) :
    parse nesting (String.ofList (textOf (before ++ bad :: after))) =
      .error (.diagnosed ⟨indentProblem before bad, 1 + (lineEnds (textOf before) : Nat)⟩) := by
  apply parse_of_listing_after well fits
  rw [textOf_cons, indentProblem]
  cases spaced : bad.spaced with
  | true => exact listing_spaced spaced _ _ _
  | false =>
      have excessive : depthLimit (depthAbove none (before.map depth)) < bad.depth :=
        Nat.lt_of_not_le fun within => broken (wellIndented_concat_iff.mpr ⟨well, spaced, within⟩)
      rw [listing_text spaced, if_pos excessive, excess_depthAbove]
      simp

private theorem parse_of_tooDeep (further : WellIndented (before ++ [bad]))
    (tooDeep : ¬ Fits nesting [bad]) :
    ∃ number : Int, 1 + lineEnds (textOf before) ≤ number ∧
      number ≤ 1 + lineEnds (textOf before) + lineEnds bad.content ∧
      parse nesting (String.ofList (textOf (before ++ bad :: after))) =
        .error (.diagnosed ⟨.tooDeep, number⟩) := by
  obtain ⟨-, plain, within⟩ := wellIndented_concat_iff.mp further
  have deep : nesting ≤ bad.depth + bad.phrase.nesting := by
    simpa [Fits] using tooDeep
  obtain ⟨number, first, last, refused⟩ :=
    listingFrom_tooDeep deep (lineEnds (textOf before)) (-1) (ended_feed_textOf after)
  refine ⟨number, first, last, parse_of_listing_after well fits ?_⟩
  rw [textOf_cons, listing_text plain, if_neg (Nat.not_lt.mpr within)]
  exact refused

end

private theorem exists_first_break {holds : List SourceLine → Prop} (lines : List SourceLine)
    (empty : holds []) (broken : ¬ holds lines) :
    ∃ before bad after, lines = before ++ bad :: after ∧ holds before ∧
      ¬ holds (before ++ [bad]) := by
  have further (before lines : List SourceLine) (kept : holds before)
      (broken : ¬ holds (before ++ lines)) :
      ∃ init bad after, before ++ lines = init ++ bad :: after ∧ holds init ∧
        ¬ holds (init ++ [bad]) := by
    induction lines generalizing before with
    | nil => exact absurd ((List.append_nil before).symm ▸ kept) broken
    | cons line lines ih =>
        by_cases longer : holds (before ++ [line])
        · rw [List.append_cons] at broken ⊢
          exact ih (before ++ [line]) longer broken
        · exact ⟨before, line, lines, rfl, kept, longer⟩
  exact further [] lines empty broken

private theorem exists_refusal {lines : List SourceLine}
    (broken : ¬ (WellIndented lines ∧ Fits nesting lines)) :
    ∃ before bad after, lines = before ++ bad :: after ∧ WellIndented before ∧
      Fits nesting before ∧
      (¬ WellIndented (before ++ [bad]) ∧
          parse nesting (String.ofList (textOf lines)) =
            .error (.diagnosed ⟨indentProblem before bad, 1 + (lineEnds (textOf before) : Nat)⟩) ∨
        WellIndented (before ++ [bad]) ∧ ¬ Fits nesting [bad] ∧
          ∃ number : Int, 1 + lineEnds (textOf before) ≤ number ∧
            number ≤ 1 + lineEnds (textOf before) + lineEnds bad.content ∧
            parse nesting (String.ofList (textOf lines)) =
              .error (.diagnosed ⟨.tooDeep, number⟩)) := by
  obtain ⟨before, bad, after, rfl, ⟨well, fits⟩, break_⟩ :=
    @exists_first_break (fun lines => WellIndented lines ∧ Fits nesting lines) lines
      ⟨⟨nofun, trivial⟩, nofun⟩ broken
  refine ⟨before, bad, after, rfl, well, fits, ?_⟩
  by_cases further : WellIndented (before ++ [bad])
  · have tooDeep : ¬ Fits nesting [bad] := fun fitsBad =>
      break_ ⟨further, List.forall_mem_append.mpr ⟨fits, fitsBad⟩⟩
    exact .inr ⟨further, tooDeep, parse_of_tooDeep well fits further tooDeep⟩
  · exact .inl ⟨further, parse_of_break well fits further⟩

/-- Lines are a program exactly if they are well indented and fit into the nesting. Its tree is the
only forest that they list. Otherwise the first line that breaks one of the rules is reported: with
the place at which it begins if it is badly indented, and else on one of its lines as nested too
deep. -/
theorem parse_textOf {lines : List SourceLine} (some : lines ≠ []) :
    ((∃ tree, parse nesting (String.ofList (textOf lines)) = .ok tree) ↔
      WellIndented lines ∧ Fits nesting lines) ∧
    (WellIndented lines → Fits nesting lines →
      ∃ forest : Forest Phrase, forest.preorder 0 = placed 0 lines ∧
        (∀ other : Forest Phrase, other.preorder 0 = placed 0 lines → other = forest) ∧
        parse nesting (String.ofList (textOf lines)) = .ok (.block forest.nodes 1)) ∧
    (¬ (WellIndented lines ∧ Fits nesting lines) →
      ∃ before bad after, lines = before ++ bad :: after ∧ WellIndented before ∧
        Fits nesting before ∧
        ((¬ WellIndented (before ++ [bad]) ∧ ∃ problem : Problem,
            parse nesting (String.ofList (textOf lines)) =
              .error (.diagnosed ⟨problem, 1 + (lineEnds (textOf before) : Nat)⟩) ∧
            problem.message =
              if bad.spaced then "Malformed indentation (spaces)."
              else if before.isEmpty then "Internal error (bug in a parser)."
              else "Incorrect indentation (excessive).") ∨
          (WellIndented (before ++ [bad]) ∧ ¬ Fits nesting [bad] ∧ ∃ number : Int,
            1 + lineEnds (textOf before) ≤ number ∧
            number ≤ 1 + lineEnds (textOf before) + lineEnds bad.content ∧
            parse nesting (String.ofList (textOf lines)) =
              .error (.diagnosed ⟨.tooDeep, number⟩)))) := by
  refine ⟨⟨?_, ?_⟩, parse_of_wellIndented some, ?_⟩
  · rintro ⟨tree, read⟩
    apply Classical.byContradiction
    intro broken
    obtain ⟨_, _, _, -, -, -, ⟨-, refused⟩ | ⟨-, -, _, -, -, refused⟩⟩ := exists_refusal broken
    all_goals
      rw [refused] at read
      cases read
  · rintro ⟨well, fits⟩
    obtain ⟨forest, -, -, read⟩ := parse_of_wellIndented some well fits
    exact ⟨_, read⟩
  · intro broken
    obtain ⟨before, bad, after, shape, well, fits, outcome⟩ := exists_refusal broken
    refine ⟨before, bad, after, shape, well, fits, outcome.imp_left fun ⟨break_, refused⟩ => ?_⟩
    exact ⟨break_, indentProblem before bad, refused, message_indentProblem before bad⟩

def ofName (depth : Nat) : SourceLine where
  depth := depth
  spaced := false
  content := ['f']
  phrase := ⟨.symbol "f" 1, [], 1⟩
  reads := ⟨0, ⟨['\n'], 1, -1⟩, rfl, rfl⟩

theorem parse_line_below_line :
    [ofName 0, ofName 1] ≠ [] ∧
      parse 2 (String.ofList (textOf [ofName 0, ofName 1])) =
        .ok (.block [.expression (.symbol "f" 1)
          [.block [.expression (.symbol "f" 2) [] true 2] 2] true 1] 1) := by
  have some : [ofName 0, ofName 1] ≠ [] := nofun
  have well : WellIndented [ofName 0, ofName 1] := by decide
  have fits : Fits 2 [ofName 0, ofName 1] := by decide
  obtain ⟨forest, -, unique, read⟩ := (parse_textOf some).2.1 well fits
  have same := unique (.cons ⟨.symbol "f" 1, [], 1⟩
    (.cons ⟨.symbol "f" 2, [], 2⟩ .empty .empty) .empty) rfl
  rw [← same] at read
  exact ⟨some, read⟩

/-! ## Lines that are nested too deep -/

private theorem lineEnds_textOf_eq_length {lines : List SourceLine}
    (single : ∀ line ∈ lines, lineEnds line.text = 1) :
    lineEnds (textOf lines) = lines.length := by
  induction lines with
  | nil => rfl
  | cons line lines ih =>
      obtain ⟨first, others⟩ := List.forall_mem_cons.mp single
      rw [lineEnds_textOf_cons, first, ih others, List.length_cons, Nat.add_comm]

private theorem steps_range' (first count : Nat) : Steps first (List.range' first count) := by
  induction count generalizing first with
  | zero => trivial
  | succ count ih => exact ⟨Nat.le_refl first, ih (first + 1)⟩

section

variable {last : SourceLine} {count : Nat} (plain : last.spaced = false)
  (deepest : last.depth = count)

include plain deepest

/-- Lines each of which is one level deeper than the line above it. -/
private theorem wellIndented_deeper : WellIndented ((List.range count).map ofName ++ [last]) := by
  have depths : ((List.range count).map ofName ++ [last]).map depth =
      List.range' 0 (count + 1) := by
    have same : depth ∘ ofName = id := rfl
    rw [List.map_append, List.map_map, same, List.map_id, List.map_singleton, deepest,
      ← List.range_succ, List.range_eq_range']
  refine ⟨List.forall_mem_append.mpr ⟨?_, List.forall_mem_singleton.mpr plain⟩, ?_⟩
  · exact List.forall_mem_map.mpr fun _ _ => rfl
  · rw [depths]
    exact steps_range' 0 (count + 1)

private theorem parse_deeper_tooDeep (single : lineEnds last.text = 1) (held : count ≤ nesting)
    (tooDeep : nesting ≤ count + last.phrase.nesting) :
    parse nesting (String.ofList (textOf ((List.range count).map ofName ++ [last]))) =
      .error (.diagnosed ⟨.tooDeep, count + 1⟩) := by
  have well := wellIndented_deeper plain deepest
  have fits : Fits nesting ((List.range count).map ofName) :=
    List.forall_mem_map.mpr fun _ member => Nat.lt_of_lt_of_le (List.mem_range.mp member) held
  have beyond : ¬ Fits nesting [last] := by
    intro fitsLast
    have below := fitsLast last (List.mem_singleton.mpr rfl)
    omega
  have ends : lineEnds (textOf ((List.range count).map ofName)) = count := by
    rw [lineEnds_textOf_eq_length (List.forall_mem_map.mpr fun depth _ => ?_), List.length_map,
      List.length_range]
    exact lineEnds_text (ofName depth)
  obtain ⟨number, first, least, refused⟩ :=
    @parse_of_tooDeep nesting _ [] last (wellIndented_concat_iff.mp well).1 fits well beyond
  rw [lineEnds_text] at single
  have place : number = count + 1 := by omega
  rwa [place] at refused

end

/-- Arrays inside one another, so many around an empty one. -/
def arrays : Nat → Node
  | 0 => .array [] 1
  | count + 1 => .array [arrays count] 1

private theorem nesting_arrays (count : Nat) : (arrays count).nesting = count + 1 := by
  induction count with
  | zero => rfl
  | succ count ih => simp only [arrays, Node.nesting, Node.nestingList, ih, Nat.max_zero]

private theorem lineParts_arrays (count : Nat) : Node.LineParts (.symbol "f" 1) [arrays count] where
  leads := rfl
  validHead := by decide
  valid := by
    induction count with
    | zero => rfl
    | succ count ih => rwa [arrays, Node.allItems, Node.isItem, Node.allItems, Bool.and_true]

/-- Lines each of which is read alone and that break no rule of indentation, but are no program: the
last is in too many blocks for the brackets on it. -/
theorem parse_arrays_tooDeep :
    let lines := (List.range 119).map ofName ++ [ofItems 119 (lineParts_arrays 429)]
    (∀ line ∈ lines, ∃ next,
      Reader.phrase 500 ⟨line.content ++ ['\n'], 1, -1⟩ = .found line.phrase next ∧
        next.rest = ['\n']) ∧
      WellIndented lines ∧
      parse 500 (String.ofList (textOf lines)) = .error (.diagnosed ⟨.tooDeep, 120⟩) := by
  intro lines
  have nesting : (ofItems 119 (lineParts_arrays 429)).phrase.nesting = 430 := by
    rw [nesting_ofItems, Node.nestingList, Node.nestingList, nesting_arrays]
    rfl
  have single := lineEnds_text_ofItems 119 (lineParts_arrays 429)
  refine ⟨fun line member => line.exists_phrase_content ?_, wellIndented_deeper rfl rfl,
    parse_deeper_tooDeep rfl rfl single (by decide) (by rw [nesting]; decide)⟩
  rcases List.mem_append.mp member with above | isLast
  · obtain ⟨depth, -, rfl⟩ := List.mem_map.mp above
    exact Nat.zero_le 500
  · rw [List.mem_singleton.mp isLast, nesting]
    decide

end SourceLine

end IndentLisp
