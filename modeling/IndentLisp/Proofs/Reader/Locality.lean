import IndentLisp.Proofs.Reader.FollowingText
import IndentLisp.Proofs.Reader.Insertion
import IndentLisp.Proofs.Reader.Stops

/-!
# What readers see of the text

A reader that starts in a text which ends in a line feed replies in the same way whatever follows
that text, or else it reads on into what follows. Then it stops on a later line, and that shows.
-/

set_option autoImplicit false

namespace IndentLisp.Reader

open Grammar

/-- The unread text ends with a line, and the given line is the next one. -/
structure Before (line : Int) (state : State) : Prop where
  filled : state.rest ≠ []
  ended : Ended state.rest
  last : state.lastLine = line

/-- The reader has stopped on the line or further down. -/
def Reply.Beyond {α : Type} (line : Int) : Reply α → Prop
  | .found _ next => line ≤ next.line
  | .absent _ => False
  | .failed _ stop => line ≤ stop.line

/-- What the reader replies does not depend on what follows the text of the state, or else it reads
on into it. -/
inductive Local {α : Type} (line : Int) (reader : State → Reply α) (state : State) : Prop where
  | found {value : α} {next : State} : Before line next →
      (∀ more, reader (state.followedBy more) = .found value (next.followedBy more)) →
      Local line reader state
  | absent {next : State} :
      (∀ more, reader (state.followedBy more) = .absent (next.followedBy more)) →
      Local line reader state
  | failed {failure : Failure} {stop : State} :
      (∀ more, reader (state.followedBy more) = .failed failure (stop.followedBy more)) →
      Local line reader state
  | beyond : (∀ more, (reader (state.followedBy more)).Beyond line) → Local line reader state

namespace Local

variable {α : Type} {line : Int} {reader : State → Reply α} {state stop : State} {more : List Char}

/-- What a reader finds above the line, it finds whatever follows. -/
theorem of_found {value : α} (reads : Local line reader state)
    (read : reader (state.followedBy more) = .found value stop) (above : stop.line < line) :
    ∃ next, Before line next ∧ stop = next.followedBy more ∧
      ∀ other, reader (state.followedBy other) = .found value (next.followedBy other) := by
  cases reads with
  | @found _ next before found =>
      cases (found more).symm.trans read
      exact ⟨next, before, rfl, found⟩
  | absent absent => cases (absent more).symm.trans read
  | failed failed => cases (failed more).symm.trans read
  | beyond later =>
      have stopped := later more
      rw [read] at stopped
      exact absurd above (Int.not_lt.mpr stopped)

theorem of_failed {failure : Failure} (reads : Local line reader state)
    (read : reader (state.followedBy more) = .failed failure stop) (above : stop.line < line) :
    ∃ last : State, stop = last.followedBy more ∧
      ∀ other, reader (state.followedBy other) = .failed failure (last.followedBy other) := by
  cases reads with
  | found _ found => cases (found more).symm.trans read
  | absent absent => cases (absent more).symm.trans read
  | @failed _ last failed =>
      cases (failed more).symm.trans read
      exact ⟨last, rfl, failed⟩
  | beyond later =>
      have stopped := later more
      rw [read] at stopped
      exact absurd above (Int.not_lt.mpr stopped)

theorem of_absent (reads : Local line reader state)
    (read : reader (state.followedBy more) = .absent stop) :
    ∃ next : State, ∀ other, reader (state.followedBy other) = .absent (next.followedBy other) := by
  cases reads with
  | found _ found => cases (found more).symm.trans read
  | @absent next absent => exact ⟨next, absent⟩
  | failed failed => cases (failed more).symm.trans read
  | beyond later =>
      have stopped := later more
      rw [read] at stopped
      exact stopped.elim

end Local

section

variable {α β : Type} {line : Int} {state next : State}

private theorem Reply.Beyond.of_reaches {reply : Reply α} (reaches : reply.Reaches state)
    (later : line ≤ state.line) : reply.Beyond line := by
  cases reaches with
  | found passes _ | failed passes _ _ => exact Int.le_trans later passes.line_le

private theorem Reply.Beyond.map {reply : Reply α} (beyond : reply.Beyond line) (f : α → β) :
    (reply.map f).Beyond line := by
  cases reply with
  | absent => exact beyond.elim
  | found | failed => exact beyond

/-- A reading that is past the line stays there, however it goes on. -/
private theorem Reply.Beyond.of_first {reply : Reply α} {whole : Reply β}
    (beyond : reply.Beyond line)
    (found : ∀ value next, reply = .found value next → whole.Reaches next)
    (failed : ∀ failure stop, reply = .failed failure stop → whole = .failed failure stop) :
    whole.Beyond line := by
  cases reply with
  | absent => exact beyond.elim
  | failed failure stop =>
      rw [failed failure stop rfl]
      exact beyond
  | found value next => exact .of_reaches (found value next rfl) beyond

/-! ## Skipping -/

private theorem Before.of_passes {text : List Char} (before : Before line state)
    (passes : Passes state text next) (filled : next.rest ≠ []) : Before line next := by
  refine ⟨filled, fun c last => before.ended c ?_, ?_⟩
  · rw [passes.rest, getLast?_append filled]
    exact last
  · rw [← before.last, State.lastLine, State.lastLine, passes.rest, lineEnds_append passes.joins,
      passes.line]
    omega

private theorem Before.line_eq {text : List Char} (before : Before line state)
    (passes : Passes state text next) (used : next.rest = []) : next.line = line := by
  rw [← before.last, State.lastLine, passes.line, passes.rest, used, List.append_nil]

private theorem Before.of_cons {c : Char} {rest : List Char} {line' level : Int}
    (before : Before line ⟨c :: rest, line', level⟩) (inside : isLineBreak c = false) :
    Before line ⟨rest, line', level⟩ := by
  have other : c ≠ '\n' := by
    rintro rfl
    cases inside
  exact before.of_passes
    (.of_inside (List.forall_mem_singleton.mpr inside) rest line' level level)
    (ended_of_cons before.ended other).1

private theorem Before.of_append {left right : List Char} {line' level : Int}
    (before : Before line ⟨left ++ right, line', level⟩)
    (inside : ∀ c ∈ left, isLineBreak c = false) : Before line ⟨right, line', level⟩ := by
  induction left with
  | nil => exact before
  | cons c left ih =>
      obtain ⟨first, others⟩ := List.forall_mem_cons.mp inside
      exact ih (before.of_cons first) others

theorem Before.skipSpace (before : Before line state) : Before line state.skipSpace :=
  ⟨skipSpace_ne_nil before.filled before.ended, ended_skipSpace before.ended,
    (lastLine_skipSpace state).trans before.last⟩

theorem Before.skipBlankLines (before : Before line state) :
    (Before line state.skipBlankLines ∧
      ∀ more, (state.followedBy more).skipBlankLines = state.skipBlankLines.followedBy more) ∨
    ∀ more, line ≤ (state.followedBy more).skipBlankLines.line := by
  have last : state.skipBlankLines.lastLine = line :=
    (lastLine_skipBlankLines state).trans before.last
  by_cases empty : state.skipBlankLines.rest = []
  · refine .inr fun more => ?_
    rcases skipBlankLines_followedBy before.ended more with ⟨-, skipped⟩ | ⟨filled, -⟩
    · obtain ⟨_, passes⟩ := Passes.skipBlankLines ⟨more, state.skipBlankLines.line, state.level⟩
      have here : state.skipBlankLines.line = line := by
        rw [← last, State.lastLine, empty]
        exact (Int.add_zero _).symm
      rw [skipped, ← here]
      exact passes.line_le
    · exact absurd empty filled
  · refine .inl ⟨⟨empty, ended_skipBlankLines before.ended, last⟩, fun more => ?_⟩
    rcases skipBlankLines_followedBy before.ended more with ⟨used, -⟩ | ⟨-, skipped⟩
    · exact absurd used empty
    · exact skipped

private theorem Before.skipGap (before : Before line state) :
    (Before line state.skipGap ∧
      ∀ more, (state.followedBy more).skipGap = state.skipGap.followedBy more) ∨
    ∀ more, line ≤ (state.followedBy more).skipGap.line := by
  rcases before.skipBlankLines with ⟨skipped, same⟩ | later
  · refine .inl ⟨skipped.skipSpace, fun more => ?_⟩
    rw [State.skipGap, same, skipSpace_followedBy skipped.filled skipped.ended]
    rfl
  · exact .inr later

private theorem take?_followedBy {c : Char} (filled : state.rest ≠ []) (more : List Char) :
    (state.followedBy more).take? c = (state.take? c).map (State.followedBy · more) := by
  obtain ⟨text, line, level⟩ := state
  obtain ⟨d, rest, rfl⟩ := List.exists_cons_of_ne_nil filled
  rw [State.followedBy, List.cons_append, Insertion.take?_cons, Insertion.take?_cons]
  split <;> rfl

private theorem Before.of_take? {c : Char} (before : Before line state)
    (inside : isLineBreak c = false) (taken : state.take? c = some next) : Before line next := by
  obtain ⟨split, same⟩ := take?_eq_some_iff.mp taken
  rw [same]
  refine Before.of_cons ?_ inside
  rwa [← split]

/-! ## Tokens -/

/-- A run of characters of a line ends before the line feed at the latest. -/
private theorem Before.exists_run {p : Char → Bool} (before : Before line state)
    (breaks : ∀ c, p c = true → isLineBreak c = false) :
    ∃ run next, state = ⟨run ++ next.rest, next.line, next.level⟩ ∧ (∀ c ∈ run, p c = true) ∧
      Before line next ∧ (∀ more, StartsWithout p (next.rest ++ more)) := by
  obtain ⟨text, line', level⟩ := state
  obtain ⟨run, after, rfl, inside, outside⟩ := Reader.exists_run p text
  have behind := before.of_append fun c member => breaks c (inside c member)
  refine ⟨run, ⟨after, line', level⟩, rfl, inside, behind, fun more => ?_⟩
  obtain ⟨c, rest, split⟩ := List.exists_cons_of_ne_nil behind.filled
  dsimp only at split ⊢
  rw [split] at outside ⊢
  exact startsWithout_cons.mpr (startsWithout_cons.mp outside)

private theorem readNumber_local (before : Before line state) : Local line readNumber state := by
  obtain ⟨digits, next, rfl, decimal, behind, outside⟩ := before.exists_run (p := Char.isDigit)
    fun c => not_isLineBreak_of_isDigit
  have obstacle (more : List Char) :
      numberObstacle? (next.rest ++ more) = numberObstacle? next.rest := by
    obtain ⟨c, rest, split⟩ := List.exists_cons_of_ne_nil behind.filled
    rw [split]
    rfl
  have read (more : List Char) := readNumber_append decimal (outside more) next.line next.level
  simp only [← List.append_assoc, obstacle] at read
  by_cases none : digits = []
  · exact @Local.absent _ _ _ _ next fun more => (read more).trans (if_pos none)
  · simp only [if_neg none] at read
    cases free : numberObstacle? next.rest with
    | some c =>
        simp only [free] at read
        exact @Local.failed Node line readNumber _ _ next read
    | none =>
        simp only [free] at read
        by_cases short : digits.length ≤ Numeral.digitLimit
        · simp only [if_pos short] at read
          exact .found behind read
        · simp only [if_neg short] at read
          exact @Local.failed Node line readNumber _ _ next read

private theorem readSymbol_local (before : Before line state) : Local line readSymbol state := by
  obtain ⟨name, next, rfl, letters, behind, outside⟩ :=
    before.exists_run (p := fun c => !endsSymbol c) fun c => not_isLineBreak_of_not_endsSymbol
  have read (more : List Char) := readSymbol_append letters (outside more) next.line next.level
  simp only [← List.append_assoc] at read
  by_cases none : name = []
  · exact @Local.absent _ _ _ _ next fun more => (read more).trans (if_pos none)
  · simp only [if_neg none] at read
    exact .found behind read

/-- The literal that is open at the state. -/
def literal (state : State) : Reply (List Char) := readLiteral state.level state.rest state.line

theorem Local.congr {reader reader' : State → Reply α} {state' : State}
    (inner : Local line reader state)
    (same : ∀ more, reader' (state'.followedBy more) = reader (state.followedBy more)) :
    Local line reader' state' := by
  cases inner with
  | found before read => exact .found before fun more => (same more).trans (read more)
  | absent read => exact .absent fun more => (same more).trans (read more)
  | failed read => exact .failed fun more => (same more).trans (read more)
  | beyond later => exact .beyond fun more => same more ▸ later more

/-- A reader that goes on from another state and changes what is found there. -/
private theorem Local.of_map {reader : State → Reply α} {reader' : State → Reply β} {state' : State}
    (inner : Local line reader state) (f : α → β)
    (same : ∀ more, reader' (state'.followedBy more) = (reader (state.followedBy more)).map f) :
    Local line reader' state' := by
  cases inner with
  | found before read => exact .found before fun more => by rw [same, read]; rfl
  | @absent next read =>
      exact @Local.absent _ _ _ _ next fun more => by rw [same, read]; rfl
  | failed read => exact .failed fun more => by rw [same, read]; rfl
  | beyond later => exact .beyond fun more => by rw [same]; exact (later more).map f

/-- Raw text of a literal is passed. When it is the last of the text, reading goes on into what
follows. -/
private theorem literal_raw {text : List Char} (before : Before line state)
    (passes : Passes state text next) (inner : Before line next → Local line literal next)
    (read : ∀ more, literal (state.followedBy more) =
      (literal (next.followedBy more)).map (text ++ ·)) : Local line literal state := by
  by_cases used : next.rest = []
  · have here := before.line_eq passes used
    refine .beyond fun more => ?_
    rw [read]
    apply Reply.Beyond.map
    exact .of_reaches (readLiteral_reaches _ _ _) (Int.le_of_eq here.symm)
  · exact (inner (before.of_passes passes used)).of_map (text ++ ·) read

private theorem literal_local {text : List Char} {line' level : Int}
    (before : Before line ⟨text, line', level⟩) : Local line literal ⟨text, line', level⟩ := by
  fun_induction readLiteral level text line' with
  | case1 => exact absurd rfl before.filled
  | case2 rest line' =>
      refine @Local.found _ _ _ _ [] _ (before.of_cons rfl) fun more => ?_
      simp only [literal, State.followedBy, List.cons_append, readLiteral]
  | case3 => exact absurd (before.ended _ rfl) (by decide)
  | case4 c rest line' meant escape ih =>
      have inside := not_isLineBreak_of_unescape? escape
      refine (ih ((before.of_cons rfl).of_cons inside)).of_map (meant :: ·) fun more => ?_
      simp only [literal, State.followedBy, List.cons_append, readLiteral, escape]
  | case5 c rest line' unknown =>
      refine @Local.failed _ _ _ _ (.problem (.badEscape (some c)))
        ⟨'\\' :: c :: rest, line', level⟩ fun more => ?_
      simp only [literal, State.followedBy, List.cons_append, readLiteral, unknown]
      rfl
  | case6 rest line' ih =>
      have passes : Passes ⟨'\r' :: '\n' :: rest, line', level⟩ ['\r', '\n']
          ⟨rest, line' + 1, level⟩ := ⟨rfl, rfl, joins_return_feed rest⟩
      exact literal_raw before passes ih fun more => by
        simp only [literal, State.followedBy, List.cons_append, readLiteral]
        rfl
  | case7 c rest line' noQuote lone noEscape noPair ih =>
      have notEscape := ne_backslash lone noEscape
      have joins (more : List Char) : Joins [c] (rest ++ more) := by
        intro last followed
        obtain rfl : c = '\r' := Option.some.inj last
        cases rest with
        | nil => exact absurd (before.ended _ rfl) (by decide)
        | cons d rest =>
            obtain rfl : d = '\n' := Option.some.inj followed
            exact noPair rest rfl rfl
      have passes : Passes ⟨c :: rest, line', level⟩ [c]
          ⟨rest, if isLineBreak c then line' + 1 else line', level⟩ :=
        ⟨rfl, (add_lineEnds_singleton line' c).symm, (joins []).of_append_right⟩
      refine literal_raw before passes ih fun more => ?_
      have raw := readLiteral_raw noQuote notEscape (joins more) level line'
      rw [add_lineEnds_singleton] at raw
      exact raw

private theorem readString_local (before : Before line state) : Local line readString state := by
  have taken (more : List Char) := take?_followedBy (c := '\'') before.filled more
  cases opened : state.take? '\'' with
  | none =>
      simp only [opened, Option.map_none] at taken
      exact @Local.absent _ _ _ _ state fun more => by rw [readString, taken]
  | some inside =>
      simp only [opened, Option.map_some] at taken
      refine (literal_local (before.of_take? rfl opened)).of_map
        (fun text => .string (String.ofList text) state.line) fun more => ?_
      rw [readString, taken]
      rfl

/-! ## Items -/

private theorem Local.firstOf {readers : List (State → Reply α)}
    (keep : ∀ reader ∈ readers, KeepsPlace reader)
    (each : ∀ reader ∈ readers, Local line reader state) : Local line (firstOf readers) state := by
  induction readers with
  | nil => exact @Local.absent _ _ _ _ state fun more => rfl
  | cons reader readers ih =>
      obtain ⟨keeps, keep⟩ := List.forall_mem_cons.mp keep
      obtain ⟨first, others⟩ := List.forall_mem_cons.mp each
      cases first with
      | found before read => exact .found before fun more => by rw [Reader.firstOf, read]
      | failed read => exact .failed fun more => by rw [Reader.firstOf, read]
      | absent read =>
          exact (ih keep others).congr fun more => by rw [Reader.firstOf, read, keeps (read more)]
      | beyond later =>
          refine .beyond fun more => ?_
          have stopped := later more
          rw [Reader.firstOf]
          cases result : reader (state.followedBy more) with
          | absent =>
              rw [result] at stopped
              exact stopped.elim
          | found | failed =>
              rw [result] at stopped
              exact stopped

private theorem refuseBracket_local (before : Before line state) :
    Local line refuseBracket state := by
  have array (more : List Char) := take?_followedBy (c := '[') before.filled more
  have parenthesis (more : List Char) := take?_followedBy (c := '(') before.filled more
  by_cases bracket : (state.take? '[').isSome || (state.take? '(').isSome
  · refine @Local.failed _ _ _ _ (.problem .tooDeep) state fun more => ?_
    rw [Correspondence.refuseBracket_eq, array, parenthesis, Option.isSome_map, Option.isSome_map,
      if_pos bracket]
    rfl
  · refine @Local.absent _ _ _ _ state fun more => ?_
    rw [Correspondence.refuseBracket_eq, array, parenthesis, Option.isSome_map, Option.isSome_map,
      if_neg bracket]

/-- The items of this nesting are read locally. -/
def ReadsLocally (line : Int) (reader : State → Reply α) : Prop :=
  ∀ {state : State}, Before line state → Local line reader state

private theorem readHead_local {reader : State → Reply Node} (items : Local line reader state) :
    Local line (readHead reader) state := by
  cases items with
  | @absent next read =>
      exact @Local.absent _ _ _ _ next fun more => by rw [readHead, read]; rfl
  | failed read => exact .failed fun more => by rw [readHead, read]; rfl
  | @found node next before read =>
      cases problem : headProblem? node with
      | none =>
          refine @Local.found _ _ _ _ node _ before fun more => ?_
          simp only [readHead, read, Reply.bind, problem]
      | some cause =>
          refine @Local.failed _ _ _ _ (.problem cause) next fun more => ?_
          simp only [readHead, read, Reply.bind, problem]
          rfl
  | beyond later =>
      refine .beyond fun more => (later more).of_first (fun node next result => ?_)
        fun failure stop result => ?_
      · rw [readHead, result, Reply.bind]
        cases headProblem? node with
        | none => exact .found (.refl next) rfl
        | some problem => exact .refuse next problem
      · rw [readHead, result, Reply.bind]

private theorem length_followedBy_nil (state : State) :
    (state.followedBy []).rest.length = state.rest.length := by
  rw [State.followedBy, List.append_nil]

private theorem itemsUntil_reaches (nesting : Nat) {closer : Char}
    (closes : isLineBreak closer = false) (problem : Nat → Problem) (count : Nat) (state : State) :
    (itemsUntil nesting closer problem count state).Reaches state :=
  readItems_reaches (readItem_stops nesting) closes problem _ count state

private theorem itemsUntil_local {nesting : Nat} (items : ReadsLocally line (readItem nesting))
    {closer : Char} (closes : isLineBreak closer = false) (problem : Nat → Problem) (count : Nat)
    (before : Before line state) :
    Local line (itemsUntil nesting closer problem count) state := by
  induction long : state.rest.length using Nat.strongRecOn generalizing state count with
  | ind size ih =>
      have shorter := length_skipGap_le state
      rcases before.skipGap with ⟨skipped, same⟩ | later
      · have equation (more : List Char) :=
          itemsUntil_eq nesting closer problem count (state.followedBy more)
        simp only [same] at equation
        cases items skipped with
        | @found node next behind read =>
            have less := consumes_readItem nesting (read [])
            rw [length_followedBy_nil, length_followedBy_nil] at less
            have rest := ih _ (by omega) (count + 1) behind rfl
            simp only [read] at equation
            exact rest.of_map (node :: ·) equation
        | failed read =>
            simp only [read] at equation
            exact .failed equation
        | absent read =>
            simp only [read, take?_followedBy skipped.filled] at equation
            cases taken : state.skipGap.take? closer with
            | some next =>
                simp only [taken, Option.map_some] at equation
                exact .found (skipped.of_take? closes taken) equation
            | none =>
                simp only [taken, Option.map_none] at equation
                exact @Local.failed _ _ _ _ _ state.skipGap equation
        | beyond later =>
            refine .beyond fun more => (later more).of_first (fun node next result => ?_)
              fun failure stop result => ?_
            · rw [equation, result]
              exact (itemsUntil_reaches _ closes _ _ _).map
            · rw [equation, result]
      · refine .beyond fun more => .of_reaches ?_ (later more)
        exact readItems_reaches_skipGap (readItem_stops nesting) closes _ _ _ _

private theorem readArray_local {nesting : Nat} (items : ReadsLocally line (readItem nesting)) :
    ReadsLocally line (readArray (readItem nesting)) := by
  intro state before
  have taken (more : List Char) := take?_followedBy (c := '[') before.filled more
  have equation (more : List Char) := readArray_eq nesting (state.followedBy more)
  simp only [taken] at equation
  cases opened : state.take? '[' with
  | none =>
      simp only [opened, Option.map_none] at equation
      exact @Local.absent _ _ _ _ state equation
  | some inside =>
      simp only [opened, Option.map_some] at equation
      exact (itemsUntil_local items rfl .arrayItems 0 (before.of_take? rfl opened)).of_map
        (fun items => .array items state.line) equation

private theorem readParenthesised_local {nesting : Nat}
    (items : ReadsLocally line (readItem nesting)) :
    ReadsLocally line (readParenthesised (readItem nesting)) := by
  intro state before
  have taken (more : List Char) := take?_followedBy (c := '(') before.filled more
  have equation (more : List Char) := readParenthesised_eq nesting (state.followedBy more)
  cases opened : state.take? '(' with
  | none =>
      simp only [taken, opened, Option.map_none] at equation
      exact @Local.absent _ _ _ _ state equation
  | some inside =>
      simp only [opened, Option.map_some] at taken
      rcases (before.of_take? rfl opened).skipGap with ⟨skipped, same⟩ | later
      · simp only [taken, same] at equation
        cases readHead_local (items skipped) with
        | @found head next behind read =>
            simp only [read] at equation
            exact (itemsUntil_local items rfl .arguments 0 behind).of_map
              (fun tail => .expression head tail false state.line) equation
        | absent read =>
            simp only [read] at equation
            exact @Local.failed _ _ _ _ _ inside.skipGap equation
        | failed read =>
            simp only [read] at equation
            exact .failed equation
        | beyond later =>
            refine .beyond fun more => (later more).of_first (fun head next result => ?_)
              fun failure stop result => ?_
            · rw [equation, result]
              exact (itemsUntil_reaches _ rfl _ _ _).map
            · rw [equation, result]
      · refine .beyond fun more => .of_reaches ?_ (later more)
        exact readParenthesised_reaches_skipGap (readItem_stops nesting) (taken more)

private theorem readItem_local (nesting : Nat) : ReadsLocally line (readItem nesting) :=
  readItem_induction (motive := ReadsLocally line)
    (fun _ keep each _ before => .firstOf keep fun reader member => each reader member before)
    readNumber_local readString_local refuseBracket_local readSymbol_local
    (fun _ => readArray_local) (fun _ => readParenthesised_local) nesting

/-! ## Phrases -/

private theorem arguments_local (nesting : Nat) (before : Before line state) :
    Local line (arguments nesting) state := by
  induction long : state.rest.length using Nat.strongRecOn generalizing state with
  | ind size ih =>
      have shorter := state.length_skipSpace_le
      have equation (more : List Char) := arguments_eq nesting (state.followedBy more)
      simp only [skipSpace_followedBy before.filled before.ended] at equation
      cases readItem_local nesting before.skipSpace with
      | @found node next behind read =>
          have less := consumes_readItem nesting (read [])
          rw [length_followedBy_nil, length_followedBy_nil] at less
          simp only [read] at equation
          exact (ih _ (by omega) behind rfl).of_map (node :: ·) equation
      | absent read =>
          simp only [read] at equation
          exact .found before.skipSpace equation
      | failed read =>
          simp only [read] at equation
          exact .failed equation
      | beyond later =>
          refine .beyond fun more => (later more).of_first (fun node next result => ?_)
            fun failure stop result => ?_
          · rw [equation, result]
            exact (arguments_reaches nesting next).map
          · rw [equation, result]

theorem phrase_local (nesting : Nat) (before : Before line state) :
    Local line (phrase nesting) state := by
  have equation (more : List Char) := phrase_eq nesting (state.followedBy more)
  cases readHead_local (readItem_local nesting before) with
  | @found head next behind read =>
      simp only [read, Reply.bind] at equation
      have others := arguments_local nesting behind
      exact others.of_map (fun nodes => ⟨head, nodes, state.line⟩) equation
  | absent read =>
      simp only [read, Reply.bind] at equation
      exact .absent equation
  | failed read =>
      simp only [read, Reply.bind] at equation
      exact .failed equation
  | beyond later =>
      refine .beyond fun more => (later more).of_first (fun head next result => ?_)
        fun failure stop result => ?_
      · rw [equation, result, Reply.bind]
        exact (arguments_reaches nesting next).map
      · rw [equation, result, Reply.bind]

end

end IndentLisp.Reader
