import IndentLisp.Proofs.Program.Blocks
import IndentLisp.Proofs.Program.WellFormed
import IndentLisp.Proofs.Reader.Bounds

/-!
# Listing the lines of a program

Reading without recursion into blocks: the phrases of a text from top to bottom, each with its
depth. The readers of blocks and lines find the forest of which this is the preorder listing, and
they fail exactly where the listing stops.
-/

set_option autoImplicit false

namespace IndentLisp.Reader

open Grammar SourceLine

/-! ## Blank lines -/

theorem skipBlankLines_withLevel (level : Int) (state : State) :
    State.skipBlankLines { state with level := level } =
      { state.skipBlankLines with level := level } := by
  induction state using State.skipBlankLines.induct with
  | case1 state next ended ih =>
      have ended' : (State.skipSpace { state with level := level }).endLine? =
          some { next with level := level } := by
        obtain ⟨rest, dropped, rfl⟩ := Option.map_eq_some_iff.mp ended
        exact Option.map_eq_some_iff.mpr ⟨rest, dropped, rfl⟩
      rw [skipBlankLines_of_endLine? ended, skipBlankLines_of_endLine? ended', ih]
  | case2 state content =>
      have content' : (State.skipSpace { state with level := level }).endLine? = none :=
        Option.map_eq_none_iff.mpr (Option.map_eq_none_iff.mp content)
      rw [skipBlankLines_eq_self content, skipBlankLines_eq_self content']

theorem endLine?_skipBlankLines (state : State) :
    state.skipBlankLines.skipSpace.endLine? = none := by
  induction state using State.skipBlankLines.induct with
  | case1 state next ended ih => rwa [skipBlankLines_of_endLine? ended]
  | case2 state content => rwa [skipBlankLines_eq_self content]

theorem skipBlankLines_skipBlankLines (state : State) :
    state.skipBlankLines.skipBlankLines = state.skipBlankLines :=
  skipBlankLines_eq_self (endLine?_skipBlankLines state)

/-! ## The listing -/

/-- How deep the first line may be, or the line below one of the given depth. -/
def depthLimit : Option Nat → Nat
  | none => 0
  | some depth => depth + 1

/-- The depth of the line above, behind lines of the given depths. -/
def depthAbove (above : Option Nat) : List Nat → Option Nat
  | [] => above
  | depth :: depths => depthAbove (some depth) depths

/-- Why a line cannot be deeper than the limit. -/
def excess : Option Nat → Problem
  | none => .indentedStart
  | some _ => .excessiveIndent

/-- The phrases of a text with their depths, below a line of the given depth, if there is one. A
line of the outermost block is in one block, and its brackets have the rest of the nesting. -/
def listing (nesting : Nat) (above : Option Nat) (state : State) :
    Except ParseError (List (Nat × Phrase)) :=
  let start := state.skipBlankLines
  if start.atEnd then .ok []
  else
    match start.tabs? with
    | none => .error (.diagnosed ⟨.spacesInIndent, start.line⟩)
    | some depth =>
      if depthLimit above < depth then .error (.diagnosed ⟨excess above, start.line⟩)
      else
        match nesting - depth with
        | 0 => .error (.diagnosed ⟨.tooDeep, start.line⟩)
        | inner + 1 =>
          match _read : phrase inner { start.skipSpace with level := depth } with
          | .failed failure stop => .error (failure.atState stop)
          | .absent _ => .error (.diagnosed ⟨.malformedLine, start.line⟩)
          | .found value stop =>
            match _ended : stop.endLine? with
            | none => .error (.diagnosed ⟨.malformedLine, stop.line⟩)
            | some below => (listing nesting (some depth) below).map ((depth, value) :: ·)
termination_by state.rest.length
decreasing_by
  have skipped : start.rest.length ≤ state.rest.length := length_skipBlankLines_le state
  have spaces := start.length_skipSpace_le
  have less := consumes_phrase _read
  have ended := State.length_lt_of_endLine? _ended
  dsimp only at less
  omega

/-- What is listed from a line of the given depth on. -/
def listingFrom (nesting depth : Nat) (start : State) :
    Except ParseError (List (Nat × Phrase)) :=
  match nesting - depth with
  | 0 => .error (.diagnosed ⟨.tooDeep, start.line⟩)
  | inner + 1 =>
    match phrase inner { start.skipSpace with level := depth } with
    | .failed failure stop => .error (failure.atState stop)
    | .absent _ => .error (.diagnosed ⟨.malformedLine, start.line⟩)
    | .found value stop =>
      match stop.endLine? with
      | none => .error (.diagnosed ⟨.malformedLine, stop.line⟩)
      | some below => (listing nesting (some depth) below).map ((depth, value) :: ·)

theorem listing_eq (nesting : Nat) (above : Option Nat) (state : State) :
    listing nesting above state =
      if state.skipBlankLines.atEnd then .ok []
      else
        match state.skipBlankLines.tabs? with
        | none => .error (.diagnosed ⟨.spacesInIndent, state.skipBlankLines.line⟩)
        | some depth =>
          if depthLimit above < depth then
            .error (.diagnosed ⟨excess above, state.skipBlankLines.line⟩)
          else listingFrom nesting depth state.skipBlankLines := by
  rw [listing]
  split
  · rfl
  · cases state.skipBlankLines.tabs? with
    | none => rfl
    | some depth =>
        dsimp only
        split
        · rfl
        · rw [listingFrom]
          cases nesting - depth with
          | zero => rfl
          | succ inner =>
              dsimp only
              split
              · next failed => rw [failed]
              · next absent => rw [absent]
              · next value stop found =>
                rw [found]
                dsimp only
                split
                · next none => rw [none]
                · next below ended => rw [ended]

variable {nesting : Nat}

theorem listing_of_skipBlankLines {above : Option Nat} {state state' : State} {level : Int}
    (same : state'.skipBlankLines = { state.skipBlankLines with level := level }) :
    listing nesting above state' = listing nesting above state := by
  rw [listing_eq, listing_eq, same]
  rfl

theorem listing_skipBlankLines (above : Option Nat) (state : State) :
    listing nesting above state.skipBlankLines = listing nesting above state :=
  listing_of_skipBlankLines (skipBlankLines_skipBlankLines state)

theorem listing_withLevel (above : Option Nat) (level : Int) (state : State) :
    listing nesting above { state with level := level } = listing nesting above state :=
  listing_of_skipBlankLines (skipBlankLines_withLevel level state)

theorem listing_of_atEnd {above : Option Nat} {state : State}
    (done : state.skipBlankLines.atEnd = true) : listing nesting above state = .ok [] := by
  rw [listing_eq, if_pos done]

/-- The limit does not matter for a line within it. -/
private theorem listing_congr {above above' : Option Nat} {state : State}
    (within : state.skipBlankLines.atEnd = false → ∃ depth,
      state.skipBlankLines.tabs? = some depth ∧ depth ≤ depthLimit above ∧
        depth ≤ depthLimit above') :
    listing nesting above state = listing nesting above' state := by
  rw [listing_eq, listing_eq]
  split
  · rfl
  · next more =>
    obtain ⟨depth, tabs, less, less'⟩ := within (by simpa using more)
    rw [tabs]
    dsimp only
    rw [if_neg (Nat.not_lt.mpr less), if_neg (Nat.not_lt.mpr less')]

/-- What the listing reads first: a line within the limits, up to the start of the next one. -/
structure FirstLine (nesting : Nat) (above : Option Nat) (state : State) (depth : Nat)
    (value : Phrase) (stop below : State) : Prop where
  more : state.skipBlankLines.atEnd = false
  tabs : state.skipBlankLines.tabs? = some depth
  within : depth ≤ depthLimit above
  held : depth < nesting
  read : phrase (nesting - (depth + 1)) { state.skipBlankLines.skipSpace with level := depth } =
    .found value stop
  ended : stop.endLine? = some below

section

variable {above : Option Nat} {state stop below : State} {depth : Nat} {value : Phrase}

theorem FirstLine.length_lt (first : FirstLine nesting above state depth value stop below) :
    below.rest.length < state.rest.length := by
  have skipped := length_skipBlankLines_le state
  have spaces := state.skipBlankLines.length_skipSpace_le
  have less := consumes_phrase first.read
  have ended := State.length_lt_of_endLine? first.ended
  dsimp only at less
  omega

theorem FirstLine.listing_eq (first : FirstLine nesting above state depth value stop below) :
    listing nesting above state =
      (listing nesting (some depth) below).map ((depth, value) :: ·) := by
  have held := first.held
  have left : nesting - depth = nesting - (depth + 1) + 1 := by omega
  rw [Reader.listing_eq, if_neg (by simp [first.more]), first.tabs]
  dsimp only
  rw [if_neg (Nat.not_lt.mpr first.within), listingFrom, left]
  dsimp only
  rw [first.read]
  dsimp only
  rw [first.ended]

theorem exists_firstLine {entries : List (Nat × Phrase)}
    (listed : listing nesting above state = .ok entries) :
    (state.skipBlankLines.rest = [] ∧ entries = []) ∨
      ∃ depth value stop below rest, FirstLine nesting above state depth value stop below ∧
        listing nesting (some depth) below = .ok rest ∧ entries = (depth, value) :: rest := by
  rw [Reader.listing_eq] at listed
  by_cases done : state.skipBlankLines.atEnd = true
  · rw [if_pos done] at listed
    exact .inl ⟨List.isEmpty_iff.mp done, (Except.ok.inj listed).symm⟩
  · rw [if_neg done] at listed
    cases tabs : state.skipBlankLines.tabs? with
    | none => simp [tabs] at listed
    | some depth =>
        simp only [tabs] at listed
        split at listed
        · cases listed
        · next within =>
          rw [listingFrom] at listed
          cases left : nesting - depth with
          | zero => simp [left] at listed
          | succ inner =>
              obtain rfl : inner = nesting - (depth + 1) := by omega
              cases read : phrase (nesting - (depth + 1))
                  { state.skipBlankLines.skipSpace with level := depth } with
              | absent | failed => simp [left, read] at listed
              | found value stop =>
                  cases ended : stop.endLine? with
                  | none => simp [left, read, ended] at listed
                  | some below =>
                      simp only [left, read, ended] at listed
                      cases following : listing nesting (some depth) below with
                      | error => rw [following] at listed; cases listed
                      | ok rest =>
                          rw [following] at listed
                          exact .inr ⟨depth, value, stop, below, rest, ⟨by simpa using done, tabs,
                            Nat.not_lt.mp within, by omega, read, ended⟩, following,
                            (Except.ok.inj listed).symm⟩

/-- The line holds a phrase that the grammar derives. -/
theorem FirstLine.written (first : FirstLine nesting above state depth value stop below)
    (ended : Ended state.rest) :
    ∃ text, Advances { state.skipBlankLines.skipSpace with level := depth } text stop ∧
      WrittenPhrase state.skipBlankLines.line text value stop.rest ∧
      depth + value.nesting < nesting ∧ Ended below.rest := by
  have endedStart := ended_skipSpace (ended_skipBlankLines ended)
  obtain ⟨text, advances, written, within⟩ :=
    written_of_readPhrase (by exact endedStart) first.read
  have held := first.held
  exact ⟨text, advances, written, by omega,
    ended_endLine? (Ended.of_advances (by exact endedStart) advances) first.ended⟩

end

/-! ## Lines and blocks -/

private theorem line_of_phrase {state next : State} {value : Phrase}
    (found : phrase nesting state = .found value next) : value.line = state.line := by
  rw [phrase_eq] at found
  obtain ⟨_, _, -, found⟩ := Reply.bind_eq_found_iff.mp found
  obtain ⟨_, -, rfl⟩ := Reply.map_eq_found_iff.mp found
  rfl

/-- A forest begins on the line, unless it is empty. -/
def StartsOn (line : Int) (forest : Forest Phrase) : Prop :=
  ∀ first deeper next, forest = .cons first deeper next → first.line = line

theorem exists_startsOn (forest : Forest Phrase) : ∃ line, StartsOn line forest := by
  cases forest with
  | empty => exact ⟨0, nofun⟩
  | cons first deeper next =>
      refine ⟨first.line, ?_⟩
      rintro _ _ _ ⟨⟩
      rfl

/-- Reading has come to the end of the text, or to a line outside the block of the given depth. Then
the level is again that of the line that the block belongs to. -/
structure Leaves (depth : Nat) (outside : Nat → Prop) (next : State) : Prop where
  ended : Ended next.rest
  skipped : next.skipBlankLines = next
  level : next.atEnd = false → next.level = depth - 1
  tabs : next.atEnd = false → ∃ count, next.tabs? = some count ∧ outside count

/-- A listing that starts with the given lines and goes on at the next state. -/
def ListsThen (whole : Except ParseError (List (Nat × Phrase))) (lines : List (Nat × Phrase))
    (rest : Except ParseError (List (Nat × Phrase))) : Prop :=
  whole = rest.map (lines ++ ·)

theorem ListsThen.trans {whole middle rest : Except ParseError (List (Nat × Phrase))}
    {lines more : List (Nat × Phrase)} (first : ListsThen whole lines middle)
    (second : ListsThen middle more rest) : ListsThen whole (lines ++ more) rest := by
  rw [ListsThen, first, second]
  cases rest with
  | error => rfl
  | ok => exact congrArg Except.ok (List.append_assoc _ _ _).symm

theorem ListsThen.error {whole rest : Except ParseError (List (Nat × Phrase))}
    {lines : List (Nat × Phrase)} {error : ParseError} (first : ListsThen whole lines rest)
    (failed : rest = .error error) : whole = .error error := by
  rw [first, failed]
  rfl

/-- The reply for a block is what the listing says. -/
def BlockListed (nesting : Nat) (above : Option Nat) (state : State) : Reply Body → Prop
  | .found body next => ∃ forest : Forest Phrase, body.children = forest.nodes ∧
      StartsOn body.line forest ∧
      ListsThen (listing nesting above state) (forest.preorder (depthLimit above))
        (listing nesting above next) ∧
      Leaves (depthLimit above) (· ≠ depthLimit above) next
  | .absent _ => False
  | .failed failure stop => listing nesting above state = .error (failure.atState stop)

/-- The reply for a line of the given depth is what the whole listing says. -/
def LineListed (nesting : Nat) (whole : Except ParseError (List (Nat × Phrase))) (depth : Nat)
    (start : Int) : Reply Node → Prop
  | .found node next => ∃ root below,
      (∀ others, (Forest.cons root below others).nodes = node :: others.nodes) ∧
      root.line = start ∧
      ListsThen whole ((depth, root) :: below.preorder (depth + 1))
        (listing nesting (some depth) next) ∧
      Leaves (depth + 1) (· ≠ depth + 1) next
  | .absent _ => False
  | .failed failure stop => whole = .error (failure.atState stop)

/-- The reply for the lines of a block of the given depth is what the whole listing says. -/
def LinesListed (nesting : Nat) (whole : Except ParseError (List (Nat × Phrase))) (depth : Nat)
    (start : Int) : Reply (List Node) → Prop
  | .found nodes next => ∃ root below others, nodes = (Forest.cons root below others).nodes ∧
      root.line = start ∧
      ListsThen whole ((Forest.cons root below others).preorder depth)
        (listing nesting (some depth) next) ∧
      Leaves depth (· < depth) next
  | .absent _ => False
  | .failed failure stop => whole = .error (failure.atState stop)

/-- Where so much nesting is left, blocks are read as they are listed. -/
def BlocksListed (nesting : Nat) : Prop :=
  ∀ {above : Option Nat} {state : State}, Ended state.rest → state.level = depthLimit above - 1 →
    BlockListed (nesting + depthLimit above) above state (block nesting state)

variable {state : State} {depth : Nat}

private theorem listingFrom_of_level (here : state.level = depth) :
    listingFrom (nesting + depth + 1) depth state =
      match phrase nesting state.skipSpace with
      | .failed failure stop => .error (failure.atState stop)
      | .absent _ => .error (.diagnosed ⟨.malformedLine, state.line⟩)
      | .found value stop =>
        match stop.endLine? with
        | none => .error (.diagnosed ⟨.malformedLine, stop.line⟩)
        | some below =>
          (listing (nesting + depth + 1) (some depth) below).map ((depth, value) :: ·) := by
  have left : nesting + depth + 1 - depth = nesting + 1 := by omega
  rw [listingFrom, left, ← here]
  rfl

private theorem line_listed (blocks : BlocksListed nesting) (ended : Ended state.rest)
    (here : state.level = depth) :
    LineListed (nesting + depth + 1) (listingFrom (nesting + depth + 1) depth state) depth
      state.line (line nesting state) := by
  have start := @listingFrom_of_level nesting _ _ here
  rw [line_eq]
  cases read : phrase nesting state.skipSpace with
  | absent | failed => rw [read] at start; exact start
  | found value stop =>
      obtain ⟨text, advances, -, -⟩ := written_of_readPhrase (ended_skipSpace ended) read
      have endedStop := Ended.of_advances (ended_skipSpace ended) advances
      rw [read] at start
      dsimp only at start ⊢
      cases last : stop.endLine? with
      | none => rw [last] at start; exact start
      | some below =>
          rw [last] at start
          dsimp only at start ⊢
          have level : below.level = depthLimit (some depth) - 1 := by
            obtain ⟨_, _, -, -, -, ending⟩ := endLine?_eq_some_iff.mp last
            have same : state.skipSpace.level = state.level := rfl
            rw [ending.level, advances.level, same, here, depthLimit]
            omega
          have listed := @blocks (some depth) below (ended_endLine? endedStop last) level
          cases result : block nesting below with
          | absent => rw [result] at listed; exact listed.elim
          | failed failure stop =>
              rw [result] at listed
              exact start.trans (congrArg _ listed)
          | found body next =>
              rw [result] at listed
              obtain ⟨forest, children, starts, lists, leaves⟩ := listed
              refine ⟨value, forest, ?_, (line_of_phrase read).trans rfl, ?_, leaves⟩
              · intro others
                rw [nodes_cons value others starts, ← children]
              · have first : ListsThen (listingFrom (nesting + depth + 1) depth state)
                    [(depth, value)] (listing (nesting + depth + 1) (some depth) below) := start
                exact first.trans lists

private theorem listing_eq_listingFrom {above : Option Nat} (skipped : state.skipBlankLines = state)
    (more : state.atEnd = false) (tabs : state.tabs? = some depth)
    (within : depth ≤ depthLimit above) :
    listing nesting above state = listingFrom nesting depth state := by
  rw [listing_eq, skipped, if_neg (by simp [more]), tabs]
  exact if_neg (Nat.not_lt.mpr within)

private theorem Leaves.of_atEnd {outside : Nat → Prop} (ended : Ended state.rest)
    (skipped : state.skipBlankLines = state) (done : state.atEnd = true) :
    Leaves depth outside state where
  ended := ended
  skipped := skipped
  level more := absurd (done.symm.trans more) nofun
  tabs more := absurd (done.symm.trans more) nofun

private theorem Leaves.mono {outside outside' : Nat → Prop} (leaves : Leaves depth outside state)
    (more : ∀ count, outside count → outside' count) : Leaves depth outside' state where
  ended := leaves.ended
  skipped := leaves.skipped
  level := leaves.level
  tabs rest := (leaves.tabs rest).imp fun count found => ⟨found.1, more count found.2⟩

/-- Behind a block it does not matter how deep the line before was. -/
private theorem Leaves.listing_congr {above : Option Nat}
    (leaves : Leaves (depthLimit above) (· < depthLimit above) state) :
    listing nesting (some (depthLimit above)) state = listing nesting above state := by
  apply Reader.listing_congr
  rw [leaves.skipped]
  intro more
  obtain ⟨count, tabs, less⟩ := leaves.tabs more
  exact ⟨count, tabs, Nat.le_of_lt (Nat.lt_succ_of_lt less), Nat.le_of_lt less⟩

private theorem Leaves.of_shallow {outside : Nat → Prop} {count : Nat}
    (leaves : Leaves (depth + 1) outside state) (more : state.atEnd = false)
    (tabs : state.tabs? = some count) (less : count < depth) :
    Leaves depth (· < depth) { state with level := state.level - 1 } where
  ended := leaves.ended
  skipped := by rw [skipBlankLines_withLevel, leaves.skipped]
  level _ := by
    have level := leaves.level more
    dsimp only
    omega
  tabs _ := ⟨count, tabs, less⟩

/-- A line with the lines of the same block that follow it. -/
private theorem LinesListed.cons {whole more : Except ParseError (List (Nat × Phrase))}
    {node : Node} {root : Phrase} {below : Forest Phrase} {start : Int} {reply : Reply (List Node)}
    (nodes : ∀ others, (Forest.cons root below others).nodes = node :: others.nodes)
    (lists : ListsThen whole ((depth, root) :: below.preorder (depth + 1)) more)
    (rest : LinesListed nesting more depth start reply) :
    LinesListed nesting whole depth root.line (reply.map (node :: ·)) := by
  cases reply with
  | absent => exact rest.elim
  | failed failure stop => exact lists.error rest
  | found others last =>
      obtain ⟨root', below', others', nodes', -, lists', leaves⟩ := rest
      refine ⟨root, below, .cons root' below' others', ?_, rfl, lists.trans lists', leaves⟩
      rw [nodes, ← nodes']

private theorem lines_listed (blocks : BlocksListed nesting) (ended : Ended state.rest)
    (here : state.level = depth) :
    LinesListed (nesting + depth + 1) (listingFrom (nesting + depth + 1) depth state) depth
      state.line (lines nesting state) := by
  induction long : state.rest.length using Nat.strongRecOn generalizing state with
  | ind length ih =>
      have listed := line_listed blocks ended here
      rw [lines_eq]
      cases result : line nesting state with
      | absent => rw [result] at listed; exact listed.elim
      | failed => rw [result] at listed; exact listed
      | found node next =>
          rw [result] at listed
          obtain ⟨root, below, nodes, begins, lists, leaves⟩ := listed
          have less := consumes_line nesting result
          rw [Reply.bind, leaves.skipped]
          have alone : ListsThen (listingFrom (nesting + depth + 1) depth state)
              ((Forest.cons root below .empty).preorder depth)
              (listing (nesting + depth + 1) (some depth) next) := by
            rw [Forest.preorder, Forest.preorder, List.append_nil]
            exact lists
          by_cases done : next.atEnd = true
          · rw [if_pos done]
            exact ⟨root, below, .empty, (nodes .empty).symm, begins, alone,
              .of_atEnd leaves.ended leaves.skipped done⟩
          · have more : next.atEnd = false := by simpa using done
            obtain ⟨count, tabs, other⟩ := leaves.tabs more
            have back : next.level = depth := by
              have level := leaves.level more
              omega
            rw [if_neg done, State.dedent_eq, State.nodent_eq]
            -- The next line is less deep, or as deep, or too deep.
            by_cases shallow : (count : Int) < next.level
            · rw [State.checked_of_passes tabs shallow]
              refine ⟨root, below, .empty, (nodes .empty).symm, begins, ?_,
                leaves.of_shallow more tabs (by omega)⟩
              rwa [← listing_withLevel _ (next.level - 1)] at alone
            · rw [State.checked_of_not_passes tabs shallow]
              by_cases same : (count : Int) = next.level
              · obtain rfl : count = depth := by omega
                rw [State.checked_of_passes tabs same]
                have rest := ih _ (by omega) leaves.ended back rfl
                have within : count ≤ depthLimit (some count) := Nat.le_succ count
                rw [← listing_eq_listingFrom leaves.skipped more tabs within] at rest
                have whole := LinesListed.cons nodes lists rest
                rwa [begins] at whole
              · rw [State.checked_of_not_passes tabs same]
                have deeper : depthLimit (some depth) < count := by
                  rw [depthLimit]
                  omega
                apply lists.error
                rw [listing_eq, leaves.skipped, if_neg done, tabs]
                exact if_pos deeper

/-- Lines make a block that begins where they do. -/
private theorem LinesListed.toBlock {above : Option Nat} {start : Int} {reply : Reply (List Node)}
    (listed :
      LinesListed nesting (listing nesting above state) (depthLimit above) start reply) :
    BlockListed nesting above state (reply.map fun children => ⟨children, start⟩) := by
  cases reply with
  | absent => exact listed.elim
  | failed failure stop => exact listed
  | found nodes next =>
      obtain ⟨root, below, others, rfl, begins, lists, leaves⟩ := listed
      refine ⟨.cons root below others, rfl, ?_, ?_, ?_⟩
      · rintro _ _ _ ⟨⟩
        exact begins
      · rw [ListsThen, lists, leaves.listing_congr]
      · exact leaves.mono fun count less => Nat.ne_of_lt less

private theorem block_listed_of_linesWithin
    (within : ∀ {depth : Nat} {start : State}, Ended start.rest → start.level = depth →
      LinesListed (nesting + depth) (listingFrom (nesting + depth) depth start) depth start.line
        (linesWithin nesting start)) :
    BlocksListed nesting := by
  intro above state ended level
  have skipped := skipBlankLines_skipBlankLines state
  have endedStart := ended_skipBlankLines ended
  have kept : state.skipBlankLines.level = state.level := by
    obtain ⟨_, -, advances⟩ := skipBlankLines_advances state
    exact advances.level
  have nothing : ListsThen (listing (nesting + depthLimit above) above state)
      (Forest.empty.preorder (depthLimit above))
      (listing (nesting + depthLimit above) above state.skipBlankLines) := by
    rw [listing_skipBlankLines, ListsThen]
    cases listing (nesting + depthLimit above) above state <;> rfl
  rw [block_eq]
  by_cases done : state.skipBlankLines.atEnd = true
  · rw [if_pos done]
    exact ⟨.empty, rfl, nofun, nothing, .of_atEnd endedStart skipped done⟩
  · have more : state.skipBlankLines.atEnd = false := by simpa using done
    rw [if_neg done, State.indent_eq]
    cases tabs : state.skipBlankLines.tabs? with
    | none =>
        rw [State.checked_of_none tabs]
        simp only [BlockListed, State.refuse]
        rw [listing_eq, if_neg done, tabs]
        rfl
    | some count =>
        by_cases opens : (count : Int) = state.skipBlankLines.level + 1
        · obtain rfl : count = depthLimit above := by omega
          rw [State.checked_of_passes tabs opens]
          have on : listing (nesting + depthLimit above) above state =
              listingFrom (nesting + depthLimit above) (depthLimit above)
                { state.skipBlankLines with level := state.skipBlankLines.level + 1 } :=
            (listing_skipBlankLines above state).symm.trans
              (listing_eq_listingFrom skipped more tabs (Nat.le_refl _))
          have listed := @within (depthLimit above)
            { state.skipBlankLines with level := state.skipBlankLines.level + 1 } endedStart
            opens.symm
          rw [← on] at listed
          exact listed.toBlock
        · -- The block is empty, and the line is left to the blocks around it.
          rw [State.checked_of_not_passes tabs opens]
          refine ⟨.empty, rfl, nofun, nothing, endedStart, skipped, ?_, ?_⟩
          · intro _
            rw [kept, level]
          · intro _
            exact ⟨count, tabs, fun same => opens (by rw [kept, level, same]; omega)⟩

theorem block_listed (nesting : Nat) : BlocksListed nesting := by
  induction nesting with
  | zero =>
      apply block_listed_of_linesWithin
      intro depth start _ _
      rw [listingFrom, Nat.add_sub_cancel]
      rfl
  | succ nesting ih =>
      apply block_listed_of_linesWithin
      intro depth start ended here
      rw [Nat.add_right_comm]
      exact lines_listed ih ended here

/-! ## Programs -/

/-- A program is read as the forest that its listing lists, or it fails as its listing does. -/
theorem program_listing (nesting : Nat) (ended : Ended state.rest) (level : state.level = -1) :
    (∃ (forest : Forest Phrase) (line : Int) (stop : State),
      program nesting state = .found ⟨forest.nodes, line⟩ stop ∧ StartsOn line forest ∧
        listing nesting none state = .ok (forest.preorder 0)) ∨
    ∃ failure stop, program nesting state = .failed failure stop ∧
      listing nesting none state = .error (failure.atState stop) := by
  have listed : BlockListed nesting none state (block nesting state) :=
    @block_listed nesting none state ended level
  cases result : block nesting state with
  | absent => rw [result] at listed; exact listed.elim
  | failed failure stop =>
      rw [result] at listed
      exact .inr ⟨failure, stop, by rw [program, result]; rfl, listed⟩
  | found body next =>
      rw [result] at listed
      obtain ⟨forest, children, starts, lists, leaves⟩ := listed
      by_cases done : next.atEnd = true
      · refine .inl ⟨forest, body.line, next, ?_, starts, ?_⟩
        · rw [program, result, ← children]
          exact if_pos done
        · rw [lists, listing_of_atEnd (by rw [leaves.skipped, done])]
          exact congrArg Except.ok (List.append_nil _)
      · -- Only an indented first line is left over.
        obtain ⟨count, tabs, other⟩ := leaves.tabs (by simpa using done)
        refine .inr ⟨.problem .indentedStart, next, ?_, lists.error ?_⟩
        · rw [program, result]
          exact if_neg done
        · rw [listing_eq, leaves.skipped, if_neg done, tabs]
          exact if_pos (Nat.pos_of_ne_zero other)

theorem ended_start (source : String) : Ended (State.start source).rest := by
  intro c last
  rw [State.start, getLast?_terminated] at last
  exact (Option.some.inj last).symm

theorem program_ne_absent (ended : Ended state.rest) (level : state.level = -1) (next : State) :
    program nesting state ≠ .absent next := by
  intro absent
  rcases program_listing nesting ended level with ⟨_, _, _, found, -⟩ | ⟨_, _, failed, -⟩
  · rw [absent] at found
    cases found
  · rw [absent] at failed
    cases failed

/-- A source text is parsed as the forest that its listing lists, or refused as its listing is. -/
theorem parse_listing (nesting : Nat) (source : String) :
    (∃ (forest : Forest Phrase) (line : Int),
      parse nesting source = .ok (.block forest.nodes line) ∧ StartsOn line forest ∧
        listing nesting none (.start source) = .ok (forest.preorder 0)) ∨
    ∃ error, parse nesting source = .error error ∧
      listing nesting none (.start source) = .error error := by
  rcases program_listing nesting (ended_start source) rfl with
    ⟨forest, line, stop, read, starts, listed⟩ | ⟨failure, stop, read, listed⟩
  · exact .inl ⟨forest, line, by rw [parse, read]; rfl, starts, listed⟩
  · exact .inr ⟨failure.atState stop, by rw [parse, read], listed⟩

theorem exists_forest_of_parse {source : String} {tree : Node}
    (parsed : parse nesting source = .ok tree) :
    ∃ (forest : Forest Phrase) (line : Int), tree = .block forest.nodes line ∧
      StartsOn line forest ∧ listing nesting none (.start source) = .ok (forest.preorder 0) := by
  rcases parse_listing nesting source with ⟨forest, line, read, starts, listed⟩ | ⟨_, failed, -⟩
  · exact ⟨forest, line, Except.ok.inj (parsed.symm.trans read), starts, listed⟩
  · rw [parsed] at failed
    cases failed

theorem parse_of_listing {source : String} {forest : Forest Phrase}
    (listed : listing nesting none (.start source) = .ok (forest.preorder 0)) :
    ∃ line, parse nesting source = .ok (.block forest.nodes line) ∧ StartsOn line forest := by
  rcases parse_listing nesting source with ⟨other, line, read, starts, listed'⟩ | ⟨_, -, listed'⟩
  · obtain rfl := Forest.eq_of_preorder_eq (Except.ok.inj (listed'.symm.trans listed))
    exact ⟨line, read, starts⟩
  · rw [listed] at listed'
    cases listed'

theorem parse_of_listing_error {source : String} {error : ParseError}
    (listed : listing nesting none (.start source) = .error error) :
    parse nesting source = .error error := by
  rcases parse_listing nesting source with ⟨_, _, -, -, listed'⟩ | ⟨_, failed, listed'⟩
  · rw [listed] at listed'
    cases listed'
  · rw [failed, Except.error.inj (listed'.symm.trans listed)]

end IndentLisp.Reader
