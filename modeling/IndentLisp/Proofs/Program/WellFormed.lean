import IndentLisp.Proofs.Node.WellFormed
import IndentLisp.Proofs.Reader.Bounds
import IndentLisp.Proofs.Reader.Phrase

/-!
# What is read is well-formed

Lines, blocks and programs that are read are well-formed, and their blocks and brackets are nested
no deeper than the limit. Each reader leaves a text that still ends in a line feed.
-/

set_option autoImplicit false

namespace IndentLisp

open Grammar Reader

namespace Node

private theorem nestingList_append (left right : List Node) :
    nestingList (left ++ right) = max (nestingList left) (nestingList right) := by
  induction left with
  | nil => simp [nestingList]
  | cons node left ih => rw [List.cons_append, nestingList, nestingList, ih, Nat.max_assoc]

private theorem isLineTail_of_allItems {nodes : List Node} (valid : allItems nodes = true) :
    isLineTail nodes = true := by
  induction nodes with
  | nil => rfl
  | cons node nodes ih =>
      obtain ⟨first, others⟩ := allItems_cons_iff.mp valid
      exact (isLineTail_cons_iff (not_isBlock_of_isItem first)).mpr ⟨first, ih others⟩

private theorem isLineTail_append_block {nodes children : List Node} (valid : allItems nodes = true)
    (filled : children ≠ []) (validChildren : allLines children = true) (line : Int) :
    isLineTail (nodes ++ [block children line]) = true := by
  induction nodes with
  | nil => exact isLineTail_block_iff.mpr ⟨rfl, filled, validChildren⟩
  | cons node nodes ih =>
      obtain ⟨first, others⟩ := allItems_cons_iff.mp valid
      exact (isLineTail_cons_iff (not_isBlock_of_isItem first)).mpr ⟨first, ih others⟩

end Node

namespace Reader

/-! ## Phrases -/

theorem Arguments.allItems {line : Int} {text after : List Char} {nodes : List Node}
    (derived : Arguments line text nodes after) : Node.allItems nodes = true := by
  induction derived with
  | nil => rfl
  | cons _ item _ ih => exact Node.allItems_cons_iff.mpr ⟨item.isItem, ih⟩

private theorem isLine_withBody {line : Int} {text after : List Char} {phrase : Phrase}
    {body : Body}
    (written : WrittenPhrase line text phrase after) (valid : Node.allLines body.children = true) :
    (phrase.withBody body).isLine = true := by
  cases written with
  | mk leads item arguments =>
      have items := Arguments.allItems arguments
      rw [Phrase.withBody]
      split
      · exact Node.isLine_expression_iff.mpr
          ⟨rfl, leads, item.isItem, Node.isLineTail_of_allItems items⟩
      · next filled =>
        rw [List.isEmpty_iff] at filled
        exact Node.isLine_expression_iff.mpr
          ⟨rfl, leads, item.isItem, Node.isLineTail_append_block items filled valid body.line⟩

private theorem nesting_withBody (phrase : Phrase) (body : Body) :
    (phrase.withBody body).nesting = max phrase.nesting body.toNode.nesting := by
  rw [Phrase.withBody]
  split
  · next empty =>
    rw [List.isEmpty_iff] at empty
    simp [Phrase.toNode, Phrase.nesting, Body.toNode, Node.nesting, empty, Node.nestingList]
  · simp [Phrase.nesting, Node.nesting, Node.nestingList_append, Node.nestingList, Body.toNode,
      Nat.max_assoc]

/-! ## Lines and blocks -/

theorem ended_skipSpace {state : State} (ended : Ended state.rest) :
    Ended state.skipSpace.rest := by
  obtain ⟨spaces, -, advances⟩ := skipSpace_advances state
  exact Ended.of_advances ended advances

theorem ended_skipBlankLines {state : State} (ended : Ended state.rest) :
    Ended state.skipBlankLines.rest := by
  obtain ⟨gap, -, advances⟩ := skipBlankLines_advances state
  exact Ended.of_advances ended advances

theorem ended_endLine? {state next : State} (ended : Ended state.rest)
    (found : state.endLine? = some next) : Ended next.rest := by
  obtain ⟨comment, ending, -, -, -, advances⟩ := endLine?_eq_some_iff.mp found
  exact Ended.of_advances ended advances

/-- The reader finds well-formed lines only, and they are nested no deeper than the limit. -/
def FindsLine (nesting : Nat) (reader : State → Reply Node) : Prop :=
  ∀ {state next : State} {node : Node}, Ended state.rest → reader state = .found node next →
    node.isLine = true ∧ node.nesting ≤ nesting ∧ Ended next.rest

def FindsLines (nesting : Nat) (reader : State → Reply (List Node)) : Prop :=
  ∀ {state next : State} {nodes : List Node}, Ended state.rest → reader state = .found nodes next →
    Node.allLines nodes = true ∧ Node.nestingList nodes ≤ nesting ∧ Ended next.rest

/-- The reader finds bodies of well-formed lines only. -/
def FindsBody (nesting : Nat) (reader : State → Reply Body) : Prop :=
  ∀ {state next : State} {body : Body}, Ended state.rest → reader state = .found body next →
    Node.allLines body.children = true ∧ body.toNode.nesting ≤ nesting ∧ Ended next.rest

variable {nesting : Nat}

private theorem findsLine_line (finds : FindsBody nesting (block nesting)) :
    FindsLine nesting (line nesting) := by
  intro state next node ended found
  rw [line_eq] at found
  cases read : phrase nesting state.skipSpace with
  | absent | failed => simp [read, State.refuse] at found
  | found value stop =>
      simp only [read] at found
      obtain ⟨text, advances, written, within⟩ := written_of_readPhrase (ended_skipSpace ended) read
      cases last : stop.endLine? with
      | none => simp [last, State.refuse] at found
      | some below =>
          simp only [last] at found
          obtain ⟨body, readBody, rfl⟩ := Reply.map_eq_found_iff.mp found
          have endedStop := Ended.of_advances (ended_skipSpace ended) advances
          have endedBelow := ended_endLine? endedStop last
          obtain ⟨valid, withinBody, endedNext⟩ := finds endedBelow readBody
          refine ⟨isLine_withBody written valid, ?_, endedNext⟩
          rw [nesting_withBody]
          exact Nat.max_le.mpr ⟨within, withinBody⟩

private theorem findsLines_readLines {reader : State → Reply Node}
    (finds : FindsLine nesting reader)
    (bound : Nat) : FindsLines nesting (readLines reader bound) := by
  induction bound with
  | zero =>
      intro state next nodes ended found
      cases found
  | succ bound ih =>
      intro state next nodes ended found
      obtain ⟨node, stop, read, found⟩ := Reply.bind_eq_found_iff.mp found
      obtain ⟨valid, within, endedStop⟩ := finds ended read
      have endedNext := ended_skipBlankLines endedStop
      have alone : Node.allLines [node] = true ∧ Node.nestingList [node] ≤ nesting :=
        ⟨Node.allLines_cons_iff.mpr ⟨valid, rfl⟩, Nat.max_le.mpr ⟨within, Nat.zero_le _⟩⟩
      dsimp only at found
      split at found
      · cases found
        exact ⟨alone.1, alone.2, endedNext⟩
      · cases closed : stop.skipBlankLines.dedent with
        | failed => simp [closed] at found
        | found _ outside =>
            simp only [closed] at found
            cases found
            rw [State.rest_of_dedent closed]
            exact ⟨alone.1, alone.2, endedNext⟩
        | absent =>
            obtain rfl := State.keepsPlace_dedent closed
            cases stays : stop.skipBlankLines.nodent with
            | absent | failed => simp [closed, stays, State.refuse] at found
            | found _ same =>
                simp only [closed, stays] at found
                obtain ⟨others, readRest, rfl⟩ := Reply.map_eq_found_iff.mp found
                rw [← State.rest_of_nodent stays] at endedNext
                obtain ⟨validRest, withinRest, endedRest⟩ := ih endedNext readRest
                exact ⟨Node.allLines_cons_iff.mpr ⟨valid, validRest⟩,
                  Nat.max_le.mpr ⟨within, withinRest⟩, endedRest⟩

/-- A block with lines takes up one level of the nesting. -/
private theorem findsBody_of_linesWithin
    (finds : ∀ {state next : State} {nodes : List Node}, Ended state.rest →
      linesWithin nesting state = .found nodes next →
        Node.allLines nodes = true ∧ Node.nestingList nodes < nesting ∧ Ended next.rest) :
    FindsBody nesting (block nesting) := by
  intro state next body ended found
  have endedStart := ended_skipBlankLines ended
  rw [block_eq] at found
  split at found
  · cases found
    exact ⟨rfl, Nat.zero_le _, endedStart⟩
  · cases opened : state.skipBlankLines.indent with
    | failed => simp [opened] at found
    | absent =>
        simp only [opened] at found
        cases found
        exact ⟨rfl, Nat.zero_le _, endedStart⟩
    | found _ inside =>
        simp only [opened] at found
        obtain ⟨children, read, rfl⟩ := Reply.map_eq_found_iff.mp found
        rw [← State.rest_of_indent opened] at endedStart
        obtain ⟨valid, within, endedNext⟩ := finds endedStart read
        refine ⟨valid, ?_, endedNext⟩
        simp only [Body.toNode, Node.nesting]
        split <;> omega

private theorem findsBody_block (nesting : Nat) : FindsBody nesting (block nesting) := by
  induction nesting with
  | zero =>
      apply findsBody_of_linesWithin
      intro state next nodes ended found
      cases found
  | succ nesting ih =>
      apply findsBody_of_linesWithin
      intro state next nodes ended found
      obtain ⟨valid, within, endedNext⟩ :=
        findsLines_readLines (findsLine_line ih) state.rest.length ended found
      exact ⟨valid, Nat.lt_succ_of_le within, endedNext⟩

/-- What parsing returns is a program, with its blocks and brackets nested within the limit. -/
theorem isProgram_of_parse {source : String} {tree : Node}
    (parsed : parse nesting source = .ok tree) :
    tree.isProgram = true ∧ tree.nesting ≤ nesting := by
  rw [parse] at parsed
  cases read : program nesting (.start source) with
  | failed => simp [read] at parsed
  | absent =>
      simp only [read] at parsed
      cases parsed
      exact ⟨rfl, Nat.zero_le _⟩
  | found body stop =>
      simp only [read] at parsed
      cases parsed
      obtain ⟨value, last, opened, closed⟩ := Reply.bind_eq_found_iff.mp read
      have ended : Ended (State.start source).rest := by
        intro c last
        rw [State.start, getLast?_terminated] at last
        exact (Option.some.inj last).symm
      obtain ⟨valid, within, -⟩ := findsBody_block nesting ended opened
      split at closed
      · cases closed
        exact ⟨valid, within⟩
      · cases closed

end Reader

end IndentLisp
