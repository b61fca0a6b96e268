import IndentLisp.Node.WellFormed
import IndentLisp.Proofs.Text.LineEnds
import IndentLisp.Reader.Block

/-!
# The grammar of items and phrases

Which texts are items and phrases, said without running a reader. A derivation knows the line on
which its text starts, because nodes carry their lines, and the text that follows, because numbers
and symbols have to end where they end.
-/

set_option autoImplicit false

namespace IndentLisp.Grammar

/-- CR LF, LF or CR. -/
inductive LineEnd : List Char → Prop where
  | returnFeed : LineEnd ['\r', '\n']
  | feed : LineEnd ['\n']
  | return : LineEnd ['\r']

/-- What may stand before a line end: a comment, or nothing. -/
inductive Comment : List Char → Prop where
  | none : Comment []
  | some {text : List Char} : (∀ c ∈ text, isLineBreak c = false) → Comment (';' :: text)

/-- What may stand at the end of a line, or alone on a blank one: spaces and tabs, and then perhaps
a comment. -/
inductive Blank : List Char → Prop where
  | mk {spaces comment : List Char} :
      (∀ c ∈ spaces, isSpace c = true) → Comment comment → Blank (spaces ++ comment)

/-- Any sequence of spaces, tabs and line ends, each line end with or without a comment. -/
inductive Gap : List Char → Prop where
  | nil : Gap []
  | space {c : Char} {gap : List Char} : isSpace c = true → Gap gap → Gap (c :: gap)
  | lineEnd {comment ending gap : List Char} :
      Comment comment → LineEnd ending → Gap gap → Gap (comment ++ ending ++ gap)

/-- What stands between the apostrophes of a literal, and the text that it denotes. -/
inductive Literal : List Char → List Char → Prop where
  | nil : Literal [] []
  | raw {c : Char} {written denoted : List Char} :
      c ≠ '\'' → c ≠ '\\' → Literal written denoted → Literal (c :: written) (c :: denoted)
  | escape {c meant : Char} {written denoted : List Char} :
      Quoted.unescape? c = some meant → Literal written denoted →
      Literal ('\\' :: c :: written) (meant :: denoted)

/-- The text goes on with a character of the class. -/
def StartsWith (class_ : Char → Bool) (text : List Char) : Prop :=
  ∃ c rest, text = c :: rest ∧ class_ c = true

/-- The text does not go on with a character of the class. -/
def StartsWithout (class_ : Char → Bool) (text : List Char) : Prop :=
  ∀ c ∈ text.head?, class_ c = false

/-- The text is used up, or it ends in a line feed. -/
def Ended (text : List Char) : Prop :=
  ∀ c ∈ text.getLast?, c = '\n'

mutual

/-- `Item line text node after` derives the node from the text, which stands on the line and before
the text `after`. -/
inductive Item : Int → List Char → Node → List Char → Prop where
  | number {line : Int} {digits after : List Char} :
      digits ≠ [] → (∀ c ∈ digits, c.isDigit = true) → digits.length ≤ Numeral.digitLimit →
      StartsWith endsNumber after →
      Item line digits (.number (Numeral.ofDigits digits) line) after
  | string {line : Int} {written denoted after : List Char} :
      Literal written denoted →
      Item line ('\'' :: written ++ ['\'']) (.string (String.ofList denoted) line) after
  | symbol {line : Int} {name after : List Char} :
      Node.isSymbolName name = true → StartsWithout (fun c => !endsSymbol c) after →
      Item line name (.symbol (String.ofList name) line) after
  | array {line : Int} {text after : List Char} {items : List Node} :
      Items line text items (']' :: after) →
      Item line ('[' :: text ++ [']']) (.array items line) after
  | parenthesised {line : Int} {gap text arguments after : List Char} {head : Node}
      {tail : List Node} :
      Gap gap → head.canLead = true →
      Item (line + lineEnds gap) text head (arguments ++ ')' :: after) →
      Items (line + lineEnds gap + lineEnds text) arguments tail (')' :: after) →
      Item line ('(' :: gap ++ text ++ arguments ++ [')']) (.expression head tail false line) after

/-- Items with a gap before each of them and behind the last. -/
inductive Items : Int → List Char → List Node → List Char → Prop where
  | nil {line : Int} {gap after : List Char} : Gap gap → Items line gap [] after
  | cons {line : Int} {gap text rest after : List Char} {node : Node} {nodes : List Node} :
      Gap gap → Item (line + lineEnds gap) text node (rest ++ after) →
      Items (line + lineEnds gap + lineEnds text) rest nodes after →
      Items line (gap ++ text ++ rest) (node :: nodes) after

end

/-- Items with white space before each of them and behind the last. -/
inductive Arguments : Int → List Char → List Node → List Char → Prop where
  | nil {line : Int} {spaces after : List Char} :
      (∀ c ∈ spaces, isSpace c = true) → Arguments line spaces [] after
  | cons {line : Int} {spaces text rest after : List Char} {node : Node} {nodes : List Node} :
      (∀ c ∈ spaces, isSpace c = true) → Item line text node (rest ++ after) →
      Arguments (line + lineEnds text) rest nodes after →
      Arguments line (spaces ++ text ++ rest) (node :: nodes) after

inductive WrittenPhrase : Int → List Char → Reader.Phrase → List Char → Prop where
  | mk {line : Int} {text rest after : List Char} {head : Node} {arguments : List Node} :
      head.canLead = true → Item line text head (rest ++ after) →
      Arguments (line + lineEnds text) rest arguments after →
      WrittenPhrase line (text ++ rest) ⟨head, arguments, line⟩ after

end IndentLisp.Grammar
