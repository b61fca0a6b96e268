import IndentLisp.Evaluation.Calls
import IndentLisp.Evaluation.Trace
import IndentLisp.Main
import IndentLisp.Node.Lines
import IndentLisp.Node.Measure
import IndentLisp.Node.Outline
import IndentLisp.Node.Tokens
import IndentLisp.Node.WellFormed
import IndentLisp.Probe
import IndentLisp.Proofs.Evaluation.Budget
import IndentLisp.Proofs.Grammar
import IndentLisp.Proofs.Grammar.Derivation
import IndentLisp.Proofs.Reader.Advance
import IndentLisp.Proofs.Reader.Gap
import IndentLisp.Proofs.Reader.Indent
import IndentLisp.Proofs.Text.LineEnds
import IndentLisp.Proofs.Text.Numeral
import IndentLisp.RoundTrip
import IndentLisp.Proofs.Reader.Atom
import IndentLisp.Proofs.Reader.Nesting
import IndentLisp.Proofs.Reader.Phrase
import IndentLisp.Proofs.Program.Forest
import IndentLisp.Proofs.Program.SourceLine
import IndentLisp.Proofs.Program.Blocks
import IndentLisp.Proofs.Program.Indentation
import IndentLisp.Proofs.Layout.Item
import IndentLisp.Proofs.Layout.Lines
import IndentLisp.Proofs.Reader.Recognition
import IndentLisp.Proofs.Layout.Format
import IndentLisp.Proofs.Node.Renumber
import IndentLisp.Proofs.Program.WellFormed
import IndentLisp.Proofs.RoundTrip
import IndentLisp.Proofs.Reader.Bounds
import IndentLisp.Proofs.Reader.Correspondence
import IndentLisp.Node.Preorder
import IndentLisp.Proofs.Program.Listing
import IndentLisp.Proofs.Reader.Tokens
import IndentLisp.Proofs.Program.Tokens
import IndentLisp.Proofs.Reader.LineMove
import IndentLisp.Proofs.Program.Concatenation
import IndentLisp.Proofs.Reader.Insertion
import IndentLisp.Proofs.Program.BlankLines
import IndentLisp.Proofs.Evaluation.DepthLimit
import IndentLisp.Proofs.Reader.Stops
import IndentLisp.Proofs.Program.Refusal
import IndentLisp.Proofs.Reader.FollowingText
import IndentLisp.Proofs.Reader.Locality
import IndentLisp.Proofs.Program.Locality
import IndentLisp.Proofs.Program.Outcome
import IndentLisp.Node.Strings
import IndentLisp.Proofs.Node.Strings
import IndentLisp.Proofs.Reader.LineEnding
import IndentLisp.Proofs.Program.Literals
import IndentLisp.Proofs.Program.LineEnding
import IndentLisp.Evaluation.Term
import IndentLisp.Proofs.Evaluation.Layout
import IndentLisp.Proofs.Evaluation.Term
import IndentLisp.Proofs.Program.IndentedStart
import IndentLisp.Evaluation.Events
import IndentLisp.Proofs.Builtin
import IndentLisp.Proofs.Evaluation.Errors
import IndentLisp.Proofs.Text.Quoted
import IndentLisp.Value.Leaves
import IndentLisp.Proofs.Builtin.Printing
import IndentLisp.Proofs.Builtin.Repetition
import IndentLisp.Node.Brackets
import IndentLisp.Proofs.Reader.Brackets
import IndentLisp.Proofs.Program.Brackets
import IndentLisp.Proofs.Reader.Calls
import IndentLisp.Proofs.Reader.Places
import IndentLisp.Proofs.Reader.Contract
import IndentLisp.Proofs.Program.LineCount
import IndentLisp.Proofs.Program.Level
