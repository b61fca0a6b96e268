import IndentLisp.Node
import IndentLisp.Text.Numeral

/-!
# Arithmetic terms

Sums, products and differences of natural numbers: the integers that they stand for, and how they
are written in programs and read from them.
-/

set_option autoImplicit false

namespace IndentLisp

/-- A natural number as it is written: decimal digits, perhaps with zeros in front, and not too many
of them to be read. -/
structure WrittenNumber where
  digits : List Char
  nonempty : digits ≠ []
  decimal : ∀ c ∈ digits, c.isDigit = true
  short : digits.length ≤ Numeral.digitLimit

def WrittenNumber.value (written : WrittenNumber) : Nat := Numeral.ofDigits written.digits

/-- A sum or a product has any number of terms, a difference has at least one. -/
inductive Term where
  | number (written : WrittenNumber)
  | sum (terms : List Term)
  | product (terms : List Term)
  | difference (first : Term) (others : List Term)

namespace Term

mutual

/-- The integer that a term stands for. -/
def value : Term → Int
  | number written => written.value
  | sum terms => sumOf terms
  | product terms => productOf terms
  | difference first others => first.value - sumOf others

/-- The sum of the integers that several terms stand for. -/
def sumOf : List Term → Int
  | [] => 0
  | term :: terms => term.value + sumOf terms

/-- The product of the integers that several terms stand for. -/
def productOf : List Term → Int
  | [] => 1
  | term :: terms => term.value * productOf terms

end

/-- An operator with the text of its operands, in parentheses. -/
def applied (operator : String) (operands : List Char) : List Char :=
  '(' :: operator.toList ++ operands ++ [')']

mutual

/-- A term as it is written. -/
def text : Term → List Char
  | number written => written.digits
  | sum terms => applied "+" (operands terms)
  | product terms => applied "*" (operands terms)
  | difference first others => applied "-" (' ' :: first.text ++ operands others)

/-- Several terms as they are written behind an operator, each after a space. -/
def operands : List Term → List Char
  | [] => []
  | term :: terms => ' ' :: term.text ++ operands terms

end

mutual

/-- The tree of a term on the first line. -/
def node : Term → Node
  | number written => .number written.value 1
  | sum terms => .expression (.symbol "+" 1) (nodes terms) false 1
  | product terms => .expression (.symbol "*" 1) (nodes terms) false 1
  | difference first others => .expression (.symbol "-" 1) (first.node :: nodes others) false 1

def nodes : List Term → List Node
  | [] => []
  | term :: terms => term.node :: nodes terms

end

/-- The source text of the program that prints a term. -/
def source (term : Term) : String := "печатать " ++ String.ofList term.text

/-- The tree of the program that prints a term. -/
def program (term : Term) : Node :=
  .block [.expression (.symbol "печатать" 1) [term.node] true 1] 1

end Term

end IndentLisp
