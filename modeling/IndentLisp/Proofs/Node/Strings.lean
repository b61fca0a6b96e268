import IndentLisp.Node.Strings

/-!
# Trees and their strings

A tree is determined by its strings and by what it is without them.
-/

set_option autoImplicit false

namespace IndentLisp.Node

def stringsList (nodes : List Node) : List String :=
  (tokensList nodes).filterMap fun token => token.1.string?

section

variable (children tail items nodes : List Node) (head node : Node) (lineForm : Bool) (line : Int)

@[simp] theorem strings_block : (block children line).strings = stringsList children := rfl

@[simp] theorem strings_expression :
    (expression head tail lineForm line).strings = head.strings ++ stringsList tail := by
  cases lineForm <;> simp [strings, stringsList, tokens, Token.string?]

@[simp] theorem strings_array : (array items line).strings = stringsList items := rfl

@[simp] theorem stringsList_cons :
    stringsList (node :: nodes) = node.strings ++ stringsList nodes :=
  List.filterMap_append

end

mutual

/-- A tree whose strings are taken from a list, and what is left of the list. -/
def fill : Node → List String → Node × List String
  | block children line, texts =>
    let (children, rest) := fillList children texts
    (block children line, rest)
  | expression head tail lineForm line, texts =>
    let (head, rest) := head.fill texts
    let (tail, rest) := fillList tail rest
    (expression head tail lineForm line, rest)
  | string _ line, text :: rest => (string text line, rest)
  | array items line, texts =>
    let (items, rest) := fillList items texts
    (array items line, rest)
  | node, texts => (node, texts)

def fillList : List Node → List String → List Node × List String
  | [], texts => ([], texts)
  | node :: nodes, texts =>
    let (node, rest) := node.fill texts
    let (nodes, rest) := fillList nodes rest
    (node :: nodes, rest)

end

mutual

/-- Filling in the strings of a tree restores it. -/
private theorem fill_withoutStrings (rest : List String) :
    (node : Node) → node.withoutStrings.fill (node.strings ++ rest) = (node, rest)
  | block children _ => by simp [withoutStrings, fill, fillList_withoutStringsList rest children]
  | expression head tail _ _ => by
    simp [withoutStrings, fill, fill_withoutStrings _ head, fillList_withoutStringsList rest tail]
  | array items _ => by simp [withoutStrings, fill, fillList_withoutStringsList rest items]
  | string .. | symbol .. | number .. | unknown .. => by rfl

private theorem fillList_withoutStringsList (rest : List String) :
    (nodes : List Node) →
      fillList (withoutStringsList nodes) (stringsList nodes ++ rest) = (nodes, rest)
  | [] => rfl
  | node :: nodes => by
    simp [withoutStringsList, fillList, fill_withoutStrings _ node,
      fillList_withoutStringsList rest nodes]

end

theorem eq_of_strings_eq {node node' : Node} (shape : node'.withoutStrings = node.withoutStrings)
    (same : node'.strings = node.strings) : node' = node := by
  have filled := fill_withoutStrings [] node'
  rw [shape, same, fill_withoutStrings [] node] at filled
  exact (Prod.mk.inj filled).1.symm

end IndentLisp.Node
