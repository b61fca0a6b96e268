/-!
# Syntax trees

A program is a tree of nodes. Each node carries the line on which it begins; trees built by hand
may carry any integer there.
-/

set_option autoImplicit false

namespace IndentLisp

/-- A syntax tree. A block holds the lines of one indentation level. An expression applies its head
to its tail; in line form it stands on a line of its own, otherwise in parentheses. -/
inductive Node where
  | block (children : List Node) (line : Int)
  | expression (head : Node) (tail : List Node) (lineForm : Bool) (line : Int)
  | symbol (name : String) (line : Int)
  | number (value : Int) (line : Int)
  | string (text : String) (line : Int)
  | array (items : List Node) (line : Int)
  /-- A node of a kind that has neither a written form nor a meaning. -/
  | unknown (kind : String) (line : Int)
  deriving Inhabited

namespace Node

/-- The line on which a node begins. -/
def line : Node → Int
  | block _ line | expression _ _ _ line | symbol _ line | number _ line | string _ line
  | array _ line | unknown _ line => line

/-- Whether a node is a block, and so has to stand on lines of its own. -/
def isBlock : Node → Bool
  | block .. => true
  | _ => false

/-! ## Equality

The children of a node stand in lists, so equality is decided by a pair of structural recursions,
one on trees and one on lists of trees. -/

mutual

/-- Decides equality of trees, line numbers and forms included. -/
def decEq (left right : Node) : Decidable (left = right) :=
  match left, right with
  | block children line, block children' line' =>
    haveI := decEqList children children'
    decidable_of_iff (children = children' ∧ line = line') (by simp)
  | expression head tail lineForm line, expression head' tail' lineForm' line' =>
    haveI := decEq head head'
    haveI := decEqList tail tail'
    decidable_of_iff (head = head' ∧ tail = tail' ∧ lineForm = lineForm' ∧ line = line') (by simp)
  | symbol name line, symbol name' line' =>
    decidable_of_iff (name = name' ∧ line = line') (by simp)
  | number value line, number value' line' =>
    decidable_of_iff (value = value' ∧ line = line') (by simp)
  | string text line, string text' line' =>
    decidable_of_iff (text = text' ∧ line = line') (by simp)
  | array items line, array items' line' =>
    haveI := decEqList items items'
    decidable_of_iff (items = items' ∧ line = line') (by simp)
  | unknown kind line, unknown kind' line' =>
    decidable_of_iff (kind = kind' ∧ line = line') (by simp)
  | block .., expression .. | block .., symbol .. | block .., number .. | block .., string ..
  | block .., array .. | block .., unknown ..
  | expression .., block .. | expression .., symbol .. | expression .., number ..
  | expression .., string .. | expression .., array .. | expression .., unknown ..
  | symbol .., block .. | symbol .., expression .. | symbol .., number .. | symbol .., string ..
  | symbol .., array .. | symbol .., unknown ..
  | number .., block .. | number .., expression .. | number .., symbol .. | number .., string ..
  | number .., array .. | number .., unknown ..
  | string .., block .. | string .., expression .. | string .., symbol .. | string .., number ..
  | string .., array .. | string .., unknown ..
  | array .., block .. | array .., expression .. | array .., symbol .. | array .., number ..
  | array .., string .. | array .., unknown ..
  | unknown .., block .. | unknown .., expression .. | unknown .., symbol .. | unknown .., number ..
  | unknown .., string .. | unknown .., array .. => isFalse nofun

def decEqList (left right : List Node) : Decidable (left = right) :=
  match left, right with
  | [], [] => isTrue rfl
  | node :: nodes, node' :: nodes' =>
    haveI := decEq node node'
    haveI := decEqList nodes nodes'
    decidable_of_iff (node = node' ∧ nodes = nodes') (by simp)
  | [], _ :: _ | _ :: _, [] => isFalse nofun

end

instance : DecidableEq Node := decEq

end Node

end IndentLisp
