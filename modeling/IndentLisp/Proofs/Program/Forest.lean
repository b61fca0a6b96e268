/-!
# Ordered forests

Indented lines describe an ordered forest: what stands deeper below a line belongs to it. The
preorder listing with depths determines the forest, and every listing whose depth grows by at most
one from line to line comes from a forest.
-/

set_option autoImplicit false

namespace IndentLisp

/-- An ordered forest is empty, or it is a first tree, with the forest below its root, and the other
trees. -/
inductive Forest (α : Type) where
  | empty
  | cons (root : α) (below others : Forest α)

/-- The depths start no deeper than the limit and grow by at most one from each to the next. -/
def Steps (limit : Nat) : List Nat → Prop
  | [] => True
  | depth :: depths => depth ≤ limit ∧ Steps (depth + 1) depths

instance Steps.decidable : (limit : Nat) → (depths : List Nat) → Decidable (Steps limit depths)
  | _, [] => .isTrue trivial
  | limit, depth :: depths =>
    haveI := Steps.decidable (depth + 1) depths
    inferInstanceAs (Decidable (depth ≤ limit ∧ Steps (depth + 1) depths))

namespace Forest

variable {α : Type}

/-- All nodes with their depths, each before what is below it. -/
def preorder (depth : Nat) : Forest α → List (Nat × α)
  | empty => []
  | cons root below others =>
    (depth, root) :: (below.preorder (depth + 1) ++ others.preorder depth)

def append : Forest α → Forest α → Forest α
  | empty, right => right
  | cons root below others, right => cons root below (others.append right)

theorem preorder_append (left right : Forest α) (depth : Nat) :
    (left.append right).preorder depth = left.preorder depth ++ right.preorder depth := by
  induction left with
  | empty => rfl
  | cons root below others _ ih =>
      rw [append, preorder, ih, preorder, List.cons_append, List.append_assoc]

/-- The listing does not start at the depth or deeper. -/
private def Above (depth : Nat) (listing : List (Nat × α)) : Prop :=
  ∀ entry ∈ listing.head?, entry.1 < depth

private theorem Above.preorder_append {depth : Nat} {rest : List (Nat × α)}
    (above : Above depth rest) (forest : Forest α) :
    Above (depth + 1) (forest.preorder depth ++ rest) := by
  cases forest with
  | empty =>
      intro entry first
      exact Nat.lt_succ_of_lt (above entry first)
  | cons root below others =>
      intro entry first
      cases first
      exact Nat.lt_succ_self depth

private theorem eq_of_preorder_append {left right : Forest α} {depth : Nat}
    {rest rest' : List (Nat × α)} (above : Above depth rest) (above' : Above depth rest')
    (same : left.preorder depth ++ rest = right.preorder depth ++ rest') :
    left = right ∧ rest = rest' := by
  induction left generalizing right depth rest rest' with
  | empty =>
      cases right with
      | empty => exact ⟨rfl, same⟩
      | cons root below others =>
          have deeper : depth < depth := above (depth, root) (by
            rw [show rest = _ from same]
            rfl)
          exact absurd deeper (Nat.lt_irrefl depth)
  | cons root below others belowIH othersIH =>
      cases right with
      | empty =>
          have deeper : depth < depth := above' (depth, root) (by
            rw [show rest' = _ from same.symm]
            rfl)
          exact absurd deeper (Nat.lt_irrefl depth)
      | cons root' below' others' =>
          simp only [preorder, List.cons_append, List.cons.injEq, Prod.mk.injEq, true_and,
            List.append_assoc] at same
          obtain ⟨rfl, same⟩ := same
          obtain ⟨rfl, tails⟩ :=
            belowIH (above.preorder_append others) (above'.preorder_append others') same
          obtain ⟨rfl, rfl⟩ := othersIH above above' tails
          exact ⟨rfl, rfl⟩

/-- A forest is determined by its preorder listing with depths. -/
theorem eq_of_preorder_eq {left right : Forest α} {depth : Nat}
    (same : left.preorder depth = right.preorder depth) : left = right := by
  have nothing : Above depth ([] : List (Nat × α)) := nofun
  exact (eq_of_preorder_append nothing nothing (by rw [same])).1

private theorem Above.steps {depth : Nat} {listing : List (Nat × α)}
    (above : Above (depth + 1) listing) (steps : Steps (depth + 1) (listing.map Prod.fst)) :
    Steps depth (listing.map Prod.fst) := by
  cases listing with
  | nil => trivial
  | cons entry listing => exact ⟨Nat.le_of_lt_succ (above entry rfl), steps.2⟩

-- Strong induction on the listing, since the other trees start where the forest below ends.
private theorem exists_preorder_append (size : Nat) :
    ∀ (depth : Nat) (listing : List (Nat × α)), listing.length ≤ size →
      Steps depth (listing.map Prod.fst) →
        ∃ forest rest, listing = preorder depth forest ++ rest ∧ Above depth rest ∧
          Steps depth (rest.map Prod.fst) := by
  induction size with
  | zero =>
      intro depth listing bound steps
      obtain rfl := List.length_eq_zero_iff.mp (Nat.le_zero.mp bound)
      exact ⟨empty, [], rfl, nofun, trivial⟩
  | succ size ih =>
      intro depth listing bound steps
      cases listing with
      | nil => exact ⟨empty, [], rfl, nofun, trivial⟩
      | cons entry listing =>
          obtain ⟨first, root⟩ := entry
          rcases Nat.lt_or_eq_of_le steps.1 with shallow | same
          · refine ⟨empty, (first, root) :: listing, rfl, ?_, steps⟩
            intro entry found
            cases found
            exact shallow
          · have same : first = depth := same
            subst same
            have small : listing.length ≤ size := Nat.le_of_succ_le_succ bound
            obtain ⟨below, middle, split, aboveMiddle, stepsMiddle⟩ :=
              ih (first + 1) listing small steps.2
            have smaller : middle.length ≤ size := by
              rw [split, List.length_append] at small
              omega
            obtain ⟨others, rest, splitRest, aboveRest, stepsRest⟩ :=
              ih first middle smaller (aboveMiddle.steps stepsMiddle)
            refine ⟨cons root below others, rest, ?_, aboveRest, stepsRest⟩
            rw [split, splitRest, preorder, List.cons_append, List.append_assoc]

/-- Every listing whose depths start at zero and grow by at most one comes from a forest. -/
theorem exists_preorder_eq {listing : List (Nat × α)}
    (steps : Steps 0 (listing.map Prod.fst)) : ∃ forest, preorder 0 forest = listing := by
  obtain ⟨forest, rest, split, above, -⟩ :=
    exists_preorder_append listing.length 0 listing (Nat.le_refl _) steps
  cases rest with
  | nil => exact ⟨forest, by rw [split, List.append_nil]⟩
  | cons entry rest => exact absurd (above entry rfl) (Nat.not_lt_zero _)

end Forest

end IndentLisp
