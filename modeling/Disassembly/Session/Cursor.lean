/-!
# Cursors

A cursor hands out the items of a list one after another and knows how many are
left: after `k` steps it has given the first `k` items and holds the others.
-/

namespace Disassembly

/-- What is still to be handed out. -/
structure Cursor (α : Type) where
  rest : List α

namespace Cursor

variable {α : Type}

/-- A cursor at the start of a list. -/
def start (items : List α) : Cursor α := ⟨items⟩

/-- The number of items left. -/
def length (c : Cursor α) : Nat :=
  c.rest.length

/-- The bounds on the number of items left, which agree. -/
def sizeHint (c : Cursor α) : Nat × Option Nat :=
  (c.length, some c.length)

/-- The next item, if one is left, and the cursor behind it. -/
def next (c : Cursor α) : Option α × Cursor α :=
  match c.rest with
  | [] => (none, ⟨[]⟩)
  | a :: as => (some a, ⟨as⟩)

/-- `steps` steps: what each handed out, and the cursor behind it. -/
def walk (c : Cursor α) : Nat → List (Option α × Cursor α)
  | 0 => []
  | steps + 1 => c.next :: c.next.2.walk steps

theorem rest_next (c : Cursor α) : c.next.2.rest = c.rest.drop 1 := by
  unfold next
  split
  · next h => rw [h]; rfl
  · next h => rw [h]; rfl

theorem fst_next (c : Cursor α) : c.next.1 = c.rest.head? := by
  unfold next
  split
  · next h => rw [h]; rfl
  · next h => rw [h]; rfl

theorem length_walk (c : Cursor α) (steps : Nat) : (c.walk steps).length = steps := by
  induction steps generalizing c with
  | zero => rfl
  | succ k ih => rw [walk, List.length_cons, ih]

end Cursor

end Disassembly
