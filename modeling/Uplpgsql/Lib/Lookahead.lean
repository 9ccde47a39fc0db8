import Mathlib.Data.Stream.Init

/-!
Reading ahead.

A reader goes through a stream and has a stack of items that were read and put back. What
it will read is a stream again: the items on the stack, then the rest of the source.
-/

namespace Lib

structure Reader (α : Type) where
  stack : List α
  pos : Nat
  deriving DecidableEq, Repr

namespace Reader

variable {α : Type} (source : Stream' α)

/-- What will be read. -/
def pending (r : Reader α) : Stream' α := .appendStream' r.stack (source.drop r.pos)

/-- The next item, from the stack if there is one on it. -/
def next (r : Reader α) : α × Reader α :=
  match r.stack with
  | item :: stack => (item, { r with stack := stack })
  | [] => (source.get r.pos, { r with pos := r.pos + 1 })

/-- Puts an item back, unless the stack has `limit` already. -/
def putBack (limit : Nat) (item : α) (r : Reader α) : Option (Reader α) :=
  if limit ≤ r.stack.length then none else some { r with stack := item :: r.stack }

variable {source} {r : Reader α}

theorem next_fst : (r.next source).1 = (r.pending source).head := by
  obtain ⟨_ | ⟨item, stack⟩, pos⟩ := r
  · exact (Stream'.head_drop source pos).symm
  · rfl

theorem pending_next : (r.next source).2.pending source = (r.pending source).tail := by
  obtain ⟨_ | ⟨item, stack⟩, pos⟩ := r
  · exact Stream'.tail_drop'.symm
  · rfl

theorem stack_next : (r.next source).2.stack = r.stack.tail := by
  obtain ⟨_ | ⟨item, stack⟩, pos⟩ := r <;> rfl

theorem length_next : (r.next source).2.stack.length = r.stack.length - 1 := by
  rw [stack_next, List.length_tail]

theorem putBack_eq (source : Stream' α) {limit : Nat} (room : r.stack.length < limit) (item : α) :
    ∃ r', r.putBack limit item = some r' ∧ r'.pending source = .cons item (r.pending source) ∧
      r'.stack.length = r.stack.length + 1 :=
  ⟨_, if_neg (Nat.not_le_of_lt room), rfl, rfl⟩

end Reader

/-- An item that was read and put back is there as before. -/
theorem cons_get_drop {α : Type} (s : Stream' α) (n : Nat) : Stream'.cons (s.get n) (s.drop (n + 1)) = s.drop n := by
  rw [← Stream'.head_drop, ← Stream'.tail_drop']
  exact Stream'.eta _

end Lib
