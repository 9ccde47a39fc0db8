import Mathlib.Data.List.Nodup
import Mathlib.Data.List.Pairwise
import Mathlib.Data.Fintype.Card
import Mathlib.Tactic.Common

/-!
Chains through a table.

The nodes of a table are linked: each node has the number of the next one, or is the
last. A walk along a chain finds the first node that has a property; it is long enough
if it may take as many steps as the table has entries.
-/

namespace Lib

/-- `link i` is what node `i` points to, if there is such a node. -/
inductive Chain (link : Nat → Option (Option Nat)) : Option Nat → List Nat → Prop where
  | nil : Chain link none []
  | cons {i : Nat} {next : Option Nat} {rest : List Nat} (here : link i = some next)
      (tail : Chain link next rest) : Chain link (some i) (i :: rest)

/-- The first node of the chain from `start` with the property, within `n` steps. -/
def walk (link : Nat → Option (Option Nat)) (p : Nat → Bool) : Nat → Option Nat → Option Nat
  | _, none => none
  | 0, some _ => none
  | n + 1, some i =>
    match link i with
    | none => none
    | some next => if p i then some i else walk link p n next

namespace Chain

variable {link link' : Nat → Option (Option Nat)} {start : Option Nat} {nodes : List Nat} {p : Nat → Bool}

theorem walk_eq (chain : Chain link start nodes) {n : Nat} (enough : nodes.length ≤ n) :
    walk link p n start = nodes.find? p := by
  induction chain generalizing n with
  | nil => cases n <;> rfl
  | cons here _ ih =>
    obtain ⟨m, rfl⟩ : ∃ m, n = m + 1 := ⟨n - 1, by rw [List.length_cons] at enough; omega⟩
    rw [walk, here, List.find?_cons]
    dsimp only
    split
    next yes => rw [yes]
    next no =>
      rw [Bool.not_eq_true] at no
      rw [no]
      exact ih (Nat.le_of_succ_le_succ enough)

/-- A chain does not depend on the other nodes of the table. -/
theorem congr (chain : Chain link start nodes) (same : ∀ i ∈ nodes, link' i = link i) :
    Chain link' start nodes := by
  induction chain with
  | nil => exact .nil
  | cons here _ ih =>
    exact .cons ((same _ List.mem_cons_self).trans here) (ih fun i mem => same i (List.mem_cons_of_mem _ mem))

end Chain

/-- Different numbers below a bound are no more than the bound. -/
theorem length_le_of_nodup {nodes : List Nat} {n : Nat} (distinct : nodes.Nodup) (below : ∀ i ∈ nodes, i < n) :
    nodes.length ≤ n := by
  have sub : nodes ⊆ List.range n := fun i mem => List.mem_range.mpr (below i mem)
  simpa using (distinct.subperm sub).length_le

/-- Where every two nodes differ in what `name` says of them, the node with a name is
the first one. -/
theorem find?_of_mem {β : Type} [DecidableEq β] {name : Nat → β} {nodes : List Nat}
    (distinct : nodes.Pairwise fun i j => name i ≠ name j) {i : Nat} (mem : i ∈ nodes) :
    (nodes.find? fun j => name j = name i) = some i := by
  induction nodes with
  | nil => cases mem
  | cons j rest ih =>
    rw [List.pairwise_cons] at distinct
    rw [List.find?_cons]
    rcases List.mem_cons.mp mem with rfl | later
    · simp
    · have ne : name j ≠ name i := distinct.1 i later
      simp [ne, ih distinct.2 later]

end Lib
