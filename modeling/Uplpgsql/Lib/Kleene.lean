import Mathlib.Data.List.Basic

/-!
Three-valued logic.

A truth value is `true`, `false` or unknown, here `none`. AND is false as soon as
one operand is false, and OR true as soon as one is true, whatever is unknown.
-/

namespace Lib.Kleene

def not : Option Bool → Option Bool
  | some b => some !b
  | none => none

def and : Option Bool → Option Bool → Option Bool
  | some false, _ => some false
  | _, some false => some false
  | some true, some true => some true
  | _, _ => none

def or : Option Bool → Option Bool → Option Bool
  | some true, _ => some true
  | _, some true => some true
  | some false, some false => some false
  | _, _ => none

/-- AND, or OR, of a list. -/
def fold (isAnd : Bool) (xs : List (Option Bool)) : Option Bool :=
  if isAnd then xs.foldr and (some true) else xs.foldr or (some false)

@[simp] theorem fold_nil (isAnd : Bool) : fold isAnd [] = some isAnd := by
  cases isAnd <;> rfl

/-- The operand that decides the result on its own is looked for first. -/
theorem fold_cons (isAnd : Bool) (x : Option Bool) (xs : List (Option Bool)) :
    fold isAnd (x :: xs) =
      if x = some (!isAnd) ∨ fold isAnd xs = some (!isAnd) then some (!isAnd)
      else if x = none ∨ fold isAnd xs = none then none
      else some isAnd := by
  cases isAnd with
  | true =>
    simp only [fold, if_true, List.foldr_cons]
    generalize xs.foldr and (some true) = y
    rcases x with _ | _ | _ <;> rcases y with _ | _ | _ <;> rfl
  | false =>
    simp only [fold, Bool.false_eq_true, if_false, List.foldr_cons]
    generalize xs.foldr or (some false) = y
    rcases x with _ | _ | _ <;> rcases y with _ | _ | _ <;> rfl

/-- A decisive operand anywhere decides; otherwise an unknown one leaves the
result unknown. -/
theorem fold_eq (isAnd : Bool) (xs : List (Option Bool)) :
    fold isAnd xs =
      if some (!isAnd) ∈ xs then some (!isAnd) else if none ∈ xs then none else some isAnd := by
  induction xs with
  | nil => simp
  | cons x xs ih =>
    rw [fold_cons, ih]
    by_cases decisive : some (!isAnd) ∈ xs
    · simp [decisive]
    · by_cases unknown : none ∈ xs
      · by_cases here : x = some (!isAnd)
        · simp [here]
        · simp [decisive, unknown, here, eq_comm]
      · by_cases here : x = some (!isAnd)
        · simp [here]
        · by_cases nothing : x = none
          · simp [decisive, nothing]
          · simp [decisive, unknown, here, nothing, eq_comm]

/-- What matters is which truth values there are. -/
theorem fold_congr {isAnd : Bool} {xs ys : List (Option Bool)}
    (decisive : some (!isAnd) ∈ xs ↔ some (!isAnd) ∈ ys) (unknown : none ∈ xs ↔ none ∈ ys) :
    fold isAnd xs = fold isAnd ys := by
  simp only [fold_eq, decisive, unknown]

end Lib.Kleene
