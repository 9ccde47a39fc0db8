import Mathlib.Logic.Function.Iterate
import Mathlib.Data.Sum.Basic

/-!
Bounded loops and counted runs.

`loopN` iterates a loop body at most `n` times; a body either asks for another
round or stops with a result. `AtLeast` counts the steps of a deterministic
machine from below, which is what a run that exhausts its bound can promise.
Nothing here refers to a particular machine or language.
-/

namespace Lib.Iteration

variable {α β ρ τ : Type}

/-- At most `n` rounds of `body`; `out` is the result when the bound is spent. -/
def loopN (body : α → α ⊕ ρ) (out : α → ρ) : Nat → α → ρ
  | 0, a => out a
  | n + 1, a =>
    match body a with
    | .inl again => loopN body out n again
    | .inr stop => stop

section Equations

attribute [local simp] loopN

end Equations

/-- `y` is reached from `x` in at least `n` steps. -/
def AtLeast (step : α → α) (n : Nat) (x y : α) : Prop :=
  ∃ k, n ≤ k ∧ step^[k] x = y

namespace AtLeast

variable {step : α → α} {m n : Nat} {x y z : α}

theorem refl (step : α → α) (x : α) : AtLeast step 0 x x := ⟨0, Nat.le_refl 0, rfl⟩

theorem once (x : α) : AtLeast step 1 x (step x) := ⟨1, Nat.le_refl 1, rfl⟩

theorem trans (first : AtLeast step m x y) (second : AtLeast step n y z) :
    AtLeast step (m + n) x z := by
  obtain ⟨j, hj, rfl⟩ := first
  obtain ⟨k, hk, rfl⟩ := second
  refine ⟨k + j, by omega, ?_⟩
  rw [Function.iterate_add_apply]

theorem weaken (run : AtLeast step m x y) (le : n ≤ m) : AtLeast step n x y := by
  obtain ⟨k, hk, rfl⟩ := run
  exact ⟨k, by omega, rfl⟩

/-- Prefixing a run with one more step. -/
theorem head (run : AtLeast step n (step x) y) : AtLeast step n x y := by
  obtain ⟨k, hk, rfl⟩ := run
  exact ⟨k + 1, by omega, rfl⟩

/-- Runs from the same state that come to rest do so in the same state. -/
theorem rest_unique (restY : step y = y) (restZ : step z = z) (toY : AtLeast step m x y)
    (toZ : AtLeast step n x z) : y = z := by
  obtain ⟨j, -, rfl⟩ := toY
  obtain ⟨k, -, rfl⟩ := toZ
  rcases Nat.le_total j k with le | le
  · obtain ⟨i, rfl⟩ := Nat.exists_eq_add_of_le' le
    rw [Function.iterate_add_apply, Function.iterate_fixed restY]
  · obtain ⟨i, rfl⟩ := Nat.exists_eq_add_of_le' le
    rw [Function.iterate_add_apply, Function.iterate_fixed restZ]

end AtLeast

/-- A bounded loop is met by a machine started at `x` when each round is: one
that asks for another round costs at least one step, and a spent bound `n` has
cost `n`. -/
theorem loopN_met {step : τ → τ} {body : α → α ⊕ ρ} {out : α → ρ} {bound : Nat} {x : τ}
    (Here : α → τ → Prop) (Met : τ → ρ → Prop)
    (before : ∀ a y r, Here a y → AtLeast step 0 x y → Met y r → Met x r)
    (spent : ∀ a y, Here a y → AtLeast step bound x y → Met x (out a))
    (round : ∀ a y, Here a y →
      match body a with
      | .inl again => ∃ z, AtLeast step 1 y z ∧ Here again z
      | .inr stop => Met y stop)
    (a : α) (here : Here a x) : Met x (loopN body out bound a) := by
  -- `done` rounds are behind us and have cost at least that many steps.
  suffices general : ∀ n done a y, bound ≤ done + n → AtLeast step done x y → Here a y →
      Met x (loopN body out n a) from
    general bound 0 a x (by omega) (AtLeast.refl step x) here
  intro n
  induction n with
  | zero =>
    intro done a y enough run here
    exact spent a y here (run.weaken (by omega))
  | succ n ih =>
    intro done a y enough run here
    have next := round a y here
    unfold loopN
    split
    next again eq =>
      rw [eq] at next
      obtain ⟨z, more, there⟩ := next
      exact ih (done + 1) again z (by omega) (run.trans more) there
    next stop eq =>
      rw [eq] at next
      exact before a y stop here (run.weaken (by omega)) next

/-- Two bounded loops agree when their rounds do. `Fine` is a condition on the
first loop's result that each of its rounds hands back to the state it started
from, so that it may be assumed of every round on the way. -/
theorem loopN_related {body : α → α ⊕ ρ} {out : α → ρ} {body' : β → β ⊕ τ} {out' : β → τ}
    (Rel : α → β → Prop) (Agree : ρ → τ → Prop) (Fine : ρ → Prop) (FineAt : α → Prop)
    (backLoop : ∀ n a, Fine (loopN body out n a) → FineAt a)
    (spent : ∀ a b, Rel a b → Fine (out a) → Agree (out a) (out' b))
    (round : ∀ a b, Rel a b →
      match body a with
      | .inl again => FineAt again → ∃ b', body' b = .inl b' ∧ Rel again b'
      | .inr stop => Fine stop → ∃ t, body' b = .inr t ∧ Agree stop t)
    (n : Nat) (a : α) (b : β) (rel : Rel a b) (fine : Fine (loopN body out n a)) :
    Agree (loopN body out n a) (loopN body' out' n b) := by
  induction n generalizing a b with
  | zero => exact spent a b rel fine
  | succ n ih =>
    have next := round a b rel
    unfold loopN at fine ⊢
    cases eq : body a with
    | inl again =>
      rw [eq] at next
      simp only [eq] at fine ⊢
      obtain ⟨b', eq', rel'⟩ := next (backLoop n again fine)
      simp only [eq']
      exact ih again b' rel' fine
    | inr stop =>
      rw [eq] at next
      simp only [eq] at fine ⊢
      obtain ⟨t, eq', agree⟩ := next fine
      simp only [eq']
      exact agree

/-- A property of results that holds of a spent loop and of every stop, from
states that keep an invariant, holds of the loop. -/
theorem loopN_invariant {body : α → α ⊕ ρ} {out : α → ρ} (Inv : α → Prop) (Post : ρ → Prop)
    (spent : ∀ a, Inv a → Post (out a))
    (round : ∀ a, Inv a →
      match body a with
      | .inl again => Inv again
      | .inr stop => Post stop)
    (n : Nat) (a : α) (inv : Inv a) : Post (loopN body out n a) := by
  induction n generalizing a with
  | zero => exact spent a inv
  | succ n ih =>
    have next := round a inv
    unfold loopN
    split
    next again eq => rw [eq] at next; exact ih again next
    next stop eq => rw [eq] at next; exact next

/-- Where a loop ends: out of rounds, or in a round that stops. -/
theorem loopN_last {body : α → α ⊕ ρ} {out : α → ρ} (Inv : α → Prop)
    (round : ∀ a again, Inv a → body a = .inl again → Inv again) (n : Nat) (a : α) (inv : Inv a) :
    (∃ b, Inv b ∧ loopN body out n a = out b) ∨ ∃ b, Inv b ∧ body b = .inr (loopN body out n a) := by
  induction n generalizing a with
  | zero => exact .inl ⟨a, inv, rfl⟩
  | succ n ih =>
    unfold loopN
    split
    next again eq => exact ih again (round a again inv eq)
    next stop eq => exact .inr ⟨a, inv, eq⟩

/-- A loop that gets smaller with every round ends before its bound is spent. -/
theorem loopN_total {body : α → α ⊕ ρ} {out : α → ρ} (Inv : α → Prop) (Post : ρ → Prop)
    (size : α → Nat)
    (round : ∀ a, Inv a →
      match body a with
      | .inl again => Inv again ∧ size again < size a
      | .inr stop => Post stop)
    (n : Nat) (a : α) (inv : Inv a) (enough : size a < n) : Post (loopN body out n a) := by
  induction n generalizing a with
  | zero => exact absurd enough (Nat.not_lt_zero _)
  | succ n ih =>
    have next := round a inv
    unfold loopN
    split
    next again eq =>
      rw [eq] at next
      exact ih again next.1 (by omega)
    next stop eq => rw [eq] at next; exact next

/-- What a result says about where the loop started. -/
theorem loopN_back {body : α → α ⊕ ρ} {out : α → ρ} (Fine : ρ → Prop) (FineAt : α → Prop)
    (spent : ∀ a, Fine (out a) → FineAt a)
    (round : ∀ a,
      match body a with
      | .inl again => FineAt again → FineAt a
      | .inr stop => Fine stop → FineAt a)
    (n : Nat) (a : α) (fine : Fine (loopN body out n a)) : FineAt a := by
  by_contra bad
  refine loopN_invariant (fun a => ¬FineAt a) (fun r => ¬Fine r)
    (fun a bad fine => bad (spent a fine)) (fun a bad => ?_) n a bad fine
  have next := round a
  split
  next again eq => rw [eq] at next; exact fun fine => bad (next fine)
  next stop eq => rw [eq] at next; exact fun fine => bad (next fine)

/-- The states of a run keep whatever every step keeps. -/
theorem iterate_invariant {step : α → α} (Inv : α → Prop)
    (keeps : ∀ x, Inv x → Inv (step x)) (x : α) (initial : Inv x) (k : Nat) :
    Inv (step^[k] x) := by
  induction k generalizing x with
  | zero => exact initial
  | succ k ih => exact ih (step x) (keeps x initial)

/-! ### Runs of a list of steps -/

section Along

variable {step : α → β → α} {P Q : α → β → Prop}

/-- What holds of every step of a run, in the state it is taken from. -/
def Along (step : α → β → α) (P : α → β → Prop) : α → List β → Prop
  | _, [] => True
  | a, b :: bs => P a b ∧ Along step P (step a b) bs

/-- An invariant of the steps may be assumed of each of them. -/
theorem Along.mono (Inv : α → Prop) (keeps : ∀ a b, Inv a → P a b → Inv (step a b))
    (weaker : ∀ a b, Inv a → P a b → Q a b) {a : α} {bs : List β} (inv : Inv a)
    (along : Along step P a bs) : Along step Q a bs := by
  induction bs generalizing a with
  | nil => trivial
  | cons b bs ih => exact ⟨weaker a b inv along.1, ih (keeps a b inv along.1) along.2⟩

theorem Along.congr (same : ∀ a b, P a b ↔ Q a b) {a : α} {bs : List β} :
    Along step P a bs ↔ Along step Q a bs := by
  constructor
  · exact Along.mono (fun _ => True) (fun _ _ _ _ => trivial) (fun a b _ => (same a b).mp) trivial
  · exact Along.mono (fun _ => True) (fun _ _ _ _ => trivial) (fun a b _ => (same a b).mpr) trivial

/-- An invariant holds in every state that a run comes through. -/
theorem Along.reached (Inv : α → Prop) (keeps : ∀ a b, Inv a → P a b → Inv (step a b)) {a : α}
    (done left : List β) (inv : Inv a) (along : Along step P a (done ++ left)) :
    Inv (done.foldl step a) := by
  induction done generalizing a with
  | nil => exact inv
  | cons b done ih => exact ih (keeps a b inv along.1) along.2

end Along

end Lib.Iteration
