import Uplpgsql.Lib.Words

/-!
Commands on a state.

A command changes a state and ends as native code does. The state stays as it is
when the command raises an error: nothing is rolled back. What a command does is
said by its weakest precondition, which is false where it runs into undefined
behaviour.
-/

namespace Lib

open Words

variable {σ τ ε α β : Type}

def Cmd (σ ε α : Type) := σ → Native ε α × σ

namespace Cmd

def bind (c : Cmd σ ε α) (f : α → Cmd σ ε β) : Cmd σ ε β := fun s =>
  match c s with
  | (.ok a, s') => f a s'
  | (.raise e, s') => (.raise e, s')
  | (.undefined, s') => (.undefined, s')

instance instMonadCmd : Monad (Cmd σ ε) where
  pure a := fun s => (.ok a, s)
  bind := bind

def raise (e : ε) : Cmd σ ε α := fun s => (.raise e, s)

def undefined : Cmd σ ε α := fun s => (.undefined, s)

/-- A computation that does not look at the state. -/
def lift (x : Native ε α) : Cmd σ ε α := fun s => (x, s)

def get : Cmd σ ε σ := fun s => (.ok s, s)

def modify (f : σ → σ) : Cmd σ ε Unit := fun s => (.ok (), f s)

/-- A command on a part of the state. -/
def zoom (part : σ → τ) (put : σ → τ → σ) (c : Cmd τ ε α) : Cmd σ ε α := fun s =>
  ((c (part s)).1, put s (c (part s)).2)

/-- Commands one after the other. -/
def forAll {ι : Type} (step : ι → Cmd σ ε Unit) : List ι → Cmd σ ε Unit
  | [] => pure ()
  | i :: rest => do
    step i
    forAll step rest

/-- The weakest precondition: `c` ends with a value and `Q`, or with an error and
`E`. -/
def wp (c : Cmd σ ε α) (Q : α → σ → Prop) (E : ε → σ → Prop) (s : σ) : Prop :=
  match c s with
  | (.ok a, s') => Q a s'
  | (.raise e, s') => E e s'
  | (.undefined, _) => False

variable {c : Cmd σ ε α} {Q : α → σ → Prop} {E : ε → σ → Prop} {s : σ}

@[simp] theorem wp_pure (a : α) : wp (pure a) Q E s = Q a s := rfl

@[simp] theorem wp_raise (e : ε) : wp (raise e) Q E s = E e s := rfl

@[simp] theorem wp_undefined : wp undefined Q E s = False := rfl

@[simp] theorem wp_get {Q : σ → σ → Prop} : wp get Q E s = Q s s := rfl

@[simp] theorem wp_modify {Q : Unit → σ → Prop} (f : σ → σ) : wp (modify f) Q E s = Q () (f s) := rfl

@[simp] theorem wp_lift_ok (a : α) : wp (lift (.ok a)) Q E s = Q a s := rfl

@[simp] theorem wp_bind {Q : β → σ → Prop} (c : Cmd σ ε α) (f : α → Cmd σ ε β) :
    wp (c >>= f) Q E s = wp c (fun a => wp (f a) Q E) E s := by
  change wp (bind c f) Q E s = _
  simp only [wp, bind]
  rcases c s with ⟨a | e | _, s'⟩ <;> rfl

@[simp] theorem wp_ite (p : Prop) [Decidable p] (c d : Cmd σ ε α) :
    wp (if p then c else d) Q E s = if p then wp c Q E s else wp d Q E s := by
  split <;> rfl

@[simp] theorem wp_zoom {part : τ → σ} {put : τ → σ → τ} {Q : α → τ → Prop} {E : ε → τ → Prop} {t : τ} :
    wp (zoom part put c) Q E t = wp c (fun a s => Q a (put t s)) (fun e s => E e (put t s)) (part t) := by
  simp only [wp, zoom]
  rcases c (part t) with ⟨a | e | _, s'⟩ <;> rfl

theorem wp_mono {Q' : α → σ → Prop} {E' : ε → σ → Prop} (holds : wp c Q E s)
    (value : ∀ a s', Q a s' → Q' a s') (error : ∀ e s', E e s' → E' e s') : wp c Q' E' s := by
  revert holds
  unfold wp
  rcases c s with ⟨a | e | _, s'⟩
  · exact value a s'
  · exact error e s'
  · exact id

theorem wp_value {Q' : α → σ → Prop} (holds : wp c Q E s) (value : ∀ a s', Q a s' → Q' a s') :
    wp c Q' E s :=
  wp_mono holds value fun _ _ there => there

/-- What is known of an outcome. -/
theorem wp_of_ok {a : α} {s' : σ} (ran : c s = (.ok a, s')) : wp c Q E s = Q a s' := by
  rw [wp, ran]

theorem wp_defined (holds : wp c Q E s) : (c s).1 ≠ .undefined := by
  intro stuck
  unfold wp at holds
  rcases ran : c s with ⟨a | e | _, s'⟩
  · rw [ran] at stuck
    cases stuck
  · rw [ran] at stuck
    cases stuck
  · rw [ran] at holds
    exact holds

/-- The outcome from the weakest precondition. -/
theorem run_ok {a : α} {s' : σ} (holds : wp c (fun b t => b = a ∧ t = s') (fun _ _ => False) s) :
    c s = (.ok a, s') := by
  unfold wp at holds
  rcases ran : c s with ⟨b | e | _, t⟩
  · rw [ran] at holds
    rw [holds.1, holds.2]
  · rw [ran] at holds
    exact holds.elim
  · rw [ran] at holds
    exact holds.elim

theorem run_raise {e : ε} {s' : σ} (holds : wp c (fun _ _ => False) (fun e' t => e' = e ∧ t = s') s) :
    c s = (.raise e, s') := by
  unfold wp at holds
  rcases ran : c s with ⟨b | e' | _, t⟩
  · rw [ran] at holds
    exact holds.elim
  · rw [ran] at holds
    rw [holds.1, holds.2]
  · rw [ran] at holds
    exact holds.elim

/-- A command that cannot raise ends with a value. -/
theorem exists_ok_of_wp (holds : wp c Q (fun _ _ => False) s) : ∃ a s', c s = (.ok a, s') ∧ Q a s' := by
  unfold wp at holds
  rcases ran : c s with ⟨a | e | _, s'⟩
  · rw [ran] at holds
    exact ⟨a, s', rfl, holds⟩
  · rw [ran] at holds
    exact holds.elim
  · rw [ran] at holds
    exact holds.elim

/-- An invariant of every step is one of every run. -/
theorem wp_forAll {ι : Type} {step : ι → Cmd σ ε Unit} {I : σ → Prop} {items : List ι}
    (kept : ∀ i ∈ items, ∀ s, I s → wp (step i) (fun _ s' => I s') (fun _ _ => True) s) (start : I s) :
    wp (forAll step items) (fun _ s' => I s') (fun _ _ => True) s := by
  induction items generalizing s with
  | nil => exact start
  | cons i rest ih =>
    unfold forAll
    rw [wp_bind]
    refine wp_value (kept i (List.mem_cons_self ..) s start) fun _ s' inv => ?_
    exact ih (fun j member => kept j (List.mem_cons_of_mem _ member)) inv

end Cmd

end Lib
