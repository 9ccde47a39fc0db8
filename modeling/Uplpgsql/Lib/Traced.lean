import Mathlib.Data.List.Basic
import Mathlib.Data.List.Nodup
import Mathlib.Data.List.Infix

/-!
Computations that leave a trace.

A computation reads and changes a world, leaves a trace of events and ends with a
value or an error. Two computations that do the same up to some point are
compared by their traces: events that can only come from one part of a
computation tell which part was run.
-/

namespace Lib

variable {σ ε ι α β γ : Type}

structure Outcome (σ ε ι α : Type) where
  trace : List ι
  result : Except ε α
  world : σ

def Traced (σ ε ι α : Type) := σ → Outcome σ ε ι α

namespace Traced

def bind (x : Traced σ ε ι α) (f : α → Traced σ ε ι β) : Traced σ ε ι β := fun w =>
  match (x w).result with
  | .ok a => ⟨(x w).trace ++ (f a (x w).world).trace, (f a (x w).world).result, (f a (x w).world).world⟩
  | .error e => ⟨(x w).trace, .error e, (x w).world⟩

instance : Monad (Traced σ ε ι) where
  pure a := fun w => ⟨[], .ok a, w⟩
  bind := bind

/-- An event, with what it does. -/
def event (i : ι) (act : σ → Except ε α × σ) : Traced σ ε ι α := fun w => ⟨[i], (act w).1, (act w).2⟩

@[simp] theorem pure_apply (a : α) (w : σ) : (pure a : Traced σ ε ι α) w = ⟨[], .ok a, w⟩ := rfl

@[simp] theorem event_apply (i : ι) (act : σ → Except ε α × σ) (w : σ) :
    event i act w = ⟨[i], (act w).1, (act w).2⟩ := rfl

variable {x : Traced σ ε ι α} {f : α → Traced σ ε ι β} {w : σ}

theorem bind_ok {a : α} (ok : (x w).result = .ok a) :
    (x >>= f) w = ⟨(x w).trace ++ (f a (x w).world).trace, (f a (x w).world).result,
      (f a (x w).world).world⟩ := by
  change bind x f w = _
  unfold bind
  rw [ok]

theorem bind_error {e : ε} (error : (x w).result = .error e) :
    (x >>= f) w = ⟨(x w).trace, .error e, (x w).world⟩ := by
  change bind x f w = _
  unfold bind
  rw [error]

theorem bind_result_ok {b : β} (ok : ((x >>= f) w).result = .ok b) :
    ∃ a, (x w).result = .ok a ∧ (f a (x w).world).result = .ok b := by
  cases result : (x w).result with
  | error e =>
    rw [bind_error result] at ok
    cases ok
  | ok a =>
    rw [bind_ok result] at ok
    exact ⟨a, rfl, ok⟩

@[simp] theorem pure_bind (a : α) (f : α → Traced σ ε ι β) : (pure a >>= f) = f a := by
  funext w
  rw [bind_ok rfl]
  rfl

theorem bind_assoc (x : Traced σ ε ι α) (f : α → Traced σ ε ι β) (g : β → Traced σ ε ι γ) :
    ((x >>= f) >>= g) = x >>= fun a => f a >>= g := by
  funext w
  cases first : (x w).result with
  | error e => rw [bind_error first, bind_error (by rw [bind_error first]), bind_error first]
  | ok a =>
    rw [bind_ok first]
    have before : ((x >>= f) w).result = (f a (x w).world).result := by rw [bind_ok first]
    cases second : (f a (x w).world).result with
    | error e =>
      rw [bind_error (before.trans second), bind_error second, bind_ok first]
    | ok b =>
      rw [bind_ok (before.trans second), bind_ok second, bind_ok first]
      simp only [List.append_assoc]

/-! ### Where events come from -/

/-- Every event is one of `P`. -/
def Within (P : ι → Prop) (x : Traced σ ε ι α) : Prop := ∀ w, ∀ i ∈ (x w).trace, P i

theorem Within.pure (P : ι → Prop) (a : α) : Within P (pure a : Traced σ ε ι α) := by
  simp [Within]

theorem Within.event {P : ι → Prop} {i : ι} (here : P i) (act : σ → Except ε α × σ) :
    Within P (event i act) := by
  simp [Within, here]

theorem Within.mono {P Q : ι → Prop} (within : Within P x) (weaker : ∀ i, P i → Q i) : Within Q x :=
  fun w i member => weaker i (within w i member)

theorem Within.bind {P : ι → Prop} (first : Within P x) (rest : ∀ a, Within P (f a)) :
    Within P (x >>= f) := by
  intro w i member
  cases result : (x w).result with
  | error e =>
    rw [bind_error result] at member
    exact first w i member
  | ok a =>
    rw [bind_ok result] at member
    rcases List.mem_append.mp member with member | member
    · exact first w i member
    · exact rest a _ i member

/-- No event twice. -/
def Once (x : Traced σ ε ι α) : Prop := ∀ w, (x w).trace.Nodup

theorem Once.pure (a : α) : Once (pure a : Traced σ ε ι α) := by
  simp [Once]

theorem Once.event (i : ι) (act : σ → Except ε α × σ) : Once (event i act) := by
  simp [Once]

theorem Once.bind {P Q : ι → Prop} (apart : ∀ i, P i → Q i → False) (firstIn : Within P x)
    (restIn : ∀ a, Within Q (f a)) (first : Once x) (rest : ∀ a, Once (f a)) : Once (x >>= f) := by
  intro w
  cases result : (x w).result with
  | error e =>
    rw [bind_error result]
    exact first w
  | ok a =>
    rw [bind_ok result, List.nodup_append]
    refine ⟨first w, rest a _, ?_⟩
    rintro i member j member' rfl
    exact apart i (firstIn w i member) (restIn a _ i member')

/-- Two traces, each of two parts whose events are apart: one is in the other if
and only if the parts are. -/
theorem append_subset_append {P Q : ι → Prop} (apart : ∀ i, P i → Q i → False) {l₁ l₂ r₁ r₂ : List ι}
    (left₁ : ∀ i ∈ l₁, P i) (left₂ : ∀ i ∈ l₂, Q i) (right₁ : ∀ i ∈ r₁, P i) (right₂ : ∀ i ∈ r₂, Q i)
    (subset : l₁ ++ l₂ ⊆ r₁ ++ r₂) : l₁ ⊆ r₁ ∧ l₂ ⊆ r₂ := by
  constructor
  · intro i member
    rcases List.mem_append.mp (subset (List.mem_append_left _ member)) with here | there
    · exact here
    · exact (apart i (left₁ i member) (right₂ i there)).elim
  · intro i member
    rcases List.mem_append.mp (subset (List.mem_append_right _ member)) with there | here
    · exact (apart i (right₁ i there) (left₂ i member)).elim
    · exact here

section Compare

variable {P Q : ι → Prop} {α' β' : Type} {y : Traced σ ε ι α'} {g : α' → Traced σ ε ι β'}

/-- What `f` adds to a trace. -/
theorem bind_trace (x : Traced σ ε ι α) (f : α → Traced σ ε ι β) (w : σ) :
    ∃ more, ((x >>= f) w).trace = (x w).trace ++ more ∧
      ∀ i ∈ more, ∃ a, (x w).result = .ok a ∧ i ∈ (f a (x w).world).trace := by
  cases result : (x w).result with
  | error e => exact ⟨[], by rw [bind_error result, List.append_nil], nofun⟩
  | ok a => exact ⟨_, by rw [bind_ok result], fun i member => ⟨a, rfl, member⟩⟩

theorem bind_quiet_trace (quiet : ∀ a, ∃ b, f a = pure b) (w : σ) : ((x >>= f) w).trace = (x w).trace := by
  cases result : (x w).result with
  | error e => rw [bind_error result]
  | ok a =>
    obtain ⟨b, eq⟩ := quiet a
    rw [bind_ok result, eq]
    exact List.append_nil _

theorem bind_subset_left (apart : ∀ i, P i → Q i → False) (xIn : Within P x) (fIn : ∀ a, Within Q (f a))
    (yIn : Within P y) (gIn : ∀ a, Within Q (g a))
    (subset : ((x >>= f) w).trace ⊆ ((y >>= g) w).trace) : (x w).trace ⊆ (y w).trace := by
  obtain ⟨more, trace, from_f⟩ := bind_trace x f w
  obtain ⟨more', trace', from_g⟩ := bind_trace y g w
  rw [trace, trace'] at subset
  refine (append_subset_append apart (xIn w) ?_ (yIn w) ?_ subset).1
  · intro i member
    obtain ⟨a, -, member⟩ := from_f i member
    exact fIn a _ i member
  · intro i member
    obtain ⟨a, -, member⟩ := from_g i member
    exact gIn a _ i member

theorem bind_subset_right (apart : ∀ i, P i → Q i → False) (xIn : Within P x) (fIn : ∀ a, Within Q (f a))
    (yIn : Within P y) (gIn : ∀ a, Within Q (g a)) {a : α} {b : α'} (ok : (x w).result = .ok a)
    (ok' : (y w).result = .ok b) (subset : ((x >>= f) w).trace ⊆ ((y >>= g) w).trace) :
    (f a (x w).world).trace ⊆ (g b (y w).world).trace := by
  rw [bind_ok ok, bind_ok ok'] at subset
  exact (append_subset_append apart (xIn w) (fIn a _) (yIn w) (gIn b _) subset).2

end Compare

/-! ### The first event -/

/-- The world decides nothing before the first event. -/
inductive Steady (x : Traced σ ε ι α) : Prop where
  | quiet (a : α) (same : ∀ w, x w = ⟨[], .ok a, w⟩)
  | starts (i : ι) (same : ∀ w, (x w).trace.head? = some i)

theorem Steady.pure (a : α) : Steady (pure a : Traced σ ε ι α) := .quiet a fun _ => rfl

theorem Steady.event (i : ι) (act : σ → Except ε α × σ) : Steady (event i act) :=
  .starts i fun _ => rfl

theorem Steady.bind (first : Steady x) (rest : ∀ a, Steady (f a)) : Steady (x >>= f) := by
  cases first with
  | quiet a same =>
    have next (w : σ) : (x >>= f) w = f a w := by
      rw [bind_ok (by rw [same w])]
      simp [same w]
    cases rest a with
    | quiet b same' => exact .quiet b fun w => (next w).trans (same' w)
    | starts i same' => exact .starts i fun w => by rw [next w, same' w]
  | starts i same =>
    refine .starts i fun w => ?_
    have here := same w
    cases result : (x w).result with
    | error e => rw [bind_error result, here]
    | ok a =>
      rw [bind_ok result]
      simp only [List.head?_append, here, Option.some_or]

theorem Steady.head?_eq (steady : Steady x) (w w' : σ) :
    (x w).trace.head? = (x w').trace.head? := by
  cases steady with
  | quiet a same => rw [same w, same w']
  | starts i same => rw [same w, same w']

end Traced

end Lib
