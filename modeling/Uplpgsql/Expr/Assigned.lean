import Uplpgsql.Expr.HandedOver

/-!
# Assigning what was evaluated

The memory between two statements: every object belongs to the one variable that
holds it, or to the caller. An assignment keeps it so, and the variables have the
values that the assignment means, whether an object has been handed over or not.
-/

namespace Uplpgsql.ReadWrite

open Lib

variable {V E : Type}

/-! ### The memory of the variables -/

section Memory

variable (env : Executor V E)

/-- The objects that are pointed to are there, in the right memory; no two
variables hold the same one, and none in the memory of the variables is lost. -/
structure Held (w : World V E) : Prop where
  owns : ∀ d a, (w.vars d).value = .rw a →
    w.heap a ≠ none ∧ w.owner a = .variable ∧ (w.vars d).freeval = true
  lends : ∀ d a, (w.vars d).value = .ro a → w.heap a ≠ none ∧ w.owner a = .caller
  unique : ∀ d d' a, (w.vars d).value = .rw a → (w.vars d').value = .rw a → d = d'
  held : ∀ a, w.heap a ≠ none → w.owner a = .variable → ∃ d, (w.vars d).value = .rw a
  fixed : ∀ d, (env.decl d).varlena = false → (w.vars d).value.object = none

/-- Nothing is left in the memory of an evaluation. -/
def Clean (w : World V E) : Prop := ∀ a, w.heap a ≠ none → w.owner a ≠ .eval

variable {env}

theorem Held.live {w : World V E} (held : Held env w) {d a : Nat}
    (points : (w.vars d).value.object = some a) : w.heap a ≠ none := by
  cases value : (w.vars d).value with
  | null =>
    rw [value] at points
    cases points
  | flat v =>
    rw [value] at points
    cases points
  | ro b =>
    rw [value] at points
    cases points
    exact (held.lends d a value).1
  | rw b =>
    rw [value] at points
    cases points
    exact (held.owns d a value).1

theorem Held.read {w : World V E} (held : Held env w) (d : Nat) :
    (w.vars d).value.read w.heap = some (w.value d) := by
  unfold World.value
  cases value : (w.vars d).value with
  | null => rfl
  | flat v => rfl
  | ro a =>
    obtain ⟨v, here⟩ := Option.ne_none_iff_exists'.mp (held.live (d := d) (a := a) (by rw [value]; rfl))
    simp [Ref.read, here]
  | rw a =>
    obtain ⟨v, here⟩ := Option.ne_none_iff_exists'.mp (held.live (d := d) (a := a) (by rw [value]; rfl))
    simp [Ref.read, here]

/-- A variable does not lead to the object that another one holds. -/
theorem Held.object_ne {w : World V E} (held : Held env w) {d d' a : Nat}
    (value : (w.vars d).value = .rw a) (ne : d' ≠ d) : (w.vars d').value.object ≠ some a := by
  intro points
  cases value' : (w.vars d').value with
  | null =>
    rw [value'] at points
    cases points
  | flat v =>
    rw [value'] at points
    cases points
  | ro b =>
    rw [value'] at points
    cases points
    have caller := (held.lends d' a value').2
    rw [(held.owns d a value).2.1] at caller
    cases caller
  | rw b =>
    rw [value'] at points
    cases points
    exact ne (held.unique d' d a value' value)

/-- A variable that is kept, with its object, has the value it had. -/
theorem value_congr {w w' : World V E} {d : Nat} (var : w'.vars d = w.vars d)
    (heap : ∀ a, (w.vars d).value.object = some a → w'.heap a = w.heap a) : w'.value d = w.value d := by
  unfold World.value
  rw [var, Ref.read_congr heap]

/-! ### Cleaning up -/

theorem evalCleanup_of_live {w : World V E} {a : Nat} (kept : w.owner a ≠ .eval) :
    w.evalCleanup.heap a = w.heap a := by
  simp [World.evalCleanup, Objects.restrict_apply, kept]

theorem evalCleanup_clean (w : World V E) : Clean w.evalCleanup := by
  intro a live
  simp only [World.evalCleanup, Objects.restrict_apply] at live ⊢
  intro gone
  simp [gone] at live

theorem live_of_evalCleanup {w : World V E} {a : Nat} (live : w.evalCleanup.heap a ≠ none) :
    w.heap a ≠ none := by
  simp only [World.evalCleanup, Objects.restrict_apply] at live
  split at live
  · exact live
  · exact absurd rfl live

/-- No variable leads to what is cleaned up. -/
theorem Held.owner_ne_eval {w : World V E} (held : Held env w) {d a : Nat}
    (points : (w.vars d).value.object = some a) : w.owner a ≠ .eval := by
  cases value : (w.vars d).value with
  | null =>
    rw [value] at points
    cases points
  | flat v =>
    rw [value] at points
    cases points
  | ro b =>
    rw [value] at points
    cases points
    rw [(held.lends d a value).2]
    decide
  | rw b =>
    rw [value] at points
    cases points
    rw [(held.owns d a value).2.1]
    decide

theorem Held.evalCleanup {w : World V E} (held : Held env w) : Held env w.evalCleanup where
  owns d a value := by
    obtain ⟨live, owner, freeval⟩ := held.owns d a value
    refine ⟨?_, owner, freeval⟩
    rwa [evalCleanup_of_live (by rw [owner]; decide)]
  lends d a value := by
    obtain ⟨live, owner⟩ := held.lends d a value
    refine ⟨?_, owner⟩
    rwa [evalCleanup_of_live (by rw [owner]; decide)]
  unique := held.unique
  held a live := held.held a (live_of_evalCleanup live)
  fixed := held.fixed

theorem Held.value_evalCleanup {w : World V E} (held : Held env w) (d : Nat) :
    w.evalCleanup.value d = w.value d :=
  value_congr rfl fun _ points => evalCleanup_of_live (held.owner_ne_eval points)

/-! ### Storing -/

/-- A value is ready to be put into the variable: all is as it should be, but that
its object may be one that no variable holds yet. -/
structure Storable (env : Executor V E) (t : Nat) (val : Ref V) (w : World V E) : Prop where
  owns : ∀ d a, (w.vars d).value = .rw a →
    w.heap a ≠ none ∧ w.owner a = .variable ∧ (w.vars d).freeval = true
  lends : ∀ d a, (w.vars d).value = .ro a → w.heap a ≠ none ∧ w.owner a = .caller
  unique : ∀ d d' a, (w.vars d).value = .rw a → (w.vars d').value = .rw a → d = d'
  held : ∀ a, w.heap a ≠ none → w.owner a = .variable → (∃ d, (w.vars d).value = .rw a) ∨ val = .rw a
  fixed : ∀ d, (env.decl d).varlena = false → (w.vars d).value.object = none
  mine : ∀ a, val = .rw a → w.heap a ≠ none ∧ w.owner a = .variable ∧
    ∀ d, d ≠ t → (w.vars d).value ≠ .rw a
  owned : ∀ a, val ≠ .ro a
  varlena : (env.decl t).varlena = false → val.object = none

variable {w : World V E} {t : Nat} {val : Ref V}

theorem sameObject_eq {r r' : Ref V} (same : sameObject r r' = true) : ∃ a, r = .rw a ∧ r' = .rw a := by
  cases r <;> cases r' <;> simp_all [sameObject]

theorem sameObject_self (a : Nat) : sameObject (.rw a : Ref V) (.rw a) = true := by
  simp [sameObject]

/-- `assign_simple_var`: only the object that the variable held goes. -/
theorem assignSimpleVar_spec (var : Var V)
    (freeval : ∀ a, (w.vars t).value = .rw a → (w.vars t).freeval = true) :
    (assignSimpleVar t var w).vars = Function.update w.vars t var ∧
      (assignSimpleVar t var w).owner = w.owner ∧
      (∀ a, (w.vars t).value ≠ .rw a → (assignSimpleVar t var w).heap a = w.heap a) ∧
      ∀ a, (w.vars t).value = .rw a → (assignSimpleVar t var w).heap a = none := by
  unfold assignSimpleVar
  cases value : (w.vars t).value with
  | rw a =>
    rw [freeval a value]
    refine ⟨rfl, rfl, fun b ne => Objects.free_of_ne _ fun same => ne (same ▸ rfl), fun b same => ?_⟩
    cases same
    exact Objects.free_self _ _
  | null => cases (w.vars t).freeval <;> exact ⟨rfl, rfl, fun _ _ => rfl, by simp⟩
  | flat v => cases (w.vars t).freeval <;> exact ⟨rfl, rfl, fun _ _ => rfl, by simp⟩
  | ro b => cases (w.vars t).freeval <;> exact ⟨rfl, rfl, fun _ _ => rfl, by simp⟩

/-- The old object goes, the new one comes. -/
theorem Storable.install (s : Storable env t val w) :
    Held env (install (env.decl t) t val w) ∧
      (install (env.decl t) t val w).value t = (val.read w.heap).getD none ∧
      ∀ d, d ≠ t → (install (env.decl t) t val w).value d = w.value d := by
  unfold ReadWrite.install
  by_cases same : sameObject (w.vars t).value val = true
  · rw [if_pos same]
    -- The variable is given the object it already holds, and nothing moves.
    obtain ⟨a, old, new⟩ := sameObject_eq same
    refine ⟨⟨s.owns, s.lends, s.unique, fun b live owner => ?_, s.fixed⟩, ?_, fun d _ => rfl⟩
    · rcases s.held b live owner with held | eq
      · exact held
      · exact ⟨t, by rw [old, ← new, eq]⟩
    · rw [World.value, old, new]
  · rw [if_neg same]
    -- Otherwise the old object is freed and the slot of `t` is the only one that changes.
    obtain ⟨vars, owner, kept, gone⟩ := assignSimpleVar_spec (w := w) (t := t)
      ⟨val, !(env.decl t).typbyval && !isNull val⟩ fun a old => (s.owns t a old).2.2
    generalize assignSimpleVar t ⟨val, !(env.decl t).typbyval && !isNull val⟩ w = w' at *
    have at_ (d : Nat) (ne : d ≠ t) : w'.vars d = w.vars d := by rw [vars, Function.update_of_ne ne]
    have self : w'.vars t = ⟨val, !(env.decl t).typbyval && !isNull val⟩ := by
      rw [vars, Function.update_self]
    -- No other variable pointed to what was freed.
    have keptAt {d b : Nat} (ne : d ≠ t) (points : (w.vars d).value.object = some b) :
        w'.heap b = w.heap b := by
      refine kept b fun old => ?_
      cases value : (w.vars d).value with
      | null =>
        rw [value] at points
        cases points
      | flat v =>
        rw [value] at points
        cases points
      | ro c =>
        rw [value] at points
        cases points
        have caller := (s.lends d b value).2
        rw [(s.owns t b old).2.1] at caller
        cases caller
      | rw c =>
        rw [value] at points
        cases points
        exact ne (s.unique d t b value old)
    -- The new object is not the freed one, or this would be the first case.
    have keptNew {b : Nat} (new : val = .rw b) : w'.heap b = w.heap b := by
      refine kept b fun old => same ?_
      rw [old, new]
      exact sameObject_self b
    refine ⟨⟨?_, ?_, ?_, ?_, ?_⟩, ?_, ?_⟩
    -- Owners: the target owns the new object, the others what they owned.
    · intro d a value
      by_cases own : d = t
      · subst own
        rw [self] at value ⊢
        obtain ⟨live, variable_, -⟩ := s.mine a value
        refine ⟨by rwa [keptNew value], by rwa [owner], ?_⟩
        have varlena : (env.decl d).varlena = true := by
          by_contra fixed
          have none := s.varlena (by simpa using fixed)
          rw [show val = .rw a from value] at none
          cases none
        rw [show val = .rw a from value, (env.decl d).byval_fixed varlena]
        rfl
      · rw [at_ d own] at value ⊢
        obtain ⟨live, variable_, freeval⟩ := s.owns d a value
        exact ⟨by rwa [keptAt own (by rw [value]; rfl)], by rwa [owner], freeval⟩
    -- Lent values: the target is never given one.
    · intro d a value
      by_cases own : d = t
      · subst own
        rw [self] at value
        exact absurd value (s.owned a)
      · rw [at_ d own] at value
        obtain ⟨live, caller⟩ := s.lends d a value
        exact ⟨by rwa [keptAt own (by rw [value]; rfl)], by rwa [owner]⟩
    -- Two variables never own one object.
    · intro d d' a value value'
      by_cases own : d = t <;> by_cases own' : d' = t
      · rw [own, own']
      · subst own
        rw [self] at value
        rw [at_ d' own'] at value'
        exact absurd value' ((s.mine a value).2.2 d' own')
      · subst own'
        rw [self] at value'
        rw [at_ d own] at value
        exact absurd value ((s.mine a value').2.2 d own)
      · rw [at_ d own] at value
        rw [at_ d' own'] at value'
        exact s.unique d d' a value value'
    -- Everything left in the heap has a variable that holds it.
    · intro a live variable_
      rw [owner] at variable_
      by_cases old : (w.vars t).value = .rw a
      · exact absurd (gone a old) live
      · rw [kept a old] at live
        rcases s.held a live variable_ with ⟨d, value⟩ | new
        · have ne : d ≠ t := by
            rintro rfl
            exact old value
          exact ⟨d, by rw [at_ d ne]; exact value⟩
        · exact ⟨t, by rw [self]; exact new⟩
    · intro d fixed
      by_cases own : d = t
      · subst own
        rw [self]
        exact s.varlena fixed
      · rw [at_ d own]
        exact s.fixed d fixed
    · rw [World.value, self]
      refine congrArg (Option.getD · none) (Ref.read_congr fun b points => ?_)
      cases value : val with
      | null =>
        rw [value] at points
        cases points
      | flat v =>
        rw [value] at points
        cases points
      | ro c => exact absurd value (s.owned c)
      | rw c =>
        rw [value] at points
        cases points
        exact keptNew value
    · intro d ne
      exact value_congr (at_ d ne) fun b points => keptAt ne points

/-! ### The new value -/

/-- A value that is no object needs nothing. -/
theorem Storable.ofHeld (held : Held env w) (none : val.object = none) : Storable env t val w where
  owns := held.owns
  lends := held.lends
  unique := held.unique
  held a live owner := .inl (held.held a live owner)
  fixed := held.fixed
  mine a eq := by
    rw [eq] at none
    cases none
  owned a eq := by
    rw [eq] at none
    cases none
  varlena _ := none

/-- An array is made into an object of the variable. -/
theorem expandArray_storable (held : Held env w) (varlena : (env.decl t).varlena = true) (v : V) :
    Storable env t (expandArray v w).1 (expandArray v w).2 ∧
      (expandArray v w).1.read (expandArray v w).2.heap = some (some v) ∧
      ∀ d, (expandArray v w).2.value d = w.value d := by
  have dead := w.heap.next_dead
  have heap {a : Nat} (live : w.heap a ≠ none) : (w.heap.alloc v) a = w.heap a :=
    w.heap.alloc_of_live v live
  have owner {a : Nat} (live : w.heap a ≠ none) :
      Function.update w.owner w.heap.next .variable a = w.owner a := by
    refine Function.update_of_ne ?_ _ _
    rintro rfl
    exact live dead
  have newOwner : Function.update w.owner w.heap.next .variable w.heap.next = .variable :=
    Function.update_self _ _ _
  refine ⟨⟨?_, ?_, held.unique, ?_, held.fixed, ?_, ?_, ?_⟩, ?_, ?_⟩
  · intro d a value
    obtain ⟨live, variable_, freeval⟩ := held.owns d a value
    exact ⟨by change (w.heap.alloc v) a ≠ none; rwa [heap live], (owner live).trans variable_, freeval⟩
  · intro d a value
    obtain ⟨live, caller⟩ := held.lends d a value
    exact ⟨by change (w.heap.alloc v) a ≠ none; rwa [heap live], (owner live).trans caller⟩
  · intro a live variable_
    change (w.heap.alloc v) a ≠ none at live
    change Function.update w.owner w.heap.next .variable a = .variable at variable_
    by_cases new : a = w.heap.next
    · exact .inr (by rw [new]; rfl)
    · rw [w.heap.alloc_of_ne v new] at live
      rw [owner live] at variable_
      exact .inl (held.held a live variable_)
  · intro a eq
    cases eq
    refine ⟨?_, newOwner, fun d _ value => (held.owns d _ value).1 dead⟩
    change (w.heap.alloc v) w.heap.next ≠ none
    simp
  · exact fun a eq => by cases eq
  · intro fixed
    rw [varlena] at fixed
    cases fixed
  · change ((w.heap.alloc v) w.heap.next).map some = _
    simp
  · exact fun d => value_congr rfl fun a points => heap (held.live points)

/-- What is stored has the value, and the variables keep theirs until it is. -/
theorem newValue_storable {r : Ref V} {v : Option V} (held : Held env w) (read : r.read w.heap = some v)
    (mine : ∀ a, r = .rw a → w.owner a = .eval ∨ (w.vars t).value = .rw a) :
    Storable env t (newValue (env.decl t) r w).1 (newValue (env.decl t) r w).2 ∧
      (newValue (env.decl t) r w).1.read (newValue (env.decl t) r w).2.heap = some v ∧
      ∀ d, (newValue (env.decl t) r w).2.value d = w.value d := by
  unfold newValue
  by_cases varlena : (env.decl t).varlena = true
  · rw [if_pos varlena]
    cases r with
    | null => exact ⟨.ofHeld held rfl, read, fun _ => rfl⟩
    | flat v' =>
      cases read
      dsimp only
      split
      · exact expandArray_storable held varlena v'
      · exact ⟨.ofHeld held rfl, rfl, fun _ => rfl⟩
    | ro a =>
      simp only [Ref.read, Option.map_eq_some_iff] at read
      obtain ⟨v', here, rfl⟩ := read
      simp only [here]
      split
      · exact expandArray_storable held varlena v'
      · exact ⟨.ofHeld held rfl, rfl, fun _ => rfl⟩
    | rw a =>
      have live : w.heap a ≠ none := Ref.live_of_read rfl read
      -- whoever leads to the object holds it, and is the target
      have others {d b : Nat} (points : (w.vars d).value.object = some b) (ne : d ≠ t) : b ≠ a := by
        rintro rfl
        rcases mine b rfl with owner | value
        · exact held.owner_ne_eval points owner
        · exact held.object_ne value ne points
      have owner {b : Nat} (ne : b ≠ a) : Function.update w.owner a .variable b = w.owner b :=
        Function.update_of_ne ne _ _
      refine ⟨⟨?_, ?_, held.unique, ?_, held.fixed, ?_, ?_, ?_⟩, read, fun d => rfl⟩
      · intro d b value
        obtain ⟨alive, variable_, freeval⟩ := held.owns d b value
        refine ⟨alive, ?_, freeval⟩
        by_cases same : b = a
        · rw [same]
          exact Function.update_self _ _ _
        · exact (owner same).trans variable_
      · intro d b value
        obtain ⟨alive, caller⟩ := held.lends d b value
        refine ⟨alive, ?_⟩
        by_cases same : b = a
        · subst same
          rcases mine b rfl with gone | own
          · rw [gone] at caller
            cases caller
          · rw [(held.owns t b own).2.1] at caller
            cases caller
        · exact (owner same).trans caller
      · intro b alive variable_
        by_cases same : b = a
        · exact .inr (by rw [same])
        · change Function.update w.owner a .variable b = .variable at variable_
          rw [owner same] at variable_
          exact .inl (held.held b alive variable_)
      · intro b eq
        cases eq
        exact ⟨live, Function.update_self _ _ _,
          fun d ne value => others (congrArg Ref.object value) ne rfl⟩
      · exact fun b eq => by cases eq
      · intro fixed
        rw [varlena] at fixed
        cases fixed
  · rw [if_neg varlena]
    refine ⟨.ofHeld held (Ref.object_ofValue _), ?_, fun _ => rfl⟩
    rw [read, Option.getD_some, Ref.read_ofValue]

/-- `exec_assign_value` and `exec_eval_cleanup`. -/
theorem storeValue_spec {r : Ref V} {v : Option V} (held : Held env w) (read : r.read w.heap = some v)
    (mine : ∀ a, r = .rw a → w.owner a = .eval ∨ (w.vars t).value = .rw a) :
    Held env (storeValue env t r w).evalCleanup ∧ Clean (storeValue env t r w).evalCleanup ∧
      (storeValue env t r w).evalCleanup.value = Function.update w.value t v := by
  obtain ⟨storable, value, same⟩ := newValue_storable held read mine
  obtain ⟨held', own, others⟩ := storable.install
  refine ⟨held'.evalCleanup, evalCleanup_clean _, ?_⟩
  funext d
  rw [storeValue, held'.value_evalCleanup]
  by_cases ne : d = t
  · subst ne
    rw [Function.update_self]
    exact own.trans (by rw [value, Option.getD_some])
  · rw [Function.update_of_ne ne]
    exact (others d ne).trans (same d)

theorem storeValue_ext (r : Ref V) : (storeValue env t r w).evalCleanup.ext = w.ext := by
  have newExt : (newValue (env.decl t) r w).2.ext = w.ext := by
    unfold newValue
    split
    · cases r with
      | null => rfl
      | rw a => rfl
      | flat v =>
        dsimp only
        split <;> rfl
      | ro a =>
        dsimp only
        split
        · rfl
        · split <;> rfl
    · rfl
  change (install _ t _ _).ext = _
  rw [← newExt]
  unfold ReadWrite.install assignSimpleVar
  split
  · rfl
  · split <;> rfl

variable (env t) in
/-- A new value is found without touching what the caller has lent. -/
theorem newValue_lent {r : Ref V} (mine : ∀ a, r = .rw a → w.owner a ≠ .caller) {a : Nat}
    (live : w.heap a ≠ none) (caller : w.owner a = .caller) :
    (newValue (env.decl t) r w).2.heap a = w.heap a ∧ (newValue (env.decl t) r w).2.owner a = .caller ∧
      (newValue (env.decl t) r w).2.vars = w.vars := by
  have expanded (v : V) : (expandArray v w).2.heap a = w.heap a ∧ (expandArray v w).2.owner a = .caller ∧
      (expandArray v w).2.vars = w.vars := by
    refine ⟨w.heap.alloc_of_live v live, (Function.update_of_ne ?_ _ _).trans caller, rfl⟩
    rintro rfl
    exact live w.heap.next_dead
  have same : w.heap a = w.heap a ∧ w.owner a = .caller ∧ w.vars = w.vars := ⟨rfl, caller, rfl⟩
  unfold newValue
  split
  · cases r with
    | null => exact same
    | rw b =>
      refine ⟨rfl, (Function.update_of_ne ?_ _ _).trans caller, rfl⟩
      rintro rfl
      exact mine a rfl caller
    | flat v =>
      dsimp only
      split
      · exact expanded v
      · exact same
    | ro b =>
      dsimp only
      split
      · exact same
      · split
        · exact expanded _
        · exact same
  · exact same

/-- Only what the variable itself held is freed. -/
theorem storeValue_lent {r : Ref V} (held : Held env w) (mine : ∀ a, r = .rw a → w.owner a ≠ .caller)
    {a : Nat} (live : w.heap a ≠ none) (caller : w.owner a = .caller) :
    (storeValue env t r w).evalCleanup.heap a = w.heap a ∧ (storeValue env t r w).evalCleanup.owner a = .caller := by
  obtain ⟨heap, owner, vars⟩ := newValue_lent env t mine live caller
  have stored : (storeValue env t r w).heap a = w.heap a ∧ (storeValue env t r w).owner a = .caller := by
    unfold storeValue ReadWrite.install
    split
    · exact ⟨heap, owner⟩
    · obtain ⟨-, owner', kept, -⟩ := assignSimpleVar_spec (w := (newValue (env.decl t) r w).2) (t := t)
        ⟨(newValue (env.decl t) r w).1, !(env.decl t).typbyval && !isNull (newValue (env.decl t) r w).1⟩
        fun b own => by
          rw [vars] at own ⊢
          exact (held.owns t b own).2.2
      refine ⟨(kept a fun own => ?_).trans heap, (congrFun owner' a).trans owner⟩
      rw [vars] at own
      rw [(held.owns t a own).2.1] at caller
      cases caller
  refine ⟨(evalCleanup_of_live ?_).trans stored.1, stored.2⟩
  rw [stored.2]
  decide

end Memory

/-! ### Evaluating -/

/-- A support function names an argument of the call that refers to the datum, and
vouches for the function called. -/
structure Executor.Honest (env : Executor V E) : Prop where
  direct : ∀ {e : Expr V} {funcid fargs supports dno param},
    e.topFunction env.typsubscript = some (funcid, fargs) → env.prosupport funcid = some supports →
      supports fargs dno = some param → some (.param param dno) ∈ fargs
  inPlace : ∀ {e : Expr V} {funcid fargs supports dno param routine args},
    e.topFunction env.typsubscript = some (funcid, fargs) → env.prosupport funcid = some supports →
      supports fargs dno = some param → e.asCall = some (routine, args) → env.InPlace routine

section Assignment

variable {env : Executor V E} {expr : PlExpr V}

/-- An assignment looks at the variables, and can modify only the object of its
target, if that is handed over. -/
def targetFootprint (env : Executor V E) (expr : PlExpr V) (w : World V E) : Footprint where
  reads a := ∃ d, (w.vars d).value.object = some a
  writes a := (execCheckRwParameter env expr).2 ≠ none ∧ (w.vars expr.targetParam).value = .rw a
  grants a := (execCheckRwParameter env expr).2 ≠ none ∧ (w.vars expr.targetParam).value = .rw a

theorem asCall_of_topFunction {typsubscript : Nat → Nat} {e : Expr V} {funcid : Nat}
    {fargs : List (Option (Expr V))} (top : e.topFunction typsubscript = some (funcid, fargs)) :
    ∃ routine args, e.asCall = some (routine, args) ∧ ∀ arg, some arg ∈ fargs → arg ∈ args.toList := by
  cases e with
  | funcExpr funcid args =>
    cases top
    exact ⟨_, _, rfl, fun arg mem => by simpa using mem⟩
  | opExpr opfuncid args =>
    cases top
    exact ⟨_, _, rfl, fun arg mem => by simpa using mem⟩
  | subscriptFetch container refexpr subscripts =>
    cases top
    refine ⟨_, _, rfl, fun arg mem => ?_⟩
    have eq : arg = refexpr := by simpa using mem
    rw [eq]
    exact List.mem_cons_self
  | subscriptAssign container refexpr subscripts refassgnexpr =>
    cases top
    refine ⟨_, _, rfl, fun arg mem => ?_⟩
    have eq : arg = refexpr ∨ arg = refassgnexpr := by simpa using mem
    rw [Exprs.toList, Exprs.toList_snoc]
    rcases eq with rfl | rfl
    · exact List.mem_cons_self
    · simp
  | const value => cases top
  | param node dno => cases top
  | relabelType arg => cases top
  | caseExpr cond result defresult => cases top

theorem Expr.params_beneath (e : Expr V) : e.beneath.params = e.params := by
  cases e <;> rfl

theorem Expr.interpret_beneath {S R : Type} (I : Interpretation V S R) (e : Expr V) (s : S) :
    e.beneath.interpret I s = e.interpret I s := by
  cases e <;> rfl

variable {w : World V E}

/-- What is delivered for modification is the object of the target. -/
theorem delivered_rw {node dno a : Nat} (rw : delivered env expr w node dno = .rw a) :
    dno = expr.targetParam ∧ (execCheckRwParameter env expr).2 = some node ∧
      (w.vars expr.targetParam).value = .rw a := by
  unfold delivered at rw
  split at rw
  next hands =>
    obtain ⟨rfl, own⟩ := hands
    exact ⟨rfl, own, rw⟩
  next => exact absurd rw (Ref.readOnly_ne_rw _ _)

theorem delivered_object (node dno : Nat) :
    (delivered env expr w node dno).object = (w.vars dno).value.object := by
  unfold delivered
  split
  · rfl
  · exact Ref.object_readOnly _

theorem Held.reads (held : Held env w) (ps : List (Nat × Nat)) :
    Reads (delivered env expr w) w.value ps w.heap := by
  intro pd _
  unfold delivered
  split
  · exact held.read pd.2
  · rw [Ref.read_readOnly]
    exact held.read pd.2

/-- The only reference to the target may hand its object over. -/
theorem Held.lent (held : Held env w) (distinct : (expr.simpleExpr.params.map Prod.fst).Nodup)
    {node : Nat} (single : refs expr.targetParam expr.simpleExpr.params = [node]) :
    Lent (delivered env expr w) expr.simpleExpr.params := by
  -- another Param does not lead to the object
  have apart {pd pd' : Nat × Nat} (here : pd ∈ expr.simpleExpr.params)
      (there : pd' ∈ expr.simpleExpr.params) (ne : pd ≠ pd') (a : Nat)
      (rw : delivered env expr w pd.1 pd.2 = .rw a) :
      (delivered env expr w pd'.1 pd'.2).object ≠ some a := by
    obtain ⟨own, -, value⟩ := delivered_rw rw
    rw [delivered_object]
    refine held.object_ne value fun own' => ne ?_
    have mem : pd.1 ∈ refs expr.targetParam expr.simpleExpr.params := mem_refs.mpr (own ▸ here)
    have mem' : pd'.1 ∈ refs expr.targetParam expr.simpleExpr.params := mem_refs.mpr (own' ▸ there)
    rw [single] at mem mem'
    exact Prod.ext ((List.mem_singleton.mp mem).trans (List.mem_singleton.mp mem').symm)
      (own.trans own'.symm)
  refine List.Pairwise.imp_of_mem (fun {pd pd'} here there ne => ⟨?_, ?_⟩) distinct.of_map
  · exact fun a rw => apart here there ne a rw
  · exact fun a rw => apart there here ne.symm a rw

theorem Evaluates.beneath {deliver : Nat → Nat → Ref V} {vals : Nat → Option V} {e : Expr V}
    (evaluates : Evaluates env deliver vals e.beneath) : Evaluates env deliver vals e := by
  cases e with
  | relabelType arg =>
    intro h ext reads
    obtain ⟨y, ext₁⟩ := evaluates h ext reads
    exact ⟨y.mono (fun _ read => read) (fun _ written => ⟨rfl, written.2⟩) (fun _ granted => granted),
      ext₁⟩
  | _ => exact evaluates

/-- An evaluation gives the value that is meant. -/
structure Computes (env : Executor V E) (expr : PlExpr V) (w : World V E)
    (m : Except ErrorData (Option V) × E) (o : Except ErrorData (Ref V) × EvalState V E) : Prop where
  yields : Gives (targetFootprint env expr w) w.heap m.1 o.1 o.2.heap
  ext : o.2.ext = m.2
  during : During env expr w o.2

/-- The error of an evaluation that leaves the variables as they were. -/
def Intact (w : World V E) (o : Except ErrorData (Ref V) × EvalState V E) : Prop :=
  ∀ err, o.1 = .error err → Before w o.2 ∧ ∀ a, w.heap a ≠ none → o.2.heap a = w.heap a

variable {s : EvalState V E}

theorem During.start (consistent : s.link.Consistent env expr) : During env expr s.toWorld s where
  link := consistent
  alive _ live := live
  fresh _ dead live := absurd dead live
  phase := .inl ⟨rfl, fun _ _ => rfl⟩

/-- Nothing is handed over for good unless the choice is to transfer. -/
theorem During.before {s' : EvalState V E} (during : During env expr w s')
    (kept : (execCheckRwParameter env expr).1 ≠ .transfer) : Before w s' :=
  during.phase.resolve_right fun after => kept after.1

/-- An evaluation that is right with what is delivered is right. -/
theorem computes_of_evaluates (held : Held env s.toWorld) (consistent : s.link.Consistent env expr)
    (distinct : (expr.simpleExpr.params.map Prod.fst).Nodup)
    (single : Single env expr expr.simpleExpr.params)
    (evaluates : Evaluates env (delivered env expr s.toWorld) s.value expr.simpleExpr) :
    Computes env expr s.toWorld (expr.simpleExpr.interpret (denoted env s.value) s.ext)
      (expr.simpleExpr.interpret (evaluation env expr) s) ∧
    expr.simpleExpr.interpret (lending env (delivered env expr s.toWorld)) (s.heap, s.ext) =
      ((expr.simpleExpr.interpret (evaluation env expr) s).1,
        (expr.simpleExpr.interpret (evaluation env expr) s).2.heap,
        (expr.simpleExpr.interpret (evaluation env expr) s).2.ext) := by
  have wf : WellFormed env expr s.toWorld := ⟨distinct, held.fixed⟩
  have follows := expr.simpleExpr.follows wf
    (fun a value => (held.owns _ a value).1) (fun _ here => here) single s (.start consistent)
    (.inl ⟨rfl, fun _ _ => rfl⟩)
  have same : expr.simpleExpr.interpret (lending env (delivered env expr s.toWorld)) (s.heap, s.ext) =
      ((expr.simpleExpr.interpret (evaluation env expr) s).1,
        (expr.simpleExpr.interpret (evaluation env expr) s).2.heap,
        (expr.simpleExpr.interpret (evaluation env expr) s).2.ext) :=
    Prod.ext follows.result.symm follows.state.symm
  obtain ⟨yields, ext⟩ := evaluates s.heap s.ext (held.reads _)
  rw [same] at yields ext
  refine ⟨⟨yields.mono ?_ ?_ ?_, ext, follows.during⟩, same⟩
  · rintro a ⟨pd, -, points⟩
    exact ⟨pd.2, by rwa [delivered_object] at points⟩
  · rintro a ⟨-, pd, -, rw⟩
    obtain ⟨-, own, value⟩ := delivered_rw rw
    exact ⟨by simp [own], value⟩
  · rintro a ⟨pd, -, rw⟩
    obtain ⟨-, own, value⟩ := delivered_rw rw
    exact ⟨by simp [own], value⟩

/-- The expression of an assignment is evaluated as it is meant; an error leaves the
variables as they were, unless the target is local. -/
theorem simpleExpr_computes (sound : env.Sound) (honest : env.Honest) (held : Held env s.toWorld)
    (consistent : s.link.Consistent env expr) (distinct : (expr.simpleExpr.params.map Prod.fst).Nodup) :
    Computes env expr s.toWorld (expr.simpleExpr.interpret (denoted env s.value) s.ext)
      (expr.simpleExpr.interpret (evaluation env expr) s) ∧
    (expr.targetIsLocal = false →
      Intact s.toWorld (expr.simpleExpr.interpret (evaluation env expr) s)) := by
  -- The object is handed over, or lent, or lent for writing to one top function.
  rcases execCheckRwParameter_cases env expr with
    ⟨local_, node, only, eq⟩ | eq | ⟨funcid, fargs, supports, param, top, support, answer, eq⟩
  · have lent := held.lent distinct only
    have single : Single env expr expr.simpleExpr.params := fun _ => by rw [only]; rfl
    refine ⟨(computes_of_evaluates held consistent distinct single
      (Expr.evaluates sound _ lent)).1, fun nonlocal => ?_⟩
    rw [local_] at nonlocal
    cases nonlocal
  -- Nothing can write to what is lent read-only.
  · have kept : (execCheckRwParameter env expr).1 ≠ .transfer := by simp [eq]
    have borrowed : ∀ pd ∈ expr.simpleExpr.params, ∀ a,
        delivered env expr s.toWorld pd.1 pd.2 ≠ .rw a := by
      intro pd _ a rw
      have own := (delivered_rw rw).2.1
      simp [eq] at own
    obtain ⟨computes, -⟩ := computes_of_evaluates held consistent distinct
      (fun transfer => absurd transfer kept) (Expr.evaluates sound _ (lent_of_borrowed borrowed))
    refine ⟨computes, fun _ err _ => ⟨computes.during.before kept, fun a live => ?_⟩⟩
    exact computes.yields.same a live fun written => written.1 (by rw [eq])
  -- The function that writes in place leaves the object whole if it raises.
  · have kept : (execCheckRwParameter env expr).1 ≠ .transfer := by simp [eq]
    obtain ⟨routine, args, called, inside⟩ := asCall_of_topFunction top
    have others : ∀ pd ∈ expr.simpleExpr.beneath.params, pd.1 ≠ param → ∀ a,
        delivered env expr s.toWorld pd.1 pd.2 ≠ .rw a := by
      intro pd _ other a rw
      have own := (delivered_rw rw).2.1
      rw [eq] at own
      exact other (Option.some.inj own).symm
    obtain ⟨evaluates, onError⟩ := Expr.evaluates_inPlace s.value sound called
      (honest.inPlace top support answer called) (inside _ (honest.direct top support answer))
      (by rwa [Expr.params_beneath]) others
    obtain ⟨computes, same⟩ := computes_of_evaluates held consistent distinct
      (fun transfer => absurd transfer kept) evaluates.beneath
    refine ⟨computes, fun _ err failed => ⟨computes.during.before kept, fun a live => ?_⟩⟩
    have unharmed := onError s.heap s.ext err (held.reads _)
    rw [Expr.interpret_beneath, same] at unharmed
    exact unharmed failed a live

/-! ### After the evaluation -/

section Evaluated

variable {m : Except ErrorData (Option V) × E} {o : Except ErrorData (Ref V) × EvalState V E}

/-- An object in the memory of the variables was there before. -/
theorem During.owner_variable {s' : EvalState V E} (during : During env expr w s') {a : Nat}
    (live : s'.heap a ≠ none) (variable_ : s'.owner a = .variable) : w.heap a ≠ none := by
  intro dead
  rw [during.fresh a dead live] at variable_
  cases variable_

theorem Held.during (held : Held env w) {s' : EvalState V E} (during : During env expr w s') :
    Held env s'.toWorld := by
  -- Either the target is still in place, or its object has been handed over and its slot is null.
  rcases during.phase with ⟨vars, owner⟩ | ⟨-, a, value, vars, mine, others⟩
  · refine ⟨?_, ?_, ?_, ?_, ?_⟩
    · intro d b value
      rw [vars] at value ⊢
      obtain ⟨live, variable_, freeval⟩ := held.owns d b value
      exact ⟨during.alive b live, (owner b live).trans variable_, freeval⟩
    · intro d b value
      rw [vars] at value
      obtain ⟨live, caller⟩ := held.lends d b value
      exact ⟨during.alive b live, (owner b live).trans caller⟩
    · rw [vars]
      exact held.unique
    · intro b live variable_
      have before := during.owner_variable live variable_
      rw [vars]
      exact held.held b before ((owner b before).symm.trans variable_)
    · rw [vars]
      exact held.fixed
  · have at_ (d : Nat) (ne : d ≠ expr.targetParam) : s'.vars d = w.vars d := by
      rw [vars, Function.update_of_ne ne]
    have self : s'.vars expr.targetParam = ⟨.null, false⟩ := by rw [vars, Function.update_self]
    have ne_target {d b : Nat} (value' : (s'.vars d).value.object = some b) :
        d ≠ expr.targetParam := by
      rintro rfl
      rw [self] at value'
      cases value'
    -- What another variable points to is not the object that was handed over.
    have ne_object {d b : Nat} (value' : (s'.vars d).value.object = some b) : b ≠ a := by
      have ne := ne_target value'
      rw [at_ d ne] at value'
      rintro rfl
      exact held.object_ne value ne value'
    refine ⟨?_, ?_, ?_, ?_, ?_⟩
    · intro d b value'
      have points : (s'.vars d).value.object = some b := by rw [value']; rfl
      have apart := ne_object points
      rw [at_ d (ne_target points)] at value' ⊢
      obtain ⟨live, variable_, freeval⟩ := held.owns d b value'
      exact ⟨during.alive b live, (others b live apart).trans variable_, freeval⟩
    · intro d b value'
      have points : (s'.vars d).value.object = some b := by rw [value']; rfl
      have apart := ne_object points
      rw [at_ d (ne_target points)] at value'
      obtain ⟨live, caller⟩ := held.lends d b value'
      exact ⟨during.alive b live, (others b live apart).trans caller⟩
    · intro d d' b value' value''
      have ne : d ≠ expr.targetParam := ne_target (b := b) (by rw [value']; rfl)
      have ne' : d' ≠ expr.targetParam := ne_target (b := b) (by rw [value'']; rfl)
      rw [at_ d ne] at value'
      rw [at_ d' ne'] at value''
      exact held.unique d d' b value' value''
    · intro b live variable_
      have before := during.owner_variable live variable_
      -- That object now belongs to the evaluation, so no variable has to hold it.
      have apart : b ≠ a := by
        rintro rfl
        rw [mine] at variable_
        cases variable_
      obtain ⟨d, value'⟩ := held.held b before ((others b before apart).symm.trans variable_)
      have ne : d ≠ expr.targetParam := by
        rintro rfl
        rw [value] at value'
        cases value'
        exact apart rfl
      exact ⟨d, by rw [at_ d ne]; exact value'⟩
    · intro d fixed
      by_cases ne : d = expr.targetParam
      · rw [ne, self]
        rfl
      · rw [at_ d ne]
        exact held.fixed d fixed

/-- The other variables have the values they had. -/
theorem Computes.value_other (held : Held env w) (computes : Computes env expr w m o) {d : Nat}
    (ne : d ≠ expr.targetParam) : o.2.value d = w.value d := by
  have var : o.2.vars d = w.vars d := by
    rcases computes.during.phase with ⟨vars, -⟩ | ⟨-, a, -, vars, -⟩
    · rw [vars]
    · rw [vars, Function.update_of_ne ne]
  refine value_congr var fun a points => computes.yields.same a (held.live points) fun written => ?_
  exact held.object_ne written.2 ne points

/-- The result is an object of the evaluation, or of the target. -/
theorem Computes.mine {r : Ref V} (computes : Computes env expr w m o) (ok : o.1 = .ok r) (a : Nat)
    (object : r = .rw a) : o.2.owner a = .eval ∨ (o.2.vars expr.targetParam).value = .rw a := by
  subst object
  rcases computes.yields.grants a ok with fresh | ⟨-, value⟩
  · obtain ⟨v, -, read⟩ := computes.yields.value _ ok
    exact .inl (computes.during.fresh a fresh (Ref.live_of_read rfl read))
  · rcases computes.during.phase with ⟨vars, -⟩ | ⟨-, b, value', -, gone, -⟩
    · exact .inr (by rw [vars]; exact value)
    · rw [value] at value'
      cases value'
      exact .inl gone

/-- The value of the target after an error that leaves the variables as they were. -/
theorem Intact.value {err : ErrorData} (held : Held env w) (intact : Intact w o)
    (failed : o.1 = .error err) (d : Nat) : o.2.value d = w.value d := by
  obtain ⟨⟨vars, -⟩, same⟩ := intact err failed
  exact value_congr (by rw [vars]) fun a points => same a (held.live points)

end Evaluated

/-! ### The conversion -/

/-- The value of the expression, converted. -/
def evalConverted (env : Executor V E) (expr : PlExpr V) (s : EvalState V E) :
    Except ErrorData (Ref V) × EvalState V E :=
  match expr.simpleExpr.interpret (evaluation env expr) s with
  | (.error e, s) => (.error e, s)
  | (.ok r, s) => execCastValue env expr r s

theorem execAssignExpr_eq (s : EvalState V E) :
    execAssignExpr env expr s =
      match evalConverted env expr s with
      | (.error e, s) => (.error e, s)
      | (.ok r, s) =>
        if isNull r && (env.decl expr.targetParam).notnull then
          (.error (nullValueNotAllowed (env.decl expr.targetParam)), s)
        else (.ok (), { s with toWorld := (storeValue env expr.targetParam r s.toWorld).evalCleanup }) := by
  unfold execAssignExpr evalConverted
  rcases expr.simpleExpr.interpret (evaluation env expr) s with ⟨_ | r, s₁⟩
  · rfl
  · rfl

/-- A function applied to the result of an evaluation. -/
theorem Computes.call (sound : env.Sound) (routine : Routine)
    {m : Except ErrorData (Option V) × E} {o : Except ErrorData (Ref V) × EvalState V E}
    (computes : Computes env expr w m o) {r : Ref V} {v : Option V} (ok : o.1 = .ok r)
    (want : m.1 = .ok v) :
    Computes env expr w (env.meaning routine [v] m.2) (call env routine [r] o.2) := by
  have first := computes.yields
  rw [ok, want] at first
  have read : r.read o.2.heap = some v := by
    obtain ⟨v', eq, read⟩ := first.value r rfl
    cases eq
    exact read
  have values : List.Forall₂ (fun (r : Ref V) v => r.read o.2.heap = some v) [r] [v] := .cons read .nil
  have alone : [r].Pairwise Ref.Apart := List.pairwise_singleton _ _
  have all := GivesAll.cons_ok first (GivesAll.nil o.2.heap) (by simp) (by simp)
  have yields := GivesAll.call all (sound.yields routine [r] [v] o.2.heap o.2.ext values alone)
  rw [computes.ext] at yields
  refine ⟨?_, ?_, ?_⟩
  · change Gives _ _ _ (env.impl routine [r] o.2.heap o.2.ext).result
      (env.impl routine [r] o.2.heap o.2.ext).heap
    rw [computes.ext]
    refine yields.mono ?_ ?_ ?_
    · rintro a ⟨f, mem, read⟩
      obtain rfl := List.mem_singleton.mp mem
      exact read
    · rintro a ⟨f, mem, written⟩
      obtain rfl := List.mem_singleton.mp mem
      exact written.elim id id
    · rintro a ⟨f, mem, granted⟩
      obtain rfl := List.mem_singleton.mp mem
      exact granted
  · change (env.impl routine [r] o.2.heap o.2.ext).ext = _
    rw [← computes.ext]
    exact sound.ext routine [r] [v] o.2.heap o.2.ext values alone
  · exact (call_follows routine [r] computes.during []).during

theorem evalConverted_error {err : ErrorData}
    (failed : (expr.simpleExpr.interpret (evaluation env expr) s).1 = .error err) :
    evalConverted env expr s =
      (.error err, (expr.simpleExpr.interpret (evaluation env expr) s).2) := by
  unfold evalConverted
  revert failed
  rcases expr.simpleExpr.interpret (evaluation env expr) s with ⟨_ | _, _⟩ <;> simp

theorem evalConverted_ok {r : Ref V}
    (ok : (expr.simpleExpr.interpret (evaluation env expr) s).1 = .ok r) :
    evalConverted env expr s =
      execCastValue env expr r (expr.simpleExpr.interpret (evaluation env expr) s).2 := by
  unfold evalConverted
  revert ok
  rcases expr.simpleExpr.interpret (evaluation env expr) s with ⟨_ | _, _⟩
  · simp
  · rintro ⟨⟩
    rfl

theorem convertedValue_error {vals : Nat → Option V} {ext : E} {err : ErrorData}
    (failed : (expr.simpleExpr.interpret (denoted env vals) ext).1 = .error err) :
    convertedValue env vals expr ext =
      (.error err, (expr.simpleExpr.interpret (denoted env vals) ext).2) := by
  unfold convertedValue
  revert failed
  rcases expr.simpleExpr.interpret (denoted env vals) ext with ⟨_ | _, _⟩ <;> simp

theorem convertedValue_ok {vals : Nat → Option V} {ext : E} {v : Option V}
    (ok : (expr.simpleExpr.interpret (denoted env vals) ext).1 = .ok v) :
    convertedValue env vals expr ext =
      match expr.cast with
      | none => (.ok v, (expr.simpleExpr.interpret (denoted env vals) ext).2)
      | some routine => env.meaning routine [v] (expr.simpleExpr.interpret (denoted env vals) ext).2 := by
  unfold convertedValue
  revert ok
  rcases expr.simpleExpr.interpret (denoted env vals) ext with ⟨_ | _, _⟩
  · simp
  · rintro ⟨⟩
    rfl

/-- Nothing is handed over for a conversion to spoil. -/
theorem Computes.intact {m : Except ErrorData (Option V) × E}
    {o : Except ErrorData (Ref V) × EvalState V E} (computes : Computes env expr w m o)
    (nope : execCheckRwParameter env expr = (.nope, none)) : Intact w o := by
  refine fun _ _ => ⟨computes.during.before (by simp [nope]), fun a live => ?_⟩
  exact computes.yields.same a live fun written => written.1 (by rw [nope])

/-- What is converted is what is meant. After the choice to modify in place there is
no conversion that could fail, if the variables are to be left as they were. -/
theorem evalConverted_computes (sound : env.Sound) (honest : env.Honest) (held : Held env s.toWorld)
    (consistent : s.link.Consistent env expr) (distinct : (expr.simpleExpr.params.map Prod.fst).Nodup) :
    Computes env expr s.toWorld (convertedValue env s.value expr s.ext) (evalConverted env expr s) ∧
    (expr.targetIsLocal = false → ((execCheckRwParameter env expr).1 = .inplace → expr.cast = none) →
      Intact s.toWorld (evalConverted env expr s)) := by
  obtain ⟨computes, intact⟩ := simpleExpr_computes sound honest held consistent distinct
  cases result : (expr.simpleExpr.interpret (evaluation env expr) s).1 with
  | error err =>
    have wanted := computes.yields.error err result
    rw [evalConverted_error result, convertedValue_error wanted, ← result, ← wanted]
    exact ⟨computes, fun nonlocal _ => intact nonlocal⟩
  | ok r =>
    obtain ⟨v, wanted, -⟩ := computes.yields.value r result
    rw [evalConverted_ok result, convertedValue_ok wanted]
    cases cast : expr.cast with
    | none =>
      rw [execCastValue, cast, ← result, ← wanted]
      exact ⟨computes, fun nonlocal _ => intact nonlocal⟩
    | some routine =>
      rw [execCastValue, cast]
      have converted := computes.call sound routine result wanted
      refine ⟨converted, fun nonlocal converts => converted.intact ?_⟩
      -- neither of the other choices is made here
      rcases execCheckRwParameter_cases env expr with
        ⟨local_, -⟩ | nope | ⟨_, _, _, _, _, _, _, inplace⟩
      · rw [nonlocal] at local_
        cases local_
      · exact nope
      · have none := converts (by rw [inplace])
        cases none

end Assignment

end Uplpgsql.ReadWrite
