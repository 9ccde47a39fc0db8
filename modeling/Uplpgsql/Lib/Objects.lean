import Mathlib.Logic.Function.Basic
import Mathlib.Data.List.Basic
import Mathlib.Order.Nat
import Mathlib.Tactic.Common

/-!
Objects that may be modified where they are.

A value is small, or an object in memory that pointers lead to. A pointer is for
reading and writing, or for reading only. What a computation may read and write
is its footprint. Computations whose footprints are apart can be run one after
the other without the later disturbing the results of the earlier, and a routine
that is applied to their results sees the values they stand for.
-/

namespace Lib

/-- The contents of the live objects; all of them are below `next`. -/
structure Objects (V : Type) where
  cell : Nat → Option V
  next : Nat
  beyond : ∀ a, next ≤ a → cell a = none

namespace Objects

variable {V : Type}

instance : CoeFun (Objects V) fun _ => Nat → Option V := ⟨cell⟩

def alloc (h : Objects V) (v : V) : Objects V where
  cell := Function.update h.cell h.next (some v)
  next := h.next + 1
  beyond a above := by
    rw [Function.update_of_ne (by omega)]
    exact h.beyond a (by omega)

/-- What is left when the objects without `keep` are freed. -/
def restrict (h : Objects V) (keep : Nat → Bool) : Objects V where
  cell a := if keep a then h a else none
  next := h.next
  beyond a above := by simp [h.beyond a above]

def free (h : Objects V) (a : Nat) : Objects V := h.restrict (· != a)

/-- A live object is modified. -/
def write (h : Objects V) (a : Nat) (v : V) : Objects V where
  cell b := if b = a then (h a).map fun _ => v else h b
  next := h.next
  beyond b above := by
    split
    next same => rw [← same, h.beyond b above, Option.map_none]
    next => exact h.beyond b above

theorem next_dead (h : Objects V) : h h.next = none := h.beyond _ le_rfl

@[simp] theorem alloc_self (h : Objects V) (v : V) : h.alloc v h.next = some v := by
  simp [alloc]

theorem alloc_of_ne (h : Objects V) (v : V) {a : Nat} (ne : a ≠ h.next) : h.alloc v a = h a := by
  simp [alloc, Function.update_of_ne ne]

/-- A live object is not the one that is made next. -/
theorem alloc_of_live (h : Objects V) (v : V) {a : Nat} (live : h a ≠ none) : h.alloc v a = h a :=
  h.alloc_of_ne v fun eq => live (eq ▸ h.next_dead)

theorem restrict_apply (h : Objects V) (keep : Nat → Bool) (a : Nat) :
    h.restrict keep a = if keep a then h a else none := rfl

@[simp] theorem free_self (h : Objects V) (a : Nat) : h.free a a = none := by
  simp [free, restrict_apply]

theorem write_self {h : Objects V} {a : Nat} (v : V) (live : h a ≠ none) : h.write a v a = some v := by
  obtain ⟨w, here⟩ := Option.ne_none_iff_exists'.mp live
  simp [write, here]

theorem write_of_ne (h : Objects V) {a b : Nat} (v : V) (ne : b ≠ a) : h.write a v b = h b := by
  simp [write, ne]

theorem free_of_ne (h : Objects V) {a b : Nat} (ne : b ≠ a) : h.free a b = h b := by
  simp [free, restrict_apply, ne]

end Objects

inductive Ref (V : Type) where
  | null
  | flat (v : V)
  | ro (a : Nat)
  | rw (a : Nat)

variable {V ε : Type}

namespace Ref

def object : Ref V → Option Nat
  | .null => none
  | .flat _ => none
  | .ro a => some a
  | .rw a => some a

def readOnly : Ref V → Ref V
  | .rw a => .ro a
  | r => r

/-- The value a reference stands for; `none` for a pointer to nothing. -/
def read (h : Objects V) : Ref V → Option (Option V)
  | .null => some none
  | .flat v => some (some v)
  | .ro a => (h a).map some
  | .rw a => (h a).map some

def ofValue : Option V → Ref V
  | none => .null
  | some v => .flat v

@[simp] theorem object_readOnly (r : Ref V) : r.readOnly.object = r.object := by
  cases r <;> rfl

@[simp] theorem read_readOnly (h : Objects V) (r : Ref V) : r.readOnly.read h = r.read h := by
  cases r <;> rfl

theorem readOnly_ne_rw (r : Ref V) (a : Nat) : r.readOnly ≠ .rw a := by
  cases r <;> simp [readOnly]

@[simp] theorem read_ofValue (h : Objects V) (v : Option V) : (ofValue v).read h = some v := by
  cases v <;> rfl

@[simp] theorem object_ofValue (v : Option V) : (ofValue v : Ref V).object = none := by
  cases v <;> rfl

theorem ofValue_ne_rw (v : Option V) (a : Nat) : (ofValue v : Ref V) ≠ .rw a := by
  cases v <;> simp [ofValue]

theorem read_of_object {h : Objects V} {r : Ref V} {a : Nat} (points : r.object = some a) :
    r.read h = (h a).map some := by
  cases r with
  | null => cases points
  | flat v => cases points
  | ro b =>
    cases points
    rfl
  | rw b =>
    cases points
    rfl

/-- A reference reads the same where its object is the same. -/
theorem read_congr {h h' : Objects V} {r : Ref V} (same : ∀ a, r.object = some a → h' a = h a) :
    r.read h' = r.read h := by
  cases r with
  | null => rfl
  | flat v => rfl
  | ro a => simp only [read, same a rfl]
  | rw a => simp only [read, same a rfl]

theorem live_of_read {h : Objects V} {r : Ref V} {a : Nat} {v : Option V}
    (points : r.object = some a) (value : r.read h = some v) : h a ≠ none := by
  rw [read_of_object points] at value
  intro dead
  rw [dead] at value
  cases value

end Ref

/-! ### Footprints -/

/-- The objects a computation may look at, those it may modify, and those its
result may be a pointer to for modification. -/
structure Footprint where
  reads : Nat → Prop
  writes : Nat → Prop
  grants : Nat → Prop

namespace Footprint

/-- The footprint of what is done with a reference in hand. -/
def ofRef (r : Ref V) : Footprint where
  reads a := r.object = some a
  writes _ := False
  grants a := r = .rw a

/-- What the one modifies, the other does not look at. -/
def Apart (f g : Footprint) : Prop := ∀ a, f.writes a → ¬g.reads a

/-- What the one grants, the other does not look at. -/
def Unaliased (f g : Footprint) : Prop := ∀ a, f.grants a → ¬g.reads a

end Footprint

/-- What comes of a computation started in `h`: the value it should have, with
what it should not disturb undisturbed. -/
structure Gives (f : Footprint) (h : Objects V) (want : Except ε (Option V))
    (got : Except ε (Ref V)) (h' : Objects V) : Prop where
  value : ∀ r, got = .ok r → ∃ v, want = .ok v ∧ r.read h' = some v
  error : ∀ e, got = .error e → want = .error e
  same : ∀ a, h a ≠ none → ¬f.writes a → h' a = h a
  alive : ∀ a, h a ≠ none → h' a ≠ none
  points : ∀ r a, got = .ok r → r.object = some a → h a = none ∨ f.reads a
  grants : ∀ a, got = .ok (.rw a) → h a = none ∨ f.grants a

namespace Gives

variable {f g : Footprint} {h h' : Objects V} {want : Except ε (Option V)}
  {got : Except ε (Ref V)}

theorem mono (y : Gives f h want got h') (reads : ∀ a, f.reads a → g.reads a)
    (writes : ∀ a, f.writes a → g.writes a) (grants : ∀ a, f.grants a → g.grants a) :
    Gives g h want got h' where
  value := y.value
  error := y.error
  same a live kept := y.same a live fun written => kept (writes a written)
  alive := y.alive
  points r a ok here := (y.points r a ok here).imp_right (reads a)
  grants a ok := (y.grants a ok).imp_right (grants a)

/-- Nothing has been done but to fail. -/
theorem failed (e : ε) (h : Objects V) : Gives f h (.error e) (.error e : Except ε (Ref V)) h where
  value := by simp
  error e' eq := by
    cases eq
    rfl
  same _ _ _ := rfl
  alive _ live := live
  points := by simp
  grants := by simp

/-- The result is a new object. -/
theorem alloc (v : V) (h : Objects V) :
    Gives f h (.ok (some v) : Except ε _) (.ok (.rw h.next)) (h.alloc v) where
  value r eq := by
    cases eq
    exact ⟨some v, rfl, by rw [Ref.read, h.alloc_self, Option.map_some]⟩
  error := by simp
  same a live _ := h.alloc_of_live v live
  alive a live := by rwa [h.alloc_of_live v live]
  points r a eq here := by
    cases eq
    cases here
    exact .inl h.next_dead
  grants a eq := by
    cases eq
    exact .inl h.next_dead

/-- The result is an object that has been modified in place. -/
theorem write {a : Nat} (v : V) (live : h a ≠ none) (reads : f.reads a) (writes : f.writes a)
    (grants : f.grants a) : Gives f h (.ok (some v) : Except ε _) (.ok (.rw a)) (h.write a v) where
  value r eq := by
    cases eq
    exact ⟨some v, rfl, by rw [Ref.read, Objects.write_self v live, Option.map_some]⟩
  error := by simp
  same b live unwritten := by
    refine h.write_of_ne v ?_
    rintro rfl
    exact unwritten writes
  alive b live' := by
    by_cases same : b = a
    · rw [same, Objects.write_self v live]
      simp
    · rwa [h.write_of_ne v same]
  points r b eq here := by
    cases eq
    cases here
    exact .inr reads
  grants b eq := by
    cases eq
    exact .inr grants

/-- A reference that is at hand. -/
theorem ref {r : Ref V} {v : Option V} (value : r.read h = some v) :
    Gives (.ofRef r) h (.ok v : Except ε (Option V)) (.ok r) h where
  value := by
    intro r' ok
    cases ok
    exact ⟨v, rfl, value⟩
  error := by simp
  same _ _ _ := rfl
  alive _ live := live
  points := by
    intro r' a ok here
    cases ok
    exact .inr here
  grants := by
    intro a ok
    cases ok
    exact .inr rfl

theorem ofValue (v : Option V) (h : Objects V) :
    Gives f h (.ok v : Except ε (Option V)) (.ok (.ofValue v)) h where
  value := by
    intro r ok
    cases ok
    exact ⟨v, rfl, Ref.read_ofValue h v⟩
  error := by simp
  same _ _ _ := rfl
  alive _ live := live
  points := by
    intro r a ok here
    cases ok
    simp at here
  grants a ok := absurd (Except.ok.inj ok) (Ref.ofValue_ne_rw v a)

end Gives

/-! ### Arguments -/

/-- Neither of two references can modify the object of the other. -/
def Ref.Apart (r r' : Ref V) : Prop :=
  (∀ a, r = .rw a → r'.object ≠ some a) ∧ ∀ a, r' = .rw a → r.object ≠ some a

/-- What comes of a list of computations, one after the other. -/
structure GivesAll (fs : List Footprint) (h : Objects V) (want : Except ε (List (Option V)))
    (got : Except ε (List (Ref V))) (h' : Objects V) : Prop where
  values : ∀ rs, got = .ok rs →
    ∃ vs, want = .ok vs ∧ List.Forall₂ (fun (r : Ref V) v => r.read h' = some v) rs vs
  error : ∀ e, got = .error e → want = .error e
  same : ∀ a, h a ≠ none → (∀ f ∈ fs, ¬f.writes a) → h' a = h a
  alive : ∀ a, h a ≠ none → h' a ≠ none
  points : ∀ rs, got = .ok rs → ∀ r ∈ rs, ∀ a, r.object = some a →
    h a = none ∨ ∃ f ∈ fs, f.reads a
  grants : ∀ rs, got = .ok rs → ∀ a, .rw a ∈ rs → h a = none ∨ ∃ f ∈ fs, f.grants a

namespace GivesAll

theorem nil (h : Objects V) : GivesAll [] h (.ok [] : Except ε _) (.ok []) h where
  values := by
    intro rs ok
    cases ok
    exact ⟨[], rfl, .nil⟩
  error := by simp
  same _ _ _ := rfl
  alive _ live := live
  points := by
    intro rs ok r mem
    cases ok
    cases mem
  grants := by
    intro rs ok a mem
    cases ok
    cases mem

variable {f : Footprint} {fs : List Footprint} {h h₁ h₂ : Objects V}
  {want : Except ε (Option V)} {wants : Except ε (List (Option V))}
  {r : Ref V} {gots : Except ε (List (Ref V))}

/-- A first computation that fails. -/
theorem cons_error {e : ε} (first : Gives f h want (.error e) h₁) :
    GivesAll (f :: fs) h (.error e) (.error e : Except ε (List (Ref V))) h₁ where
  values := by simp
  error e' error := by
    cases error
    rfl
  same a live kept := first.same a live (kept f List.mem_cons_self)
  alive := first.alive
  points := by simp
  grants := by simp

/-- The later computations write nothing that the result of the first reads. -/
theorem cons_ok {v : Option V} (first : Gives f h (.ok v : Except ε _) (.ok r) h₁)
    (rest : GivesAll fs h₁ wants gots h₂)
    (live : ∀ g ∈ fs, ∀ a, g.writes a → h a ≠ none) (apart : ∀ g ∈ fs, g.Apart f) :
    GivesAll (f :: fs) h (wants.map (v :: ·)) (gots.map (r :: ·)) h₂ := by
  -- an object of the first result is not written afterwards
  have kept {a : Nat} (points : r.object = some a) : ∀ g ∈ fs, ¬g.writes a := by
    intro g mem written
    rcases first.points r a rfl points with fresh | read
    · exact live g mem a written fresh
    · exact apart g mem a written read
  have reads : r.read h₁ = some v := by
    obtain ⟨v', value, reads⟩ := first.value r rfl
    cases value
    exact reads
  have still : r.read h₂ = some v := by
    rw [← reads]
    refine Ref.read_congr fun a points => rest.same a ?_ (kept points)
    exact Ref.live_of_read points reads
  cases gots with
  | error e =>
    refine ⟨by simp [Except.map], fun e' error => ?_, fun a live quiet => ?_,
      fun a live => rest.alive a (first.alive a live), by simp [Except.map], by simp [Except.map]⟩
    · cases error
      rw [rest.error e rfl]
      rfl
    · rw [rest.same a (first.alive a live) fun g mem => quiet g (List.mem_cons_of_mem f mem)]
      exact first.same a live (quiet f List.mem_cons_self)
  | ok rs =>
    refine ⟨fun rs' ok => ?_, by simp [Except.map], fun a live quiet => ?_,
      fun a live => rest.alive a (first.alive a live), fun rs' ok r' mem a points => ?_,
      fun rs' ok a mem => ?_⟩
    · cases ok
      obtain ⟨vs, values, reads'⟩ := rest.values rs rfl
      exact ⟨v :: vs, by rw [values]; rfl, .cons still reads'⟩
    · rw [rest.same a (first.alive a live) fun g mem => quiet g (List.mem_cons_of_mem f mem)]
      exact first.same a live (quiet f List.mem_cons_self)
    · cases ok
      rcases List.mem_cons.mp mem with rfl | mem
      · exact (first.points _ a rfl points).imp_right fun read => ⟨f, List.mem_cons_self, read⟩
      · rcases rest.points rs rfl r' mem a points with dead | ⟨g, here, read⟩
        · exact .inl (by_contra fun live => first.alive a live dead)
        · exact .inr ⟨g, List.mem_cons_of_mem f here, read⟩
    · cases ok
      rcases List.mem_cons.mp mem with rfl | mem
      · exact (first.grants a rfl).imp_right fun granted => ⟨f, List.mem_cons_self, granted⟩
      · rcases rest.grants rs rfl a mem with dead | ⟨g, here, granted⟩
        · exact .inl (by_contra fun live => first.alive a live dead)
        · exact .inr ⟨g, List.mem_cons_of_mem f here, granted⟩

/-- The result of the first computation and those of the later ones do not share
an object that one of them may modify. -/
theorem apart_cons {v : Option V} {rs : List (Ref V)} (first : Gives f h (.ok v : Except ε _) (.ok r) h₁)
    (rest : GivesAll fs h₁ wants (.ok rs) h₂)
    (live : ∀ g ∈ f :: fs, ∀ a, g.reads a → h a ≠ none)
    (granted : ∀ g ∈ f :: fs, ∀ a, g.grants a → g.reads a)
    (unaliased : ∀ g ∈ fs, f.Unaliased g ∧ g.Unaliased f) : ∀ r' ∈ rs, r.Apart r' := by
  have reads : r.read h₁ = some v := by
    obtain ⟨v', value, reads⟩ := first.value r rfl
    cases value
    exact reads
  intro r' mem
  constructor
  · rintro a rfl points
    have here : h₁ a ≠ none := Ref.live_of_read rfl reads
    rcases rest.points rs rfl r' mem a points with dead | ⟨g, memg, read⟩
    · exact here dead
    · rcases first.grants a rfl with fresh | own
      · exact live g (List.mem_cons_of_mem f memg) a read fresh
      · exact (unaliased g memg).1 a own read
  · rintro a rfl points
    have here : h₁ a ≠ none := Ref.live_of_read points reads
    rcases rest.grants rs rfl a mem with dead | ⟨g, memg, own⟩
    · exact here dead
    · have read := granted g (List.mem_cons_of_mem f memg) a own
      rcases first.points r a rfl points with fresh | read'
      · exact live g (List.mem_cons_of_mem f memg) a read fresh
      · exact (unaliased g memg).2 a own read'

end GivesAll

/-! ### Calls -/

/-- What a routine may do with the references it is given. -/
def Footprint.ofArgs (rs : List (Ref V)) : Footprint where
  reads a := ∃ r ∈ rs, r.object = some a
  writes a := .rw a ∈ rs
  grants a := .rw a ∈ rs

/-- Computing the arguments and applying a routine to them. -/
def Footprint.ofCall (fs : List Footprint) : Footprint where
  reads a := ∃ f ∈ fs, f.reads a
  writes a := ∃ f ∈ fs, f.writes a ∨ f.grants a
  grants a := ∃ f ∈ fs, f.grants a

section Calls

variable {fs : List Footprint} {h h₁ h₂ : Objects V} {wants : Except ε (List (Option V))}
  {want : Except ε (Option V)} {got : Except ε (Ref V)}

theorem GivesAll.call {rs : List (Ref V)} (args : GivesAll fs h wants (.ok rs) h₁)
    (call : Gives (.ofArgs rs) h₁ want got h₂) : Gives (.ofCall fs) h want got h₂ where
  value := call.value
  error := call.error
  same a live quiet := by
    have unwritten : ∀ f ∈ fs, ¬f.writes a := fun f mem written => quiet ⟨f, mem, .inl written⟩
    rw [call.same a (args.alive a live) ?_, args.same a live unwritten]
    intro mem
    rcases args.grants rs rfl a mem with dead | ⟨f, memf, granted⟩
    · exact live dead
    · exact quiet ⟨f, memf, .inr granted⟩
  alive a live := call.alive a (args.alive a live)
  points r a ok here := by
    rcases call.points r a ok here with dead | ⟨r', mem, points⟩
    · exact .inl (by_contra fun live => args.alive a live dead)
    · exact args.points rs rfl r' mem a points
  grants a ok := by
    rcases call.grants a ok with dead | mem
    · exact .inl (by_contra fun live => args.alive a live dead)
    · exact args.grants rs rfl a mem

/-- The routine is not reached. -/
theorem GivesAll.call_error {e : ε} (args : GivesAll fs h wants (.error e) h₁) :
    Gives (.ofCall fs) h (.error e) (.error e : Except ε (Ref V)) h₁ where
  value := by simp
  error e' error := by
    cases error
    rfl
  same a live quiet := args.same a live fun f mem written => quiet ⟨f, mem, .inl written⟩
  alive := args.alive
  points := by simp
  grants := by simp

end Calls

/-! ### One computation after another -/

/-- A computation whose own result is dropped. -/
theorem Gives.after {f g : Footprint} {h h₁ h₂ : Objects V} {v : Option V} {r : Ref V}
    {want : Except ε (Option V)} {got : Except ε (Ref V)} (first : Gives f h (.ok v : Except ε _) (.ok r) h₁)
    (second : Gives g h₁ want got h₂) :
    Gives ⟨g.reads, fun a => f.writes a ∨ g.writes a, g.grants⟩ h want got h₂ where
  value := second.value
  error := second.error
  same a live quiet := by
    rw [second.same a (first.alive a live) fun written => quiet (.inr written)]
    exact first.same a live fun written => quiet (.inl written)
  alive a live := second.alive a (first.alive a live)
  points r' a ok here :=
    (second.points r' a ok here).imp_left fun dead => by_contra fun live => first.alive a live dead
  grants a ok :=
    (second.grants a ok).imp_left fun dead => by_contra fun live => first.alive a live dead

end Lib
