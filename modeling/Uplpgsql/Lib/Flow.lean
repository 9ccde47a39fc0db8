import Uplpgsql.Lib.Blocks

/-!
Typed basic blocks.

A discipline says how an item takes one program point to the next: it falls
through to a new point, or control goes elsewhere, to blocks whose entry points
are known. Code is checked against a table of entry points; the table grows as
blocks are appended, and what has been checked stays checked. A run of checked
code stands at every step before code that is checked from where it is.
-/

namespace Lib.Flow

open Lib.Blocks

variable {ι π : Type}

/-- The points at which blocks are entered. -/
abbrev Entries (π : Type) := Nat → Option π

def Entries.Le (T T' : Entries π) : Prop := ∀ b p, T b = some p → T' b = some p

theorem Entries.Le.refl (T : Entries π) : T.Le T := fun _ _ known => known

theorem Entries.Le.trans {T₁ T₂ T₃ : Entries π} (first : T₁.Le T₂) (second : T₂.Le T₃) : T₁.Le T₃ :=
  fun b p known => second b p (first b p known)

/-- Entry points for the blocks from `base` on. -/
def Entries.extend (T : Entries π) (base : Nat) (ps : List π) : Entries π :=
  fun b => if base ≤ b then ps[b - base]? else T b

@[simp] theorem Entries.extend_new (T : Entries π) (base k : Nat) (ps : List π) :
    T.extend base ps (base + k) = ps[k]? := by
  simp [Entries.extend]

/-- How items move between points; the result `none` means that control does
not reach the next item. -/
structure Discipline (ι π : Type) where
  flows : Entries π → π → ι → Option π → Prop
  mono : ∀ {T T' : Entries π} {p : π} {x : ι} {q : Option π}, T.Le T' → flows T p x q → flows T' p x q

variable (D : Discipline ι π)

/-- A list of items checked from one point to another. Nothing is asked of items
that cannot be reached. -/
inductive Path (T : Entries π) : Option π → List ι → Option π → Prop where
  | nil (p : Option π) : Path T p [] p
  | cons {p : π} {x : ι} {xs : List ι} {q r : Option π} (flows : D.flows T p x q)
      (rest : Path T q xs r) : Path T (some p) (x :: xs) r
  | dead (xs : List ι) : Path T none xs none

/-- Every block with an entry point is checked from it. -/
def Checked (T : Entries π) (code : Nat → List ι) : Prop :=
  ∀ b p, T b = some p → ∃ r, Path D T (some p) (code b) r

/-- A builder all of whose blocks are checked, with the current one at `p`. -/
structure Typed (T : Entries π) (σ : Builder ι) (p : Option π) : Prop where
  checked : ∀ b q, T b = some q → ∃ r, Path D T (some q) (σ.code b) r ∧ (b = σ.cur → r = p)
  known : (T σ.cur).isSome = true
  unborn : ∀ b, σ.nblocks ≤ b → T b = none

variable {D} {T T' : Entries π} {σ : Builder ι} {p q r : Option π} {x : ι} {xs : List ι}

namespace Path

theorem mono (le : T.Le T') (path : Path D T p xs q) : Path D T' p xs q := by
  induction path with
  | nil p => exact .nil p
  | cons flows _ ih => exact .cons (D.mono le flows) ih
  | dead xs => exact .dead xs

theorem append {ys : List ι} (first : Path D T p xs q) (second : Path D T q ys r) :
    Path D T p (xs ++ ys) r := by
  induction first with
  | nil p => exact second
  | cons flows _ ih => exact .cons flows (ih second)
  | dead xs =>
    cases second with
    | nil => exact .dead _
    | dead => exact .dead _

end Path

namespace Typed

theorem toChecked (typed : Typed D T σ p) : Checked D T σ.code := by
  intro b q known
  obtain ⟨r, path, -⟩ := typed.checked b q known
  exact ⟨r, path⟩

/-- What follows a point of the current block is added to its end. -/
theorem snoc (typed : Typed D T σ p) (step : Path D T p [x] q) : Typed D T (σ.push x) q where
  checked b e known := by
    obtain ⟨r, path, here⟩ := typed.checked b e known
    rcases eq_or_ne b σ.cur with rfl | ne
    · obtain rfl := here rfl
      exact ⟨q, by rw [Builder.push_code_self]; exact path.append step, fun _ => rfl⟩
    · exact ⟨r, by rw [Builder.push_code_of_ne σ x b ne]; exact path, fun same => absurd same ne⟩
  known := typed.known
  unborn := typed.unborn

theorem push {p : π} (typed : Typed D T σ (some p)) (flows : D.flows T p x q) :
    Typed D T (σ.push x) q :=
  typed.snoc (.cons flows (.nil q))

/-- After a terminator anything may follow. -/
theorem pushDead (typed : Typed D T σ none) (x : ι) : Typed D T (σ.push x) none :=
  typed.snoc (.dead [x])

theorem fresh (typed : Typed D T σ p) : Typed D T σ.fresh p :=
  ⟨typed.checked, typed.known, typed.unborn⟩

theorem le_extend (typed : Typed D T σ p) (ps : List π) : T.Le (T.extend σ.nblocks ps) := by
  intro b q known
  unfold Entries.extend
  split
  next above => simp [typed.unborn b above] at known
  next => exact known

/-- New blocks, each with its entry point. -/
theorem appendN (typed : Typed D T σ p) (valid : σ.Valid) (ps : List π) :
    Typed D (T.extend σ.nblocks ps) (σ.appendN ps.length) p where
  checked b q known := by
    unfold Entries.extend at known
    split at known
    next above =>
      refine ⟨some q, ?_, fun same => ?_⟩
      · rw [Builder.appendN_code, valid.unborn b above]
        exact .nil _
      · have := valid.cur_lt
        rw [same, Builder.appendN_cur] at above
        omega
    next =>
      obtain ⟨r, path, here⟩ := typed.checked b q known
      exact ⟨r, path.mono (typed.le_extend ps), here⟩
  known := by
    obtain ⟨q, known⟩ := Option.isSome_iff_exists.mp typed.known
    exact Option.isSome_iff_exists.mpr ⟨q, typed.le_extend ps _ q known⟩
  unborn b above := by
    rw [Builder.appendN_nblocks] at above
    unfold Entries.extend
    rw [if_pos (by omega), List.getElem?_eq_none (by omega)]

/-- A block that was set aside is at its entry point. -/
theorem goto {b : Nat} {q : π} (typed : Typed D T σ p) (reserved : σ.Reserved b)
    (known : T b = some q) : Typed D T (σ.goto b) (some q) where
  checked b' e known' := by
    obtain ⟨r, path, -⟩ := typed.checked b' e known'
    refine ⟨r, path, fun same => ?_⟩
    obtain rfl : b' = b := same
    rw [reserved.empty] at path
    cases path
    rw [← known', known]
  known := Option.isSome_iff_exists.mpr ⟨q, known⟩
  unborn := typed.unborn

end Typed

/-! ### Running checked code -/

/-- The item at a position that is checked, and what it leads to. -/
theorem Path.fetch {code : Nat → List ι} {b i : Nat} {p : π}
    (path : Path D T (some p) ((code b).drop i) r) (item : (code b)[i]? = some x) :
    ∃ q, D.flows T p x q ∧ Path D T q ((code b).drop (i + 1)) r := by
  rw [List.drop_eq_getElem_cons (List.getElem?_eq_some_iff.mp item).1,
    (List.getElem?_eq_some_iff.mp item).2] at path
  cases path with
  | cons flows rest => exact ⟨_, flows, rest⟩

end Lib.Flow
