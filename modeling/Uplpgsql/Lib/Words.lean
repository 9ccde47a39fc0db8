import Mathlib.Algebra.Group.Nat.Defs
import Mathlib.Algebra.Ring.Int.Defs
import Mathlib.Tactic.Common

/-!
Native integer code.

A native computation has a value, raises an error, or runs into undefined
behaviour. Signed machine integers are bit vectors; what an operation means is
said over `Int`: the result it should have, and whether that fits.
-/

namespace Lib.Words

/-- The result of native code. -/
inductive Native (ε α : Type) where
  | ok (value : α)
  | raise (error : ε)
  | undefined
  deriving DecidableEq, Repr

variable {ε α β γ : Type} {w : Nat}

namespace Native

def bind (x : Native ε α) (f : α → Native ε β) : Native ε β :=
  match x with
  | .ok a => f a
  | .raise e => .raise e
  | .undefined => .undefined

instance : Monad (Native ε) where
  pure := .ok
  bind := bind

@[simp] theorem pure_eq (a : α) : (pure a : Native ε α) = .ok a := rfl

@[simp] theorem ok_bind (a : α) (f : α → Native ε β) : (.ok a >>= f) = f a := rfl

@[simp] theorem raise_bind (e : ε) (f : α → Native ε β) : (.raise e >>= f) = .raise e := rfl

@[simp] theorem undefined_bind (f : α → Native ε β) :
    ((.undefined : Native ε α) >>= f) = .undefined := rfl

theorem bind_assoc (x : Native ε α) (f : α → Native ε β) (g : β → Native ε γ) :
    ((x >>= f) >>= g) = x >>= fun a => f a >>= g := by
  cases x <;> rfl

@[simp] theorem bind_ok_unit (x : Native ε Unit) : (x >>= fun _ => .ok ()) = x := by
  cases x <;> rfl

theorem bind_defined_iff {x : Native ε α} {f : α → Native ε β} :
    (x >>= f) ≠ .undefined ↔ x ≠ .undefined ∧ ∀ a, x = .ok a → f a ≠ .undefined := by
  cases x with
  | ok a => simp
  | raise e => simp
  | undefined => simp

def mapError {δ : Type} (f : ε → δ) : Native ε α → Native δ α
  | .ok a => .ok a
  | .raise e => .raise (f e)
  | .undefined => .undefined

@[simp] theorem mapError_eq_undefined_iff {δ : Type} {f : ε → δ} {x : Native ε α} :
    x.mapError f = .undefined ↔ x = .undefined := by
  cases x <;> simp [mapError]

/-- Two computations end alike. -/
inductive Rel {δ : Type} (values : α → β → Prop) (errors : ε → δ → Prop) :
    Native ε α → Native δ β → Prop where
  | ok {a : α} {b : β} (related : values a b) : Rel values errors (.ok a) (.ok b)
  | raise {e : ε} {d : δ} (related : errors e d) : Rel values errors (.raise e) (.raise d)
  | undefined : Rel values errors .undefined .undefined

theorem Rel.bind {α' β' δ : Type} {values : α → β → Prop} {values' : α' → β' → Prop}
    {errors : ε → δ → Prop} {x : Native ε α} {y : Native δ β} {f : α → Native ε α'}
    {g : β → Native δ β'} (rel : Rel values errors x y)
    (next : ∀ a b, values a b → Rel values' errors (f a) (g b)) :
    Rel values' errors (x >>= f) (y >>= g) := by
  cases rel with
  | ok related => exact next _ _ related
  | raise related => exact .raise related
  | undefined => exact .undefined

theorem Rel.undefined_iff {δ : Type} {values : α → β → Prop} {errors : ε → δ → Prop} {x : Native ε α}
    {y : Native δ β} (rel : Rel values errors x y) : x = .undefined ↔ y = .undefined := by
  cases rel <;> simp

/-- The value of one side is changed at the end. -/
theorem Rel.map {α' δ : Type} {values : α → β → Prop} {values' : α' → β → Prop}
    {errors : ε → δ → Prop} {x : Native ε α} {y : Native δ β} {f : α → α'}
    (rel : Rel values errors x y) (next : ∀ a b, values a b → values' (f a) b) :
    Rel values' errors (x >>= fun a => .ok (f a)) y := by
  cases rel with
  | ok related => exact .ok (next _ _ related)
  | raise related => exact .raise related
  | undefined => exact .undefined

end Native

/-! ### Signed integers of a width -/

/-- The integers a signed word of `w` bits holds. -/
def Fits (w : Nat) (n : Int) : Prop := -2 ^ (w - 1) ≤ n ∧ n < 2 ^ (w - 1)

instance (w : Nat) (n : Int) : Decidable (Fits w n) := inferInstanceAs (Decidable (_ ∧ _))

theorem toInt_fits (x : BitVec w) : Fits w x.toInt := ⟨x.le_toInt, BitVec.toInt_lt⟩

theorem toInt_ofInt_of_fits (pos : 0 < w) {n : Int} (fits : Fits w n) :
    (BitVec.ofInt w n).toInt = n :=
  BitVec.toInt_ofInt_eq_self pos fits.1 fits.2

/-- A word is known by its integer. -/
theorem eq_ofInt_of_toInt {x : BitVec w} {n : Int} (same : x.toInt = n) : x = BitVec.ofInt w n := by
  rw [← same, BitVec.ofInt_toInt]

/-- A word that is widened and cut again. -/
theorem setWidth_signExtend {v : Nat} (le : w ≤ v) (x : BitVec w) : (x.signExtend v).setWidth w = x := by
  ext i h
  have there : i < v := Nat.lt_of_lt_of_le h le
  simp [BitVec.getElem_signExtend, h, there]

theorem saddOverflow_iff (x y : BitVec w) :
    x.saddOverflow y = true ↔ ¬Fits w (x.toInt + y.toInt) := by
  simp only [BitVec.saddOverflow, Fits, Bool.or_eq_true, decide_eq_true_eq]
  omega

theorem ssubOverflow_iff (x y : BitVec w) :
    x.ssubOverflow y = true ↔ ¬Fits w (x.toInt - y.toInt) := by
  simp only [BitVec.ssubOverflow, Fits, Bool.or_eq_true, decide_eq_true_eq]
  omega

theorem smulOverflow_iff (x y : BitVec w) :
    x.smulOverflow y = true ↔ ¬Fits w (x.toInt * y.toInt) := by
  simp only [BitVec.smulOverflow, Fits, Bool.or_eq_true, decide_eq_true_eq]
  omega

theorem toInt_add_of_fits {x y : BitVec w} (fits : Fits w (x.toInt + y.toInt)) :
    (x + y).toInt = x.toInt + y.toInt :=
  BitVec.toInt_add_of_not_saddOverflow fun exceeds => (saddOverflow_iff x y).mp exceeds fits

theorem toInt_sub_of_fits {x y : BitVec w} (fits : Fits w (x.toInt - y.toInt)) :
    (x - y).toInt = x.toInt - y.toInt :=
  BitVec.toInt_sub_of_not_ssubOverflow fun exceeds => (ssubOverflow_iff x y).mp exceeds fits

theorem toInt_mul_of_fits {x y : BitVec w} (fits : Fits w (x.toInt * y.toInt)) :
    (x * y).toInt = x.toInt * y.toInt :=
  BitVec.toInt_mul_of_not_smulOverflow fun exceeds => (smulOverflow_iff x y).mp exceeds fits

/-! ### Division and negation

Only the least integer divided by -1, and its negation, do not fit. -/

/-- LLVM's `sdiv`. -/
def sdiv (x y : BitVec w) : Native ε (BitVec w) :=
  if y = 0 ∨ x = BitVec.intMin w ∧ y = -1 then .undefined else .ok (x.sdiv y)

/-- LLVM's `srem`, undefined for the same operands. -/
def srem (x y : BitVec w) : Native ε (BitVec w) :=
  if y = 0 ∨ x = BitVec.intMin w ∧ y = -1 then .undefined else .ok (x.srem y)

theorem toInt_eq_least_iff (pos : 0 < w) {x : BitVec w} :
    x.toInt = -2 ^ (w - 1) ↔ x = BitVec.intMin w := by
  rw [← BitVec.toInt_intMin_of_pos pos, BitVec.toInt_inj]

theorem fits_neg_iff (pos : 0 < w) (x : BitVec w) : Fits w (-x.toInt) ↔ x ≠ BitVec.intMin w := by
  have fits := toInt_fits x
  rw [Ne, ← toInt_eq_least_iff pos]
  simp only [Fits] at *
  omega

theorem toInt_neg_of_ne_intMin (pos : 0 < w) {x : BitVec w} (ne : x ≠ BitVec.intMin w) :
    (-x).toInt = -x.toInt := by
  apply BitVec.toInt_neg_of_not_negOverflow
  rw [Ne, ← toInt_eq_least_iff pos] at ne
  simpa [BitVec.negOverflow] using ne

theorem fits_natAbs_iff (pos : 0 < w) (x : BitVec w) :
    Fits w x.toInt.natAbs ↔ x ≠ BitVec.intMin w := by
  have fits := toInt_fits x
  rw [Ne, ← toInt_eq_least_iff pos]
  simp only [Fits] at *
  omega

theorem toInt_neg_one (pos : 0 < w) : (-1 : BitVec w).toInt = -1 := by
  have ones : (-1 : BitVec w) = BitVec.allOnes w := BitVec.neg_one_eq_allOnes
  rw [ones, BitVec.toInt_allOnes, if_pos pos]

theorem toInt_sdiv_of_defined {x y : BitVec w} (defined : ¬(x = BitVec.intMin w ∧ y = -1)) :
    (x.sdiv y).toInt = x.toInt.tdiv y.toInt := by
  apply BitVec.toInt_sdiv_of_ne_or_ne
  by_cases least : x = BitVec.intMin w
  · exact .inr fun minus => defined ⟨least, minus⟩
  · exact .inl least

theorem fits_tdiv_iff (pos : 0 < w) (x y : BitVec w) :
    Fits w (x.toInt.tdiv y.toInt) ↔ ¬(x = BitVec.intMin w ∧ y = -1) := by
  constructor
  · rintro fits ⟨rfl, rfl⟩
    rw [toInt_neg_one pos, BitVec.toInt_intMin_of_pos pos, Int.tdiv_neg, Int.tdiv_one, Int.neg_neg]
      at fits
    exact Int.lt_irrefl _ fits.2
  · intro defined
    rw [← toInt_sdiv_of_defined defined]
    exact toInt_fits _

end Lib.Words
