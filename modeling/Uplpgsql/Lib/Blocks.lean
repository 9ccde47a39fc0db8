import Mathlib.Logic.Function.Basic
import Mathlib.Data.List.Basic
import Mathlib.Order.Nat

/-!
A builder of basic blocks.

The builder appends items to the block it is positioned at, hands out fresh
block and register numbers, and never takes anything back. `Extends` is what an
emitter does to the builder it was called with: it writes only into the current
block and into blocks of its own, so a block that someone else has set aside is
found as it was left.
-/

namespace Lib.Blocks

variable {ι α β : Type}

structure Builder (ι : Type) where
  code : Nat → List ι
  nblocks : Nat
  cur : Nat
  nregs : Nat

namespace Builder

/-- A builder with `n` empty blocks, positioned at the first. -/
def start (ι : Type) (n : Nat) : Builder ι := ⟨fun _ => [], n, 0, 0⟩

def push (σ : Builder ι) (x : ι) : Builder ι :=
  { σ with code := Function.update σ.code σ.cur (σ.code σ.cur ++ [x]) }

def pushAll (σ : Builder ι) (xs : List ι) : Builder ι := xs.foldl push σ

def append (σ : Builder ι) : Builder ι := { σ with nblocks := σ.nblocks + 1 }

def appendN (σ : Builder ι) (n : Nat) : Builder ι := { σ with nblocks := σ.nblocks + n }

def goto (σ : Builder ι) (b : Nat) : Builder ι := { σ with cur := b }

def fresh (σ : Builder ι) : Builder ι := { σ with nregs := σ.nregs + 1 }

/-- The number of items already in the current block. -/
def offset (σ : Builder ι) : Nat := (σ.code σ.cur).length

section Fields

variable (σ : Builder ι) (x : ι) (b : Nat)

@[simp] theorem push_nblocks : (σ.push x).nblocks = σ.nblocks := rfl
@[simp] theorem push_cur : (σ.push x).cur = σ.cur := rfl
@[simp] theorem push_nregs : (σ.push x).nregs = σ.nregs := rfl
@[simp] theorem append_nblocks : σ.append.nblocks = σ.nblocks + 1 := rfl
@[simp] theorem append_cur : σ.append.cur = σ.cur := rfl
@[simp] theorem append_nregs : σ.append.nregs = σ.nregs := rfl
@[simp] theorem append_code : σ.append.code = σ.code := rfl
@[simp] theorem goto_nblocks : (σ.goto b).nblocks = σ.nblocks := rfl
@[simp] theorem goto_cur : (σ.goto b).cur = b := rfl
@[simp] theorem goto_nregs : (σ.goto b).nregs = σ.nregs := rfl
@[simp] theorem goto_code : (σ.goto b).code = σ.code := rfl
@[simp] theorem fresh_nblocks : σ.fresh.nblocks = σ.nblocks := rfl
@[simp] theorem fresh_cur : σ.fresh.cur = σ.cur := rfl
@[simp] theorem fresh_nregs : σ.fresh.nregs = σ.nregs + 1 := rfl
@[simp] theorem fresh_code : σ.fresh.code = σ.code := rfl

theorem push_code_self : (σ.push x).code σ.cur = σ.code σ.cur ++ [x] :=
  Function.update_self ..

theorem push_code_of_ne (ne : b ≠ σ.cur) : (σ.push x).code b = σ.code b :=
  Function.update_of_ne ne ..

@[simp] theorem push_offset : (σ.push x).offset = σ.offset + 1 := by
  simp [offset, push_code_self]

@[simp] theorem pushAll_nil : σ.pushAll [] = σ := rfl
@[simp] theorem pushAll_cons (xs : List ι) : σ.pushAll (x :: xs) = (σ.push x).pushAll xs := rfl
@[simp] theorem appendN_nblocks (n : Nat) : (σ.appendN n).nblocks = σ.nblocks + n := rfl
@[simp] theorem appendN_cur (n : Nat) : (σ.appendN n).cur = σ.cur := rfl
@[simp] theorem appendN_nregs (n : Nat) : (σ.appendN n).nregs = σ.nregs := rfl
@[simp] theorem appendN_code (n : Nat) : (σ.appendN n).code = σ.code := rfl

@[simp] theorem append_offset : σ.append.offset = σ.offset := rfl
@[simp] theorem fresh_offset : σ.fresh.offset = σ.offset := rfl

end Fields

@[simp] theorem pushAll_nblocks (xs : List ι) (σ : Builder ι) :
    (σ.pushAll xs).nblocks = σ.nblocks := by
  induction xs generalizing σ with
  | nil => rfl
  | cons x xs ih => rw [pushAll_cons, ih, push_nblocks]

@[simp] theorem pushAll_cur (xs : List ι) (σ : Builder ι) : (σ.pushAll xs).cur = σ.cur := by
  induction xs generalizing σ with
  | nil => rfl
  | cons x xs ih => rw [pushAll_cons, ih, push_cur]

@[simp] theorem pushAll_nregs (xs : List ι) (σ : Builder ι) :
    (σ.pushAll xs).nregs = σ.nregs := by
  induction xs generalizing σ with
  | nil => rfl
  | cons x xs ih => rw [pushAll_cons, ih, push_nregs]

/-- Pushing writes into the current block only. -/
theorem pushAll_code_of_ne (xs : List ι) (σ : Builder ι) (b : Nat) (ne : b ≠ σ.cur) :
    (σ.pushAll xs).code b = σ.code b := by
  induction xs generalizing σ with
  | nil => rfl
  | cons x xs ih => rw [pushAll_cons, ih (σ.push x) ne, push_code_of_ne σ x b ne]

/-- The builder stands in one of its blocks and has written into no other. -/
structure Valid (σ : Builder ι) : Prop where
  cur_lt : σ.cur < σ.nblocks
  unborn : ∀ b, σ.nblocks ≤ b → σ.code b = []

/-- What an emitter does to the builder it is called with. -/
structure Extends (σ σ' : Builder ι) : Prop where
  grows : ∀ b, σ.code b <+: σ'.code b
  nblocks_le : σ.nblocks ≤ σ'.nblocks
  nregs_le : σ.nregs ≤ σ'.nregs
  untouched : ∀ b, b < σ.nblocks → b ≠ σ.cur → σ'.code b = σ.code b
  lands : σ'.cur = σ.cur ∨ σ.nblocks ≤ σ'.cur
  valid : σ'.Valid

/-- Everything `σ` has emitted is part of the program `code`. -/
def Laid (σ : Builder ι) (code : Nat → List ι) : Prop := ∀ b, σ.code b <+: code b

namespace Extends

variable {σ σ₁ σ₂ : Builder ι}

theorem refl (valid : σ.Valid) : Extends σ σ where
  grows _ := List.prefix_rfl
  nblocks_le := Nat.le_refl _
  nregs_le := Nat.le_refl _
  untouched _ _ _ := rfl
  lands := .inl rfl
  valid := valid

theorem trans (first : Extends σ σ₁) (second : Extends σ₁ σ₂) : Extends σ σ₂ where
  grows b := (first.grows b).trans (second.grows b)
  nblocks_le := first.nblocks_le.trans second.nblocks_le
  nregs_le := first.nregs_le.trans second.nregs_le
  untouched b below ne := by
    have notCur : b ≠ σ₁.cur := by
      rcases first.lands with h | h
      · rw [h]; exact ne
      · omega
    rw [second.untouched b (below.trans_le first.nblocks_le) notCur, first.untouched b below ne]
  lands := by
    rcases second.lands with h | h
    · rw [h]; exact first.lands
    · exact .inr (first.nblocks_le.trans h)
  valid := second.valid

theorem push (ext : Extends σ σ₁) (x : ι) : Extends σ (σ₁.push x) where
  grows b := by
    rcases eq_or_ne b σ₁.cur with rfl | ne
    · rw [push_code_self]
      exact (ext.grows σ₁.cur).trans (List.prefix_append ..)
    · rw [push_code_of_ne σ₁ x b ne]
      exact ext.grows b
  nblocks_le := ext.nblocks_le
  nregs_le := ext.nregs_le
  untouched b below ne := by
    have notCur : b ≠ σ₁.cur := by
      rcases ext.lands with h | h
      · rw [h]; exact ne
      · omega
    rw [push_code_of_ne σ₁ x b notCur, ext.untouched b below ne]
  lands := ext.lands
  valid :=
    { cur_lt := ext.valid.cur_lt
      unborn := fun b above => by
        have cur := ext.valid.cur_lt
        rw [push_nblocks] at above
        rw [push_code_of_ne σ₁ x b (by omega)]
        exact ext.valid.unborn b above }

theorem pushAll (ext : Extends σ σ₁) (xs : List ι) : Extends σ (σ₁.pushAll xs) := by
  induction xs generalizing σ₁ with
  | nil => exact ext
  | cons x xs ih => exact ih (ext.push x)

theorem appendN (ext : Extends σ σ₁) (n : Nat) : Extends σ (σ₁.appendN n) where
  grows := ext.grows
  nblocks_le := ext.nblocks_le.trans (Nat.le_add_right _ _)
  nregs_le := ext.nregs_le
  untouched := ext.untouched
  lands := ext.lands
  valid :=
    { cur_lt := ext.valid.cur_lt.trans_le (Nat.le_add_right _ _)
      unborn := fun b above => ext.valid.unborn b ((Nat.le_add_right _ _).trans above) }

theorem append (ext : Extends σ σ₁) : Extends σ σ₁.append := ext.appendN 1

theorem fresh (ext : Extends σ σ₁) : Extends σ σ₁.fresh where
  grows := ext.grows
  nblocks_le := ext.nblocks_le
  nregs_le := ext.nregs_le.trans (Nat.le_succ _)
  untouched := ext.untouched
  lands := ext.lands
  valid := ⟨ext.valid.cur_lt, ext.valid.unborn⟩

theorem goto (ext : Extends σ σ₁) (b : Nat) (own : σ.nblocks ≤ b) (born : b < σ₁.nblocks) :
    Extends σ (σ₁.goto b) where
  grows := ext.grows
  nblocks_le := ext.nblocks_le
  nregs_le := ext.nregs_le
  untouched := ext.untouched
  lands := .inr own
  valid := ⟨born, ext.valid.unborn⟩

end Extends

/-- A block that exists, is empty, and is not being written to. -/
structure Reserved (σ : Builder ι) (b : Nat) : Prop where
  born : b < σ.nblocks
  ne_cur : b ≠ σ.cur
  empty : σ.code b = []

namespace Reserved

variable {σ σ₁ : Builder ι} {b : Nat}

theorem appended (valid : σ.Valid) : σ.append.Reserved σ.nblocks where
  born := Nat.lt_succ_self _
  ne_cur := Nat.ne_of_gt valid.cur_lt
  empty := valid.unborn _ (Nat.le_refl _)

theorem appendedN (valid : σ.Valid) (n : Nat) (le : σ.nblocks ≤ b) (lt : b < σ.nblocks + n) :
    (σ.appendN n).Reserved b where
  born := lt
  ne_cur := Nat.ne_of_gt (valid.cur_lt.trans_le le)
  empty := valid.unborn b le

theorem append (reserved : σ.Reserved b) : σ.append.Reserved b :=
  ⟨reserved.born.trans (Nat.lt_succ_self _), reserved.ne_cur, reserved.empty⟩

theorem appendN (reserved : σ.Reserved b) (n : Nat) : (σ.appendN n).Reserved b :=
  ⟨reserved.born.trans_le (Nat.le_add_right _ _), reserved.ne_cur, reserved.empty⟩

theorem fresh (reserved : σ.Reserved b) : σ.fresh.Reserved b :=
  ⟨reserved.born, reserved.ne_cur, reserved.empty⟩

theorem push (reserved : σ.Reserved b) (x : ι) : (σ.push x).Reserved b where
  born := reserved.born
  ne_cur := reserved.ne_cur
  empty := by rw [push_code_of_ne σ x b reserved.ne_cur, reserved.empty]

theorem pushAll (reserved : σ.Reserved b) (xs : List ι) : (σ.pushAll xs).Reserved b where
  born := by rw [pushAll_nblocks]; exact reserved.born
  ne_cur := by rw [pushAll_cur]; exact reserved.ne_cur
  empty := by rw [pushAll_code_of_ne xs σ b reserved.ne_cur, reserved.empty]

theorem goto (reserved : σ.Reserved b) (b' : Nat) (ne : b ≠ b') : (σ.goto b').Reserved b :=
  ⟨reserved.born, ne, reserved.empty⟩

/-- A block set aside before a call is still set aside after it. -/
theorem survives (reserved : σ.Reserved b) (ext : Extends σ σ₁) : σ₁.Reserved b where
  born := reserved.born.trans_le ext.nblocks_le
  ne_cur := by
    rcases ext.lands with h | h
    · rw [h]; exact reserved.ne_cur
    · have := reserved.born
      omega
  empty := by rw [ext.untouched b reserved.born reserved.ne_cur, reserved.empty]

theorem offset_goto (reserved : σ.Reserved b) : (σ.goto b).offset = 0 := by
  simp [offset, reserved.empty]

end Reserved

namespace Laid

variable {σ σ₁ : Builder ι} {code : Nat → List ι}

theorem of_extends (laid : σ₁.Laid code) (ext : Extends σ σ₁) : σ.Laid code :=
  fun b => (ext.grows b).trans (laid b)

theorem of_push {x : ι} (laid : (σ.push x).Laid code) : σ.Laid code := by
  intro b
  refine List.IsPrefix.trans ?_ (laid b)
  rcases eq_or_ne b σ.cur with rfl | ne
  · rw [push_code_self]
    exact List.prefix_append ..
  · exact (push_code_of_ne σ x b ne) ▸ List.prefix_rfl

theorem of_goto {b : Nat} (laid : (σ.goto b).Laid code) : σ.Laid code := laid

theorem of_fresh (laid : σ.fresh.Laid code) : σ.Laid code := laid

theorem of_appendN {n : Nat} (laid : (σ.appendN n).Laid code) : σ.Laid code := laid

theorem of_pushAll {xs : List ι} (laid : (σ.pushAll xs).Laid code) : σ.Laid code := by
  induction xs generalizing σ with
  | nil => exact laid
  | cons x xs ih => exact (ih laid).of_push

/-- An emitted item stands where the builder was. -/
theorem fetch {x : ι} (laid : (σ.push x).Laid code) : (code σ.cur)[σ.offset]? = some x := by
  obtain ⟨rest, eq⟩ := laid σ.cur
  rw [push_code_self] at eq
  rw [← eq]
  simp [offset]

end Laid

end Builder

/-- Emitters: they transform the builder, or give up. -/
abbrev Emit (ι : Type) := StateT (Builder ι) Option

namespace Emit

def appendBlock : Emit ι Nat := fun σ => some (σ.nblocks, σ.append)

def positionAtEnd (b : Nat) : Emit ι Unit := fun σ => some ((), σ.goto b)

def newReg : Emit ι Nat := fun σ => some (σ.nregs, σ.fresh)

def item (x : ι) : Emit ι Unit := fun σ => some ((), σ.push x)

/-- Reports an error of the compiler itself. -/
def fail : Emit ι α := fun _ => none

variable {σ σ' : Builder ι}

@[simp] theorem appendBlock_run : (appendBlock : Emit ι Nat) σ = some (σ.nblocks, σ.append) := rfl

@[simp] theorem positionAtEnd_run (b : Nat) :
    (positionAtEnd b : Emit ι Unit) σ = some ((), σ.goto b) := rfl

@[simp] theorem newReg_run : (newReg : Emit ι Nat) σ = some (σ.nregs, σ.fresh) := rfl

@[simp] theorem item_run (x : ι) : item x σ = some ((), σ.push x) := rfl

@[simp] theorem fail_run : (fail : Emit ι α) σ = none := rfl

@[simp] theorem pure_run (a : α) : (pure a : Emit ι α) σ = some (a, σ) := rfl

@[simp] theorem bind_run (m : Emit ι α) (k : α → Emit ι β) :
    (m >>= k) σ = (m σ).bind fun r => k r.1 r.2 := rfl

/-- An emitter that never gives up. -/
def Returns (m : Emit ι α) : Prop := ∀ σ, ∃ a σ', m σ = some (a, σ')

namespace Returns

theorem bind {m : Emit ι α} {k : α → Emit ι β} (first : Returns m) (rest : ∀ a, Returns (k a)) :
    Returns (m >>= k) := by
  intro σ
  obtain ⟨a, σ₁, eq⟩ := first σ
  obtain ⟨b, σ₂, eq'⟩ := rest a σ₁
  exact ⟨b, σ₂, by rw [bind_run, eq, Option.bind_some, eq']⟩

theorem pure (a : α) : Returns (Pure.pure a : Emit ι α) := fun σ => ⟨a, σ, rfl⟩

theorem appendBlock : Returns (Emit.appendBlock : Emit ι Nat) := fun _ => ⟨_, _, rfl⟩

theorem positionAtEnd (b : Nat) : Returns (Emit.positionAtEnd b : Emit ι Unit) := fun _ => ⟨_, _, rfl⟩

theorem newReg : Returns (Emit.newReg : Emit ι Nat) := fun _ => ⟨_, _, rfl⟩

theorem item (x : ι) : Returns (Emit.item x) := fun _ => ⟨_, _, rfl⟩

end Returns

end Emit

end Lib.Blocks
