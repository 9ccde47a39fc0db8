import Mathlib.Data.List.Basic
import Uplpgsql.Lib.Commands

/-!
Memory as blocks of bytes.

A pointer is the number of a block; no number is used twice. A block is on the
stack or on the heap and lives until it is freed. A byte that was never written
has no value. Freeing or enlarging anything but a living block of the heap, and an
access outside a living block, are undefined.
-/

namespace Lib.Heap

open Words

variable {ε : Type}

abbrev Byte := BitVec 8

inductive Region where
  | stack
  | heap
  deriving DecidableEq, Repr

structure Block where
  region : Region
  live : Bool
  bytes : List (Option Byte)
  deriving DecidableEq, Repr

abbrev Mem := List Block

/-- A living block. -/
def PointsTo (mem : Mem) (p : Nat) (region : Region) (bytes : List (Option Byte)) : Prop :=
  mem[p]? = some ⟨region, true, bytes⟩

/-- The first bytes of a block of another size. -/
def resized (n : Nat) (bytes : List (Option Byte)) : List (Option Byte) :=
  bytes.take n ++ List.replicate (n - bytes.length) none

/-- Other bytes from an offset on. -/
def splice (offset : Nat) (new bytes : List (Option Byte)) : List (Option Byte) :=
  bytes.take offset ++ new ++ bytes.drop (offset + new.length)

def alloc (region : Region) (bytes : List (Option Byte)) : Cmd Mem ε Nat := fun mem =>
  (.ok mem.length, mem ++ [⟨region, true, bytes⟩])

def free (p : Nat) : Cmd Mem ε Unit := fun mem =>
  match mem[p]? with
  | some ⟨.heap, true, bytes⟩ => (.ok (), mem.set p ⟨.heap, false, bytes⟩)
  | _ => (.undefined, mem)

/-- The block always moves. -/
def realloc (p n : Nat) : Cmd Mem ε Nat := fun mem =>
  match mem[p]? with
  | some ⟨.heap, true, bytes⟩ =>
    (.ok mem.length, mem.set p ⟨.heap, false, bytes⟩ ++ [⟨.heap, true, resized n bytes⟩])
  | _ => (.undefined, mem)

def load (p offset n : Nat) : Cmd Mem ε (List (Option Byte)) := fun mem =>
  match mem[p]? with
  | some ⟨_, true, bytes⟩ =>
    if offset + n ≤ bytes.length then (.ok ((bytes.drop offset).take n), mem) else (.undefined, mem)
  | _ => (.undefined, mem)

def store (p offset : Nat) (new : List (Option Byte)) : Cmd Mem ε Unit := fun mem =>
  match mem[p]? with
  | some ⟨region, true, bytes⟩ =>
    if offset + new.length ≤ bytes.length then (.ok (), mem.set p ⟨region, true, splice offset new bytes⟩)
    else (.undefined, mem)
  | _ => (.undefined, mem)

/-! ### What the operations do -/

section Operations

variable {mem : Mem} {p q n offset : Nat} {region region' : Region} {bytes new : List (Option Byte)}
  {E : ε → Mem → Prop}

theorem PointsTo.lt (holds : PointsTo mem p region bytes) : p < mem.length :=
  (List.getElem?_eq_some_iff.mp holds).1

@[simp] theorem wp_alloc {Q : Nat → Mem → Prop} :
    Cmd.wp (alloc region bytes) Q E mem = Q mem.length (mem ++ [⟨region, true, bytes⟩]) := rfl

theorem wp_free {Q : Unit → Mem → Prop} (holds : PointsTo mem p .heap bytes) :
    Cmd.wp (free p) Q E mem = Q () (mem.set p ⟨.heap, false, bytes⟩) := by
  rw [PointsTo] at holds
  simp only [Cmd.wp, free, holds]

theorem wp_realloc {Q : Nat → Mem → Prop} (holds : PointsTo mem p .heap bytes) :
    Cmd.wp (realloc p n) Q E mem =
      Q mem.length (mem.set p ⟨.heap, false, bytes⟩ ++ [⟨.heap, true, resized n bytes⟩]) := by
  rw [PointsTo] at holds
  simp only [Cmd.wp, realloc, holds]

theorem wp_load {Q : List (Option Byte) → Mem → Prop} (holds : PointsTo mem p region bytes)
    (inside : offset + n ≤ bytes.length) :
    Cmd.wp (load p offset n) Q E mem = Q ((bytes.drop offset).take n) mem := by
  rw [PointsTo] at holds
  simp only [Cmd.wp, load, holds, if_pos inside]

theorem wp_store {Q : Unit → Mem → Prop} (holds : PointsTo mem p region bytes)
    (inside : offset + new.length ≤ bytes.length) :
    Cmd.wp (store p offset new) Q E mem = Q () (mem.set p ⟨region, true, splice offset new bytes⟩) := by
  rw [PointsTo] at holds
  simp only [Cmd.wp, store, holds, if_pos inside]

/-! The blocks afterwards. -/

theorem PointsTo.alloc : PointsTo (mem ++ [⟨region, true, bytes⟩]) mem.length region bytes := by
  simp [PointsTo]

/-- The new block after another one was freed. -/
theorem PointsTo.alloc_set (mem : Mem) (q : Nat) (block : Block) (region : Region) (bytes : List (Option Byte)) :
    PointsTo (mem.set q block ++ [⟨region, true, bytes⟩]) mem.length region bytes := by
  simp [PointsTo]

theorem PointsTo.append (holds : PointsTo mem p region bytes) (more : Mem) :
    PointsTo (mem ++ more) p region bytes := by
  rw [PointsTo, List.getElem?_append_left holds.lt]
  exact holds

theorem PointsTo.set_ne {block : Block} (holds : PointsTo mem p region bytes) (other : q ≠ p) :
    PointsTo (mem.set q block) p region bytes := by
  rw [PointsTo, List.getElem?_set_ne other]
  exact holds

theorem PointsTo.set_self (holds : PointsTo mem p region bytes) :
    PointsTo (mem.set p ⟨region', true, new⟩) p region' new := by
  rw [PointsTo, List.getElem?_set_self holds.lt]

end Operations

/-! ### Lists of bytes -/

section Bytes

variable {n m offset : Nat} {new bytes : List (Option Byte)}

@[simp] theorem resized_length : (resized n bytes).length = n := by
  simp only [resized, List.length_append, List.length_take, List.length_replicate]
  omega

/-- What fits is kept. -/
theorem resized_take (kept : m ≤ n) (there : m ≤ bytes.length) : (resized n bytes).take m = bytes.take m := by
  rw [resized, List.take_append_of_le_length (by simp only [List.length_take]; omega), List.take_take,
    Nat.min_eq_left kept]

theorem splice_length (inside : offset + new.length ≤ bytes.length) :
    (splice offset new bytes).length = bytes.length := by
  simp only [splice, List.length_append, List.length_take, List.length_drop]
  omega

/-- What is before the offset is kept. -/
theorem splice_take (before : m ≤ offset) (there : offset ≤ bytes.length) :
    (splice offset new bytes).take m = bytes.take m := by
  rw [splice, List.append_assoc,
    List.take_append_of_le_length (by simp only [List.length_take]; omega), List.take_take,
    Nat.min_eq_left before]

theorem splice_get (new : List (Option Byte)) (there : offset ≤ bytes.length) :
    ((splice offset new bytes).drop offset).take new.length = new := by
  have long : (bytes.take offset).length = offset := by
    rw [List.length_take]
    omega
  rw [splice, List.append_assoc, List.drop_left' long, List.take_left]

/-- Bytes written where the written ones end. -/
theorem splice_append {done rest : List (Option Byte)} (here : done.length = offset) :
    splice offset new (done ++ rest) = done ++ new ++ rest.drop new.length := by
  subst here
  rw [splice, List.take_left, ← List.drop_drop, List.drop_left]

/-- The values of the bytes, if they all have one. -/
def values : List (Option Byte) → Option (List Byte)
  | [] => some []
  | none :: _ => none
  | some byte :: rest => (values rest).map (byte :: ·)

theorem values_eq_some_iff {bytes : List (Option Byte)} {known : List Byte} :
    values bytes = some known ↔ bytes = known.map some := by
  induction bytes generalizing known with
  | nil => cases known <;> simp [values]
  | cons byte rest ih =>
    cases byte with
    | none => cases known <;> simp [values]
    | some byte =>
      cases known with
      | nil => simp [values]
      | cons first others => simp [values, ih, and_comm]

@[simp] theorem values_map (known : List Byte) : values (known.map some) = some known :=
  values_eq_some_iff.mpr rfl

end Bytes

/-! ### Words in memory, the lowest byte first -/

section Words

def wordOf : List Byte → Nat
  | [] => 0
  | byte :: rest => byte.toNat + 256 * wordOf rest

/-- The lowest `n` bytes of a word. -/
def bytesOf : Nat → Nat → List Byte
  | 0, _ => []
  | n + 1, word => BitVec.ofNat 8 word :: bytesOf n (word / 256)

@[simp] theorem bytesOf_length (n word : Nat) : (bytesOf n word).length = n := by
  induction n generalizing word with
  | zero => rfl
  | succ n ih => simp [bytesOf, ih]

theorem wordOf_lt (bytes : List Byte) : wordOf bytes < 256 ^ bytes.length := by
  induction bytes with
  | nil => simp [wordOf]
  | cons byte rest ih =>
    have small := byte.isLt
    simp only [wordOf, List.length_cons, Nat.pow_succ]
    omega

theorem bytesOf_wordOf (bytes : List Byte) : bytesOf bytes.length (wordOf bytes) = bytes := by
  induction bytes with
  | nil => rfl
  | cons byte rest ih =>
    have small := byte.isLt
    have high : (byte.toNat + 256 * wordOf rest) / 256 = wordOf rest := by omega
    have low : BitVec.ofNat 8 (byte.toNat + 256 * wordOf rest) = byte := by
      apply BitVec.eq_of_toNat_eq
      rw [BitVec.toNat_ofNat]
      omega
    rw [List.length_cons, wordOf, bytesOf, high, low, ih]

/-- Higher bytes do not matter. -/
theorem bytesOf_mod (n word : Nat) : bytesOf n (word % 256 ^ n) = bytesOf n word := by
  induction n generalizing word with
  | zero => rfl
  | succ n ih =>
    have low : BitVec.ofNat 8 (word % 256 ^ (n + 1)) = BitVec.ofNat 8 word := by
      apply BitVec.eq_of_toNat_eq
      rw [BitVec.toNat_ofNat, BitVec.toNat_ofNat, Nat.pow_succ, Nat.mul_comm, Nat.mod_mul_right_mod]
    have high : word % 256 ^ (n + 1) / 256 = word / 256 % 256 ^ n := by
      rw [Nat.pow_succ, Nat.mul_comm, Nat.mod_mul_right_div_self]
    rw [bytesOf, bytesOf, low, high, ih]

theorem wordOf_bytesOf (n word : Nat) : wordOf (bytesOf n word) = word % 256 ^ n := by
  induction n generalizing word with
  | zero => simp [bytesOf, wordOf, Nat.mod_one]
  | succ n ih =>
    have parts : word % 256 ^ (n + 1) = word % 256 + 256 * (word / 256 % 256 ^ n) := by
      rw [Nat.pow_succ, Nat.mul_comm, Nat.mod_mul]
    rw [bytesOf, wordOf, ih, BitVec.toNat_ofNat, parts]

end Words

/-! ### What stays -/

section Frame

/-- Nothing but the blocks of `own` has changed, and there may be new ones. -/
structure Preserves (own : List Nat) (mem mem' : Mem) : Prop where
  grows : mem.length ≤ mem'.length
  same : ∀ q < mem.length, q ∉ own → mem'[q]? = mem[q]?

variable {own own' : List Nat} {mem mem' mem'' : Mem} {p : Nat} {region : Region}
  {bytes : List (Option Byte)}

theorem Preserves.refl (own : List Nat) (mem : Mem) : Preserves own mem mem := ⟨Nat.le_refl _, fun _ _ _ => rfl⟩

/-- Blocks that are new in between are nobody's. -/
theorem Preserves.trans (first : Preserves own mem mem') (second : Preserves own' mem' mem'')
    (owned : ∀ q ∈ own', q ∈ own ∨ mem.length ≤ q) : Preserves own mem mem'' := by
  refine ⟨Nat.le_trans first.grows second.grows, fun q old apart => ?_⟩
  have apart' : q ∉ own' := by
    intro member
    rcases owned q member with there | fresh
    · exact apart there
    · omega
  rw [second.same q (Nat.lt_of_lt_of_le old first.grows) apart', first.same q old apart]

theorem Preserves.append (own : List Nat) (mem more : Mem) : Preserves own mem (mem ++ more) := by
  refine ⟨by simp, fun q old _ => ?_⟩
  rw [List.getElem?_append_left old]

theorem Preserves.set (own : List Nat) {block : Block} (member : p ∈ own) (mem : Mem) : Preserves own mem (mem.set p block) := by
  refine ⟨by simp, fun q _ apart => ?_⟩
  have other : p ≠ q := by
    rintro rfl
    exact apart member
  rw [List.getElem?_set_ne other]

/-- A block has changed, and others are new. -/
theorem Preserves.set_append (own : List Nat) {block : Block} (member : p ∈ own) (mem more : Mem) :
    Preserves own mem (mem.set p block ++ more) :=
  (Preserves.set own member mem).trans (Preserves.append own _ _) fun _ there => .inl there

theorem PointsTo.kept (holds : PointsTo mem p region bytes) (kept : Preserves own mem mem') (apart : p ∉ own) :
    PointsTo mem' p region bytes := by
  rw [PointsTo, kept.same p holds.lt apart]
  exact holds

end Frame

end Lib.Heap
