import Uplpgsql.Arrays.Buffers
import Uplpgsql.Arrays.Writes

/-!
# Growing the buffers of a native array

What `uplpgsql_rt_native_array_reserve` does to the memory of an array: the
elements and flags below the length move with their buffers, the new flags are
cleared, and no size is too large for an int, for `Size` or for the allocator.
-/

namespace Uplpgsql

open Lib Lib.Words Lib.Heap

/-! ### Sizes -/

section Sizes

variable {n len cap : BitVec 32}

theorem toSize_toNat (nonneg : 0 ≤ n.toInt) : (toSize n).toNat = n.toInt.toNat := by
  have same : (toSize n).toInt = n.toInt := by
    rw [toSize, BitVec.toInt_signExtend_of_le (by decide)]
  have small : n.toInt < 2 ^ 31 := BitVec.toInt_lt
  have wide : (toSize n).toNat < 2 ^ 64 := (toSize n).isLt
  rw [← same]
  rw [BitVec.toInt_eq_toNat_cond] at same ⊢
  split at same
  · rw [if_pos ‹_›, Int.toNat_natCast]
  · omega

theorem ElemType.toSize_size (ty : ElemType) : (toSize (BitVec.ofNat 32 ty.size)).toNat = ty.size := by
  cases ty <;> rfl

/-- A number of elements in bytes. -/
theorem toSize_mul (ty : ElemType) (nonneg : 0 ≤ n.toInt) (small : n.toInt ≤ maxArraySize) :
    (toSize n * toSize (BitVec.ofNat 32 ty.size)).toNat = n.toInt.toNat * ty.size ∧
      n.toInt.toNat * ty.size ≤ maxAllocSize := by
  have size := ty.size_cases
  unfold maxArraySize at small
  unfold maxAllocSize
  rw [BitVec.toNat_mul, toSize_toNat nonneg, ty.toSize_size]
  rcases size with size | size
  · rw [size]
    omega
  · rw [size]
    omega

/-- No overflow on the way to the new capacity. -/
theorem growCapacity_eq (nonneg : 0 ≤ len.toInt) (short : len.toInt < maxArraySize)
    (small : cap.toInt ≤ maxArraySize) : growCapacity cap len = .ok (newCapacity cap len) := by
  have zero : (0 : BitVec 32).toInt = 0 := rfl
  have one : (1 : BitVec 32).toInt = 1 := rfl
  have two : (2 : BitVec 32).toInt = 2 := rfl
  have next : addInt len 1 = .ok (len + 1) := by
    rw [addInt, if_pos]
    simp only [Fits, one, maxArraySize] at *
    omega
  have twice : doubled cap = .ok (if (0 : BitVec 32).slt cap = true then cap * 2 else 8) := by
    rw [doubled]
    by_cases positive : (0 : BitVec 32).slt cap = true
    · rw [if_pos positive, if_pos positive, mulInt, if_pos]
      simp only [BitVec.slt, decide_eq_true_eq, zero] at positive
      simp only [Fits, two, maxArraySize] at *
      omega
    · rw [if_neg positive, if_neg positive]
  rw [growCapacity, twice, Native.ok_bind, newCapacity]
  generalize (if (0 : BitVec 32).slt cap = true then cap * 2 else 8) = newcap
  have enough : atLeast newcap len = .ok (if newcap.sle len = true then len + 1 else newcap) := by
    rw [atLeast, next]
    split <;> rfl
  rw [enough, Native.ok_bind]

/-- At least twice as much, up to the limit. -/
theorem newCapacity_twice (nonneg : 0 ≤ len.toInt) (short : len.toInt < maxArraySize)
    (small : cap.toInt ≤ maxArraySize) :
    2 * cap.toInt ≤ (newCapacity cap len).toInt ∨ (newCapacity cap len).toInt = maxArraySize := by
  have zero : (0 : BitVec 32).toInt = 0 := rfl
  have one : (1 : BitVec 32).toInt = 1 := rfl
  have two : (2 : BitVec 32).toInt = 2 := rfl
  have next : (len + 1).toInt = len.toInt + 1 := by
    rw [toInt_add_of_fits, one]
    simp only [Fits, one, maxArraySize] at *
    omega
  have doubled : 2 * cap.toInt ≤ (if 0 < cap.toInt then cap * 2 else 8).toInt := by
    split
    · rw [toInt_mul_of_fits, two]
      · omega
      · simp only [Fits, two, maxArraySize] at *
        omega
    · change _ ≤ (8 : Int)
      omega
  simp only [newCapacity, BitVec.slt, BitVec.sle, decide_eq_true_eq, zero, toInt_maxArraySize]
  generalize (if 0 < cap.toInt then cap * 2 else 8) = newcap at doubled ⊢
  -- More than that if even twice the capacity is not enough.
  have larger : newcap.toInt ≤ (if newcap.toInt ≤ len.toInt then len + 1 else newcap).toInt := by
    split <;> omega
  generalize (if newcap.toInt ≤ len.toInt then len + 1 else newcap) = enough at larger ⊢
  split
  · exact .inr toInt_maxArraySize
  · exact .inl (by omega)

end Sizes

/-! ### The buffers of an array -/

/-- The block behind a pointer. -/
def bytesBehind (mem : Mem) (p : Option Nat) : List (Option Byte) :=
  ((p.bind (mem[·]?)).map Block.bytes).getD []

namespace ArrayFrame

variable (f : ArrayFrame)

def dataBytes : List (Option Byte) := bytesBehind f.mem f.slots.data

def flagBytes : List (Option Byte) := bytesBehind f.mem f.slots.nulls

/-- Buffers for `len` elements. Only an array without elements needs none. -/
structure Mirrors (len : BitVec 32) : Prop where
  nonneg : 0 ≤ len.toInt
  isHeap : f.slots.isHeap = 0 ∨ f.slots.isHeap = 1
  empty : f.slots.data = none → len = 0
  data : ∀ p, f.slots.data = some p → ∃ region bytes, PointsTo f.mem p region bytes ∧
    (f.slots.isHeap = 1 ↔ region = .heap) ∧ len.toInt * f.slots.elemtype.size ≤ bytes.length
  nulls : ∀ q, f.slots.nulls = some q → ∃ bytes, PointsTo f.mem q .heap bytes ∧ len.toInt ≤ bytes.length
  apart : ∀ p, f.slots.data = some p → f.slots.nulls ≠ some p

end ArrayFrame

section Grow

variable {f : ArrayFrame} {len newcap : BitVec 32}

theorem bytesBehind_eq {mem : Mem} {p : Nat} {region : Region} {bytes : List (Option Byte)}
    (holds : PointsTo mem p region bytes) : bytesBehind mem (some p) = bytes := by
  rw [PointsTo] at holds
  simp [bytesBehind, holds]

theorem wp_palloc {mem : Mem} {size : BitVec 64} {Q : Nat → Mem → Prop} {E : ArrayError → Mem → Prop}
    (small : size.toNat ≤ maxAllocSize) :
    Cmd.wp (palloc size) Q E mem = Q mem.length (mem ++ [⟨.heap, true, List.replicate size.toNat none⟩]) := by
  rw [palloc, if_neg (by omega)]
  rfl

theorem wp_repalloc {mem : Mem} {p : Nat} {size : BitVec 64} {bytes : List (Option Byte)}
    {Q : Nat → Mem → Prop} {E : ArrayError → Mem → Prop} (small : size.toNat ≤ maxAllocSize)
    (holds : PointsTo mem p .heap bytes) :
    Cmd.wp (repalloc p size) Q E mem =
      Q mem.length (mem.set p ⟨.heap, false, bytes⟩ ++ [⟨.heap, true, resized size.toNat bytes⟩]) := by
  rw [repalloc, if_neg (by omega), wp_realloc holds]

@[simp] theorem wp_onMemory {α : Type} {c : Cmd Mem ArrayError α} {Q : α → ArrayFrame → Prop}
    {E : ArrayError → ArrayFrame → Prop} :
    Cmd.wp (onMemory c) Q E f =
      Cmd.wp c (fun a mem => Q a { f with mem := mem }) (fun e mem => E e { f with mem := mem }) f.mem :=
  Cmd.wp_zoom

@[simp] theorem wp_onSlots {change : ArraySlots → ArraySlots} {Q : Unit → ArrayFrame → Prop}
    {E : ArrayError → ArrayFrame → Prop} :
    Cmd.wp (onSlots change) Q E f = Q () { f with slots := change f.slots } := rfl

/-- The elements below the length, in a buffer of their own. -/
structure Moved (ty : ElemType) (f f' : ArrayFrame) (len newcap : BitVec 32) (p : Nat) : Prop where
  slots : f'.slots = { f.slots with data := some p, isHeap := 1 }
  fresh : f.mem.length ≤ p
  holds : ∃ bytes, PointsTo f'.mem p .heap bytes ∧ bytes.length = newcap.toInt.toNat * ty.size ∧
    bytes.take (len.toInt.toNat * ty.size) = f.dataBytes.take (len.toInt.toNat * ty.size)
  frame : Preserves f.slots.data.toList f.mem f'.mem

theorem wp_growData (mirrors : f.Mirrors len) (room : len.toInt < newcap.toInt)
    (small : newcap.toInt ≤ maxArraySize) {E : ArrayError → ArrayFrame → Prop} :
    Cmd.wp (growData newcap len (BitVec.ofNat 32 f.slots.elemtype.size))
      (fun _ f' => ∃ p, Moved f.slots.elemtype f f' len newcap p) E f := by
  have nonneg := mirrors.nonneg
  obtain ⟨bytes, fits⟩ := toSize_mul f.slots.elemtype (n := newcap) (by omega) small
  obtain ⟨lenBytes, -⟩ := toSize_mul f.slots.elemtype (n := len) nonneg (by omega)
  have less : len.toInt.toNat * f.slots.elemtype.size ≤ newcap.toInt.toNat * f.slots.elemtype.size :=
    Nat.mul_le_mul_right _ (by omega)
  unfold growData
  simp only [Cmd.wp_bind, Cmd.wp_get]
  cases data : f.slots.data with
  -- Before the first allocation the array is empty.
  | none =>
    have zero : len.toInt = 0 := by rw [mirrors.empty data]; rfl
    simp only [Cmd.wp_bind, wp_onMemory, copyData, wp_onSlots]
    rw [wp_palloc (by omega), bytes]
    refine ⟨f.mem.length, rfl, Nat.le_refl _, ⟨_, .alloc, by simp, ?_⟩, .append _ _ _⟩
    simp [zero]
  | some p =>
    obtain ⟨region, old, holds, place, enough⟩ := mirrors.data p data
    have enough : len.toInt.toNat * f.slots.elemtype.size ≤ old.length := by
      have cast : ((len.toInt.toNat * f.slots.elemtype.size : Nat) : Int) =
          len.toInt * f.slots.elemtype.size := by
        rw [Int.natCast_mul, Int.toNat_of_nonneg nonneg]
      omega
    -- The old bytes, as far as the length goes, must come first in the new buffer.
    have before : f.dataBytes = old := by
      rw [ArrayFrame.dataBytes, data, bytesBehind_eq holds]
    simp only
    rcases mirrors.isHeap with onStack | onHeap
    · -- A new buffer gets a copy.
      have onStack' : ¬ f.slots.isHeap ≠ 0 := by simp [onStack]
      rw [if_neg onStack']
      simp only [Cmd.wp_bind, wp_onMemory, copyData, wp_onSlots]
      rw [wp_palloc (by omega), bytes, Cmd.wp_ite]
      by_cases elements : (0 : BitVec 32).slt len = true
      · rw [if_pos elements, Cmd.wp_bind, wp_load (holds.append _) (by omega), List.drop_zero, Cmd.wp_bind]
        rw [wp_store .alloc (by simp only [List.length_take, List.length_replicate, lenBytes]; omega),
          Cmd.wp_pure]
        refine ⟨f.mem.length, rfl, Nat.le_refl _, ⟨_, PointsTo.alloc.set_self, ?_, ?_⟩, ?_⟩
        · rw [splice_length (by simp only [List.length_take, List.length_replicate]; omega),
            List.length_replicate]
        · have copied := splice_get (old.take (len.toInt.toNat * f.slots.elemtype.size))
            (Nat.zero_le (List.replicate (newcap.toInt.toNat * f.slots.elemtype.size) none).length)
          rw [List.drop_zero, List.length_take, Nat.min_eq_left enough] at copied
          rw [before, lenBytes, copied]
        · refine (Preserves.append _ _ _).trans (.set [f.mem.length] (List.mem_singleton_self _) _) ?_
          simp
      · -- There is nothing to copy.
        have zero : len.toInt.toNat = 0 := by
          simp only [BitVec.slt, decide_eq_true_eq, show (0 : BitVec 32).toInt = 0 from rfl] at elements
          omega
        rw [if_neg elements]
        refine ⟨f.mem.length, rfl, Nat.le_refl _, ⟨_, .alloc, by simp, ?_⟩, .append _ _ _⟩
        simp [zero]
    -- The buffer is the runtime's own and is grown in place of the old one.
    · have onHeap' : f.slots.isHeap ≠ 0 := by simp [onHeap]
      obtain rfl : region = .heap := place.mp onHeap
      rw [if_pos onHeap']
      simp only [Cmd.wp_bind, wp_onMemory, wp_onSlots]
      rw [wp_repalloc (by omega) holds, bytes]
      have alive : PointsTo (f.mem.set p ⟨.heap, false, old⟩ ++
          [⟨.heap, true, resized (newcap.toInt.toNat * f.slots.elemtype.size) old⟩]) f.mem.length .heap
          (resized (newcap.toInt.toNat * f.slots.elemtype.size) old) := .alloc_set _ _ _ _ _
      refine ⟨f.mem.length, ?_, Nat.le_refl _, ⟨_, alive, resized_length, ?_⟩, .set_append _ (by simp [data]) _ _⟩
      · simp [onHeap]
      · rw [before, resized_take less enough]

/-- The flags below the length, with cleared ones behind them. -/
structure Extended (f f' : ArrayFrame) (len newcap : BitVec 32) (q : Nat) : Prop where
  slots : f'.slots = { f.slots with nulls := some q }
  fresh : f.mem.length ≤ q
  holds : ∃ bytes, PointsTo f'.mem q .heap bytes ∧ bytes.length = newcap.toInt.toNat ∧
    bytes.take len.toInt.toNat = f.flagBytes.take len.toInt.toNat ∧
    bytes.drop len.toInt.toNat = List.replicate (newcap.toInt.toNat - len.toInt.toNat) (some 0)
  frame : Preserves f.slots.nulls.toList f.mem f'.mem

theorem wp_growNulls_none (nulls : f.slots.nulls = none) {Q : Unit → ArrayFrame → Prop}
    {E : ArrayError → ArrayFrame → Prop} : Cmd.wp (growNulls newcap len) Q E f = Q () f := by
  simp only [growNulls, Cmd.wp_bind, Cmd.wp_get, nulls, Cmd.wp_pure]

theorem wp_growNulls {q : Nat} {old : List (Option Byte)} (nulls : f.slots.nulls = some q)
    (holds : PointsTo f.mem q .heap old) (enough : len.toInt ≤ old.length) (nonneg : 0 ≤ len.toInt)
    (room : len.toInt < newcap.toInt) (small : newcap.toInt ≤ maxArraySize)
    {E : ArrayError → ArrayFrame → Prop} :
    Cmd.wp (growNulls newcap len) (fun _ f' => ∃ q', Extended f f' len newcap q') E f := by
  have size : (toSize newcap).toNat = newcap.toInt.toNat := toSize_toNat (by omega)
  have fits : Fits 32 (newcap.toInt - len.toInt) := by
    simp only [Fits, maxArraySize] at *
    omega
  have rest : (toSize (newcap - len)).toNat = newcap.toInt.toNat - len.toInt.toNat := by
    have difference : (newcap - len).toInt = newcap.toInt - len.toInt := toInt_sub_of_fits fits
    rw [toSize_toNat (by omega), difference]
    omega
  have index : len.toNat = len.toInt.toNat := by
    have bound := BitVec.toInt_eq_toNat_cond len
    have wide := len.isLt
    split at bound <;> omega
  have alive : PointsTo (f.mem.set q ⟨.heap, false, old⟩ ++
      [⟨.heap, true, resized newcap.toInt.toNat old⟩]) f.mem.length .heap (resized newcap.toInt.toNat old) :=
    .alloc_set _ _ _ _ _
  have inside : len.toInt.toNat + (List.replicate (newcap.toInt.toNat - len.toInt.toNat) (some (0 : Byte))).length ≤
      (resized newcap.toInt.toNat old).length := by
    rw [resized_length, List.length_replicate]
    omega
  unfold growNulls
  simp only [Cmd.wp_bind, Cmd.wp_get, nulls, wp_onMemory]
  rw [wp_repalloc (by unfold maxArraySize at small; unfold maxAllocSize; omega) holds, size]
  simp only [wp_onSlots, subInt, if_pos fits, Cmd.wp_bind, Cmd.wp_lift_ok, wp_onMemory]
  rw [rest, index, wp_store alive inside]
  refine ⟨f.mem.length, rfl, Nat.le_refl _, ⟨_, alive.set_self, ?_, ?_, ?_⟩, ?_⟩
  · rw [splice_length inside, resized_length]
  · rw [splice_take (Nat.le_refl _) (by rw [resized_length]; omega), resized_take (by omega) (by omega),
      ArrayFrame.flagBytes, nulls, bytesBehind_eq holds]
  · have within : len.toInt.toNat ≤ (resized newcap.toInt.toNat old).length := by
      rw [resized_length]
      omega
    have cleared := splice_get (List.replicate (newcap.toInt.toNat - len.toInt.toNat) (some 0)) within
    rw [List.take_of_length_le] at cleared
    · exact cleared
    · rw [List.length_drop, splice_length inside, resized_length, List.length_replicate]
  · rw [nulls]
    refine (Preserves.set_append [q] (List.mem_singleton_self _) f.mem _).trans
      (.set [f.mem.length] (List.mem_singleton_self _) _) ?_
    simp

end Grow

/-! ### Reserving -/

section Reserve

variable {f f' : ArrayFrame} {len newcap : BitVec 32}

/-- The buffers of an array. -/
def ArraySlots.buffers (s : ArraySlots) : List Nat := s.data.toList ++ s.nulls.toList

/-- Both buffers have moved to larger ones. -/
structure Regrown (f f' : ArrayFrame) (len newcap : BitVec 32) : Prop where
  slots : f'.slots = { f.slots with data := f'.slots.data, nulls := f'.slots.nulls, cap := newcap, isHeap := 1 }
  data : ∃ p bytes, f'.slots.data = some p ∧ f.mem.length ≤ p ∧ PointsTo f'.mem p .heap bytes ∧
    bytes.length = newcap.toInt.toNat * f.slots.elemtype.size ∧
    bytes.take (len.toInt.toNat * f.slots.elemtype.size) =
      f.dataBytes.take (len.toInt.toNat * f.slots.elemtype.size)
  none : f.slots.nulls = none → f'.slots.nulls = none
  nulls : ∀ q, f.slots.nulls = some q → ∃ q' bytes, f'.slots.nulls = some q' ∧ f.mem.length ≤ q' ∧
    f'.slots.data ≠ some q' ∧ PointsTo f'.mem q' .heap bytes ∧ bytes.length = newcap.toInt.toNat ∧
    bytes.take len.toInt.toNat = f.flagBytes.take len.toInt.toNat ∧
    bytes.drop len.toInt.toNat = List.replicate (newcap.toInt.toNat - len.toInt.toNat) (some 0)
  frame : Preserves f.slots.buffers f.mem f'.mem

theorem wp_grow (mirrors : f.Mirrors len) (room : len.toInt < newcap.toInt) (small : newcap.toInt ≤ maxArraySize)
    {E : ArrayError → ArrayFrame → Prop} :
    Cmd.wp (do
        growData newcap len (BitVec.ofNat 32 f.slots.elemtype.size)
        growNulls newcap len
        onSlots fun s => { s with cap := newcap })
      (fun _ f' => Regrown f f' len newcap) E f := by
  rw [Cmd.wp_bind]
  refine Cmd.wp_value (wp_growData mirrors room small) fun _ f₁ moved => ?_
  obtain ⟨p, moved⟩ := moved
  obtain ⟨bytes, holds, size, kept⟩ := moved.holds
  have sameNulls : f₁.slots.nulls = f.slots.nulls := by rw [moved.slots]
  rw [Cmd.wp_bind]
  cases nulls : f.slots.nulls with
  -- Without flags only the data moves.
  | none =>
    rw [wp_growNulls_none (sameNulls.trans nulls), wp_onSlots]
    refine ⟨?_, ⟨p, bytes, ?_, moved.fresh, holds, size, kept⟩, fun _ => sameNulls.trans nulls, ?_, ?_⟩
    · simp only [moved.slots]
    · simp only [moved.slots]
    · simp [nulls]
    · simpa [ArraySlots.buffers, nulls] using moved.frame
  | some q =>
    obtain ⟨flags, there, enough⟩ := mirrors.nulls q nulls
    have apart : q ∉ f.slots.data.toList := by
      intro member
      exact mirrors.apart q (by simpa using member) nulls
    -- Growing the data has left the flags where they were.
    have there₁ : PointsTo f₁.mem q .heap flags := there.kept moved.frame apart
    have flagBytes : f₁.flagBytes = f.flagBytes := by
      rw [ArrayFrame.flagBytes, ArrayFrame.flagBytes, sameNulls, nulls, bytesBehind_eq there₁, bytesBehind_eq there]
    refine Cmd.wp_value (wp_growNulls (sameNulls.trans nulls) there₁ enough mirrors.nonneg room small)
      fun _ f₂ extended => ?_
    obtain ⟨q', extended⟩ := extended
    obtain ⟨more, holds', size', kept', cleared⟩ := extended.holds
    have other : p ∉ f₁.slots.nulls.toList := by
      have old := there.lt
      have fresh := moved.fresh
      rw [sameNulls, nulls]
      simp only [Option.toList_some, List.mem_singleton]
      omega
    -- Each growth takes a region that is fresh at its time, so the two are apart.
    have distinct : p ≠ q' := by
      have old := holds.lt
      have fresh := extended.fresh
      omega
    rw [flagBytes] at kept'
    rw [wp_onSlots]
    refine ⟨?_, ⟨p, bytes, ?_, moved.fresh, holds.kept extended.frame other, size, kept⟩, ?_, ?_, ?_⟩
    · simp only [extended.slots, moved.slots]
    · simp only [extended.slots, moved.slots]
    · intro absent
      rw [nulls] at absent
      cases absent
    · intro _ _
      refine ⟨q', more, ?_, Nat.le_trans moved.frame.grows extended.fresh, ?_, holds', size', kept', cleared⟩
      · simp only [extended.slots]
      · simpa only [extended.slots, moved.slots, ne_eq, Option.some.injEq] using distinct
    · have owned : ∀ r ∈ f₁.slots.nulls.toList, r ∈ f.slots.buffers ∨ f.mem.length ≤ r := by
        intro r member
        rw [sameNulls] at member
        exact .inl (List.mem_append_right _ member)
      have first : Preserves f.slots.buffers f.mem f₁.mem :=
        ⟨moved.frame.grows, fun r old apart =>
          moved.frame.same r old fun member => apart (List.mem_append_left _ member)⟩
      exact first.trans extended.frame owned

/-- The outcomes of `uplpgsql_rt_native_array_reserve`. -/
theorem reserve_outcomes (mirrors : f.Mirrors len) :
    len.toInt < f.slots.cap.toInt ∧
        rtNativeArrayReserve len (BitVec.ofNat 32 f.slots.elemtype.size) f = (.ok (), f) ∨
      f.slots.cap.toInt ≤ len.toInt ∧ maxArraySize ≤ len.toInt ∧
        rtNativeArrayReserve len (BitVec.ofNat 32 f.slots.elemtype.size) f = (.raise .sizeExceeded, f) ∨
      f.slots.cap.toInt ≤ len.toInt ∧ len.toInt < maxArraySize ∧
        ∃ f', rtNativeArrayReserve len (BitVec.ofNat 32 f.slots.elemtype.size) f = (.ok (), f') ∧
          Regrown f f' len (newCapacity f.slots.cap len) := by
  have nonneg := mirrors.nonneg
  by_cases room : len.toInt < f.slots.cap.toInt
  · have enough : len.slt f.slots.cap = true := by simpa [BitVec.slt] using room
    refine .inl ⟨room, ?_⟩
    change (if len.slt f.slots.cap = true then pure () else _ : Cmd ArrayFrame ArrayError Unit) f = _
    rw [if_pos enough]
    rfl
  · have full : ¬ len.slt f.slots.cap = true := by simpa [BitVec.slt] using room
    by_cases limit : maxArraySize ≤ len.toInt
    · have reached : (BitVec.ofNat 32 maxArraySize).sle len = true := by
        rw [BitVec.sle, decide_eq_true_eq, toInt_maxArraySize]
        exact limit
      refine .inr (.inl ⟨by omega, limit, ?_⟩)
      change (if len.slt f.slots.cap = true then pure () else
        if (BitVec.ofNat 32 maxArraySize).sle len = true then Cmd.raise .sizeExceeded else _ :
          Cmd ArrayFrame ArrayError Unit) f = _
      rw [if_neg full, if_pos reached]
      rfl
    · have below : ¬ (BitVec.ofNat 32 maxArraySize).sle len = true := by
        rw [BitVec.sle, decide_eq_true_eq, toInt_maxArraySize]
        exact limit
      obtain ⟨more, most⟩ : len.toInt < (newCapacity f.slots.cap len).toInt ∧
          (newCapacity f.slots.cap len).toInt ≤ maxArraySize := newCapacity_room nonneg (by omega)
      have capacity : growCapacity f.slots.cap len = .ok (newCapacity f.slots.cap len) :=
        growCapacity_eq nonneg (by omega) (by omega)
      have grown : Cmd.wp (rtNativeArrayReserve len (BitVec.ofNat 32 f.slots.elemtype.size))
          (fun _ f' => Regrown f f' len (newCapacity f.slots.cap len)) (fun _ _ => False) f := by
        simp only [rtNativeArrayReserve, Cmd.wp_bind, Cmd.wp_get, if_neg full, if_neg below,
          capacity, Cmd.wp_lift_ok]
        simpa only [Cmd.wp_bind] using wp_grow mirrors more most
      obtain ⟨_, f', ran, regrown⟩ := Cmd.exists_ok_of_wp grown
      exact .inr (.inr ⟨by omega, by omega, f', ran, regrown⟩)

/-- There is room for one more, and what there was is kept. -/
structure ArrayFrame.Reserved (f f' : ArrayFrame) (len : BitVec 32) : Prop where
  room : len.toInt < f'.slots.cap.toInt
  elems : f'.dataBytes.take (len.toInt.toNat * f.slots.elemtype.size) =
    f.dataBytes.take (len.toInt.toNat * f.slots.elemtype.size)
  flags : f'.flagBytes.take len.toInt.toNat = f.flagBytes.take len.toInt.toNat
  present : f'.slots.nulls.isSome = f.slots.nulls.isSome
  mirrors : f'.Mirrors len

/-- The buffers have grown, by sizes that no computation loses. -/
structure ArrayFrame.Enlarged (f f' : ArrayFrame) (len : BitVec 32) : Prop where
  twice : 2 * f.slots.cap.toInt ≤ f'.slots.cap.toInt ∨ f'.slots.cap.toInt = maxArraySize
  cleared : f.slots.nulls.isSome = true →
    f'.flagBytes.drop len.toInt.toNat = List.replicate (f'.slots.cap.toInt.toNat - len.toInt.toNat) (some 0)
  isHeap : f'.slots.isHeap = 1
  data : ∃ p bytes, f'.slots.data = some p ∧ PointsTo f'.mem p .heap bytes ∧
    bytes.length = f'.slots.cap.toInt.toNat * f.slots.elemtype.size
  doubles : 0 < f.slots.cap.toInt → Fits 32 (f.slots.cap.toInt * 2)
  next : Fits 32 (len.toInt + 1)
  rest : Fits 32 (f'.slots.cap.toInt - len.toInt)
  size : (toSize f'.slots.cap * toSize (BitVec.ofNat 32 f.slots.elemtype.size)).toNat =
    f'.slots.cap.toInt.toNat * f.slots.elemtype.size
  copied : (toSize len * toSize (BitVec.ofNat 32 f.slots.elemtype.size)).toNat =
    len.toInt.toNat * f.slots.elemtype.size
  request : f'.slots.cap.toInt.toNat * f.slots.elemtype.size ≤ maxAllocSize

/-- What growing keeps. -/
theorem Regrown.reserved (mirrors : f.Mirrors len) (room : len.toInt < newcap.toInt)
    (grown : Regrown f f' len newcap) : f.Reserved f' len := by
  have nonneg := mirrors.nonneg
  obtain ⟨p, bytes, data, -, holds, size, kept⟩ := grown.data
  have cap : f'.slots.cap = newcap := by rw [grown.slots]
  have elemtype : f'.slots.elemtype = f.slots.elemtype := by rw [grown.slots]
  have isHeap : f'.slots.isHeap = 1 := by rw [grown.slots]
  have long : len.toInt * f'.slots.elemtype.size ≤ bytes.length := by
    have less : len.toInt.toNat * f.slots.elemtype.size ≤ newcap.toInt.toNat * f.slots.elemtype.size :=
      Nat.mul_le_mul_right _ (by omega)
    have cast : ((len.toInt.toNat * f.slots.elemtype.size : Nat) : Int) =
        len.toInt * f.slots.elemtype.size := by
      rw [Int.natCast_mul, Int.toNat_of_nonneg nonneg]
    rw [elemtype, size]
    omega
  refine ⟨by rw [cap]; exact room, ?_, ?_, ?_, nonneg, .inr isHeap, ?_, ?_, ?_, ?_⟩
  · rw [ArrayFrame.dataBytes, data, bytesBehind_eq holds]
    exact kept
  · cases nulls : f.slots.nulls with
    | none => simp only [ArrayFrame.flagBytes, grown.none nulls, nulls, bytesBehind, Option.bind_none]
    | some q =>
      obtain ⟨q', flags, there, -, -, holds', -, same, -⟩ := grown.nulls q nulls
      rw [ArrayFrame.flagBytes, there, bytesBehind_eq holds']
      exact same
  · cases nulls : f.slots.nulls with
    | none => rw [grown.none nulls]
    | some q =>
      obtain ⟨q', flags, there, -⟩ := grown.nulls q nulls
      rw [there]
      rfl
  · intro absent
    rw [data] at absent
    cases absent
  · intro p' here
    obtain rfl : p = p' := Option.some.inj (data.symm.trans here)
    exact ⟨.heap, bytes, holds, by simp [isHeap], long⟩
  · intro q' here
    cases nulls : f.slots.nulls with
    | none =>
      rw [grown.none nulls] at here
      cases here
    | some q =>
      obtain ⟨q'', flags, there, -, -, holds', size', -⟩ := grown.nulls q nulls
      obtain rfl : q'' = q' := Option.some.inj (there.symm.trans here)
      exact ⟨flags, holds', by omega⟩
  · intro p' here same
    cases nulls : f.slots.nulls with
    | none =>
      rw [grown.none nulls] at same
      cases same
    | some q =>
      obtain ⟨q', flags, there, -, distinct, -⟩ := grown.nulls q nulls
      exact distinct (here.trans (same.symm.trans there))

/-- Reserving room for one more element: an error at the limit, without any change;
otherwise there is room and nothing is lost. -/
theorem reserve_raises_or_grows (f : ArrayFrame) (len : BitVec 32) (mirrors : f.Mirrors len)
    (small : f.slots.cap.toInt ≤ maxArraySize) :
    ((rtNativeArrayReserve len (BitVec.ofNat 32 f.slots.elemtype.size) f).1 = .raise .sizeExceeded ↔
        f.slots.cap.toInt ≤ len.toInt ∧ maxArraySize ≤ len.toInt) ∧
      ((rtNativeArrayReserve len (BitVec.ofNat 32 f.slots.elemtype.size) f).1 = .raise .sizeExceeded →
        (rtNativeArrayReserve len (BitVec.ofNat 32 f.slots.elemtype.size) f).2 = f) ∧
      (¬ (f.slots.cap.toInt ≤ len.toInt ∧ maxArraySize ≤ len.toInt) →
        ∃ f', rtNativeArrayReserve len (BitVec.ofNat 32 f.slots.elemtype.size) f = (.ok (), f') ∧
          f.Reserved f' len ∧ (f.slots.cap.toInt ≤ len.toInt → f.Enlarged f' len)) := by
  have nonneg := mirrors.nonneg
  rcases reserve_outcomes mirrors with ⟨room, ran⟩ | ⟨full, limit, ran⟩ | ⟨full, below, f', ran, grown⟩
  · rw [ran]
    refine ⟨⟨by rintro ⟨⟩, fun both => by omega⟩, fun _ => rfl, fun _ => ⟨f, rfl, ?_, ?_⟩⟩
    · exact ⟨room, rfl, rfl, rfl, mirrors⟩
    · intro full
      omega
  · rw [ran]
    exact ⟨⟨fun _ => ⟨full, limit⟩, fun _ => rfl⟩, fun _ => rfl, fun free => absurd ⟨full, limit⟩ free⟩
  · obtain ⟨more, most⟩ : len.toInt < (newCapacity f.slots.cap len).toInt ∧
        (newCapacity f.slots.cap len).toInt ≤ maxArraySize := newCapacity_room nonneg below
    rw [ran]
    refine ⟨⟨by rintro ⟨⟩, fun both => by omega⟩, by rintro ⟨⟩, fun _ => ⟨f', rfl, ?_, fun _ => ?_⟩⟩
    · exact grown.reserved mirrors more
    · have cap : f'.slots.cap = newCapacity f.slots.cap len := by rw [grown.slots]
      obtain ⟨p, bytes, data, -, holds, size, -⟩ := grown.data
      obtain ⟨product, request⟩ := toSize_mul f.slots.elemtype (n := newCapacity f.slots.cap len) (by omega) most
      refine ⟨?_, ?_, by rw [grown.slots], ⟨p, bytes, data, holds, by rw [cap]; exact size⟩, ?_, ?_, ?_, ?_, ?_, ?_⟩
      · rw [cap]
        exact newCapacity_twice nonneg below small
      · intro present
        obtain ⟨q, nulls⟩ := Option.isSome_iff_exists.mp present
        obtain ⟨q', flags, there, -, -, holds', -, -, cleared⟩ := grown.nulls q nulls
        rw [ArrayFrame.flagBytes, there, bytesBehind_eq holds', cap]
        exact cleared
      · intro positive
        simp only [Fits, maxArraySize] at *
        omega
      · simp only [Fits, maxArraySize] at *
        omega
      · rw [cap]
        simp only [Fits, maxArraySize] at *
        omega
      · rw [cap]
        exact product
      · exact (toSize_mul f.slots.elemtype nonneg (by omega)).1
      · rw [cap]
        exact request

/-- One element of eight bytes on the stack, and no room. -/
def onStack : ArrayFrame :=
  { mem := [⟨.stack, true, List.replicate 8 (some 1)⟩]
    slots := { ArraySlots.entry .int8 none with data := some 0, len := 1, cap := 1 } }

theorem onStack_mirrors : onStack.Mirrors 1 := by
  refine ⟨by decide, by decide, ?_, ?_, ?_, ?_⟩
  · rintro ⟨⟩
  · rintro p ⟨⟩
    exact ⟨.stack, _, rfl, by decide, by decide⟩
  · rintro q ⟨⟩
  · rintro p - ⟨⟩

theorem reserve_grows_onStack :
    ∃ f', rtNativeArrayReserve 1 8 onStack = (.ok (), f') ∧ onStack.Reserved f' 1 ∧ onStack.Enlarged f' 1 := by
  obtain ⟨f', ran, reserved, enlarged⟩ :=
    (reserve_raises_or_grows onStack 1 onStack_mirrors (by decide)).2.2 (by decide)
  exact ⟨f', ran, reserved, enlarged (by decide)⟩

end Reserve

end Uplpgsql
