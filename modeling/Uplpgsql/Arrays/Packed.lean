import Mathlib.Algebra.BigOperators.Group.List.Basic
import Mathlib.Data.Nat.Bitwise
import Uplpgsql.Arrays.Native
import Uplpgsql.Lib.Memory

/-!
# Arrays as PostgreSQL stores them

An `ArrayType` has its dimensions, an optional bitmap and the values of its
elements that are not NULL, one after the other. In the bitmap a set bit is an
element that is not NULL, the lowest bit of a byte first. `denote` is the array
this stands for.
-/

namespace Uplpgsql

open Lib.Words Lib.Heap

/-! ### Elements -/

/-- The element types of native arrays. -/
inductive ElemType where
  | int4
  | int8
  | float8
  deriving DecidableEq, Repr

def ElemType.size : ElemType → Nat
  | .int4 => 4
  | .int8 => 8
  | .float8 => 8

/-- An element in memory as a Datum: `Int32GetDatum`, `Int64GetDatum` and
`Float8GetDatum`. -/
def ElemType.datum : ElemType → List Byte → BitVec 64
  | .int4, bytes => (BitVec.ofNat 32 (wordOf bytes)).signExtend 64
  | .int8, bytes => BitVec.ofNat 64 (wordOf bytes)
  | .float8, bytes => BitVec.ofNat 64 (wordOf bytes)

/-- A Datum in memory: `ArrayCastAndSet`, and a store of the native value. -/
def ElemType.bytes (ty : ElemType) (d : BitVec 64) : List Byte := bytesOf ty.size d.toNat

/-- A Datum as the type has it. -/
def ElemType.Canonical (ty : ElemType) (d : BitVec 64) : Prop := ty.datum (ty.bytes d) = d

theorem ElemType.size_cases (ty : ElemType) : ty.size = 4 ∨ ty.size = 8 := by
  cases ty <;> simp [ElemType.size]

@[simp] theorem ElemType.bytes_length (ty : ElemType) (d : BitVec 64) : (ty.bytes d).length = ty.size :=
  bytesOf_length _ _

/-- Nothing is lost between memory and Datum. -/
theorem ElemType.bytes_datum (ty : ElemType) {bytes : List Byte} (size : bytes.length = ty.size) :
    ty.bytes (ty.datum bytes) = bytes := by
  have small := wordOf_lt bytes
  have back := bytesOf_wordOf bytes
  rw [size] at small back
  cases ty with
  | int4 =>
    have small : wordOf bytes < 2 ^ 32 := small
    have low : ((BitVec.ofNat 32 (wordOf bytes)).signExtend 64).toNat % 256 ^ 4 = wordOf bytes := by
      have cut := congrArg BitVec.toNat (setWidth_signExtend (show 32 ≤ 64 by decide) (BitVec.ofNat 32 (wordOf bytes)))
      rw [BitVec.toNat_setWidth, BitVec.toNat_ofNat, Nat.mod_eq_of_lt small] at cut
      exact cut
    rw [ElemType.bytes, ElemType.datum, ← bytesOf_mod]
    change bytesOf 4 (_ % 256 ^ 4) = bytes
    rw [low]
    exact back
  | int8 =>
    have small : wordOf bytes < 2 ^ 64 := small
    rw [ElemType.bytes, ElemType.datum, BitVec.toNat_ofNat, Nat.mod_eq_of_lt small]
    exact back
  | float8 =>
    have small : wordOf bytes < 2 ^ 64 := small
    rw [ElemType.bytes, ElemType.datum, BitVec.toNat_ofNat, Nat.mod_eq_of_lt small]
    exact back

theorem ElemType.canonical_datum (ty : ElemType) {bytes : List Byte} (size : bytes.length = ty.size) :
    ty.Canonical (ty.datum bytes) := by
  rw [ElemType.Canonical, ty.bytes_datum size]

/-! ### Packed arrays -/

structure ArrayType where
  /-- `ARR_DIMS` and `ARR_LBOUND`. -/
  dims : List (BitVec 32 × BitVec 32)
  /-- `ARR_NULLBITMAP`, if `ARR_HASNULL`. -/
  bitmap : Option (List Byte)
  data : List Byte
  deriving DecidableEq, Repr

/-- Whether an element is there. -/
def notNull (bitmap : Option (List Byte)) (i : Nat) : Bool :=
  match bitmap with
  | none => true
  | some bytes => ((bytes[i / 8]?).getD 0).getLsbD (i % 8)

/-- The elements from number `i` on, when the values before them are gone. -/
def unpack (ty : ElemType) (bitmap : Option (List Byte)) : Nat → Nat → List Byte → List (Option (BitVec 64))
  | 0, _, _ => []
  | n + 1, i, data =>
    if notNull bitmap i then
      some (ty.datum (data.take ty.size)) :: unpack ty bitmap n (i + 1) (data.drop ty.size)
    else none :: unpack ty bitmap n (i + 1) data

namespace ArrayType

/-- `ArrayGetNItems`. -/
def items (arr : ArrayType) : Nat :=
  if arr.dims = [] then 0 else (arr.dims.map (·.1.toNat)).prod

def elements (ty : ElemType) (arr : ArrayType) : List (Option (BitVec 64)) :=
  unpack ty arr.bitmap arr.items 0 arr.data

def denote (ty : ElemType) (arr : ArrayType) : ArrayDatum :=
  match arr.dims with
  | [] => .empty
  | [d] => .flat d.2 (arr.elements ty)
  | _ => .multi (arr.dims.map fun d => (d.1.toNat, d.2)) (arr.elements ty)

/-- `MAXALIGN`. -/
def maxalign (n : Nat) : Nat := (n + 7) / 8 * 8

/-- `ARR_OVERHEAD_NONULLS` and `ARR_OVERHEAD_WITHNULLS`. -/
def overhead (ndim nitems : Nat) (hasnull : Bool) : Nat :=
  maxalign (16 + 8 * ndim + if hasnull then (nitems + 7) / 8 else 0)

def size (arr : ArrayType) : Nat :=
  overhead arr.dims.length arr.items arr.bitmap.isSome + arr.data.length

/-- The arrays that exist. A dimension is never empty, and a value fits into one
piece of memory. -/
structure WellFormed (ty : ElemType) (arr : ArrayType) : Prop where
  dims : ∀ d ∈ arr.dims, 0 < d.1.toInt ∧ d.2.toInt + d.1.toInt < 2 ^ 31
  items : arr.items ≤ maxArraySize
  bitmap : ∀ bytes, arr.bitmap = some bytes → bytes.length = (arr.items + 7) / 8
  data : arr.data.length = ty.size * ((arr.elements ty).filterMap id).length
  size : arr.size ≤ maxAllocSize

end ArrayType

/-- What an array variable stands for. -/
def denoteVar (ty : ElemType) : Option ArrayType → ArrayDatum
  | none => .null
  | some arr => arr.denote ty

def WellFormedVar (ty : ElemType) (var : Option ArrayType) : Prop :=
  ∀ arr, var = some arr → arr.WellFormed ty

/-! ### Packing -/

/-- The bits of a number, the lowest first. -/
def bitsOf : List Bool → Nat
  | [] => 0
  | b :: bs => b.toNat + 2 * bitsOf bs

/-- The bitmap of `CopyArrayEls`. -/
def packBitmap (elems : List (Option (BitVec 64))) : List Byte :=
  (List.range ((elems.length + 7) / 8)).map fun k =>
    BitVec.ofNat 8 (bitsOf (((elems.drop (8 * k)).take 8).map Option.isSome))

def packData (ty : ElemType) (elems : List (Option (BitVec 64))) : List Byte :=
  (elems.filterMap id).flatMap ty.bytes

/-- One dimension. -/
def pack (ty : ElemType) (bitmap : Bool) (lb : BitVec 32) (elems : List (Option (BitVec 64))) : ArrayType :=
  { dims := [(BitVec.ofNat 32 elems.length, lb)]
    bitmap := if bitmap then some (packBitmap elems) else none
    data := packData ty elems }

/-- A packed array that has to fit. -/
def packArray (ty : ElemType) (bitmap : Bool) (lb : BitVec 32) (elems : List (Option (BitVec 64))) :
    Except ArrayError ArrayType :=
  if maxArraySize < elems.length then .error .sizeExceeded
  else if 2 ^ 31 ≤ lb.toInt + elems.length then .error (.lowerBoundTooLarge lb)
  else if maxAllocSize < (pack ty bitmap lb elems).size then
    .error (.invalidAllocSize (pack ty bitmap lb elems).size)
  else .ok (pack ty bitmap lb elems)

/-- `construct_md_array` with one dimension. There is a bitmap only for NULLs. -/
def constructArray (ty : ElemType) (lb : BitVec 32) (elems : List (Option (BitVec 64))) :
    Except ArrayError ArrayType :=
  packArray ty (elems.any Option.isNone) lb elems

/-- `array_set_element` with one subscript. The result has a bitmap where it needs
one, and may have one elsewhere. -/
def setElement (ty : ElemType) (bitmap : Bool) (i : BitVec 32) (v : Option (BitVec 64))
    (var : Option ArrayType) : Except ArrayError ArrayType :=
  match arraySetElement i v (denoteVar ty var) with
  | .error err => .error err
  | .ok (.flat lb elems) => packArray ty (bitmap || elems.any Option.isNone) lb elems
  | .ok _ => .error .wrongSubscripts

section Pack

variable {ty : ElemType} {lb : BitVec 32} {elems : List (Option (BitVec 64))} {bitmap : Bool}

theorem bitsOf_lt (bs : List Bool) : bitsOf bs < 2 ^ bs.length := by
  induction bs with
  | nil => simp [bitsOf]
  | cons b bs ih =>
    have small : b.toNat ≤ 1 := Bool.toNat_le b
    simp only [bitsOf, List.length_cons, Nat.pow_succ]
    omega

theorem bitsOf_testBit (bs : List Bool) (j : Nat) : (bitsOf bs).testBit j = (bs[j]?).getD false := by
  induction bs generalizing j with
  | nil => simp [bitsOf]
  | cons b bs ih =>
    cases j with
    | zero => cases b <;> simp [bitsOf, Nat.testBit_zero]
    | succ j =>
      have half : (b.toNat + 2 * bitsOf bs) / 2 = bitsOf bs := by
        have small : b.toNat ≤ 1 := Bool.toNat_le b
        omega
      rw [bitsOf, Nat.testBit_succ, half, ih, List.getElem?_cons_succ]

/-- The bit of an element. -/
theorem notNull_packBitmap {i : Nat} (inside : i < elems.length) :
    notNull (some (packBitmap elems)) i = (elems[i]).isSome := by
  have byte : i / 8 < (elems.length + 7) / 8 := by omega
  have bit : 8 * (i / 8) + i % 8 = i := Nat.div_add_mod i 8
  simp only [notNull, packBitmap, List.getElem?_map, List.getElem?_range byte, Option.map_some, Option.getD_some,
    BitVec.getLsbD_ofNat, bitsOf_testBit, List.getElem?_take, List.getElem?_drop, bit,
    List.getElem?_eq_getElem inside]
  have low : i % 8 < 8 := Nat.mod_lt _ (by decide)
  simp [low]

theorem packData_length : (packData ty elems).length = ty.size * (elems.filterMap id).length := by
  unfold packData
  induction elems.filterMap id with
  | nil => simp
  | cons d rest ih =>
    rw [List.flatMap_cons, List.length_append, ih, ElemType.bytes_length, List.length_cons, Nat.mul_succ,
      Nat.add_comm]

/-- Which elements are there is up to the bitmap. -/
theorem unpack_isSome (ty : ElemType) (bitmap : Option (List Byte)) (n i : Nat) (data : List Byte) :
    (unpack ty bitmap n i data).map Option.isSome = (List.range' i n).map (notNull bitmap) := by
  induction n generalizing i data with
  | zero => rfl
  | succ n ih =>
    rw [unpack, List.range'_succ, List.map_cons]
    split
    · rw [List.map_cons, ih]
      simp [*]
    · rw [List.map_cons, ih]
      simp [*]

theorem unpack_length (ty : ElemType) (bitmap : Option (List Byte)) (n i : Nat) (data : List Byte) :
    (unpack ty bitmap n i data).length = n := by
  have same := congrArg List.length (unpack_isSome ty bitmap n i data)
  simpa using same

theorem count_isSome (elems : List (Option (BitVec 64))) :
    (elems.filterMap id).length = (elems.map Option.isSome).count true := by
  induction elems with
  | nil => rfl
  | cons e rest ih =>
    cases e with
    | none =>
      rw [List.filterMap_cons_none (show id none = none from rfl), ih]
      simp
    | some d =>
      rw [List.filterMap_cons_some (show id (some d) = some d from rfl), List.length_cons, ih]
      simp

/-- Every value is that of an element in memory. -/
theorem unpack_canonical {bitmap : Option (List Byte)} {n i : Nat} {data : List Byte}
    (enough : ty.size * ((unpack ty bitmap n i data).filterMap id).length ≤ data.length) :
    ∀ d, some d ∈ unpack ty bitmap n i data → ty.Canonical d := by
  induction n generalizing i data with
  | zero => simp [unpack]
  | succ n ih =>
    intro d member
    rw [unpack] at enough member
    split at member
    · rename_i there
      simp only [there, if_true, List.filterMap_cons_some (show id (some _) = some _ from rfl),
        List.length_cons, Nat.mul_succ] at enough
      rcases List.mem_cons.mp member with here | later
      · cases here
        exact ty.canonical_datum (by rw [List.length_take]; omega)
      · exact ih (by rw [List.length_drop]; omega) d later
    · rename_i absent
      simp only [absent, if_false, Bool.false_eq_true, List.filterMap_cons_none (show id none = none from rfl)] at enough
      rcases List.mem_cons.mp member with here | later
      · cases here
      · exact ih enough d later

theorem packData_cons_some (ty : ElemType) (d : BitVec 64) (elems : List (Option (BitVec 64))) :
    packData ty (some d :: elems) = ty.bytes d ++ packData ty elems := rfl

theorem packData_cons_none (ty : ElemType) (elems : List (Option (BitVec 64))) :
    packData ty (none :: elems) = packData ty elems := rfl

/-- The elements that were packed, if every bit is right. -/
theorem unpack_packData {bits : Option (List Byte)} (canonical : ∀ d, some d ∈ elems → ty.Canonical d) {i : Nat}
    (right : ∀ k (inside : k < elems.length), notNull bits (i + k) = (elems[k]).isSome) :
    unpack ty bits elems.length i (packData ty elems) = elems := by
  induction elems generalizing i with
  | nil => rfl
  | cons e rest ih =>
    have first := right 0 (by simp)
    have others : unpack ty bits rest.length (i + 1) (packData ty rest) = rest := by
      refine ih (fun d member => canonical d (List.mem_cons_of_mem _ member)) fun k inside => ?_
      have later := right (k + 1) (by simpa using inside)
      rw [show i + 1 + k = i + (k + 1) by omega]
      simpa using later
    rw [List.length_cons, unpack]
    cases e with
    | none =>
      simp only [Nat.add_zero, List.getElem_cons_zero, Option.isSome_none] at first
      rw [first, if_neg (by simp), packData_cons_none, others]
    | some d =>
      simp only [Nat.add_zero, List.getElem_cons_zero, Option.isSome_some] at first
      have value : ty.datum (ty.bytes d) = d := canonical d (List.mem_cons_self ..)
      rw [first, if_pos rfl, packData_cons_some, List.take_left' (ty.bytes_length d), value,
        List.drop_left' (ty.bytes_length d), others]

/-- The bits of a packed array. -/
theorem notNull_pack (needed : bitmap = true ∨ none ∉ elems) (k : Nat) (inside : k < elems.length) :
    notNull (pack ty bitmap lb elems).bitmap k = (elems[k]).isSome := by
  cases bitmap with
  | true => exact notNull_packBitmap inside
  | false =>
    have there : elems[k] ≠ none := by
      intro absent
      have member : none ∈ elems := absent ▸ List.getElem_mem inside
      rcases needed with absurd | none
      · cases absurd
      · exact none member
    exact (Option.isSome_iff_ne_none.mpr there).symm

theorem pack_items (small : elems.length ≤ maxArraySize) : (pack ty bitmap lb elems).items = elems.length := by
  unfold maxArraySize at small
  simp only [ArrayType.items, pack, List.map_cons, List.map_nil, List.prod_cons, List.prod_nil, Nat.mul_one,
    reduceCtorEq, if_false, BitVec.toNat_ofNat]
  omega

theorem pack_elements (small : elems.length ≤ maxArraySize) (needed : bitmap = true ∨ none ∉ elems)
    (canonical : ∀ d, some d ∈ elems → ty.Canonical d) : (pack ty bitmap lb elems).elements ty = elems := by
  rw [ArrayType.elements, pack_items small]
  refine unpack_packData canonical fun k inside => ?_
  rw [Nat.zero_add]
  exact notNull_pack needed k inside

theorem pack_denote (small : elems.length ≤ maxArraySize) (needed : bitmap = true ∨ none ∉ elems)
    (canonical : ∀ d, some d ∈ elems → ty.Canonical d) :
    (pack ty bitmap lb elems).denote ty = .flat lb elems := by
  change ArrayDatum.flat lb ((pack ty bitmap lb elems).elements ty) = _
  rw [pack_elements small needed canonical]

/-- As many values as elements that are there. -/
theorem pack_count (small : elems.length ≤ maxArraySize) (needed : bitmap = true ∨ none ∉ elems) :
    (((pack ty bitmap lb elems).elements ty).filterMap id).length = (elems.filterMap id).length := by
  rw [count_isSome, count_isSome, ArrayType.elements, unpack_isSome, pack_items small]
  congr 1
  refine List.ext_getElem (by simp) fun k inside _ => ?_
  simp only [List.length_map, List.length_range'] at inside
  rw [List.getElem_map, List.getElem_map, List.getElem_range', Nat.zero_add, Nat.one_mul]
  exact notNull_pack needed k inside

/-- What is packed is an array. -/
theorem packArray_wellFormed {arr : ArrayType} (nonempty : 0 < elems.length)
    (needed : bitmap = true ∨ none ∉ elems) (packed : packArray ty bitmap lb elems = .ok arr) :
    arr.WellFormed ty := by
  unfold packArray at packed
  split at packed
  · cases packed
  rename_i few
  split at packed
  · cases packed
  rename_i bound
  split at packed
  · cases packed
  rename_i fits
  cases packed
  have small : elems.length ≤ maxArraySize := by omega
  have length : (BitVec.ofNat 32 elems.length).toInt = elems.length := by
    unfold maxArraySize at small
    rw [BitVec.toInt_ofNat', Int.bmod_eq_of_le (by omega) (by omega)]
  refine ⟨?_, ?_, ?_, ?_, by omega⟩
  · intro d member
    obtain rfl : d = (BitVec.ofNat 32 elems.length, lb) := by simpa [pack] using member
    rw [length]
    simp only
    omega
  · rw [pack_items small]
    exact small
  · intro bytes there
    rw [pack_items small]
    unfold pack at there
    split at there
    · cases there
      simp [packBitmap]
    · cases there
  · rw [pack_count small needed]
    exact packData_length

end Pack

end Uplpgsql
