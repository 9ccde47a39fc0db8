import Uplpgsql.Arrays.Native
import Uplpgsql.Expr.Nulls

/-!
# Writing an element of a native array

The mirror keeps denoting the array that `array_set_element` gives, on all three
paths. Two things can go wrong. An append does not look at the greatest int4, where
PostgreSQL has no subscript left for the end of the array. And the slow path starts
from the variable if the mirror has no elements, whatever it holds.
-/

namespace Uplpgsql

open Lib.Words

variable {ε : Type}

/-! ### What the buffers hold -/

section Buffers

/-- The NULL flag of a slot. -/
def Mirror.flag (m : Mirror) (k : Nat) : Bool := (m.nulls.bind (·[k]?)).getD false

/-- The element in a slot. -/
def Mirror.elem (m : Mirror) (k : Nat) : Option (BitVec 64) :=
  if m.flag k then none else (m.data.getD [])[k]?

/-- A vector of elements, possibly none. -/
structure Mirror.Holds (m : Mirror) (elems : List (Option (BitVec 64))) : Prop where
  len : m.len.toInt = elems.length
  data : elems.length ≤ (m.data.getD []).length
  flags : ∀ flags, m.nulls = some flags → elems.length ≤ flags.length
  elem : ∀ k < elems.length, elems[k]? = some (m.elem k)

/-- The buffers are as long as the capacity says, which is enough. -/
structure NativeArray.Allocated (s : NativeArray) : Prop where
  len : s.len.toInt ≤ s.cap.toInt
  data : s.cap.toInt ≤ (s.data.getD []).length
  flags : ∀ flags, s.nulls = some flags → s.cap.toInt ≤ flags.length

variable {m : Mirror} {lb : BitVec 32} {elems : List (Option (BitVec 64))}

theorem Mirror.denotes_flat_iff :
    m.Denotes (.flat lb elems) ↔
      m.lb = lb ∧ 0 < elems.length ∧ lb.toInt + elems.length ≤ 2 ^ 31 ∧ m.Holds elems := by
  constructor
  · rintro ⟨bound, pos, len, fits, buf, data, long, flags, denoted⟩
    refine ⟨bound, pos, fits, len, by simpa [data] using long, flags, fun k inside => ?_⟩
    rw [denoted k inside, Mirror.elem, Mirror.flag]
    split
    · rfl
    · simp [data, List.getElem?_eq_getElem (Nat.lt_of_lt_of_le inside long)]
  · rintro ⟨bound, pos, fits, len, long, flags, elem⟩
    cases data : m.data with
    | none =>
      simp only [data, Option.getD_none, List.length_nil] at long
      omega
    | some buf =>
      simp only [data, Option.getD_some] at long
      refine ⟨bound, pos, len, fits, buf, data, long, flags, fun k inside => ?_⟩
      rw [elem k inside, Mirror.elem, Mirror.flag]
      split
      · rfl
      · simp [data, List.getElem?_eq_getElem (Nat.lt_of_lt_of_le inside long)]

/-- Slots that agree up to the length hold the same. -/
theorem Mirror.Holds.congr {m' : Mirror} (holds : m.Holds elems) (len : m'.len = m.len)
    (data : elems.length ≤ (m'.data.getD []).length)
    (flags : ∀ flags, m'.nulls = some flags → elems.length ≤ flags.length)
    (same : ∀ k < elems.length, m'.elem k = m.elem k) : m'.Holds elems :=
  ⟨by rw [len]; exact holds.len, data, flags, fun k inside => by rw [same k inside]; exact holds.elem k inside⟩

/-- Marshalling reads all elements. -/
theorem Mirror.Holds.elements {buf : List (BitVec 64)} (holds : m.Holds elems) (data : m.data = some buf) :
    (m.elements buf : Native ε _) = .ok elems := by
  have long := holds.data
  have elem := holds.elem
  simp only [data, Option.getD_some] at long
  unfold Mirror.elements
  rw [holds.len, Int.toNat_natCast, if_neg (by omega)]
  cases nulls : m.nulls with
  | none =>
    refine congrArg Native.ok (List.ext_getElem? fun k => ?_)
    by_cases inside : k < elems.length
    · have there : k < buf.length := Nat.lt_of_lt_of_le inside long
      rw [elem k inside, Mirror.elem, Mirror.flag, nulls]
      simp [data, inside, there]
    · rw [List.getElem?_eq_none (Nat.le_of_not_lt inside), List.getElem?_eq_none]
      simp only [List.length_map, List.length_take]
      omega
  | some flags =>
    have enough := holds.flags flags nulls
    simp only [if_neg (Nat.not_lt.mpr enough)]
    refine congrArg Native.ok (List.ext_getElem? fun k => ?_)
    by_cases inside : k < elems.length
    · have there : k < buf.length := Nat.lt_of_lt_of_le inside long
      have flagged : k < flags.length := Nat.lt_of_lt_of_le inside enough
      rw [elem k inside, Mirror.elem, Mirror.flag, nulls, List.getElem?_zipWith]
      simp [data, inside, there, flagged]
    · rw [List.getElem?_eq_none (Nat.le_of_not_lt inside), List.getElem?_eq_none]
      simp only [List.length_zipWith, List.length_take]
      omega

end Buffers

/-! ### Storing an element -/

section Store

variable {s : NativeArray} {k : Nat} {v : BitVec 64} {elems : List (Option (BitVec 64))}

theorem storeAt_inside {α : Type} {xs : List α} {idx0 : Int} {x : α} (index : idx0 = k) (inside : k < xs.length) :
    (storeAt (some xs) idx0 x : Native ε _) = .ok (xs.set k x) := by
  subst index
  rw [storeAt, if_pos ⟨by omega, by omega⟩, Int.toNat_natCast]

/-- With a value in one slot. -/
def NativeArray.stored (s : NativeArray) (k : Nat) (v : BitVec 64) : NativeArray :=
  { s with data := s.data.map (·.set k v), nulls := s.nulls.map (·.set k false) }

@[simp] theorem NativeArray.stored_len : (s.stored k v).len = s.len := rfl
@[simp] theorem NativeArray.stored_cap : (s.stored k v).cap = s.cap := rfl
@[simp] theorem NativeArray.stored_data : (s.stored k v).data = s.data.map (·.set k v) := rfl
@[simp] theorem NativeArray.stored_nulls : (s.stored k v).nulls = s.nulls.map (·.set k false) := rfl

theorem NativeArray.Allocated.stored (alloc : s.Allocated) (k : Nat) (v : BitVec 64) :
    (s.stored k v).Allocated := by
  refine ⟨alloc.len, ?_, ?_⟩
  · have data := alloc.data
    cases there : s.data <;> simpa [NativeArray.stored, there] using data
  · intro flags nulls
    obtain ⟨old, there, rfl⟩ := Option.map_eq_some_iff.mp nulls
    rw [List.length_set]
    exact alloc.flags old there

theorem NativeArray.storeElem_eq (alloc : s.Allocated) {idx0 : BitVec 32} (index : idx0.toInt = k)
    (room : (k : Int) < s.cap.toInt) : s.storeElem idx0 v = .ok (s.stored k v) := by
  have data := alloc.data
  unfold NativeArray.storeElem NativeArray.stored
  cases there : s.data with
  | none =>
    simp only [there, Option.getD_none, List.length_nil] at data
    omega
  | some buf =>
    simp only [there, Option.getD_some] at data
    rw [storeAt_inside index (by omega), Native.ok_bind]
    cases nulls : s.nulls with
    | none => rfl
    | some flags =>
      have enough := alloc.flags flags nulls
      simp only [storeAt_inside index (show k < flags.length by omega), Native.ok_bind]
      rfl

theorem NativeArray.stored_flag (j : Nat) : (s.stored k v).flag j = if j = k then false else s.flag j := by
  simp only [Mirror.flag, NativeArray.stored_nulls]
  cases s.nulls with
  | none => simp
  | some flags =>
    by_cases same : j = k
    · subst same
      simp only [Option.map_some, Option.bind_some, List.getElem?_set_self', if_true]
      cases flags[j]? <;> rfl
    · simp [same, List.getElem?_set_ne fun eq => same eq.symm]

theorem NativeArray.stored_elem (alloc : s.Allocated) (room : (k : Int) < s.cap.toInt) (j : Nat) :
    (s.stored k v).elem j = if j = k then some v else s.elem j := by
  have data := alloc.data
  simp only [Mirror.elem, NativeArray.stored_flag, NativeArray.stored_data]
  by_cases same : j = k
  · subst same
    cases there : s.data with
    | none =>
      simp only [there, Option.getD_none, List.length_nil] at data
      omega
    | some buf =>
      simp only [there, Option.getD_some] at data
      simp [List.getElem?_set_self (show j < buf.length by omega)]
  · have other : k ≠ j := fun eq => same eq.symm
    simp only [same, if_false]
    cases s.data <;> simp [List.getElem?_set_ne other]

/-- An element in range gets a value. -/
theorem Mirror.Holds.stored (holds : s.Holds elems) (alloc : s.Allocated) (inside : k < elems.length) :
    (s.stored k v).Holds (elems.set k (some v)) := by
  have len := holds.len
  have room : (k : Int) < s.cap.toInt := by
    have enough := alloc.len
    omega
  have alloc' := alloc.stored k v
  refine ⟨by simpa using len, ?_, ?_, ?_⟩
  · have data := alloc'.data
    have enough := alloc'.len
    rw [List.length_set]
    rw [NativeArray.stored_len] at enough
    omega
  · intro flags nulls
    have long := alloc'.flags flags nulls
    have enough := alloc'.len
    rw [List.length_set]
    rw [NativeArray.stored_len] at enough
    omega
  · intro j there
    rw [List.length_set] at there
    rw [NativeArray.stored_elem alloc room, List.getElem?_set]
    by_cases same : k = j
    · simp [same, there]
    · rw [if_neg same, if_neg fun eq => same eq.symm]
      exact holds.elem j there

/-- The slot after the last element gets a value, and the length grows. -/
theorem Mirror.Holds.appended (holds : s.Holds elems) (alloc : s.Allocated) (room : s.len.toInt < s.cap.toInt) :
    ({ s.stored elems.length v with len := s.len + 1 } : NativeArray).Holds (elems ++ [some v]) ∧
      ({ s.stored elems.length v with len := s.len + 1 } : NativeArray).Allocated := by
  have len := holds.len
  have wide := toInt_fits s.cap
  have alloc' := alloc.stored elems.length v
  have one : (1 : BitVec 32).toInt = 1 := rfl
  have next : (s.len + 1).toInt = elems.length + 1 := by
    rw [toInt_add_of_fits, len, one]
    simp only [Fits, len, one] at *
    omega
  refine ⟨⟨?_, ?_, ?_, ?_⟩, ⟨?_, alloc'.data, alloc'.flags⟩⟩
  · simpa using next
  · have data := alloc'.data
    rw [NativeArray.stored_cap] at data
    simp only [List.length_append, List.length_singleton]
    omega
  · intro flags nulls
    have long := alloc'.flags flags nulls
    rw [NativeArray.stored_cap] at long
    simp only [List.length_append, List.length_singleton]
    omega
  · intro j there
    have elem : (s.stored elems.length v).elem j = if j = elems.length then some v else s.elem j :=
      NativeArray.stored_elem alloc (by omega) j
    change _ = some ((s.stored elems.length v).elem j)
    rw [elem]
    simp only [List.length_append, List.length_singleton] at there
    by_cases last : j = elems.length
    · simp [last]
    · rw [if_neg last, List.getElem?_append_left (by omega)]
      exact holds.elem j (by omega)
  · change (s.len + 1).toInt ≤ s.cap.toInt
    omega

end Store

/-! ### Growing the buffers -/

section Reserve

variable {s : NativeArray} {v : BitVec 64} {elems : List (Option (BitVec 64))}

theorem toInt_maxArraySize : (BitVec.ofNat 32 maxArraySize).toInt = maxArraySize := rfl

/-- The capacity that is reserved has room for one more. -/
theorem newCapacity_room {cap len : BitVec 32} (nonneg : 0 ≤ len.toInt) (small : len.toInt < maxArraySize) :
    len.toInt < (newCapacity cap len).toInt ∧ (newCapacity cap len).toInt ≤ maxArraySize := by
  have zero : (0 : BitVec 32).toInt = 0 := rfl
  have one : (1 : BitVec 32).toInt = 1 := rfl
  have eight : (8 : BitVec 32).toInt = 8 := rfl
  have next : (len + 1).toInt = len.toInt + 1 := by
    rw [toInt_add_of_fits, one]
    simp only [Fits, one, maxArraySize] at *
    omega
  simp only [newCapacity, BitVec.slt, BitVec.sle, decide_eq_true_eq, zero]
  -- Twice the capacity may still be too large.
  generalize (if 0 < cap.toInt then cap * 2 else 8) = doubled
  have enough : len.toInt < (if doubled.toInt ≤ len.toInt then len + 1 else doubled).toInt := by
    split <;> omega
  generalize (if doubled.toInt ≤ len.toInt then len + 1 else doubled) = newcap at enough ⊢
  rw [toInt_maxArraySize]
  split
  · rw [toInt_maxArraySize]
    omega
  · omega

theorem resize_length {α : Type} (n : Nat) (fresh : α) (xs : List α) : (resize n fresh xs).length = n := by
  simp only [resize, List.length_append, List.length_take, List.length_replicate]
  omega

theorem resize_getElem {α : Type} {n k : Nat} {fresh : α} {xs : List α} (kept : k < n) (inside : k < xs.length) :
    (resize n fresh xs)[k]? = xs[k]? := by
  rw [resize, List.getElem?_append_left (by simp only [List.length_take]; omega), List.getElem?_take,
    if_pos kept]

/-- The buffers have grown, and hold what they held. -/
structure NativeArray.Grown (s s' : NativeArray) (elems : List (Option (BitVec 64))) : Prop where
  len : s'.len = s.len
  lb : s'.lb = s.lb
  var : s'.var = s.var
  room : s'.len.toInt < s'.cap.toInt
  alloc : s'.Allocated
  holds : s'.Holds elems
  size : s'.cap.toInt ≤ max s.cap.toInt maxArraySize

/-- Growing fails where PostgreSQL's limit is. -/
theorem NativeArray.reserve_cases (alloc : s.Allocated) (holds : s.Holds elems) :
    s.reserve = .raise .sizeExceeded ∧ maxArraySize ≤ elems.length ∨
      ∃ s', s.reserve = .ok s' ∧ s.Grown s' elems := by
  have len := holds.len
  have enough := alloc.len
  unfold NativeArray.reserve
  simp only [BitVec.slt, BitVec.sle, decide_eq_true_eq, toInt_maxArraySize, len]
  by_cases room : (elems.length : Int) < s.cap.toInt
  -- There is room already.
  · rw [if_pos room]
    exact .inr ⟨s, rfl, rfl, rfl, rfl, by omega, alloc, holds, by omega⟩
  · rw [if_neg room]
    -- A full array of the greatest size cannot grow.
    by_cases limit : maxArraySize ≤ elems.length
    · rw [if_pos (by omega)]
      exact .inl ⟨rfl, limit⟩
    · rw [if_neg (by omega)]
      obtain ⟨more, most⟩ : s.len.toInt < (newCapacity s.cap s.len).toInt ∧
          (newCapacity s.cap s.len).toInt ≤ maxArraySize :=
        newCapacity_room (by omega) (by omega)
      generalize newCapacity s.cap s.len = newcap at more most
      have data := holds.data
      have flags := holds.flags
      refine .inr ⟨_, rfl, rfl, rfl, rfl, more, ⟨?_, ?_, ?_⟩, ?_, ?_⟩
      · simp only
        omega
      · simp only [Option.getD_some, resize_length]
        omega
      · intro flags nulls
        obtain ⟨old, there, rfl⟩ := Option.map_eq_some_iff.mp nulls
        simp only [List.length_append, List.length_take, resize_length, List.length_replicate]
        omega
      · refine holds.congr rfl ?_ ?_ fun k inside => ?_
        · simp only [Option.getD_some, resize_length]
          omega
        · intro flags nulls
          obtain ⟨old, there, rfl⟩ := Option.map_eq_some_iff.mp nulls
          simp only [List.length_append, List.length_take, resize_length, List.length_replicate]
          omega
        -- Below the length the flags are the old ones; the new ones stand behind it.
        · have flag : ∀ m : Mirror, m.nulls = s.nulls.map (fun flags =>
              (resize newcap.toInt.toNat false flags).take elems.length ++
                List.replicate (newcap.toInt.toNat - elems.length) false) → m.flag k = s.flag k := by
            intro m same
            simp only [Mirror.flag, same]
            cases nulls : s.nulls with
            | none => rfl
            | some old =>
              have long := flags old nulls
              simp only [Option.map_some, Option.bind_some]
              rw [List.getElem?_append_left (by simp only [List.length_take, resize_length]; omega),
                List.getElem?_take, if_pos inside, resize_getElem (by omega) (by omega)]
          simp only [Mirror.elem]
          rw [flag _ (by simp)]
          congr 1
          simp only [Option.getD_some, Int.toNat_natCast]
          split
          · rw [resize_getElem (by omega) (by omega)]
          · rw [resize_getElem (by omega) (by simp only [List.length_take]; omega), List.getElem?_take,
              if_pos inside]
      · simp only
        omega

theorem NativeArray.grow_cases (alloc : s.Allocated) (holds : s.Holds elems) :
    s.grow = .raise .sizeExceeded ∧ maxArraySize ≤ elems.length ∨ ∃ s', s.grow = .ok s' ∧ s.Grown s' elems := by
  unfold NativeArray.grow
  by_cases full : s.cap.sle s.len = true
  · rw [if_pos full]
    exact NativeArray.reserve_cases alloc holds
  · have room : s.len.toInt < s.cap.toInt := by
      simpa [BitVec.sle] using full
    rw [if_neg full]
    exact .inr ⟨s, rfl, rfl, rfl, rfl, room, alloc, holds, by omega⟩

/-- An append is one more element, up to PostgreSQL's limit. -/
theorem NativeArray.append_cases (alloc : s.Allocated) (holds : s.Holds elems) :
    s.append v = .raise .sizeExceeded ∧ maxArraySize ≤ elems.length ∨
      ∃ s', s.append v = .ok s' ∧ s'.lb = s.lb ∧ s'.var = s.var ∧ s'.Allocated ∧ s'.Holds (elems ++ [some v]) ∧
        s'.cap.toInt ≤ max s.cap.toInt maxArraySize := by
  unfold NativeArray.append
  rcases NativeArray.grow_cases alloc holds with ⟨raises, limit⟩ | ⟨s', grows, grown⟩
  · rw [raises, Native.raise_bind]
    exact .inl ⟨rfl, limit⟩
  · have len := grown.holds.len
    have room := grown.room
    have stored : s'.storeElem s'.len v = .ok (s'.stored elems.length v) :=
      NativeArray.storeElem_eq grown.alloc len (by omega)
    obtain ⟨appended, allocated⟩ := grown.holds.appended (v := v) grown.alloc room
    rw [grows, Native.ok_bind, ← grown.len, stored, Native.ok_bind]
    exact .inr ⟨_, rfl, grown.lb, grown.var, allocated, appended, grown.size⟩

end Reserve

/-! ### Through the variable -/

section Slow

variable {s : NativeArray} {a : ArrayDatum} {i lb : BitVec 32} {elems : List (Option (BitVec 64))}
  {v : Option (BitVec 64)}

/-- A native array whose mirror is that of an array. What its variable holds is
another matter. -/
structure NativeArray.Denoting (s : NativeArray) (a : ArrayDatum) : Prop where
  mirror : s.Denotes a
  valid : a.Valid
  alloc : s.Allocated
  size : s.cap.toInt ≤ maxArraySize
  var : s.var.Valid

theorem nativeArrayFromDatum_holds (bitmap : Bool) (lb : BitVec 32) (nonempty : 0 < elems.length)
    (small : elems.length ≤ maxArraySize) : (nativeArrayFromDatum bitmap (.flat lb elems)).Holds elems := by
  have some : elems ≠ [] := List.ne_nil_of_length_pos nonempty
  refine ⟨?_, ?_, ?_, fun k inside => ?_⟩
  · unfold maxArraySize at small
    change (BitVec.ofNat 32 elems.length).toInt = _
    rw [BitVec.toInt_ofNat', Int.bmod_eq_of_le (by omega) (by omega)]
  · simp [nativeArrayFromDatum, some]
  · intro flags nulls
    simp only [nativeArrayFromDatum] at nulls
    split at nulls
    · cases nulls
      simp
    · cases nulls
  · have data : ((nativeArrayFromDatum bitmap (.flat lb elems)).data.getD [])[k]? = elems[k].getD 0 := by
      simp [nativeArrayFromDatum, some, inside]
    rw [Mirror.elem, data, Mirror.flag]
    simp only [nativeArrayFromDatum]
    rw [List.getElem?_eq_getElem inside]
    by_cases bits : elems ≠ [] ∧ (bitmap = true ∨ none ∈ elems)
    · simp only [if_pos bits, Option.bind_some, List.getElem?_map, List.getElem?_eq_getElem inside]
      cases elems[k] <;> simp
    · simp only [if_neg bits, Option.bind_none]
      cases here : elems[k] with
      | none => exact absurd ⟨some, .inr (here ▸ List.getElem_mem inside)⟩ bits
      | some d => simp

theorem NativeArray.refresh_denoting (valid : s.var.Valid) (bitmap : Bool) :
    (s.refresh bitmap).Denoting s.var := by
  cases var : s.var with
  | null =>
    refine ⟨?_, trivial, ⟨?_, ?_, ?_⟩, ?_, ?_⟩ <;> simp [refresh, var, nativeArrayFromDatum, Mirror.Denotes,
      ArrayDatum.Valid, maxArraySize]
  | empty =>
    refine ⟨?_, trivial, ⟨?_, ?_, ?_⟩, ?_, ?_⟩ <;> simp [refresh, var, nativeArrayFromDatum, Mirror.Denotes,
      ArrayDatum.Valid, maxArraySize]
  | multi dims elems =>
    refine ⟨?_, trivial, ⟨?_, ?_, ?_⟩, ?_, ?_⟩ <;> simp [refresh, var, nativeArrayFromDatum, Mirror.Denotes,
      ArrayDatum.Valid, maxArraySize]
  | flat lb elems =>
    rw [var] at valid
    obtain ⟨nonempty, small, bound⟩ := valid
    have holds := nativeArrayFromDatum_holds bitmap lb nonempty small
    have same : (s.refresh bitmap).toMirror = nativeArrayFromDatum bitmap (.flat lb elems) := by
      rw [refresh, var]
    have sameCap : (s.refresh bitmap).cap = (nativeArrayFromDatum bitmap (.flat lb elems)).len := by
      rw [refresh, var]
    have len := holds.len
    refine ⟨?_, ⟨nonempty, small, bound⟩, ⟨?_, ?_, ?_⟩, ?_, ?_⟩
    · rw [same, Mirror.denotes_flat_iff]
      exact ⟨rfl, nonempty, by omega, holds⟩
    · simp only [sameCap, same, Int.le_refl]
    · rw [sameCap, same, len]
      exact_mod_cast holds.data
    · intro flags nulls
      rw [same] at nulls
      rw [sameCap, len]
      exact_mod_cast holds.flags flags nulls
    · rw [sameCap, len]
      exact_mod_cast small
    · rw [refresh, var]
      exact ⟨nonempty, small, bound⟩

theorem constructMdArray_flat {a : ArrayDatum} (built : constructMdArray lb elems = .ok a) :
    a = .flat lb elems ∧ elems.length ≤ maxArraySize ∧ lb.toInt + elems.length < 2 ^ 31 := by
  unfold constructMdArray at built
  split at built
  · cases built
  · split at built
    · cases built
    · cases built
      exact ⟨rfl, by omega, by omega⟩

theorem constructMdArray_valid (valid : (ArrayDatum.flat lb elems).Valid) :
    constructMdArray lb elems = .ok (.flat lb elems) := by
  obtain ⟨-, small, bound⟩ := valid
  rw [constructMdArray, if_neg (by omega), if_neg (by omega)]

theorem setElem_nonempty (lb : BitVec 32) (elems : List (Option (BitVec 64))) (nonempty : 0 < elems.length) :
    0 < (setElem i v lb elems).2.length := by
  unfold setElem
  split
  · simp
  · split
    · simpa using nonempty
    · simp only [List.length_append]
      omega

theorem arraySetElement_valid {a' : ArrayDatum} (valid : a.Valid) (set : arraySetElement i v a = .ok a') :
    (∃ lb elems, a' = .flat lb elems) ∧ a'.Valid := by
  cases a with
  | multi dims elems => cases set
  | null =>
    obtain ⟨rfl, small, bound⟩ := constructMdArray_flat set
    exact ⟨⟨_, _, rfl⟩, by simp, small, bound⟩
  | empty =>
    obtain ⟨rfl, small, bound⟩ := constructMdArray_flat set
    exact ⟨⟨_, _, rfl⟩, by simp, small, bound⟩
  | flat lb elems =>
    obtain ⟨rfl, small, bound⟩ := constructMdArray_flat set
    exact ⟨⟨_, _, rfl⟩, setElem_nonempty lb elems valid.1, small, bound⟩

/-- Marshalling gives the array if the mirror has elements. -/
theorem NativeArray.Denoting.toDatum_flat (denoting : s.Denoting (.flat lb elems)) :
    s.toDatum = .ok (.flat lb elems) := by
  obtain ⟨bound, nonempty, -, holds⟩ := Mirror.denotes_flat_iff.mp denoting.mirror
  have len := holds.len
  have long := holds.data
  unfold NativeArray.toDatum
  cases data : s.data with
  | none =>
    simp only [data, Option.getD_none, List.length_nil] at long
    omega
  | some buf =>
    have zero : (0 : BitVec 32).toInt = 0 := rfl
    have positive : ¬s.len.sle 0 = true := by
      simp only [BitVec.sle, decide_eq_true_eq, zero]
      omega
    simp only [if_neg positive, holds.elements data, Native.ok_bind, bound,
      constructMdArray_valid denoting.valid]

/-- Without elements the variable stays as it is. -/
theorem NativeArray.toDatum_short (short : s.len.toInt ≤ 0) : s.toDatum = .ok s.var := by
  have zero : (0 : BitVec 32).toInt = 0 := rfl
  unfold NativeArray.toDatum
  cases s.data with
  | none => rfl
  | some buf =>
    simp only
    rw [if_pos (by simpa [BitVec.sle, zero] using short)]

/-- A mirror with elements is the mirror of one array. -/
theorem Mirror.Denotes.unique {m : Mirror} {lb' : BitVec 32} {elems' : List (Option (BitVec 64))}
    (one : m.Denotes (.flat lb elems)) (other : m.Denotes (.flat lb' elems')) :
    ArrayDatum.flat lb elems = .flat lb' elems' := by
  obtain ⟨bound, -, -, holds⟩ := Mirror.denotes_flat_iff.mp one
  obtain ⟨bound', -, -, holds'⟩ := Mirror.denotes_flat_iff.mp other
  have len := holds.len
  have len' := holds'.len
  have same : elems = elems' := by
    apply List.ext_getElem?
    intro k
    by_cases inside : k < elems.length
    · rw [holds.elem k inside, holds'.elem k (by omega)]
    · rw [List.getElem?_eq_none (by omega), List.getElem?_eq_none (by omega)]
  rw [← bound, ← bound', same]

/-- The outcome of a write is that of an assignment to the array `a`. -/
def Mirrors (outcome : Native ArrayError Unit × NativeArray) (a : ArrayDatum) :
    Except ArrayError ArrayDatum → Prop
  | .ok a' => outcome.1 = .ok () ∧ outcome.2.Denoting a'
  | .error err => outcome.1 = .raise err ∧ outcome.2.Denoting a

/-- The slow path is right if and only if the variable it starts from is as good as
the array. -/
theorem slowWrite_mirrors_iff {var : ArrayDatum} (synced : s.toDatum = .ok var) (valid : var.Valid)
    (denoting : s.Denoting a) (bitmap : Bool) :
    Mirrors (s.slowWrite i v bitmap) a (arraySetElement i v a) ↔
      arraySetElement i v var = arraySetElement i v a := by
  unfold NativeArray.slowWrite
  simp only [synced]
  cases wrote : arraySetElement i v var with
  | error err =>
    have unchanged : ({ s with var := var } : NativeArray).Denoting a :=
      ⟨denoting.mirror, denoting.valid, ⟨denoting.alloc.len, denoting.alloc.data, denoting.alloc.flags⟩,
        denoting.size, valid⟩
    cases expected : arraySetElement i v a with
    | error err' =>
      simp only [Mirrors, Native.raise.injEq, Except.error.injEq]
      exact ⟨fun same => same.1, fun same => ⟨same, unchanged⟩⟩
    | ok a' => simp [Mirrors]
  | ok var' =>
    obtain ⟨⟨lb', elems', rfl⟩, valid'⟩ := arraySetElement_valid valid wrote
    have refreshed := NativeArray.refresh_denoting (s := { s with var := .flat lb' elems' }) valid' bitmap
    cases expected : arraySetElement i v a with
    | error err => simp [Mirrors]
    | ok a' =>
      obtain ⟨⟨lb, elems, rfl⟩, -⟩ := arraySetElement_valid denoting.valid expected
      simp only [Mirrors, true_and, Except.ok.injEq]
      constructor
      · intro same
        exact refreshed.mirror.unique same.mirror
      · intro same
        rw [← same]
        exact refreshed

/-- A new array comes out of an empty one, or of one with a single element in this
place. -/
theorem arraySetElement_eq_new_iff {var : ArrayDatum} (valid : var.Valid) :
    arraySetElement i v var = constructMdArray i [v] ↔
      var = .null ∨ var = .empty ∨ ∃ e, var = .flat i [e] := by
  have range := toInt_fits i
  simp only [Fits] at range
  cases var with
  | null => simp [arraySetElement]
  | empty => simp [arraySetElement]
  | multi dims elems =>
    simp only [arraySetElement, reduceCtorEq, exists_false, or_false, iff_false]
    unfold constructMdArray
    split
    · rintro ⟨⟩
    · split <;> rintro ⟨⟩
  | flat lb elems =>
    -- A vector grows by the write or keeps its length, so a new array needs length one.
    obtain ⟨nonempty, small, bound⟩ := valid
    simp only [arraySetElement, reduceCtorEq, false_or, ArrayDatum.flat.injEq]
    constructor
    · intro same
      by_cases fits : 2 ^ 31 ≤ i.toInt + 1
      · -- The only subscript without a successor: all arrays end before it.
        have fails : constructMdArray i [v] = .error (.lowerBoundTooLarge i) := by
          rw [constructMdArray, if_neg (by simp [maxArraySize]), if_pos (by simpa using fits)]
        rw [fails] at same
        unfold setElem at same
        rw [if_neg (by omega), if_neg (by omega)] at same
        unfold constructMdArray at same
        split at same
        · cases same
        · split at same
          · simp only [Except.error.injEq, ArrayError.lowerBoundTooLarge.injEq] at same
            subst same
            omega
          · cases same
      · have valid : (ArrayDatum.flat i [v]).Valid :=
          ⟨by simp, by simp [maxArraySize], by simp only [List.length_singleton]; omega⟩
        rw [constructMdArray_valid valid] at same
        obtain ⟨same, -, -⟩ := constructMdArray_flat same
        obtain ⟨lower, one⟩ := ArrayDatum.flat.inj same
        unfold setElem at lower one
        split at lower
        next before =>
          rw [if_pos before] at one
          have length := congrArg List.length one
          simp only [List.length_cons, List.length_append, List.length_nil] at length
          omega
        next notBefore =>
          rw [if_neg notBefore] at one
          split at lower
          next inside =>
            rw [if_pos inside] at one
            have length := congrArg List.length one
            simp only [List.length_set, List.length_singleton] at length
            obtain ⟨e, rfl⟩ := List.length_eq_one_iff.mp length.symm
            exact ⟨e, lower.symm, rfl⟩
          next after =>
            rw [if_neg after] at one
            have length := congrArg List.length one
            simp only [List.length_append, List.length_singleton] at length
            omega
    · rintro ⟨e, rfl, rfl⟩
      have inside : lb.toInt < lb.toInt + 1 := by omega
      simp [setElem, inside]

theorem arraySetElement_wrongSubscripts_iff {var : ArrayDatum} :
    arraySetElement i v var = .error .wrongSubscripts ↔ ∃ dims elems, var = .multi dims elems := by
  have never : ∀ lb elems, constructMdArray lb elems ≠ .error .wrongSubscripts := by
    intro lb elems
    unfold constructMdArray
    split
    · nofun
    · split <;> nofun
  cases var <;> simp [arraySetElement, never]

end Slow

/-! ### One write -/

section Step

variable {s : NativeArray} {a : ArrayDatum} {i lb : BitVec 32} {elems : List (Option (BitVec 64))} {v : BitVec 64}
  {w : Write}

/-- No append at the greatest int4; and where the mirror has no elements to marshal,
the variable is such that the slow path gets the same from it. -/
def Write.Faithful (w : Write) (s : NativeArray) (a : ArrayDatum) : Prop :=
  ∀ i, w.subscript = some i →
    match a with
    | .flat lb elems =>
      ¬(w.value ≠ none ∧ i.toInt = 2 ^ 31 - 1 ∧ lb.toInt + elems.length = i.toInt ∧
        elems.length < maxArraySize)
    | .multi _ _ => ∃ dims elems, s.var = .multi dims elems
    | _ => w.value ≠ none ∧ i = 1 ∨ s.var = .null ∨ s.var = .empty ∨ ∃ e, s.var = .flat i [e]

theorem NativeArray.Denoting.inRange_iff (denoting : s.Denoting (.flat lb elems)) :
    s.inRange i = true ↔ Within lb elems i := by
  have last := denoting.mirror.last
  obtain ⟨bound, -, -, holds⟩ := Mirror.denotes_flat_iff.mp denoting.mirror
  have zero : (0 : BitVec 32).toInt = 0 := rfl
  rw [bound] at last
  simp only [NativeArray.inRange, BitVec.sle, Bool.and_eq_true, decide_eq_true_eq, holds.len, bound, zero, last,
    Within]
  omega

theorem NativeArray.Denoting.isAppend_iff (denoting : s.Denoting (.flat lb elems)) :
    s.isAppend i = true ↔ i.toInt = lb.toInt + elems.length := by
  obtain ⟨bound, -, -, holds⟩ := Mirror.denotes_flat_iff.mp denoting.mirror
  obtain ⟨-, -, below⟩ := denoting.valid
  have len := holds.len
  have range := toInt_fits lb
  have zero : (0 : BitVec 32).toInt = 0 := rfl
  have next : (lb + s.len).toInt = lb.toInt + elems.length := by
    rw [toInt_add_of_fits, len]
    simp only [Fits, len] at *
    omega
  simp only [NativeArray.isAppend, BitVec.sle, Bool.and_eq_true, decide_eq_true_eq, beq_iff_eq, len, zero, bound]
  rw [← BitVec.toInt_inj, next]
  omega

/-- In range. -/
theorem store_mirrors (denoting : s.Denoting (.flat lb elems)) (within : Within lb elems i) :
    Mirrors (s.settle (s.storeElem (i - s.lb) v)) (.flat lb elems) (arraySetElement i (some v) (.flat lb elems)) := by
  obtain ⟨bound, nonempty, fits, holds⟩ := Mirror.denotes_flat_iff.mp denoting.mirror
  have len := holds.len
  have enough := denoting.alloc.len
  have wide := toInt_fits s.len
  simp only [Fits] at wide
  have idx0 := within.idx0 (by omega)
  unfold Within at within
  obtain ⟨k, index⟩ : ∃ k : Nat, i.toInt - lb.toInt = k := ⟨(i.toInt - lb.toInt).toNat, by omega⟩
  have inside : k < elems.length := by omega
  have set : setElem i (some v) lb elems = (lb, elems.set k (some v)) := by
    rw [setElem, if_neg (by omega), if_pos (by omega), index, Int.toNat_natCast]
  have valid : (ArrayDatum.flat lb (elems.set k (some v))).Valid := by
    simpa [ArrayDatum.Valid] using denoting.valid
  rw [arraySetElement, set, constructMdArray_valid valid,
    NativeArray.storeElem_eq denoting.alloc (by rw [bound, idx0, index]) (by omega)]
  refine ⟨rfl, ?_, valid, denoting.alloc.stored k v, denoting.size, denoting.var⟩
  refine Mirror.denotes_flat_iff.mpr ⟨bound, by simpa using nonempty, by simpa using fits, ?_⟩
  exact holds.stored denoting.alloc inside

/-- At the end. The first array an empty one becomes starts at 1. -/
theorem append_mirrors (denoting : s.Denoting a) (holds : s.Holds elems) (bound : s.lb = lb)
    (small : elems.length ≤ maxArraySize) :
    Mirrors (s.settle (s.append v)) a (constructMdArray lb (elems ++ [some v])) ↔
      (lb.toInt + elems.length + 1 < 2 ^ 31 ∨ elems.length = maxArraySize) := by
  have size := denoting.size
  have length : (elems ++ [some v]).length = elems.length + 1 := by simp
  rcases NativeArray.append_cases (v := v) denoting.alloc holds with
    ⟨raises, limit⟩ | ⟨s', appended, sameLb, sameVar, alloc', holds', size'⟩
  · have expected : constructMdArray lb (elems ++ [some v]) = .error .sizeExceeded := by
      rw [constructMdArray, if_pos (by omega)]
    rw [raises, expected]
    exact ⟨fun _ => .inr (by omega), fun _ => ⟨rfl, denoting⟩⟩
  · have fewer : elems.length < maxArraySize := by
      have enough := alloc'.len
      have len := holds'.len
      omega
    rw [appended]
    by_cases room : lb.toInt + elems.length + 1 < 2 ^ 31
    · have valid' : (ArrayDatum.flat lb (elems ++ [some v])).Valid := by
        refine ⟨?_, ?_, ?_⟩ <;> rw [length] <;> omega
      rw [constructMdArray_valid valid']
      refine ⟨fun _ => .inl room, fun _ => ⟨rfl, ?_, valid', alloc', ?_, sameVar ▸ denoting.var⟩⟩
      · exact Mirror.denotes_flat_iff.mpr ⟨sameLb.trans bound, by omega, by omega, holds'⟩
      · change s'.cap.toInt ≤ _
        omega
    · have expected : constructMdArray lb (elems ++ [some v]) = .error (.lowerBoundTooLarge lb) := by
        rw [constructMdArray, if_neg (by omega), if_pos (by omega)]
      rw [expected]
      constructor
      · intro wrong
        cases wrong.1
      · omega

theorem write_flat_iff (denoting : s.Denoting (.flat lb elems)) :
    Mirrors (writeElement s w) (.flat lb elems) (assignElement (.flat lb elems) w) ↔
      w.Faithful s (.flat lb elems) := by
  obtain ⟨bound, nonempty, fits, holds⟩ := Mirror.denotes_flat_iff.mp denoting.mirror
  obtain ⟨-, small, below⟩ := denoting.valid
  have slow (i : BitVec 32) (v : Option (BitVec 64)) : Mirrors (s.slowWrite i v w.bitmap) (.flat lb elems)
      (arraySetElement i v (.flat lb elems)) :=
    (slowWrite_mirrors_iff denoting.toDatum_flat denoting.valid denoting w.bitmap).mpr rfl
  unfold Write.Faithful writeElement assignElement
  cases w.subscript with
  | none => exact ⟨fun _ => nofun, fun _ => ⟨rfl, denoting⟩⟩
  | some i =>
    simp only [Option.some.injEq, forall_eq']
    cases w.value with
    | none => exact ⟨fun _ wrong => wrong.1 rfl, fun _ => slow i none⟩
    | some v =>
      simp only [ne_eq, reduceCtorEq, not_false_eq_true, true_and]
      by_cases within : Within lb elems i
      · rw [if_pos (denoting.inRange_iff.mpr within)]
        refine ⟨fun _ wrong => ?_, fun _ => store_mirrors denoting within⟩
        unfold Within at within
        omega
      · rw [if_neg fun inRange => within (denoting.inRange_iff.mp inRange)]
        by_cases atEnd : i.toInt = lb.toInt + elems.length
        · rw [if_pos (denoting.isAppend_iff.mpr atEnd)]
          have set : setElem i (some v) lb elems = (lb, elems ++ [some v]) := by
            have none : (i.toInt - lb.toInt - elems.length).toNat = 0 := by omega
            rw [setElem, if_neg (by omega), if_neg (by omega), none]
            rfl
          rw [arraySetElement, set, append_mirrors denoting holds bound small]
          omega
        · rw [if_neg fun isAppend => atEnd (denoting.isAppend_iff.mp isAppend)]
          exact ⟨fun _ wrong => atEnd wrong.2.1.symm, fun _ => slow i (some v)⟩

/-- An array without elements. -/
theorem write_blank_iff (denoting : s.Denoting a) (blank : a = .null ∨ a = .empty) :
    Mirrors (writeElement s w) a (assignElement a w) ↔ w.Faithful s a := by
  have denotes : s.len = 0 ∧ s.lb = 1 ∧ s.nulls = none := by
    rcases blank with rfl | rfl
    · exact denoting.mirror
    · exact denoting.mirror
  obtain ⟨len, bound, nulls⟩ := denotes
  have holds : s.Holds [] :=
    ⟨by rw [len]; rfl, by simp, fun flags some => by simp, fun k inside => absurd inside (by simp)⟩
  have new (i : BitVec 32) (v : Option (BitVec 64)) : arraySetElement i v a = constructMdArray i [v] := by
    rcases blank with rfl | rfl <;> rfl
  have slow (i : BitVec 32) (v : Option (BitVec 64)) :
      Mirrors (s.slowWrite i v w.bitmap) a (constructMdArray i [v]) ↔
        s.var = .null ∨ s.var = .empty ∨ ∃ e, s.var = .flat i [e] := by
    rw [← new, slowWrite_mirrors_iff (NativeArray.toDatum_short (by rw [len]; decide)) denoting.var denoting,
      new, arraySetElement_eq_new_iff denoting.var]
  have faithful : w.Faithful s a ↔ ∀ i, w.subscript = some i →
      w.value ≠ none ∧ i = 1 ∨ s.var = .null ∨ s.var = .empty ∨ ∃ e, s.var = .flat i [e] := by
    rcases blank with rfl | rfl <;> rfl
  rw [faithful]
  unfold writeElement assignElement
  cases w.subscript with
  | none => exact ⟨fun _ => nofun, fun _ => ⟨rfl, denoting⟩⟩
  | some i =>
    simp only [Option.some.injEq, forall_eq', new]
    cases w.value with
    | none => simp [slow]
    | some v =>
      have outside : s.inRange i = false := by
        have one : (1 : BitVec 32).toInt = 1 := rfl
        have zero : (1 + 0 - 1 : BitVec 32).toInt = 0 := rfl
        rw [NativeArray.inRange, len, bound]
        simp only [BitVec.sle, one, zero, Bool.and_eq_false_iff, decide_eq_false_iff_not]
        omega
      have append : s.isAppend i = (i == 1) := by
        rw [NativeArray.isAppend, len, bound]
        rfl
      simp only [ne_eq, reduceCtorEq, not_false_eq_true, true_and, outside, append, Bool.false_eq_true, if_false,
        beq_iff_eq]
      by_cases first : i = 1
      · subst first
        rw [if_pos rfl]
        refine ⟨fun _ => .inl rfl, fun _ => ?_⟩
        exact (append_mirrors denoting holds bound (by simp)).mpr (.inl (by decide))
      · rw [if_neg first, slow]
        exact ⟨.inr, fun either => either.resolve_left first⟩

theorem write_multi_iff {dims : List (Nat × BitVec 32)} (denoting : s.Denoting (.multi dims elems)) :
    Mirrors (writeElement s w) (.multi dims elems) (assignElement (.multi dims elems) w) ↔
      w.Faithful s (.multi dims elems) := by
  obtain ⟨len, -⟩ := denoting.mirror
  have slow (i : BitVec 32) (v : Option (BitVec 64)) :
      Mirrors (s.slowWrite i v w.bitmap) (.multi dims elems) (.error .wrongSubscripts) ↔
        ∃ dims elems, s.var = .multi dims elems := by
    have iff := slowWrite_mirrors_iff (i := i) (v := v)
      (NativeArray.toDatum_short (by rw [len]; decide)) denoting.var denoting w.bitmap
    exact iff.trans arraySetElement_wrongSubscripts_iff
  unfold Write.Faithful writeElement assignElement
  cases w.subscript with
  | none => exact ⟨fun _ => nofun, fun _ => ⟨rfl, denoting⟩⟩
  | some i =>
    simp only [Option.some.injEq, forall_eq', arraySetElement]
    cases w.value with
    | none => exact slow i none
    | some v =>
      have outside : s.inRange i = false := by
        rw [NativeArray.inRange, len]
        rfl
      have noAppend : s.isAppend i = false := by
        rw [NativeArray.isAppend, len]
        rfl
      simp only [outside, noAppend, Bool.false_eq_true, if_false]
      exact slow i (some v)

/-- A write is the assignment to the array, if and only if it is faithful. -/
theorem write_iff (denoting : s.Denoting a) (w : Write) :
    Mirrors (writeElement s w) a (assignElement a w) ↔ w.Faithful s a := by
  cases a with
  | null => exact write_blank_iff denoting (.inl rfl)
  | empty => exact write_blank_iff denoting (.inr rfl)
  | flat lb elems => exact write_flat_iff denoting
  | multi dims elems => exact write_multi_iff denoting

end Step

/-! ### Any sequence of writes -/

section Run

/-- Compiled code goes on after an error that is caught. -/
def runWrites (s : NativeArray) : List Write → List (Native ArrayError Unit) × NativeArray
  | [] => ([], s)
  | w :: ws =>
    let rest := runWrites (writeElement s w).2 ws
    ((writeElement s w).1 :: rest.1, rest.2)

/-- An error leaves the array as it is. -/
def afterAssign (a : ArrayDatum) (w : Write) : ArrayDatum :=
  match assignElement a w with
  | .ok a' => a'
  | .error _ => a

def assignOutcome (a : ArrayDatum) (w : Write) : Native ArrayError Unit :=
  match assignElement a w with
  | .ok _ => .ok ()
  | .error err => .raise err

def assignAll (a : ArrayDatum) : List Write → List (Native ArrayError Unit) × ArrayDatum
  | [] => ([], a)
  | w :: ws =>
    let rest := assignAll (afterAssign a w) ws
    (assignOutcome a w :: rest.1, rest.2)

/-- Every write of a run is faithful in the state it starts from. -/
def AllFaithful (s : NativeArray) (a : ArrayDatum) : List Write → Prop
  | [] => True
  | w :: ws => w.Faithful s a ∧ AllFaithful (writeElement s w).2 (afterAssign a w) ws

variable {s : NativeArray} {a : ArrayDatum}

theorem write_step (denoting : s.Denoting a) {w : Write} (faithful : w.Faithful s a) :
    (writeElement s w).1 = assignOutcome a w ∧ (writeElement s w).2.Denoting (afterAssign a w) := by
  have mirrors := (write_iff denoting w).mpr faithful
  unfold assignOutcome afterAssign
  cases assigned : assignElement a w with
  | ok a' =>
    rw [assigned] at mirrors
    exact mirrors
  | error err =>
    rw [assigned] at mirrors
    exact mirrors

theorem runWrites_eq {ws : List Write} (denoting : s.Denoting a) (faithful : AllFaithful s a ws) :
    (runWrites s ws).1 = (assignAll a ws).1 ∧ (runWrites s ws).2.Denoting (assignAll a ws).2 := by
  induction ws generalizing s a with
  | nil => exact ⟨rfl, denoting⟩
  | cons w ws ih =>
    obtain ⟨first, rest⟩ := faithful
    obtain ⟨outcome, denoting'⟩ := write_step denoting first
    obtain ⟨outcomes, final⟩ := ih denoting' rest
    exact ⟨by rw [runWrites, assignAll, outcome, outcomes], final⟩

end Run

/-- `a[1] := 5; a[3] := 7; a[NULL] := 9; a[2] := 6`, from NULL. -/
def someWrites : List Write :=
  [⟨some 1, some 5, false⟩, ⟨some 3, some 7, false⟩, ⟨none, some 9, false⟩, ⟨some 2, some 6, false⟩]

/-- `'[2147483646:2147483646]={1}'`, refreshed. -/
def nearTheEnd : NativeArray := (NativeArray.init (.flat 2147483646 [some 1])).refresh false

/-- `'{1,2}'`, after `a := array_fill(0, ARRAY[0])`. -/
def filledWithNothing : NativeArray := (arrayFill 4 ((NativeArray.init (.flat 1 [some 1, some 2])).refresh false) 0 0).2

end Uplpgsql
