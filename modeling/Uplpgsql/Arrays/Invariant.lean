import Uplpgsql.Arrays.Marshal

/-!
# The buffers of native arrays over whole runs

What holds of the six slots of every native array whatever compiled code did to it:
the buffers live, have room for the capacity and belong to one array alone, and
`is_heap` tells where the data is. So nothing is freed twice, nothing is used after
it was freed, and no buffer of the stack is freed or enlarged.
-/

namespace Uplpgsql

open Lib Lib.Words Lib.Heap

/-! ### Bytes with a value -/

section Written

variable {bytes new : List (Option Byte)} {n m k offset : Nat}

/-- The first `n` bytes have a value. -/
def Written (n : Nat) (bytes : List (Option Byte)) : Prop := ∀ k < n, ∃ byte, bytes[k]? = some (some byte)

theorem Written.mono (written : Written n bytes) (less : m ≤ n) : Written m bytes :=
  fun k below => written k (by omega)

theorem Written.length_le (written : Written n bytes) : n ≤ bytes.length := by
  by_contra short
  obtain ⟨byte, there⟩ := written bytes.length (by omega)
  simp at there

theorem Written.known (written : Written n bytes) : ∃ known : List Byte, bytes.take n = known.map some := by
  refine ⟨(bytes.take n).map (·.getD 0), List.ext_getElem? fun k => ?_⟩
  rw [List.map_map, List.getElem?_map, List.getElem?_take]
  split
  · obtain ⟨byte, there⟩ := written k ‹_›
    simp [there]
  · rfl

theorem written_of_take {known : List Byte} (long : n ≤ bytes.length) (same : bytes.take n = known.map some) :
    Written n bytes := by
  intro k below
  have there : (bytes.take n)[k]? = bytes[k]? := by rw [List.getElem?_take, if_pos below]
  have length : known.length = n := by
    have size := congrArg List.length same
    rw [List.length_take, List.length_map] at size
    omega
  rw [same, List.getElem?_map] at there
  exact ⟨known[k], by rw [← there, List.getElem?_eq_getElem (by omega)]; rfl⟩

theorem written_map (known : List Byte) : Written known.length (known.map some) :=
  fun k below => ⟨known[k], by rw [List.getElem?_map, List.getElem?_eq_getElem below]; rfl⟩

theorem splice_getElem (inside : offset + new.length ≤ bytes.length) :
    (splice offset new bytes)[k]? =
      if k < offset then bytes[k]? else if k < offset + new.length then new[k - offset]? else bytes[k]? := by
  have first : (bytes.take offset).length = offset := by
    rw [List.length_take]
    omega
  rw [splice, List.append_assoc]
  by_cases before : k < offset
  · rw [if_pos before, List.getElem?_append_left (by omega), List.getElem?_take, if_pos before]
  · rw [if_neg before, List.getElem?_append_right (by omega), first]
    by_cases within : k < offset + new.length
    · rw [if_pos within, List.getElem?_append_left (by omega)]
    · rw [if_neg within, List.getElem?_append_right (by omega), List.getElem?_drop]
      congr 1
      omega

/-- Writing values keeps what is written, and adds to it at its end. -/
theorem Written.splice {values : List Byte} (written : Written n bytes) (reaches : offset ≤ n)
    (inside : offset + values.length ≤ bytes.length) :
    Written (max n (offset + values.length)) (Heap.splice offset (values.map some) bytes) := by
  intro k below
  rw [splice_getElem (by rw [List.length_map]; exact inside), List.length_map]
  split
  · exact written k (by omega)
  · split
    · refine ⟨values[k - offset], ?_⟩
      rw [List.getElem?_map, List.getElem?_eq_getElem (by omega)]
      rfl
    · exact written k (by omega)

end Written

/-! ### The invariant -/

/-- What holds of an array in memory. -/
structure ArraySlots.Sound (mem : Mem) (s : ArraySlots) : Prop where
  /-- -1 for an array with several dimensions. -/
  len : s.len = -1 ∨ 0 ≤ s.len.toInt
  room : s.len.toInt ≤ s.cap.toInt
  size : s.cap.toInt * s.elemtype.size ≤ maxAllocSize
  isHeap : s.isHeap = 0 ∨ s.isHeap = 1
  /-- There is a buffer unless there is no room. -/
  absent : s.data = none → s.cap.toInt ≤ 0
  data : ∀ p, s.data = some p → ∃ region bytes, PointsTo mem p region bytes ∧
    (s.isHeap = 1 ↔ region = .heap) ∧ s.cap.toInt * s.elemtype.size ≤ bytes.length ∧
    Written (s.len.toInt.toNat * s.elemtype.size) bytes
  nulls : ∀ q, s.nulls = some q → ∃ bytes, PointsTo mem q .heap bytes ∧ s.cap.toInt ≤ bytes.length ∧
    Written s.len.toInt.toNat bytes
  apart : ∀ p, s.data = some p → s.nulls ≠ some p
  lb : s.len.toInt = 0 → s.lb = 1
  var : WellFormedVar s.elemtype s.var

/-- What an operation on one array leaves to the others. -/
structure ArrayStep (f f' : ArrayFrame) : Prop where
  sound : f'.slots.Sound f'.mem
  elemtype : f'.slots.elemtype = f.slots.elemtype
  frame : Preserves f.slots.buffers f.mem f'.mem
  fresh : ∀ q ∈ f'.slots.buffers, q ∈ f.slots.buffers ∨ f.mem.length ≤ q

section Steps

variable {f f' f'' : ArrayFrame}

theorem ArrayStep.trans (first : ArrayStep f f') (second : ArrayStep f' f'') : ArrayStep f f'' := by
  refine ⟨second.sound, second.elemtype.trans first.elemtype, first.frame.trans second.frame first.fresh, ?_⟩
  intro q member
  rcases second.fresh q member with there | fresh
  · exact first.fresh q there
  · exact .inr (Nat.le_trans first.frame.grows fresh)

theorem ArrayStep.refl (sound : f.slots.Sound f.mem) : ArrayStep f f :=
  ⟨sound, rfl, .refl _ _, fun _ member => .inl member⟩

theorem mem_buffers {s : ArraySlots} {q : Nat} : q ∈ s.buffers ↔ s.data = some q ∨ s.nulls = some q := by
  simp [ArraySlots.buffers]

/-- The buffers of an array are blocks. -/
theorem ArraySlots.Sound.buffers_lt {mem : Mem} {s : ArraySlots} (sound : s.Sound mem) {q : Nat}
    (member : q ∈ s.buffers) : q < mem.length := by
  rcases mem_buffers.mp member with data | nulls
  · obtain ⟨region, bytes, holds, -⟩ := sound.data q data
    exact holds.lt
  · obtain ⟨bytes, holds, -⟩ := sound.nulls q nulls
    exact holds.lt

/-- Another array's operation changes nothing here. -/
theorem ArraySlots.Sound.kept {mem mem' : Mem} {s : ArraySlots} {own : List Nat} (sound : s.Sound mem)
    (frame : Preserves own mem mem') (others : ∀ q ∈ s.buffers, q ∉ own) : s.Sound mem' := by
  refine ⟨sound.len, sound.room, sound.size, sound.isHeap, sound.absent, ?_, ?_, sound.apart, sound.lb, sound.var⟩
  · intro p data
    obtain ⟨region, bytes, holds, rest⟩ := sound.data p data
    exact ⟨region, bytes, holds.kept frame (others p (mem_buffers.mpr (.inl data))), rest⟩
  · intro q nulls
    obtain ⟨bytes, holds, rest⟩ := sound.nulls q nulls
    exact ⟨bytes, holds.kept frame (others q (mem_buffers.mpr (.inr nulls))), rest⟩

/-- The slots at the entry of a function. -/
theorem ArraySlots.Sound.entry (mem : Mem) (ty : ElemType) {var : Option ArrayType} (wf : WellFormedVar ty var) :
    (ArraySlots.entry ty var).Sound mem := by
  refine ⟨.inr (Int.le_refl 0), Int.le_refl 0, ?_, .inl rfl, fun _ => Int.le_refl 0, ?_, ?_, ?_, fun _ => rfl, wf⟩
  · change (0 : Int) * _ ≤ _
    rw [Int.zero_mul]
    decide
  · rintro p ⟨⟩
  · rintro q ⟨⟩
  · rintro p ⟨⟩

/-- A mirror with elements shows some. -/
theorem ArraySlots.Sound.shows {mem : Mem} {s : ArraySlots} (sound : s.Sound mem) (positive : 0 < s.len.toInt) :
    ∃ elems, Shows s.elemtype mem s.data s.nulls s.len.toInt.toNat elems := by
  have room := sound.room
  cases data : s.data with
  | none =>
    have none := sound.absent data
    omega
  | some p =>
    obtain ⟨region, bytes, holds, -, -, written⟩ := sound.data p data
    obtain ⟨known, same⟩ := written.known
    have read : Reads mem p (s.len.toInt.toNat * s.elemtype.size) known :=
      ⟨region, bytes, holds, written.length_le, same⟩
    cases nulls : s.nulls with
    | none => exact ⟨_, p, known, _, rfl, read, rfl, rfl⟩
    | some q =>
      obtain ⟨marks, holds', -, written'⟩ := sound.nulls q nulls
      obtain ⟨known', same'⟩ := written'.known
      exact ⟨_, p, known, _, rfl, read, ⟨known', ⟨.heap, marks, holds', written'.length_le, same'⟩, rfl⟩, rfl⟩

/-- Another value in the variable. -/
theorem ArraySlots.Sound.withVar {mem : Mem} {s : ArraySlots} (sound : s.Sound mem) {var : Option ArrayType}
    (wf : WellFormedVar s.elemtype var) : ({ s with var := var } : ArraySlots).Sound mem :=
  ⟨sound.len, sound.room, sound.size, sound.isHeap, sound.absent, sound.data, sound.nulls, sound.apart, sound.lb, wf⟩

theorem ArrayStep.withVar (sound : f.slots.Sound f.mem) {var : Option ArrayType}
    (wf : WellFormedVar f.slots.elemtype var) : ArrayStep f { f with slots := { f.slots with var := var } } :=
  ⟨sound.withVar wf, rfl, .refl _ _, fun _ member => .inl member⟩

end Steps

/-! ### Marshalling -/

section Marshalling

variable {f : ArrayFrame}

/-- Storing the mirror into the variable. -/
theorem wp_emitSync (sound : f.slots.Sound f.mem) :
    Cmd.wp emitSyncNativeArray (fun _ f' => ArrayStep f f') (fun _ _ => True) f := by
  unfold emitSyncNativeArray
  simp only [Cmd.wp_bind, Cmd.wp_get, wp_onMemory]
  by_cases positive : 0 < f.slots.len.toInt
  · obtain ⟨elems, shows⟩ := sound.shows positive
    by_cases large : maxArraySize < f.slots.len.toInt
    · obtain ⟨p, known, flags, data, -⟩ := shows
      have raised : rtNativeArrayToDatum f.slots.elemtype (some p) f.slots.len f.slots.lb f.slots.nulls f.mem =
        (.raise _, f.mem) := toDatum_large positive large
      rw [data, Cmd.wp, raised]
      trivial
    · rw [wp_toDatum_small positive (by omega) shows, buildArray]
      cases built : constructArray f.slots.elemtype f.slots.lb elems with
      | error err => trivial
      | ok arr =>
        rw [Cmd.wp_pure]
        refine .withVar sound ?_
        rintro arr' ⟨⟩
        exact packArray_wellFormed (by rw [shows.length]; omega) needed_bitmap built
  · have skipped : rtNativeArrayToDatum f.slots.elemtype f.slots.data f.slots.len f.slots.lb f.slots.nulls f.mem =
      (.ok none, f.mem) := toDatum_skips (.inr (by omega))
    rw [Cmd.wp, skipped]
    exact .refl sound

/-- Releasing the buffers. -/
theorem wp_release (sound : f.slots.Sound f.mem) {E : ArrayError → Mem → Prop} :
    Cmd.wp (rtNativeArrayRelease f.slots.data f.slots.nulls f.slots.isHeap)
      (fun _ mem' => Preserves f.slots.buffers f.mem mem') E f.mem := by
  -- The flags are freed last, and the data does not matter to them.
  have flags (mem' : Mem) (frame : Preserves f.slots.data.toList f.mem mem') :
      Cmd.wp (releaseNulls f.slots.nulls) (fun _ mem'' => Preserves f.slots.buffers f.mem mem'') E mem' := by
    have first : Preserves f.slots.buffers f.mem mem' :=
      ⟨frame.grows, fun q old apart => frame.same q old fun member => apart (List.mem_append_left _ member)⟩
    cases nulls : f.slots.nulls with
    | none => exact first
    | some q =>
      obtain ⟨bytes, holds, -⟩ := sound.nulls q nulls
      have there : PointsTo mem' q .heap bytes := by
        refine holds.kept frame fun member => ?_
        exact sound.apart q (by simpa using member) nulls
      change Cmd.wp (free q) _ E mem'
      rw [wp_free there]
      exact first.trans (.set [q] (List.mem_singleton_self _) _) fun r member => by
        obtain rfl : r = q := by simpa using member
        exact .inl (mem_buffers.mpr (.inr nulls))
  rw [rtNativeArrayRelease, Cmd.wp_bind]
  cases data : f.slots.data with
  | none => exact flags f.mem (.refl _ _)
  | some p =>
    obtain ⟨region, bytes, holds, place, -⟩ := sound.data p data
    rw [releaseData, Cmd.wp_ite]
    rcases sound.isHeap with onStack | onHeap
    · rw [if_neg (by simp [onStack]), Cmd.wp_pure]
      exact flags f.mem (.refl _ _)
    · obtain rfl : region = .heap := place.mp onHeap
      rw [if_pos (by simp [onHeap])]
      change Cmd.wp (free p) _ E f.mem
      rw [wp_free holds]
      exact flags _ (.set _ (by simp [data]) _)

/-- Loading the mirror from the variable. -/
theorem wp_emitRefresh (sound : f.slots.Sound f.mem) :
    Cmd.wp emitRefreshNativeArray (fun _ f' => ArrayStep f f') (fun _ _ => True) f := by
  unfold emitRefreshNativeArray
  simp only [Cmd.wp_bind, Cmd.wp_get, wp_onMemory]
  refine Cmd.wp_value (wp_release sound) fun _ mem₁ frame => ?_
  refine Cmd.wp_value (wp_fromDatum sound.var) fun m mem₂ loaded => ?_
  rw [wp_onSlots]
  -- A null variable, one of several dimensions, or a vector.
  cases loaded with
  | absent =>
    refine ⟨⟨.inr (Int.le_refl 0), Int.le_refl 0, ?_, .inr rfl, fun _ => Int.le_refl 0, ?_, ?_, ?_, fun _ => rfl,
      sound.var⟩, rfl, frame, ?_⟩
    · change (0 : Int) * _ ≤ _
      rw [Int.zero_mul]
      decide
    · rintro p ⟨⟩
    · rintro q ⟨⟩
    · rintro p ⟨⟩
    · simp [ArraySlots.buffers]
  | multi =>
    -- The length -1 marks an array that is not mirrored.
    have negative : (-1 : BitVec 32).toInt = -1 := rfl
    refine ⟨⟨.inl rfl, Int.le_refl _, ?_, .inr rfl, fun _ => ?_, ?_, ?_, ?_, fun zero => ?_, sound.var⟩, rfl,
      frame, ?_⟩
    · simp only [negative]
      omega
    · simp only [negative]
      omega
    · rintro p ⟨⟩
    · rintro q ⟨⟩
    · rintro p ⟨⟩
    · simp only [negative] at zero
      omega
    · simp [ArraySlots.buffers]
  | @flat lb nelems elems p nulls mem₂ value length fresh holds absent flags frame₂ =>
    -- The buffers are as long as the vector, and fresh.
    obtain ⟨fits, nonempty, -⟩ := denoteVar_flat sound.var value
    have small := fits.1
    have count : nelems.toInt.toNat = elems.length := by omega
    have exact : ((elems.length * f.slots.elemtype.size : Nat) : Int) = nelems.toInt * f.slots.elemtype.size := by
      rw [Int.natCast_mul, length]
    have bytes : ((flatBytes f.slots.elemtype elems).map some).length = elems.length * f.slots.elemtype.size := by
      rw [List.length_map, flatBytes_length]
    have request : nelems.toInt.toNat * f.slots.elemtype.size ≤ maxAllocSize :=
      (toSize_mul f.slots.elemtype (by omega) (by omega)).2
    refine ⟨⟨.inr (by simp only; omega), Int.le_refl _, ?_, .inr rfl, ?_, ?_, ?_, ?_, fun zero => ?_, sound.var⟩, rfl,
      ?_, ?_⟩
    · rw [count] at request
      simp only
      omega
    · rintro ⟨⟩
    · rintro p' ⟨⟩
      refine ⟨.heap, _, holds, by simp, by simp only; omega, ?_⟩
      have written := written_map (flatBytes f.slots.elemtype elems)
      rw [flatBytes_length, ← count] at written
      exact written
    · intro q here
      obtain ⟨-, -, marks⟩ := flags q here
      refine ⟨_, marks, ?_, ?_⟩
      · simp only [flagsOf, List.length_map]
        omega
      · have written := written_map (flagsOf elems)
        have size : (flagsOf elems).length = nelems.toInt.toNat := by
          rw [flagsOf, List.length_map, count]
        rw [size] at written
        exact written
    · rintro p' ⟨⟩ same
      exact (flags p same).2.1 rfl
    · simp only at zero
      omega
    · exact frame.trans frame₂ (by simp)
    · intro q member
      right
      have grows := frame.grows
      rcases mem_buffers.mp member with here | here
      · cases here
        omega
      · have fresh' := (flags q here).1
        omega

end Marshalling

theorem denoteVar_valid {ty : ElemType} {var : Option ArrayType} (wf : WellFormedVar ty var) :
    (denoteVar ty var).Valid := by
  cases value : denoteVar ty var with
  | null => trivial
  | empty => trivial
  | multi dims elems => trivial
  | flat lb elems =>
    obtain ⟨fits, nonempty, -⟩ := denoteVar_flat wf value
    exact ⟨nonempty, fits.1, fits.2.1⟩

/-- What `array_set_element` returns is an array. -/
theorem setElement_wellFormed {ty : ElemType} {bitmap : Bool} {i : BitVec 32} {v : Option (BitVec 64)}
    {var : Option ArrayType} {arr : ArrayType} (wf : WellFormedVar ty var)
    (result : setElement ty bitmap i v var = .ok arr) : arr.WellFormed ty := by
  unfold setElement at result
  cases set : arraySetElement i v (denoteVar ty var) with
  | error err =>
    rw [set] at result
    cases result
  | ok a =>
    obtain ⟨⟨lb, elems, rfl⟩, valid⟩ := arraySetElement_valid (denoteVar_valid wf) set
    rw [set] at result
    have needed : elems.any Option.isNone = true ∨ none ∉ elems := needed_bitmap
    refine packArray_wellFormed valid.1 ?_ result
    rcases needed with nulls | none
    · exact .inl (by rw [nulls, Bool.or_true])
    · exact .inr none

/-! ### Writing elements -/

section Elements

variable {f : ArrayFrame}

theorem wp_storePtr {mem : Mem} {p k : Nat} {region : Region} {bytes : List (Option Byte)} {values : List Byte}
    {Q : Unit → Mem → Prop} {E : ArrayError → Mem → Prop} (holds : PointsTo mem p region bytes)
    (inside : k + values.length ≤ bytes.length) :
    Cmd.wp (storePtr (some p) (k : Int) values) Q E mem =
      Q () (mem.set p ⟨region, true, splice k (values.map some) bytes⟩) := by
  rw [storePtr, if_neg (by omega), Int.toNat_natCast, wp_store holds (by rw [List.length_map]; exact inside)]

/-- The flag of an element among those there are, or of the one after them. -/
theorem wp_clearFlag {mem : Mem} {nulls : Option Nat} {idx0 : BitVec 32} {n cap : Nat} (nonneg : 0 ≤ idx0.toInt)
    (reaches : idx0.toInt ≤ n) (room : idx0.toInt < cap)
    (flags : ∀ q, nulls = some q → ∃ bytes, PointsTo mem q .heap bytes ∧ cap ≤ bytes.length ∧ Written n bytes)
    {E : ArrayError → Mem → Prop} :
    Cmd.wp (clearFlag nulls idx0)
      (fun _ mem' => (∀ q, nulls = some q → ∃ bytes, PointsTo mem' q .heap bytes ∧ cap ≤ bytes.length ∧
        Written (max n (idx0.toInt.toNat + 1)) bytes) ∧ Preserves nulls.toList mem mem') E mem := by
  cases nulls with
  | none =>
    refine ⟨?_, .refl _ _⟩
    rintro q ⟨⟩
  | some q =>
    obtain ⟨bytes, holds, long, written⟩ := flags q rfl
    have inside : idx0.toInt.toNat + [(0 : Byte)].length ≤ bytes.length := by
      simp only [List.length_singleton]
      omega
    have extended := written.splice (show idx0.toInt.toNat ≤ n by omega) inside
    rw [clearFlag, ← Int.toNat_of_nonneg nonneg, wp_storePtr holds inside]
    refine ⟨?_, .set _ (by simp) _⟩
    rintro q' ⟨⟩
    refine ⟨_, holds.set_self, ?_, extended⟩
    rw [splice_length (by rw [List.length_map]; exact inside)]
    exact long

/-- The value of an element among those there are, or of the one after them. -/
theorem wp_storeData (sound : f.slots.Sound f.mem) {idx0 : BitVec 32} (v : BitVec 64) (nonneg : 0 ≤ idx0.toInt)
    (reaches : idx0.toInt ≤ f.slots.len.toInt) (room : idx0.toInt < f.slots.cap.toInt) {E : ArrayError → Mem → Prop} :
    Cmd.wp (storePtr f.slots.data (idx0.toInt * f.slots.elemtype.size) (f.slots.elemtype.bytes v))
      (fun _ mem' => (∀ p, f.slots.data = some p → ∃ region bytes, PointsTo mem' p region bytes ∧
        (f.slots.isHeap = 1 ↔ region = .heap) ∧ f.slots.cap.toInt * f.slots.elemtype.size ≤ bytes.length ∧
        Written (max f.slots.len.toInt.toNat (idx0.toInt.toNat + 1) * f.slots.elemtype.size) bytes) ∧
        Preserves f.slots.data.toList f.mem mem') E f.mem := by
  cases data : f.slots.data with
  | none =>
    have none := sound.absent data
    omega
  | some p =>
    obtain ⟨region, bytes, holds, place, long, written⟩ := sound.data p data
    have index : idx0.toInt * f.slots.elemtype.size = ((idx0.toInt.toNat * f.slots.elemtype.size : Nat) : Int) := by
      rw [Int.natCast_mul, Int.toNat_of_nonneg nonneg]
    have inside : idx0.toInt.toNat * f.slots.elemtype.size + (f.slots.elemtype.bytes v).length ≤ bytes.length := by
      have enough : ((idx0.toInt.toNat + 1 : Nat) : Int) * f.slots.elemtype.size ≤
          f.slots.cap.toInt * f.slots.elemtype.size :=
        Int.mul_le_mul_of_nonneg_right (by omega) (by omega)
      rw [← Int.natCast_mul, Nat.succ_mul] at enough
      rw [f.slots.elemtype.bytes_length]
      omega
    have start : idx0.toInt.toNat * f.slots.elemtype.size ≤ f.slots.len.toInt.toNat * f.slots.elemtype.size :=
      Nat.mul_le_mul_right _ (by omega)
    have extended := written.splice start inside
    rw [f.slots.elemtype.bytes_length, ← Nat.succ_mul, Nat.mul_max_mul_right] at extended
    rw [index, wp_storePtr holds inside]
    refine ⟨?_, .set _ (by simp) _⟩
    rintro p' ⟨⟩
    refine ⟨region, _, holds.set_self, place, ?_, extended⟩
    rw [splice_length (by rw [List.length_map]; exact inside)]
    exact long

/-- An element among those there are, or the one after them, gets a value. -/
theorem wp_emitStoreElem (sound : f.slots.Sound f.mem) {idx0 l : BitVec 32} (v : BitVec 64) (nonneg : 0 ≤ idx0.toInt)
    (reaches : idx0.toInt ≤ f.slots.len.toInt) (length : l.toInt = max f.slots.len.toInt (idx0.toInt + 1))
    (room : l.toInt ≤ f.slots.cap.toInt) {E : ArrayError → ArrayFrame → Prop} :
    Cmd.wp (emitStoreElem idx0 v)
      (fun _ f' => f'.slots = f.slots ∧ ({ f.slots with len := l } : ArraySlots).Sound f'.mem ∧
        Preserves f.slots.buffers f.mem f'.mem) E f := by
  have count : l.toInt.toNat = max f.slots.len.toInt.toNat (idx0.toInt.toNat + 1) := by omega
  have nonzero : l.toInt ≠ 0 := by omega
  simp only [emitStoreElem, Cmd.wp_bind, Cmd.wp_get, wp_onMemory]
  refine Cmd.wp_value (wp_storeData sound v nonneg reaches (by omega)) fun _ mem₁ stored => ?_
  obtain ⟨data, frame₁⟩ := stored
  have flags : ∀ q, f.slots.nulls = some q → ∃ bytes, PointsTo mem₁ q .heap bytes ∧
      f.slots.cap.toInt.toNat ≤ bytes.length ∧ Written f.slots.len.toInt.toNat bytes := by
    intro q nulls
    obtain ⟨bytes, holds, long, written⟩ := sound.nulls q nulls
    refine ⟨bytes, holds.kept frame₁ fun member => ?_, by omega, written⟩
    exact sound.apart q (by simpa using member) nulls
  refine Cmd.wp_value (wp_clearFlag nonneg (by omega) (by omega) flags) fun _ mem₂ cleared => ?_
  obtain ⟨nulls, frame₂⟩ := cleared
  refine ⟨trivial, ⟨.inr (by simp only; omega), room, sound.size, sound.isHeap, sound.absent, ?_, ?_, sound.apart,
    fun zero => absurd zero nonzero, sound.var⟩, ?_⟩
  · intro p here
    obtain ⟨region, bytes, holds, place, long, written⟩ := data p here
    refine ⟨region, bytes, holds.kept frame₂ fun member => ?_, place, long, ?_⟩
    · exact sound.apart p here (by simpa using member)
    · simp only
      rw [count]
      exact written
  · intro q here
    obtain ⟨bytes, holds, long, written⟩ := nulls q here
    refine ⟨bytes, holds, by simp only; omega, ?_⟩
    simp only
    rw [count]
    exact written
  · have first : Preserves f.slots.buffers f.mem mem₁ :=
      ⟨frame₁.grows, fun q old apart => frame₁.same q old fun member => apart (List.mem_append_left _ member)⟩
    exact first.trans frame₂ fun q member => .inl (List.mem_append_right _ member)

/-- A subscript in range has an element. -/
theorem inRange_index {i lb len : BitVec 32} (nonneg : 0 ≤ len.toInt) (small : len.toInt < 2 ^ 30)
    (empty : len.toInt = 0 → lb = 1) (above : lb.toInt ≤ i.toInt) (below : i.toInt ≤ (lb + len - 1).toInt) :
    0 ≤ (i - lb).toInt ∧ (i - lb).toInt < len.toInt := by
  have wide := toInt_fits lb
  have wide' := toInt_fits i
  simp only [Fits] at wide wide'
  -- The last subscript may be past the greatest int4; it is then smaller than the first one.
  have last : (lb + len - 1).toInt = (lb.toInt + len.toInt - 1).bmod (2 ^ 32) := by
    rw [BitVec.toInt_sub, BitVec.toInt_add, Int.bmod_sub_bmod]
    rfl
  have zero : len.toInt = 0 → lb.toInt = 1 := by
    intro none
    rw [empty none]
    rfl
  have inside : lb.toInt + len.toInt - 1 < 2 ^ 31 := by
    by_contra wraps
    have wrapped : (lb.toInt + len.toInt - 1).bmod (2 ^ 32) = lb.toInt + len.toInt - 1 - 2 ^ 32 := by
      rw [Int.bmod_def]
      split <;> omega
    omega
  have plain : (lb.toInt + len.toInt - 1).bmod (2 ^ 32) = lb.toInt + len.toInt - 1 := by
    apply Int.bmod_eq_of_le
    · omega
    · omega
  have fits : Fits 32 (i.toInt - lb.toInt) := by
    simp only [Fits]
    omega
  rw [toInt_sub_of_fits fits]
  omega

theorem ArraySlots.Sound.cap_lt {mem : Mem} {s : ArraySlots} (sound : s.Sound mem) : s.cap.toInt < 2 ^ 30 := by
  have size := sound.size
  unfold maxAllocSize at size
  rcases s.elemtype.size_cases with four | eight
  · rw [four] at size
    omega
  · rw [eight] at size
    omega

/-- The buffers of an array that can grow. -/
theorem ArraySlots.Sound.mirrors (sound : f.slots.Sound f.mem) (nonneg : 0 ≤ f.slots.len.toInt) :
    f.Mirrors f.slots.len := by
  have room := sound.room
  refine ⟨nonneg, sound.isHeap, fun data => ?_, fun p data => ?_, fun q nulls => ?_, sound.apart⟩
  · have none := sound.absent data
    apply BitVec.eq_of_toInt_eq
    change _ = (0 : Int)
    omega
  · obtain ⟨region, bytes, holds, place, long, -⟩ := sound.data p data
    refine ⟨region, bytes, holds, place, Int.le_trans ?_ long⟩
    exact Int.mul_le_mul_of_nonneg_right room (by omega)
  · obtain ⟨bytes, holds, long, -⟩ := sound.nulls q nulls
    exact ⟨bytes, holds, by omega⟩

/-- Room for one more, in buffers of the same array. -/
theorem wp_reserve_sound (sound : f.slots.Sound f.mem) (nonneg : 0 ≤ f.slots.len.toInt) :
    Cmd.wp (rtNativeArrayReserve f.slots.len (BitVec.ofNat 32 f.slots.elemtype.size))
      (fun _ f' => ArrayStep f f' ∧ f'.slots.len = f.slots.len ∧ f.slots.len.toInt < f'.slots.cap.toInt)
      (fun _ _ => True) f := by
  have mirrors := sound.mirrors nonneg
  -- There is room, the request is refused, or the buffers are grown.
  rcases reserve_outcomes mirrors with ⟨room, ran⟩ | ⟨-, -, ran⟩ | ⟨full, below, f', ran, grown⟩
  · rw [Cmd.wp_of_ok ran]
    exact ⟨.refl sound, rfl, room⟩
  · rw [Cmd.wp, ran]
    trivial
  -- The new capacity is more than the length and within the limit.
  · obtain ⟨more, most⟩ : f.slots.len.toInt < (newCapacity f.slots.cap f.slots.len).toInt ∧
        (newCapacity f.slots.cap f.slots.len).toInt ≤ maxArraySize := newCapacity_room nonneg below
    rw [Cmd.wp_of_ok ran]
    generalize newCapacity f.slots.cap f.slots.len = newcap at *
    have cap : f'.slots.cap = newcap := by rw [grown.slots]
    have len : f'.slots.len = f.slots.len := by rw [grown.slots]
    have elemtype : f'.slots.elemtype = f.slots.elemtype := by rw [grown.slots]
    have isHeap : f'.slots.isHeap = 1 := by rw [grown.slots]
    have lb : f'.slots.lb = f.slots.lb := by rw [grown.slots]
    have var : f'.slots.var = f.slots.var := by rw [grown.slots]
    have exact : ((newcap.toInt.toNat * f.slots.elemtype.size : Nat) : Int) = newcap.toInt * f.slots.elemtype.size := by
      rw [Int.natCast_mul, Int.toNat_of_nonneg (by omega)]
    have request : newcap.toInt.toNat * f.slots.elemtype.size ≤ maxAllocSize :=
      (toSize_mul f.slots.elemtype (by omega) most).2
    have less : f.slots.len.toInt.toNat * f.slots.elemtype.size ≤ newcap.toInt.toNat * f.slots.elemtype.size :=
      Nat.mul_le_mul_right _ (by omega)
    obtain ⟨p, bytes, data, fresh, holds, size, kept⟩ := grown.data
    refine ⟨⟨⟨.inr (by rw [len]; exact nonneg), by rw [len, cap]; omega, ?_, .inr isHeap, ?_, ?_, ?_, ?_, ?_, ?_⟩,
      elemtype, grown.frame, ?_⟩, len, by rw [cap]; exact more⟩
    · rw [cap, elemtype]
      omega
    · intro absent
      cases data.symm.trans absent
    · intro p' here
      -- The old bytes come first in the new buffer.
      obtain rfl : p = p' := Option.some.inj (data.symm.trans here)
      refine ⟨.heap, bytes, holds, by simp [isHeap], by rw [cap, elemtype, size]; omega, ?_⟩
      rw [len, elemtype]
      cases old : f.slots.data with
      | none =>
        have zero : f.slots.len.toInt.toNat = 0 := by
          rw [mirrors.empty old]
          rfl
        rw [zero, Nat.zero_mul]
        exact fun k absurd => by omega
      | some p₀ =>
        obtain ⟨region, bytes₀, holds₀, -, -, written⟩ := sound.data p₀ old
        obtain ⟨known, same⟩ := written.known
        rw [ArrayFrame.dataBytes, old, bytesBehind_eq holds₀, same] at kept
        exact written_of_take (by omega) kept
    · intro q' here
      -- So do the old flags, where there are any.
      cases old : f.slots.nulls with
      | none => cases (grown.none old).symm.trans here
      | some q =>
        obtain ⟨q'', flags, nulls, -, -, holds', size', kept', -⟩ := grown.nulls q old
        obtain rfl : q'' = q' := Option.some.inj (nulls.symm.trans here)
        obtain ⟨flags₀, holds₀, -, written⟩ := sound.nulls q old
        obtain ⟨known, same⟩ := written.known
        rw [ArrayFrame.flagBytes, old, bytesBehind_eq holds₀, same] at kept'
        refine ⟨flags, holds', by rw [cap, size']; omega, ?_⟩
        rw [len]
        exact written_of_take (by omega) kept'
    · exact (grown.reserved mirrors more).mirrors.apart
    · rw [len, lb]
      exact sound.lb
    · rw [elemtype, var]
      exact sound.var
    · intro q member
      rcases mem_buffers.mp member with here | here
      -- Both buffers are new regions.
      · obtain rfl : p = q := Option.some.inj (data.symm.trans here)
        exact .inr fresh
      · cases old : f.slots.nulls with
        | none => cases (grown.none old).symm.trans here
        | some q₀ =>
          obtain ⟨q'', flags, nulls, fresh', -⟩ := grown.nulls q₀ old
          obtain rfl : q'' = q := Option.some.inj (nulls.symm.trans here)
          exact .inr fresh'

/-- An element at the end. -/
theorem wp_emitAppend (sound : f.slots.Sound f.mem) (nonneg : 0 ≤ f.slots.len.toInt) (v : BitVec 64) :
    Cmd.wp (emitAppend v) (fun _ f' => ArrayStep f f') (fun _ _ => True) f := by
  -- The buffers have room before the store, grown or not.
  have stored (f₁ : ArrayFrame) (step : ArrayStep f f₁) (len : f₁.slots.len = f.slots.len)
      (room : f.slots.len.toInt < f₁.slots.cap.toInt) :
      Cmd.wp (do
          emitStoreElem f.slots.len v
          onSlots fun s => { s with len := f.slots.len + 1 }) (fun _ f' => ArrayStep f f') (fun _ _ => True) f₁ := by
    have small := step.sound.cap_lt
    have next : (f.slots.len + 1).toInt = f.slots.len.toInt + 1 := by
      have one : (1 : BitVec 32).toInt = 1 := rfl
      rw [toInt_add_of_fits, one]
      simp only [Fits, one]
      omega
    rw [Cmd.wp_bind]
    refine Cmd.wp_value (wp_emitStoreElem step.sound v nonneg (Int.le_of_eq (by rw [len]))
      (l := f.slots.len + 1) (by rw [len]; omega) (by omega)) fun _ f₂ after => ?_
    obtain ⟨slots, sound₂, frame⟩ := after
    rw [wp_onSlots]
    refine step.trans ⟨?_, ?_, frame, ?_⟩
    · simp only [slots]
      exact sound₂
    · simp only [slots]
    · intro q member
      left
      rw [mem_buffers] at member ⊢
      simpa only [slots] using member
  rw [emitAppend, Cmd.wp_bind, Cmd.wp_get]
  by_cases full : f.slots.cap.sle f.slots.len = true
  · simp only [if_pos full, Cmd.wp_bind]
    refine Cmd.wp_value (wp_reserve_sound sound nonneg) fun _ f₁ grown => ?_
    simpa only [Cmd.wp_bind] using stored f₁ grown.1 grown.2.1 grown.2.2
  · have room : f.slots.len.toInt < f.slots.cap.toInt := by
      rw [BitVec.sle, decide_eq_true_eq] at full
      omega
    simp only [if_neg full]
    exact stored f (.refl sound) rfl room

/-- A write through the variable. -/
theorem wp_emitSlowWrite (sound : f.slots.Sound f.mem) (bitmap : Bool) (i : BitVec 32) (v : Option (BitVec 64)) :
    Cmd.wp (emitSlowWrite bitmap i v) (fun _ f' => ArrayStep f f') (fun _ _ => True) f := by
  rw [emitSlowWrite, Cmd.wp_bind]
  refine Cmd.wp_value (wp_emitSync sound) fun _ f₁ synced => ?_
  rw [Cmd.wp_bind, rtArraySetElement, Cmd.wp_bind, Cmd.wp_get]
  simp only
  cases result : setElement f₁.slots.elemtype bitmap i v f₁.slots.var with
  | error err => trivial
  | ok arr =>
    have wf : WellFormedVar f₁.slots.elemtype (some arr) := by
      rintro arr' ⟨⟩
      exact setElement_wellFormed synced.sound.var result
    have stored : ArrayStep f { f₁ with slots := { f₁.slots with var := some arr } } :=
      synced.trans (.withVar synced.sound wf)
    rw [wp_onSlots]
    exact Cmd.wp_value (wp_emitRefresh stored.sound) fun _ f₂ refreshed => stored.trans refreshed

/-- Every element write. -/
theorem wp_emitWrite (sound : f.slots.Sound f.mem) (bitmap : Bool) (i : BitVec 32) (v : Option (BitVec 64)) :
    Cmd.wp (emitWrite bitmap i v) (fun _ f' => ArrayStep f f') (fun _ _ => True) f := by
  rw [emitWrite, Cmd.wp_bind, Cmd.wp_get]
  cases v with
  | none => exact wp_emitSlowWrite sound bitmap i none
  | some v =>
    simp only
    rw [Cmd.wp_ite, Cmd.wp_ite]
    split
    · rename_i inRange
      simp only [Bool.and_eq_true, BitVec.sle, decide_eq_true_eq] at inRange
      obtain ⟨⟨flat, above⟩, below⟩ := inRange
      have nonneg : 0 ≤ f.slots.len.toInt := flat
      have room := sound.room
      have small := sound.cap_lt
      obtain ⟨low, high⟩ := inRange_index nonneg (by omega) sound.lb above below
      refine Cmd.wp_value (wp_emitStoreElem sound v low (by omega) (l := f.slots.len) (by omega) room)
        fun _ f₁ after => ?_
      obtain ⟨slots, sound₁, frame⟩ := after
      refine ⟨?_, by rw [slots], frame, fun q member => .inl (by rw [← slots]; exact member)⟩
      rw [slots]
      exact sound₁
    · split
      · rename_i isAppend
        simp only [Bool.and_eq_true, BitVec.sle, decide_eq_true_eq] at isAppend
        exact wp_emitAppend sound isAppend.1 v
      · exact wp_emitSlowWrite sound bitmap i (some v)

end Elements

/-! ### Filling an array -/

section Fill

variable {f : ArrayFrame} {n : BitVec 32}

/-- The offset of an element in bytes is an int. -/
theorem fillOffset {ty : ElemType} {idx : BitVec 32} (nonneg : 0 ≤ idx.toInt) (below : idx.toInt < n.toInt)
    (small : n.toInt * ty.size ≤ maxAllocSize) :
    (idx * BitVec.ofNat 32 ty.size).toInt = ((idx.toInt.toNat * ty.size : Nat) : Int) := by
  have width : (BitVec.ofNat 32 ty.size).toInt = ty.size := by cases ty <;> rfl
  have fits : Fits 32 (idx.toInt * (BitVec.ofNat 32 ty.size).toInt) := by
    rw [width]
    rcases ty.size_cases with size | size <;> simp only [size, Fits, maxAllocSize] at * <;> omega
  rw [toInt_mul_of_fits fits, width, Int.natCast_mul, Int.toNat_of_nonneg nonneg]

/-- The loop fills the buffer to its end. -/
theorem wp_emitFillLoop {p : Nat} {region : Region} {bytes : List (Option Byte)} (v : BitVec 64) (fuel : Nat)
    (idx : BitVec 32) (data : f.slots.data = some p) (small : n.toInt * f.slots.elemtype.size ≤ maxAllocSize)
    (holds : PointsTo f.mem p region bytes) (written : Written (n.toInt.toNat * f.slots.elemtype.size) bytes)
    (nonneg : 0 ≤ idx.toInt) (enough : n.toInt.toNat + 1 ≤ fuel + idx.toInt.toNat) (below : idx.toInt ≤ n.toInt)
    {E : ArrayError → ArrayFrame → Prop} :
    Cmd.wp (emitFillLoop n v fuel idx)
      (fun _ f' => f'.slots = f.slots ∧ Preserves [p] f.mem f'.mem ∧ ∃ bytes', PointsTo f'.mem p region bytes' ∧
        bytes'.length = bytes.length ∧ Written (n.toInt.toNat * f.slots.elemtype.size) bytes') E f := by
  induction fuel generalizing idx bytes f with
  | zero => omega
  | succ fuel ih =>
    rw [emitFillLoop, Cmd.wp_ite]
    by_cases more : idx.slt n = true
    · have less : idx.toInt < n.toInt := by
        rw [BitVec.slt, decide_eq_true_eq] at more
        exact more
      have next : (idx + 1).toInt = idx.toInt + 1 := by
        have one : (1 : BitVec 32).toInt = 1 := rfl
        have wide : n.toInt < 2 ^ 31 := BitVec.toInt_lt
        rw [toInt_add_of_fits, one]
        simp only [Fits, one]
        omega
      have inside : idx.toInt.toNat * f.slots.elemtype.size + (f.slots.elemtype.bytes v).length ≤ bytes.length := by
        have step : (idx.toInt.toNat + 1) * f.slots.elemtype.size ≤ n.toInt.toNat * f.slots.elemtype.size :=
          Nat.mul_le_mul_right _ (by omega)
        have long := written.length_le
        rw [Nat.succ_mul] at step
        rw [f.slots.elemtype.bytes_length]
        omega
      have start : idx.toInt.toNat * f.slots.elemtype.size ≤ n.toInt.toNat * f.slots.elemtype.size :=
        Nat.mul_le_mul_right _ (by omega)
      have length := splice_length (show idx.toInt.toNat * f.slots.elemtype.size +
        ((f.slots.elemtype.bytes v).map some).length ≤ bytes.length by rw [List.length_map]; exact inside)
      rw [if_pos more, Cmd.wp_bind, Cmd.wp_get]
      simp only [Cmd.wp_bind, wp_onMemory]
      rw [data, fillOffset nonneg less small, wp_storePtr holds inside]
      refine Cmd.wp_value (ih (f := { f with mem := _ }) (idx + 1) data small holds.set_self
        ((written.splice start inside).mono (Nat.le_max_left _ _)) (by omega) (by omega) (by omega))
        fun _ f' after => ?_
      obtain ⟨slots, frame, bytes', holds', size, written'⟩ := after
      refine ⟨slots, ?_, bytes', holds', by rw [size, length], written'⟩
      exact (Preserves.set [p] (List.mem_singleton_self _) f.mem).trans frame fun _ member => .inl member
    · rw [if_neg more, Cmd.wp_pure]
      exact ⟨rfl, .refl _ _, bytes, holds, rfl, written⟩

/-- The slots after `array_fill`, with a buffer that is new. -/
theorem ArrayStep.filled {mem : Mem} {p : Nat} {region : Region} {bytes : List (Option Byte)} {heap : BitVec 8}
    (sound : f.slots.Sound f.mem) (nonneg : 0 ≤ n.toInt) (small : n.toInt * f.slots.elemtype.size ≤ maxAllocSize)
    (flag : heap = 0 ∨ heap = 1) (place : heap = 1 ↔ region = .heap) (fresh : f.mem.length ≤ p)
    (frame : Preserves f.slots.buffers f.mem mem) (holds : PointsTo mem p region bytes)
    (written : Written (n.toInt.toNat * f.slots.elemtype.size) bytes) :
    ArrayStep f ⟨mem, { f.slots with len := n, lb := 1, nulls := none, data := some p, cap := n, isHeap := heap }⟩ := by
  have exact : ((n.toInt.toNat * f.slots.elemtype.size : Nat) : Int) = n.toInt * f.slots.elemtype.size := by
    rw [Int.natCast_mul, Int.toNat_of_nonneg nonneg]
  have long := written.length_le
  refine ⟨⟨.inr nonneg, Int.le_refl _, small, flag, ?_, ?_, ?_, ?_, fun _ => rfl, sound.var⟩, rfl, frame, ?_⟩
  · rintro ⟨⟩
  · rintro p' ⟨⟩
    exact ⟨region, bytes, holds, place, by simp only; omega, written⟩
  · rintro q ⟨⟩
  · rintro p' - ⟨⟩
  · intro q member
    obtain rfl : q = p := by simpa [ArraySlots.buffers] using member
    exact .inr fresh

/-- The size in bytes is exact. -/
theorem fillSize (ty : ElemType) (nonneg : 0 ≤ n.toInt) :
    (n.signExtend 64 * BitVec.ofNat 64 ty.size).toNat = n.toInt.toNat * ty.size ∧
      ((n.signExtend 64 * BitVec.ofNat 64 ty.size).sle 4096 = true ↔ n.toInt.toNat * ty.size ≤ 4096) := by
  have wide : n.toInt < 2 ^ 31 := BitVec.toInt_lt
  have factor : (BitVec.ofNat 64 ty.size).toNat = ty.size := by cases ty <;> rfl
  have exact : (n.signExtend 64 * BitVec.ofNat 64 ty.size).toNat = n.toInt.toNat * ty.size := by
    have widened : (n.signExtend 64).toNat = n.toInt.toNat := toSize_toNat nonneg
    rw [BitVec.toNat_mul, factor, widened, Nat.mod_eq_of_lt]
    rcases ty.size_cases with size | size <;> rw [size] <;> omega
  have signed : (n.signExtend 64 * BitVec.ofNat 64 ty.size).toInt = ((n.toInt.toNat * ty.size : Nat) : Int) := by
    rw [BitVec.toInt_eq_toNat_of_lt, exact]
    rw [exact]
    rcases ty.size_cases with size | size <;> rw [size] <;> omega
  refine ⟨exact, ?_⟩
  rw [BitVec.sle, decide_eq_true_eq, signed]
  exact Int.ofNat_le

/-- A new buffer, cleared. -/
theorem wp_fillBuffer {mem : Mem} (ty : ElemType) (nonneg : 0 ≤ n.toInt) :
    Cmd.wp (fillBuffer (n.signExtend 64 * BitVec.ofNat 64 ty.size))
      (fun p mem' => p = mem.length ∧ n.toInt.toNat * ty.size ≤ maxAllocSize ∧ Preserves [] mem mem' ∧
        PointsTo mem' p
          (if (n.signExtend 64 * BitVec.ofNat 64 ty.size).sle 4096 = true then .stack else .heap)
          (List.replicate (n.toInt.toNat * ty.size) (some 0)))
      (fun _ _ => True) mem := by
  obtain ⟨exact, stacked⟩ := fillSize ty nonneg
  rw [fillBuffer, Cmd.wp_ite]
  by_cases small : n.toInt.toNat * ty.size ≤ 4096
  · have useStack := stacked.mpr small
    have cut : ((n.signExtend 64 * BitVec.ofNat 64 ty.size).setWidth 32).toNat = n.toInt.toNat * ty.size := by
      rw [BitVec.toNat_setWidth, exact]
      omega
    rw [if_pos useStack, if_pos useStack, Cmd.wp_bind, wp_alloc, cut, Cmd.wp_bind, exact,
      wp_store .alloc (by simp), Cmd.wp_pure]
    refine ⟨rfl, by unfold maxAllocSize; omega, ?_, ?_⟩
    · refine (Preserves.append [] mem _).trans (.set [mem.length] (List.mem_singleton_self _) _) ?_
      simp
    · have cleared : splice 0 (List.replicate (n.toInt.toNat * ty.size) (some (0 : Byte)))
          (List.replicate (n.toInt.toNat * ty.size) none) = List.replicate (n.toInt.toNat * ty.size) (some 0) := by
        simp [splice]
      rw [cleared]
      exact PointsTo.alloc.set_self
  · have useHeap : ¬ (n.signExtend 64 * BitVec.ofNat 64 ty.size).sle 4096 = true := fun sle => small (stacked.mp sle)
    rw [if_neg useHeap, if_neg useHeap, palloc0, exact]
    split
    · trivial
    · rename_i fits
      exact ⟨rfl, by omega, .append _ _ _, .alloc⟩

theorem wp_emitArrayFill (sound : f.slots.Sound f.mem) (nonneg : 0 ≤ n.toInt) (v : BitVec 64) :
    Cmd.wp (emitArrayFill n v) (fun _ f' => ArrayStep f f') (fun _ _ => True) f := by
  rw [emitArrayFill, Cmd.wp_bind, wp_onSlots, Cmd.wp_bind, Cmd.wp_get]
  simp only [Cmd.wp_bind, wp_onMemory, wp_onSlots]
  refine Cmd.wp_value (wp_fillBuffer f.slots.elemtype nonneg) fun p mem₁ allocated => ?_
  obtain ⟨rfl, fits, frame, holds⟩ := allocated
  have exact : ((n.toInt.toNat * f.slots.elemtype.size : Nat) : Int) = n.toInt * f.slots.elemtype.size := by
    rw [Int.natCast_mul, Int.toNat_of_nonneg nonneg]
  have small : n.toInt * f.slots.elemtype.size ≤ maxAllocSize := by omega
  have cleared : Written (n.toInt.toNat * f.slots.elemtype.size)
      (List.replicate (n.toInt.toNat * f.slots.elemtype.size) (some 0)) := by
    intro k below
    exact ⟨0, by simp [below]⟩
  generalize onStack : (n.signExtend 64 * BitVec.ofNat 64 f.slots.elemtype.size).sle 4096 = stack at holds ⊢
  have loop := wp_emitFillLoop (f := ⟨mem₁, { f.slots with
      len := n, lb := 1, nulls := none, data := some f.mem.length, cap := n,
      isHeap := if stack = true then 0 else 1 }⟩) (E := fun _ _ => True)
    v (n.toInt.toNat + 1) 0 rfl small holds cleared (Int.le_refl 0) (Nat.le_refl _) nonneg
  refine Cmd.wp_value loop fun _ f₂ after => ?_
  obtain ⟨slots, frame₂, bytes, holds₂, -, written⟩ := after
  obtain ⟨mem₂, slots₂⟩ := f₂
  obtain rfl : slots₂ = _ := slots
  refine .filled sound nonneg small ?_ ?_ (Nat.le_refl _) ?_ holds₂ written
  · cases stack <;> simp
  · cases stack <;> simp
  · have first : Preserves f.slots.buffers f.mem mem₁ :=
      ⟨frame.grows, fun q old _ => frame.same q old (by simp)⟩
    exact first.trans frame₂ fun q member => .inr (by
      obtain rfl : q = f.mem.length := by simpa using member
      exact Nat.le_refl _)

end Fill

/-! ### The mirror without its memory -/

section Abstract

variable {f : ArrayFrame}

/-- The elements in a buffer, as many as it has room for. -/
def decodeElems (ty : ElemType) (bytes : List (Option Byte)) : List (BitVec 64) :=
  elemsOf ty (bytes.length / ty.size) (bytes.map (·.getD 0))

/-- What the slots hold, as `NativeArray` has it. -/
def ArrayFrame.toNative (f : ArrayFrame) : NativeArray :=
  { data := f.slots.data.map fun p => decodeElems f.slots.elemtype (bytesBehind f.mem (some p))
    len := f.slots.len
    lb := f.slots.lb
    nulls := f.slots.nulls.map fun q => (bytesBehind f.mem (some q)).map fun byte => byte.getD 0 != 0
    cap := f.slots.cap
    isHeap := f.slots.isHeap != 0
    var := denoteVar f.slots.elemtype f.slots.var }

theorem decodeElems_flatBytes {ty : ElemType} {elems : List (Option (BitVec 64))}
    (canonical : ∀ d, some d ∈ elems → ty.Canonical d) :
    decodeElems ty ((flatBytes ty elems).map some) = elems.map fun e => e.getD 0 := by
  have positive : 0 < ty.size := by cases ty <;> decide
  have all : ((flatBytes ty elems).map some).map (·.getD 0) = flatBytes ty elems := by
    rw [List.map_map]
    exact List.map_id _
  rw [decodeElems, List.length_map, flatBytes_length, Nat.mul_div_cancel _ positive, all, elemsOf_flatBytes canonical]

theorem decodeFlags_flagsOf (elems : List (Option (BitVec 64))) :
    (((flagsOf elems).map some).map fun byte => byte.getD 0 != 0) = elems.map Option.isNone := by
  simp only [flagsOf, List.map_map]
  refine List.map_congr_left fun e _ => ?_
  cases e <;> rfl

/-- Refreshing in memory is refreshing the mirror. -/
theorem emitRefresh_toNative (sound : f.slots.Sound f.mem) :
    Cmd.wp emitRefreshNativeArray (fun _ f' => f'.toNative = f.toNative.refresh f'.slots.nulls.isSome)
      (fun _ _ => False) f := by
  unfold emitRefreshNativeArray
  simp only [Cmd.wp_bind, Cmd.wp_get, wp_onMemory]
  refine Cmd.wp_value (wp_release sound) fun _ mem₁ frame => ?_
  refine Cmd.wp_value (wp_fromDatum sound.var) fun m mem₂ loaded => ?_
  rw [wp_onSlots]
  cases loaded with
  | absent value =>
    rcases value with value | value <;>
      simp [ArrayFrame.toNative, NativeArray.refresh, value, nativeArrayFromDatum]
  | multi value => simp [ArrayFrame.toNative, NativeArray.refresh, value, nativeArrayFromDatum]
  | @flat lb nelems elems p nulls mem₂ value length fresh holds absent flags frame₂ =>
    obtain ⟨fits, nonempty, canonical⟩ := denoteVar_flat sound.var value
    have small := fits.1
    have nonnil : elems ≠ [] := List.ne_nil_of_length_pos nonempty
    have count : BitVec.ofNat 32 elems.length = nelems := by
      apply BitVec.eq_of_toInt_eq
      unfold maxArraySize at small
      rw [length, BitVec.toInt_ofNat', Int.bmod_eq_of_le (by omega) (by omega)]
    have marks : nulls.map (fun q => (bytesBehind mem₂ (some q)).map fun byte => byte.getD 0 != 0) =
        if elems ≠ [] ∧ (nulls.isSome = true ∨ none ∈ elems) then some (elems.map Option.isNone) else none := by
      cases nulls with
      | none => simp [absent rfl]
      | some q =>
        rw [Option.map_some, bytesBehind_eq (flags q rfl).2.2, decodeFlags_flagsOf, if_pos ⟨nonnil, .inl rfl⟩]
    simp only [ArrayFrame.toNative, NativeArray.refresh, value, nativeArrayFromDatum, if_neg nonnil, Option.map_some,
      bytesBehind_eq holds, decodeElems_flatBytes canonical, count, marks]
    rfl

end Abstract

/-! ### Runs -/

/-- The native arrays of a function and all memory. -/
structure ArrayHeap where
  mem : Mem
  arrays : List ArraySlots
  deriving DecidableEq, Repr

/-- What compiled code does to a native array. -/
inductive ArrayOp where
  /-- The interpreter stores a value into the variable. -/
  | assign (value : Option ArrayType)
  | sync
  | refresh
  | fill (n : BitVec 32) (v : BitVec 64)
  /-- `a[i] := v` by whichever path; and whether `array_set_element` returns a bitmap
  that it does not need. -/
  | write (i : BitVec 32) (v : Option (BitVec 64)) (bitmap : Bool)
  /-- The write through the variable alone. -/
  | slowWrite (i : BitVec 32) (v : Option (BitVec 64)) (bitmap : Bool)
  deriving DecidableEq, Repr

def ArrayOp.run : ArrayOp → Cmd ArrayFrame ArrayError Unit
  | .assign value => onSlots fun s => { s with var := value }
  | .sync => emitSyncNativeArray
  | .refresh => emitRefreshNativeArray
  | .fill n v => emitArrayFill n v
  | .write i v bitmap => emitWrite bitmap i v
  | .slowWrite i v bitmap => emitSlowWrite bitmap i v

/-- An operation on the array number `k`. -/
def ArrayHeap.step (op : Nat × ArrayOp) : Cmd ArrayHeap ArrayError Unit := fun h =>
  match h.arrays[op.1]? with
  | none => (.ok (), h)
  | some s =>
    ((op.2.run ⟨h.mem, s⟩).1,
      { mem := (op.2.run ⟨h.mem, s⟩).2.mem, arrays := h.arrays.set op.1 (op.2.run ⟨h.mem, s⟩).2.slots })

def ArrayHeap.run (ops : List (Nat × ArrayOp)) : Cmd ArrayHeap ArrayError Unit := Cmd.forAll ArrayHeap.step ops

/-- The set-up at the entry of a function. -/
def ArrayHeap.entry (mem : Mem) (vars : List (ElemType × Option ArrayType)) : ArrayHeap :=
  { mem := mem, arrays := vars.map fun v => .entry v.1 v.2 }

/-- Every array is sound, and no two have a buffer in common. -/
structure ArrayHeap.Sound (h : ArrayHeap) : Prop where
  each : ∀ (k : Nat) (s : ArraySlots), h.arrays[k]? = some s → s.Sound h.mem
  apart : ∀ (j k : Nat) (s t : ArraySlots), j ≠ k → h.arrays[j]? = some s → h.arrays[k]? = some t →
    ∀ q ∈ s.buffers, q ∉ t.buffers

/-- What may be asked of an array: values that are arrays, and sizes that are not
negative. -/
def ArrayOp.Proper (ty : ElemType) : ArrayOp → Prop
  | .assign value => WellFormedVar ty value
  | .fill n _ => 0 ≤ n.toInt
  | _ => True

section Runs

variable {h : ArrayHeap} {f : ArrayFrame}

theorem ArrayOp.wp_run (op : ArrayOp) (sound : f.slots.Sound f.mem) (proper : op.Proper f.slots.elemtype) :
    Cmd.wp op.run (fun _ f' => ArrayStep f f') (fun _ _ => True) f := by
  cases op with
  | assign value => exact .withVar sound proper
  | sync => exact wp_emitSync sound
  | refresh => exact wp_emitRefresh sound
  | fill n v => exact wp_emitArrayFill sound proper v
  | write i v bitmap => exact wp_emitWrite sound bitmap i v
  | slowWrite i v bitmap => exact wp_emitSlowWrite sound bitmap i v

/-- A step on one array keeps all of them sound. -/
theorem ArrayHeap.wp_step (op : Nat × ArrayOp) (sound : h.Sound)
    (proper : ∀ s, h.arrays[op.1]? = some s → op.2.Proper s.elemtype) :
    Cmd.wp (ArrayHeap.step op)
      (fun _ h' => h'.Sound ∧ h'.arrays.map ArraySlots.elemtype = h.arrays.map ArraySlots.elemtype)
      (fun _ _ => True) h := by
  obtain ⟨k, op⟩ := op
  cases there : h.arrays[k]? with
  | none =>
    have skipped : ArrayHeap.step (k, op) h = (.ok (), h) := by simp only [ArrayHeap.step, there]
    rw [Cmd.wp_of_ok skipped]
    exact ⟨sound, rfl⟩
  | some s =>
    have inside : k < h.arrays.length := (List.getElem?_eq_some_iff.mp there).1
    have here := op.wp_run (f := ⟨h.mem, s⟩) (sound.each k s there) (proper s there)
    simp only [Cmd.wp] at here
    simp only [Cmd.wp, ArrayHeap.step, there]
    rcases ran : op.run ⟨h.mem, s⟩ with ⟨⟨⟩ | err | _, f'⟩
    · rw [ran] at here
      refine ⟨⟨fun j t other => ?_, fun j j' t t' distinct first second q member => ?_⟩, ?_⟩
      · by_cases same : k = j
        · subst same
          rw [List.getElem?_set_self inside] at other
          cases other
          exact here.sound
        · rw [List.getElem?_set_ne same] at other
          exact (sound.each j t other).kept here.frame (sound.apart j k t s (Ne.symm same) other there)
      · -- A buffer is an old one of the same array, or nobody had it before.
        by_cases one : k = j
        · subst one
          rw [List.getElem?_set_self inside] at first
          rw [List.getElem?_set_ne distinct] at second
          cases first
          rcases here.fresh q member with old | fresh
          · exact sound.apart k j' s t' distinct there second q old
          · intro shared
            have old := (sound.each j' t' second).buffers_lt shared
            simp only at fresh
            omega
        · rw [List.getElem?_set_ne one] at first
          by_cases two : k = j'
          · subst two
            rw [List.getElem?_set_self inside] at second
            cases second
            intro shared
            rcases here.fresh q shared with old | fresh
            · exact sound.apart j k t s distinct first there q member old
            · have old := (sound.each j t first).buffers_lt member
              simp only at fresh
              omega
          · rw [List.getElem?_set_ne two] at second
            exact sound.apart j j' t t' distinct first second q member
      · have type : f'.slots.elemtype = s.elemtype := here.elemtype
        rw [List.map_set, type]
        refine List.ext_getElem? fun j => ?_
        by_cases same : k = j
        · subst same
          rw [List.getElem?_set_self (by simpa using inside), List.getElem?_map, there]
          rfl
        · rw [List.getElem?_set_ne same]
    · trivial
    · rw [ran] at here
      exact here

/-- The representation of a native array. -/
structure ArraySlots.Represented (mem : Mem) (s : ArraySlots) : Prop where
  len : s.len = -1 ∨ 0 ≤ s.len.toInt
  data : 0 < s.len.toInt → ∃ p region bytes, s.data = some p ∧ PointsTo mem p region bytes ∧
    s.cap.toInt * s.elemtype.size ≤ bytes.length ∧ s.len.toInt ≤ s.cap.toInt
  nulls : ∀ q, s.nulls = some q → ∃ bytes, PointsTo mem q .heap bytes ∧ s.cap.toInt ≤ bytes.length
  isHeap : ∀ p, s.data = some p → ∃ region bytes, PointsTo mem p region bytes ∧ (s.isHeap = 1 ↔ region = .heap)
  apart : ∀ p, s.data = some p → s.nulls ≠ some p

theorem ArraySlots.Sound.represented {mem : Mem} {s : ArraySlots} (sound : s.Sound mem) : s.Represented mem := by
  refine ⟨sound.len, fun positive => ?_, fun q nulls => ?_, fun p data => ?_, sound.apart⟩
  · have room := sound.room
    cases data : s.data with
    | none =>
      have none := sound.absent data
      omega
    | some p =>
      obtain ⟨region, bytes, holds, -, long, -⟩ := sound.data p data
      exact ⟨p, region, bytes, rfl, holds, long, room⟩
  · obtain ⟨bytes, holds, long, -⟩ := sound.nulls q nulls
    exact ⟨bytes, holds, long⟩
  · obtain ⟨region, bytes, holds, place, -⟩ := sound.data p data
    exact ⟨region, bytes, holds, place⟩

theorem ArrayHeap.Sound.entry (mem : Mem) {vars : List (ElemType × Option ArrayType)}
    (wf : ∀ v ∈ vars, WellFormedVar v.1 v.2) : (ArrayHeap.entry mem vars).Sound := by
  have origin {k : Nat} {s : ArraySlots} (there : (ArrayHeap.entry mem vars).arrays[k]? = some s) :
      ∃ v ∈ vars, s = .entry v.1 v.2 := by
    rw [ArrayHeap.entry, List.getElem?_map] at there
    obtain ⟨v, at_k, rfl⟩ := Option.map_eq_some_iff.mp there
    exact ⟨v, List.mem_of_getElem? at_k, rfl⟩
  refine ⟨fun k s there => ?_, fun j k s t _ there _ q member => ?_⟩
  · obtain ⟨v, member, rfl⟩ := origin there
    exact .entry mem v.1 (wf v member)
  · obtain ⟨v, -, rfl⟩ := origin there
    simp [ArraySlots.buffers, ArraySlots.entry] at member

/-- Over every sequence of operations on the native arrays of a function, no
operation frees or enlarges a buffer of the stack, frees one twice or uses one that
was freed; and while no error is raised, every array is represented and no two
share a buffer. -/
theorem native_arrays_sound (mem : Mem) (vars : List (ElemType × Option ArrayType)) (ops : List (Nat × ArrayOp))
    (wf : ∀ v ∈ vars, WellFormedVar v.1 v.2)
    (proper : ∀ op ∈ ops, ∀ v, vars[op.1]? = some v → op.2.Proper v.1) :
    (ArrayHeap.run ops (.entry mem vars)).1 ≠ .undefined ∧
      ∀ h, ArrayHeap.run ops (.entry mem vars) = (.ok (), h) →
        (∀ (k : Nat) (s : ArraySlots), h.arrays[k]? = some s → s.Represented h.mem) ∧
        ∀ (j k : Nat) (s t : ArraySlots), j ≠ k → h.arrays[j]? = some s → h.arrays[k]? = some t →
          ∀ q ∈ s.buffers, q ∉ t.buffers := by
  let types := vars.map Prod.fst
  have kept : Cmd.wp (ArrayHeap.run ops)
      (fun _ h => h.Sound ∧ h.arrays.map ArraySlots.elemtype = types) (fun _ _ => True) (.entry mem vars) := by
    refine Cmd.wp_forAll (I := fun (h : ArrayHeap) => h.Sound ∧ h.arrays.map ArraySlots.elemtype = types)
      (fun op member h inv => ?_) ⟨.entry mem wf, ?_⟩
    · obtain ⟨sound, same⟩ := inv
      refine Cmd.wp_value (ArrayHeap.wp_step op sound fun s there => ?_) fun _ h' after => ?_
      · have type : types[op.1]? = some s.elemtype := by rw [← same, List.getElem?_map, there]; rfl
        rw [List.getElem?_map] at type
        obtain ⟨v, at_k, eq⟩ := Option.map_eq_some_iff.mp type
        rw [← eq]
        exact proper op member v at_k
      · exact ⟨after.1, after.2.trans same⟩
    · simp only [types, ArrayHeap.entry, List.map_map]
      rfl
  refine ⟨Cmd.wp_defined kept, fun h ran => ?_⟩
  rw [Cmd.wp_of_ok ran] at kept
  exact ⟨fun k s there => (kept.1.each k s there).represented, kept.1.apart⟩

/-- An array on the stack that grows, and one that starts with a gap. -/
def growingArrays : List (Nat × ArrayOp) :=
  [(0, .fill 2 7), (0, .write 3 (some 9) false), (1, .write 2 (some 1) false), (1, .write 5 (some 1) false),
    (1, .write 3 (some 4) false), (0, .refresh)]

theorem native_arrays_sound_growing :
    (ArrayHeap.run growingArrays (.entry [] [(.int4, none), (.int8, none)])).1 = .ok () ∧
      (ArrayHeap.run growingArrays (.entry [] [(.int4, none), (.int8, none)])).1 ≠ .undefined := by
  refine ⟨by decide +kernel, (native_arrays_sound [] _ growingArrays ?_ ?_).1⟩
  · intro v member arr value
    simp only [List.mem_cons, List.not_mem_nil, or_false] at member
    rcases member with rfl | rfl <;> cases value
  · intro op member v _
    simp only [growingArrays, List.mem_cons, List.not_mem_nil, or_false] at member
    rcases member with rfl | rfl | rfl | rfl | rfl | rfl
    · change (0 : Int) ≤ (2 : BitVec 32).toInt
      decide
    all_goals trivial

end Runs

end Uplpgsql
