import Uplpgsql.Arrays.Growth

/-!
# Marshalling

From an array variable to flat memory and back. `Shows` is what a mirror in memory
holds, whatever its buffers look like: the elements below its length with NULL
where a flag is set. Loading a mirror shows the elements of the array; storing it
packs the elements that it shows.
-/

namespace Uplpgsql

open Lib Lib.Words Lib.Heap

/-! ### Elements in flat memory -/

section Flat

/-- `n` elements one after the other. -/
def elemsOf (ty : ElemType) : Nat → List Byte → List (BitVec 64)
  | 0, _ => []
  | n + 1, bytes => ty.datum (bytes.take ty.size) :: elemsOf ty n (bytes.drop ty.size)

/-- The bytes of elements that keep a place for every NULL. -/
def flatBytes (ty : ElemType) (elems : List (Option (BitVec 64))) : List Byte :=
  elems.flatMap fun e => ty.bytes (e.getD 0)

/-- One flag for each element. -/
def flagsOf (elems : List (Option (BitVec 64))) : List Byte :=
  elems.map fun e => if e.isSome then 0 else 1

variable {ty : ElemType} {elems : List (Option (BitVec 64))}

@[simp] theorem elemsOf_length (ty : ElemType) (n : Nat) (bytes : List Byte) : (elemsOf ty n bytes).length = n := by
  induction n generalizing bytes with
  | zero => rfl
  | succ n ih => rw [elemsOf, List.length_cons, ih]

theorem flatBytes_cons (e : Option (BitVec 64)) :
    flatBytes ty (e :: elems) = ty.bytes (e.getD 0) ++ flatBytes ty elems := rfl

theorem flatBytes_length : (flatBytes ty elems).length = elems.length * ty.size := by
  induction elems with
  | nil => simp [flatBytes]
  | cons e rest ih =>
    rw [flatBytes_cons, List.length_append, ih, ty.bytes_length, List.length_cons, Nat.succ_mul, Nat.add_comm]

theorem ElemType.bytes_zero (ty : ElemType) : ty.bytes 0 = List.replicate ty.size 0 := by
  cases ty <;> rfl

/-- The place of a NULL. -/
theorem flatBytes_cons_none : flatBytes ty (none :: elems) = List.replicate ty.size 0 ++ flatBytes ty elems := by
  rw [flatBytes_cons, Option.getD_none, ty.bytes_zero]

theorem flagsOf_cons (e : Option (BitVec 64)) :
    flagsOf (e :: elems) = (if e.isSome then 0 else 1) :: flagsOf elems := rfl

theorem ElemType.canonical_zero (ty : ElemType) : ty.Canonical 0 := by
  cases ty <;> rfl

theorem elemsOf_flatBytes (canonical : ∀ d, some d ∈ elems → ty.Canonical d) :
    elemsOf ty elems.length (flatBytes ty elems) = elems.map fun e => e.getD 0 := by
  induction elems with
  | nil => rfl
  | cons e rest ih =>
    have value : ty.datum (ty.bytes (e.getD 0)) = e.getD 0 := by
      cases e with
      | none => exact ty.canonical_zero
      | some d => exact canonical d (List.mem_cons_self ..)
    rw [List.length_cons, elemsOf, flatBytes_cons, List.take_left' (ty.bytes_length _),
      List.drop_left' (ty.bytes_length _), value, ih fun d member => canonical d (List.mem_cons_of_mem _ member),
      List.map_cons]

theorem withNulls_flags : withNulls (elems.map fun e => e.getD 0) ((flagsOf elems).map (· != 0)) = elems := by
  induction elems with
  | nil => rfl
  | cons e rest ih =>
    cases e <;> simpa [withNulls, flagsOf] using ih

theorem withNulls_none (ds : List (BitVec 64)) : withNulls ds (List.replicate ds.length false) = ds.map some := by
  induction ds with
  | nil => rfl
  | cons d rest ih => simpa [withNulls, List.replicate_succ] using ih

/-- Without a bitmap the values are in flat memory already. -/
theorem flatBytes_unpack {n i : Nat} {data : List Byte} (enough : n * ty.size ≤ data.length) :
    flatBytes ty (unpack ty none n i data) = data.take (n * ty.size) := by
  induction n generalizing i data with
  | zero => simp [unpack, flatBytes]
  | succ n ih =>
    rw [Nat.succ_mul] at enough
    have first : (data.take ty.size).length = ty.size := by
      rw [List.length_take]
      omega
    rw [unpack, if_pos (by rfl), flatBytes_cons, Option.getD_some, ty.bytes_datum first,
      ih (by rw [List.length_drop]; omega), Nat.succ_mul, Nat.add_comm (n * ty.size), List.take_add]

end Flat

/-! ### Loading a mirror -/

section Load

variable {ty : ElemType} {arr : ArrayType} {bitmap : List Byte} {mem : Mem} {result nulls : Nat}
  {E : ArrayError → Mem → Prop}

theorem bitAt_eq {i : Nat} (inside : i / 8 < bitmap.length) : bitAt bitmap i = .ok (notNull (some bitmap) i) := by
  simp [bitAt, notNull, List.getElem?_eq_getElem inside]

theorem bytesAt_eq {data : List Byte} {src n : Nat} (inside : src + n ≤ data.length) :
    bytesAt data src n = .ok ((data.drop src).take n) := by
  rw [bytesAt, if_pos inside]

/-- The loop fills both buffers from where it stands. -/
theorem wp_unpackLoop (n i src : Nat) (done rest flags more : List (Option Byte)) (distinct : result ≠ nulls)
    (bits : (i + n + 7) / 8 ≤ bitmap.length)
    (enough : src + ty.size * ((unpack ty (some bitmap) n i (arr.data.drop src)).filterMap id).length ≤
      arr.data.length)
    (values : PointsTo mem result .heap (done ++ rest)) (doneLength : done.length = i * ty.size)
    (restLength : rest.length = n * ty.size) (nullFlags : PointsTo mem nulls .heap (flags ++ more))
    (flagsLength : flags.length = i) (moreLength : more.length = n) :
    Cmd.wp (unpackLoop ty arr bitmap result nulls n i src)
      (fun _ mem' =>
        PointsTo mem' result .heap
            (done ++ (flatBytes ty (unpack ty (some bitmap) n i (arr.data.drop src))).map some) ∧
          PointsTo mem' nulls .heap
            (flags ++ (flagsOf (unpack ty (some bitmap) n i (arr.data.drop src))).map some) ∧
          Preserves [result, nulls] mem mem') E mem := by
  induction n generalizing i src done rest flags more mem with
  | zero =>
    obtain rfl : rest = [] := List.length_eq_zero_iff.mp (by rw [restLength, Nat.zero_mul])
    obtain rfl : more = [] := List.length_eq_zero_iff.mp moreLength
    exact ⟨by simpa [unpack, flatBytes] using values, by simpa [unpack, flagsOf] using nullFlags, .refl _ _⟩
  | succ n ih =>
    rw [Nat.succ_mul] at restLength
    rw [unpackLoop, Cmd.wp_bind, bitAt_eq (by omega), Cmd.wp_lift_ok, Cmd.wp_bind]
    -- One flag, then one element; the loop goes on behind both.
    generalize bit : (if notNull (some bitmap) i = true then (0 : Byte) else 1) = flag
    obtain ⟨old, more, rfl⟩ : ∃ old more', more = old :: more' := by
      cases more with
      | nil => cases moreLength
      | cons old more => exact ⟨old, more, rfl⟩
    have flagged : splice i [some flag] (flags ++ old :: more) = flags ++ [some flag] ++ more :=
      splice_append flagsLength
    rw [wp_store nullFlags (by simp only [List.length_append, List.length_cons, List.length_nil]; omega),
      flagged]
    have nullFlags₁ : PointsTo (mem.set nulls ⟨.heap, true, flags ++ [some flag] ++ more⟩) nulls .heap
        (flags ++ [some flag] ++ more) := nullFlags.set_self
    have values₁ : PointsTo (mem.set nulls ⟨.heap, true, flags ++ [some flag] ++ more⟩) result .heap (done ++ rest) :=
      values.set_ne fun eq => distinct eq.symm
    have step (bytes : List Byte) (size : bytes.length = ty.size) :
        splice (i * ty.size) (bytes.map some) (done ++ rest) = done ++ bytes.map some ++ rest.drop ty.size := by
      rw [splice_append doneLength, List.length_map, size]
    have inside (bytes : List Byte) (size : bytes.length = ty.size) :
        i * ty.size + (bytes.map some).length ≤ (done ++ rest).length := by
      rw [List.length_map, List.length_append]
      omega
    have next (bytes : List Byte) (size : bytes.length = ty.size) (src' : Nat)
        (enough' : src' + ty.size * ((unpack ty (some bitmap) n (i + 1) (arr.data.drop src')).filterMap id).length ≤
          arr.data.length) :
        Cmd.wp (do
            store result (i * ty.size) (bytes.map some)
            unpackLoop ty arr bitmap result nulls n (i + 1) src')
          (fun _ mem' =>
            PointsTo mem' result .heap (done ++ bytes.map some ++
                (flatBytes ty (unpack ty (some bitmap) n (i + 1) (arr.data.drop src'))).map some) ∧
              PointsTo mem' nulls .heap (flags ++ [some flag] ++
                (flagsOf (unpack ty (some bitmap) n (i + 1) (arr.data.drop src'))).map some) ∧
              Preserves [result, nulls] mem mem') E
          (mem.set nulls ⟨.heap, true, flags ++ [some flag] ++ more⟩) := by
      rw [Cmd.wp_bind, wp_store values₁ (inside bytes size), step bytes size]
      refine Cmd.wp_value (ih (i + 1) src' (done ++ bytes.map some) (rest.drop ty.size) (flags ++ [some flag]) more
        (by omega) enough' values₁.set_self ?_ ?_ (nullFlags₁.set_ne distinct) ?_ ?_) fun _ mem' after => ?_
      · rw [List.length_append, List.length_map, doneLength, size, Nat.succ_mul]
      · rw [List.length_drop]
        omega
      · rw [List.length_append, flagsLength, List.length_singleton]
      · simpa using moreLength
      · refine ⟨after.1, after.2.1, ?_⟩
        have first : Preserves [result, nulls] mem
            (mem.set nulls ⟨.heap, true, flags ++ [some flag] ++ more⟩) := .set _ (by simp) mem
        refine (first.trans (Preserves.set [result, nulls] (by simp) _) fun _ there => .inl there).trans
          after.2.2 fun _ there => .inl there
    rw [unpack] at enough
    rw [unpack]
    by_cases there : notNull (some bitmap) i = true
    · rw [if_pos there] at bit
      simp only [if_pos there, List.filterMap_cons_some (show id (some _) = some _ from rfl), List.length_cons,
        Nat.mul_succ] at enough ⊢
      have size : ((arr.data.drop src).take ty.size).length = ty.size := by
        rw [List.length_take, List.length_drop]
        omega
      rw [Cmd.wp_bind, bytesAt_eq (by omega), Cmd.wp_lift_ok]
      have after := next _ size (src + ty.size) (by rw [← List.drop_drop]; omega)
      simp only [flatBytes_cons, Option.getD_some, ty.bytes_datum size, flagsOf_cons, Option.isSome_some, if_true, bit,
        List.drop_drop, List.map_append, List.map_cons]
      simpa only [List.append_assoc, List.singleton_append] using after
    · rw [if_neg there] at bit
      simp only [if_neg there, List.filterMap_cons_none (show id none = none from rfl)] at enough ⊢
      have after := next (List.replicate ty.size 0) (by simp) src enough
      rw [List.map_replicate] at after
      simp only [flatBytes_cons_none, flagsOf_cons, Option.isSome_none, Bool.false_eq_true, if_false, bit,
        List.map_append, List.map_cons, List.map_replicate]
      simpa only [List.append_assoc, List.singleton_append] using after

/-- What loading a mirror leaves behind. -/
inductive Loaded (ty : ElemType) (var : Option ArrayType) (mem : Mem) : FromDatum → Mem → Prop where
  | absent (value : denoteVar ty var = .null ∨ denoteVar ty var = .empty) :
      Loaded ty var mem ⟨none, 0, 1, none⟩ mem
  | multi {dims : List (Nat × BitVec 32)} {elems : List (Option (BitVec 64))}
      (value : denoteVar ty var = .multi dims elems) : Loaded ty var mem ⟨none, -1, 1, none⟩ mem
  | flat {lb nelems : BitVec 32} {elems : List (Option (BitVec 64))} {p : Nat} {nulls : Option Nat} {mem' : Mem}
      (value : denoteVar ty var = .flat lb elems) (length : nelems.toInt = elems.length)
      (fresh : mem.length ≤ p) (holds : PointsTo mem' p .heap ((flatBytes ty elems).map some))
      (absent : nulls = none → none ∉ elems)
      (flags : ∀ q, nulls = some q → mem.length ≤ q ∧ p ≠ q ∧ PointsTo mem' q .heap ((flagsOf elems).map some))
      (frame : Preserves [] mem mem') : Loaded ty var mem ⟨some p, nelems, lb, nulls⟩ mem'

/-- The facts about a vector that is well formed. -/
structure VectorFacts (ty : ElemType) (arr : ArrayType) (nelems lb : BitVec 32) : Prop where
  items : arr.items = nelems.toInt.toNat
  positive : 0 < nelems.toInt
  small : nelems.toInt ≤ maxArraySize
  bound : lb.toInt + nelems.toInt < 2 ^ 31
  length : nelems.toInt = (arr.elements ty).length
  canonical : ∀ d, some d ∈ arr.elements ty → ty.Canonical d

theorem ArrayType.WellFormed.vector {nelems lb : BitVec 32} (wf : arr.WellFormed ty) (dims : arr.dims = [(nelems, lb)]) :
    VectorFacts ty arr nelems lb := by
  obtain ⟨positive, bound⟩ := wf.dims (nelems, lb) (by simp [dims])
  simp only at positive bound
  have items : arr.items = nelems.toInt.toNat := by
    have nonneg := BitVec.toInt_eq_toNat_cond nelems
    have wide := nelems.isLt
    simp only [ArrayType.items, dims, List.map_cons, List.map_nil, List.prod_cons, List.prod_nil, Nat.mul_one,
      reduceCtorEq, if_false]
    split at nonneg <;> omega
  have small := wf.items
  have data := wf.data
  rw [items] at small
  refine ⟨items, positive, by omega, bound, ?_, ?_⟩
  · rw [ArrayType.elements, unpack_length, items]
    omega
  · exact unpack_canonical (by rw [← ArrayType.elements, ← data])

/-- Elements are NULL only if there is a bitmap. -/
theorem unpack_none_notMem (n i : Nat) (data : List Byte) : none ∉ unpack ty none n i data := by
  induction n generalizing i data with
  | zero => simp [unpack]
  | succ n ih =>
    rw [unpack, if_pos (by rfl)]
    simp [ih]

theorem mulInt_eq {x y : BitVec 32} (fits : Fits 32 (x.toInt * y.toInt)) : mulInt x y = .ok (x * y) := by
  rw [mulInt, if_pos fits]

/-- Loading the mirror of a vector. -/
theorem wp_fromDatum_vector {nelems lb : BitVec 32} (wf : arr.WellFormed ty) (dims : arr.dims = [(nelems, lb)]) :
    Cmd.wp (rtNativeArrayFromDatum ty (some arr)) (Loaded ty (some arr) mem) E mem := by
  have facts := wf.vector dims
  have positive := facts.positive
  have small := facts.small
  have nonzero : ¬ nelems = 0 := by
    rintro rfl
    exact absurd positive (by decide)
  have width : (BitVec.ofNat 32 ty.size).toInt = ty.size := by cases ty <;> rfl
  -- No product of the C code overflows: a vector has at most `maxArraySize` bytes.
  have fits : Fits 32 (nelems.toInt * (BitVec.ofNat 32 ty.size).toInt) := by
    rw [width]
    rcases ty.size_cases with size | size <;> simp only [size, Fits, maxArraySize] at * <;> omega
  have product : (nelems * BitVec.ofNat 32 ty.size).toInt = nelems.toInt * ty.size := by
    rw [toInt_mul_of_fits fits, width]
  have bytes : (toSize (nelems * BitVec.ofNat 32 ty.size)).toNat = nelems.toInt.toNat * ty.size := by
    have cast : ((nelems.toInt.toNat * ty.size : Nat) : Int) = nelems.toInt * ty.size := by
      rw [Int.natCast_mul, Int.toNat_of_nonneg (by omega)]
    rw [toSize_toNat (by omega), product]
    omega
  have request : nelems.toInt.toNat * ty.size ≤ maxAllocSize := (toSize_mul ty (by omega) small).2
  have count : (toSize nelems).toNat = nelems.toInt.toNat := toSize_toNat (by omega)
  have value : denoteVar ty (some arr) = .flat lb (arr.elements ty) := by
    simp only [denoteVar, ArrayType.denote, dims]
  have length : (arr.elements ty).length = nelems.toInt.toNat := by
    have same := facts.length
    omega
  simp only [rtNativeArrayFromDatum, dims, if_neg nonzero]
  rw [Cmd.wp_bind, mulInt_eq fits, Cmd.wp_lift_ok, Cmd.wp_bind, wp_palloc (by omega), bytes]
  cases bitmap : arr.bitmap with
  | some bits =>
    -- With a bitmap the elements are unpacked one by one, and the flags beside them.
    have long := wf.bitmap bits bitmap
    have data := wf.data
    rw [facts.items] at long
    have elements : arr.elements ty = unpack ty (some bits) nelems.toInt.toNat 0 (arr.data.drop 0) := by
      rw [ArrayType.elements, bitmap, facts.items, List.drop_zero]
    simp only
    rw [Cmd.wp_bind, wp_palloc (by unfold maxArraySize at small; unfold maxAllocSize; omega), count, Cmd.wp_bind]
    have first : PointsTo (mem ++ [⟨.heap, true, List.replicate (nelems.toInt.toNat * ty.size) none⟩])
        mem.length .heap (List.replicate (nelems.toInt.toNat * ty.size) none) := .alloc
    refine Cmd.wp_value (wp_unpackLoop nelems.toInt.toNat 0 0 []
      (List.replicate (nelems.toInt.toNat * ty.size) none) [] (List.replicate nelems.toInt.toNat none)
      (by simp) (by omega) (by rw [← elements, ← data]; omega) (first.append _) (by simp) (by simp) .alloc (by simp)
      (by simp)) fun _ mem' after => ?_
    rw [← elements] at after
    obtain ⟨holds, flags, frame⟩ := after
    rw [Cmd.wp_pure]
    refine .flat value facts.length (Nat.le_refl _) (by simpa using holds) (fun absurd => by cases absurd) ?_ ?_
    · rintro q ⟨⟩
      exact ⟨by simp, by simp, by simpa using flags⟩
    · refine ((Preserves.append [] mem _).trans (Preserves.append [] _ _) (by simp)).trans frame ?_
      simp
  | none =>
    -- Without one the bytes are copied as they stand.
    have elements : arr.elements ty = unpack ty none nelems.toInt.toNat 0 arr.data := by
      rw [ArrayType.elements, bitmap, facts.items]
    have data := wf.data
    have all : ((arr.elements ty).filterMap id).length = nelems.toInt.toNat := by
      have always : notNull none = fun _ => true := rfl
      rw [count_isSome, elements, unpack_isSome, always]
      simp
    have exact : arr.data.length = nelems.toInt.toNat * ty.size := by
      rw [data, all, Nat.mul_comm]
    have flat : flatBytes ty (arr.elements ty) = arr.data := by
      rw [elements, flatBytes_unpack (by omega), ← exact, List.take_length]
    simp only
    rw [Cmd.wp_bind, bytesAt_eq (by omega), Cmd.wp_lift_ok, List.drop_zero, ← exact, List.take_length, Cmd.wp_bind,
      wp_store .alloc (by simp), Cmd.wp_pure]
    have written : splice 0 (arr.data.map some) (List.replicate arr.data.length none) = arr.data.map some := by
      simp [splice]
    rw [written]
    refine .flat value facts.length (Nat.le_refl _) ?_ (fun _ => ?_) ?_ ?_
    · rw [flat]
      exact PointsTo.alloc.set_self
    · rw [elements]
      exact unpack_none_notMem _ _ _
    · rintro q ⟨⟩
    · refine (Preserves.append [] mem _).trans (Preserves.set [mem.length] (by simp) _) ?_
      simp

/-- Loading a mirror never fails. -/
theorem wp_fromDatum {var : Option ArrayType} (wf : WellFormedVar ty var) :
    Cmd.wp (rtNativeArrayFromDatum ty var) (Loaded ty var mem) E mem := by
  cases var with
  | none => exact .absent (.inl rfl)
  | some arr =>
    match dims : arr.dims with
    | [] =>
      simp only [rtNativeArrayFromDatum, dims, Cmd.wp_pure]
      exact .absent (.inr (by simp only [denoteVar, ArrayType.denote, dims]))
    | [(nelems, lb)] => exact wp_fromDatum_vector (wf arr rfl) dims
    | d :: d' :: rest =>
      simp only [rtNativeArrayFromDatum, dims, Cmd.wp_pure]
      have value : denoteVar ty (some arr) =
          .multi (arr.dims.map fun d => (d.1.toNat, d.2)) (arr.elements ty) := by
        simp only [denoteVar, ArrayType.denote, dims]
      exact .multi value

end Load

/-! ### Storing a mirror -/

/-- The first `n` bytes of a block all have a value. -/
def Reads (mem : Mem) (p n : Nat) (known : List Byte) : Prop :=
  ∃ region bytes, PointsTo mem p region bytes ∧ n ≤ bytes.length ∧ bytes.take n = known.map some

/-- The flags of `n` elements. -/
def ReadsFlags (mem : Mem) (nulls : Option Nat) (n : Nat) (flags : List Bool) : Prop :=
  match nulls with
  | none => flags = List.replicate n false
  | some q => ∃ known, Reads mem q n known ∧ flags = known.map (· != 0)

/-- The elements a mirror holds. -/
def Shows (ty : ElemType) (mem : Mem) (data nulls : Option Nat) (n : Nat) (elems : List (Option (BitVec 64))) :
    Prop :=
  ∃ p known flags, data = some p ∧ Reads mem p (n * ty.size) known ∧ ReadsFlags mem nulls n flags ∧
    elems = withNulls (elemsOf ty n known) flags

section Store

variable {ty : ElemType} {mem : Mem} {p n i : Nat} {known : List Byte} {elems : List (Option (BitVec 64))}
  {E : ArrayError → Mem → Prop}

theorem Reads.length (reads : Reads mem p n known) : known.length = n := by
  obtain ⟨region, bytes, -, enough, same⟩ := reads
  have size := congrArg List.length same
  rw [List.length_take, List.length_map] at size
  omega

theorem ReadsFlags.length {nulls : Option Nat} {flags : List Bool} (reads : ReadsFlags mem nulls n flags) :
    flags.length = n := by
  cases nulls with
  | none =>
    obtain rfl : flags = List.replicate n false := reads
    simp
  | some q =>
    obtain ⟨known, read, rfl⟩ := reads
    rw [List.length_map, read.length]

theorem Shows.length {data nulls : Option Nat} (shows : Shows ty mem data nulls n elems) : elems.length = n := by
  obtain ⟨p, known, flags, -, -, read, rfl⟩ := shows
  rw [withNulls, List.length_zipWith, elemsOf_length, read.length, Nat.min_self]

theorem elemsOf_canonical {bytes : List Byte} (size : bytes.length = n * ty.size) :
    ∀ d ∈ elemsOf ty n bytes, ty.Canonical d := by
  induction n generalizing bytes with
  | zero => simp [elemsOf]
  | succ n ih =>
    rw [Nat.succ_mul] at size
    intro d member
    rcases List.mem_cons.mp member with rfl | later
    · exact ty.canonical_datum (by rw [List.length_take]; omega)
    · exact ih (by rw [List.length_drop]; omega) d later

theorem mem_withNulls {ds : List (BitVec 64)} {flags : List Bool} {d : BitVec 64}
    (member : some d ∈ withNulls ds flags) : d ∈ ds := by
  induction ds generalizing flags with
  | nil => simp [withNulls] at member
  | cons first rest ih =>
    cases flags with
    | nil => simp [withNulls] at member
    | cons flag flags =>
      rcases List.mem_cons.mp member with here | later
      · cases flag with
        | true => cases here
        | false =>
          cases here
          exact List.mem_cons_self ..
      · exact List.mem_cons_of_mem _ (ih later)

theorem Shows.canonical {data nulls : Option Nat} (shows : Shows ty mem data nulls n elems) :
    ∀ d, some d ∈ elems → ty.Canonical d := by
  obtain ⟨p, known, flags, -, read, -, rfl⟩ := shows
  exact fun d member => elemsOf_canonical read.length d (mem_withNulls member)

/-- A loop over the elements from number `i` on. -/
theorem wp_readElems {region : Region} {bytes : List (Option Byte)} {Q : List (BitVec 64) → Mem → Prop}
    (holds : PointsTo mem p region bytes) (enough : (i + n) * ty.size ≤ bytes.length)
    (same : (bytes.drop (i * ty.size)).take (n * ty.size) = known.map some) :
    Cmd.wp (readElems ty p n i) Q E mem = Q (elemsOf ty n known) mem := by
  induction n generalizing i known Q with
  | zero => rfl
  | succ n ih =>
    rw [Nat.add_mul, Nat.succ_mul] at enough
    rw [Nat.succ_mul, Nat.add_comm (n * ty.size)] at same
    have chunk : (bytes.drop (i * ty.size)).take ty.size = (known.take ty.size).map some := by
      have first := congrArg (List.take ty.size) same
      rw [List.take_take, Nat.min_eq_left (Nat.le_add_right _ _), ← List.map_take] at first
      exact first
    have others : (bytes.drop ((i + 1) * ty.size)).take (n * ty.size) = (known.drop ty.size).map some := by
      have later := congrArg (List.drop ty.size) same
      rw [List.drop_take, Nat.add_sub_cancel_left, List.drop_drop, ← List.map_drop, ← Nat.succ_mul] at later
      exact later
    rw [readElems, Cmd.wp_bind, wp_load holds (by omega), chunk, values_map]
    simp only
    rw [Cmd.wp_bind, ih (by rw [Nat.add_mul, Nat.add_mul]; omega) others]
    rfl

theorem wp_readFlags {region : Region} {bytes : List (Option Byte)} {Q : List Bool → Mem → Prop}
    (holds : PointsTo mem p region bytes) (enough : i + n ≤ bytes.length)
    (same : (bytes.drop i).take n = known.map some) :
    Cmd.wp (readFlags p n i) Q E mem = Q (known.map (· != 0)) mem := by
  induction n generalizing i known Q with
  | zero =>
    obtain rfl : known = [] := by simpa using same.symm
    rfl
  | succ n ih =>
    obtain ⟨byte, rest, rfl⟩ : ∃ byte rest, known = byte :: rest := by
      cases known with
      | nil =>
        have size := congrArg List.length same
        rw [List.length_take, List.length_drop] at size
        simp only [List.map_nil, List.length_nil] at size
        omega
      | cons byte rest => exact ⟨byte, rest, rfl⟩
    rw [Nat.add_comm n] at same
    have chunk : (bytes.drop i).take 1 = [byte].map some := by
      have first := congrArg (List.take 1) same
      rw [List.take_take, Nat.min_eq_left (Nat.le_add_right _ _), ← List.map_take] at first
      simpa using first
    have others : (bytes.drop (i + 1)).take n = rest.map some := by
      have later := congrArg (List.drop 1) same
      rw [List.drop_take, Nat.add_sub_cancel_left, List.drop_drop, ← List.map_drop] at later
      simpa using later
    rw [readFlags, Cmd.wp_bind, wp_load holds (by omega), chunk, values_map]
    simp only
    rw [Cmd.wp_bind, ih (by omega) others]
    rfl

theorem wp_readNulls {nulls : Option Nat} {flags : List Bool} {Q : List Bool → Mem → Prop}
    (reads : ReadsFlags mem nulls n flags) : Cmd.wp (readNulls nulls n) Q E mem = Q flags mem := by
  cases nulls with
  | none =>
    obtain rfl : flags = List.replicate n false := reads
    rfl
  | some q =>
    obtain ⟨known, ⟨region, bytes, holds, enough, same⟩, rfl⟩ := reads
    exact wp_readFlags holds (by omega) (by simpa using same)

/-- A mirror without a buffer or without elements leaves the variable alone. -/
theorem toDatum_skips {data nulls : Option Nat} {nelems lb : BitVec 32} (nothing : data = none ∨ nelems.toInt ≤ 0) :
    rtNativeArrayToDatum ty data nelems lb nulls mem = (.ok none, mem) := by
  cases data with
  | none => rfl
  | some p =>
    have short : nelems.sle 0 = true := by
      rcases nothing with absurd | short
      · cases absurd
      · rw [BitVec.sle, decide_eq_true_eq]
        exact short
    rw [rtNativeArrayToDatum, if_pos short]
    rfl

section Outcome

variable {data nulls : Option Nat} {nelems lb : BitVec 32} {Q : Option ArrayType → Mem → Prop}

/-- Before the elements are read: the buffer for the Datums may be too large. -/
theorem toDatum_unfold (positive : 0 < nelems.toInt) :
    rtNativeArrayToDatum ty (some p) nelems lb nulls =
      if maxArraySize < nelems.toInt then Cmd.raise (.invalidAllocSize (nelems.toInt.toNat * 8 : Nat))
      else (do
        let elems ← readElems ty p nelems.toInt.toNat 0
        let flags ← readNulls nulls nelems.toInt.toNat
        buildArray ty lb (withNulls elems flags)) := by
  have elements : ¬ nelems.sle 0 = true := by
    rw [BitVec.sle, decide_eq_true_eq]
    exact Int.not_le.mpr positive
  have request : (toSize nelems * 8).toNat = nelems.toInt.toNat * 8 := by
    have wide : nelems.toInt < 2 ^ 31 := BitVec.toInt_lt
    rw [BitVec.toNat_mul, toSize_toNat (by omega), Nat.mod_eq_of_lt]
    · rfl
    · change nelems.toInt.toNat * 8 < 2 ^ 64
      omega
  rw [rtNativeArrayToDatum, if_neg elements, request]
  by_cases large : maxArraySize < nelems.toInt
  · rw [if_pos large, if_pos (by simp only [maxArraySize, maxAllocSize] at *; omega)]
  · rw [if_neg large, if_neg (by simp only [maxArraySize, maxAllocSize] at *; omega)]

theorem toDatum_large (positive : 0 < nelems.toInt) (large : maxArraySize < nelems.toInt) :
    rtNativeArrayToDatum ty (some p) nelems lb nulls mem =
      (.raise (.invalidAllocSize (nelems.toInt.toNat * 8 : Nat)), mem) := by
  rw [toDatum_unfold positive, if_pos large]
  rfl

theorem wp_toDatum_small (positive : 0 < nelems.toInt) (small : nelems.toInt ≤ maxArraySize)
    (shows : Shows ty mem data nulls nelems.toInt.toNat elems) :
    Cmd.wp (rtNativeArrayToDatum ty data nelems lb nulls) Q E mem =
      Cmd.wp (buildArray ty lb elems) Q E mem := by
  obtain ⟨p, known, flags, rfl, ⟨region, bytes, holds, enough, same⟩, reads, rfl⟩ := shows
  rw [toDatum_unfold positive, if_neg (by omega), Cmd.wp_bind,
    wp_readElems holds (by simpa using enough) (by simpa using same), Cmd.wp_bind, wp_readNulls reads]

/-- The variable gets what PostgreSQL builds. -/
theorem toDatum_stores {arr : ArrayType} (positive : 0 < nelems.toInt) (small : nelems.toInt ≤ maxArraySize)
    (shows : Shows ty mem data nulls nelems.toInt.toNat elems) (built : constructArray ty lb elems = .ok arr) :
    rtNativeArrayToDatum ty data nelems lb nulls mem = (.ok (some arr), mem) := by
  apply Cmd.run_ok
  rw [wp_toDatum_small positive small shows, buildArray, built]
  exact ⟨rfl, rfl⟩

/-- Or what PostgreSQL raises. -/
theorem toDatum_raises {err : ArrayError} (positive : 0 < nelems.toInt) (small : nelems.toInt ≤ maxArraySize)
    (shows : Shows ty mem data nulls nelems.toInt.toNat elems) (refused : constructArray ty lb elems = .error err) :
    rtNativeArrayToDatum ty data nelems lb nulls mem = (.raise err, mem) := by
  apply Cmd.run_raise
  rw [wp_toDatum_small positive small shows, buildArray, refused]
  exact ⟨rfl, rfl⟩

end Outcome

end Store

/-! ### There and back -/

section RoundTrip

variable {ty : ElemType} {mem : Mem} {lb : BitVec 32} {elems : List (Option (BitVec 64))}

/-- The vectors that PostgreSQL can build. -/
def Storable (ty : ElemType) (lb : BitVec 32) (elems : List (Option (BitVec 64))) : Prop :=
  elems.length ≤ maxArraySize ∧ lb.toInt + elems.length < 2 ^ 31 ∧
    ArrayType.overhead 1 elems.length (elems.any Option.isNone) + ty.size * (elems.filterMap id).length ≤ maxAllocSize

instance instDecidableStorable : Decidable (Storable ty lb elems) := inferInstanceAs (Decidable (_ ∧ _))

theorem pack_size {bitmap : Bool} (small : elems.length ≤ maxArraySize) :
    (pack ty bitmap lb elems).size =
      ArrayType.overhead 1 elems.length bitmap + ty.size * (elems.filterMap id).length := by
  rw [ArrayType.size, pack_items small, ← packData_length]
  cases bitmap <;> rfl

theorem any_isNone_iff : elems.any Option.isNone = true ↔ none ∈ elems := by
  simp [List.any_eq_true]

theorem needed_bitmap : elems.any Option.isNone = true ∨ none ∉ elems := by
  by_cases member : none ∈ elems
  · exact .inl (any_isNone_iff.mpr member)
  · exact .inr member

theorem constructArray_ok (fits : Storable ty lb elems) :
    constructArray ty lb elems = .ok (pack ty (elems.any Option.isNone) lb elems) := by
  obtain ⟨small, bound, size⟩ := fits
  rw [constructArray, packArray, if_neg (by omega), if_neg (by omega), pack_size small, if_neg (by omega)]

theorem constructArray_error (refused : ¬ Storable ty lb elems) : ∃ err, constructArray ty lb elems = .error err := by
  unfold constructArray packArray
  split
  · exact ⟨_, rfl⟩
  split
  · exact ⟨_, rfl⟩
  split
  · exact ⟨_, rfl⟩
  rename_i small bound size
  rw [pack_size (by omega)] at size
  exact absurd ⟨by omega, by omega, by omega⟩ refused

/-- A vector that exists can be built again. -/
theorem VectorFacts.storable {arr : ArrayType} {nelems : BitVec 32} (facts : VectorFacts ty arr nelems lb)
    (wf : arr.WellFormed ty) (dims : arr.dims = [(nelems, lb)]) : Storable ty lb (arr.elements ty) := by
  have length := facts.length
  have small := facts.small
  have bound := facts.bound
  have size := wf.size
  rw [ArrayType.size, wf.data, dims] at size
  refine ⟨by omega, by omega, Nat.le_trans (Nat.add_le_add_right ?_ _) size⟩
  have items : arr.items = (arr.elements ty).length := by
    rw [facts.items]
    omega
  rw [items]
  -- There is a bitmap if there is a NULL.
  cases bitmap : arr.bitmap with
  | some bits =>
    cases (arr.elements ty).any Option.isNone with
    | true => exact Nat.le_refl _
    | false =>
      simp only [ArrayType.overhead, ArrayType.maxalign, Option.isSome_some, if_true, Bool.false_eq_true, if_false,
        List.length_singleton]
      omega
  | none =>
    have none : (arr.elements ty).any Option.isNone = false := by
      rw [Bool.eq_false_iff, ne_eq, any_isNone_iff, ArrayType.elements, bitmap]
      exact unpack_none_notMem _ _ _
    rw [none]
    exact Nat.le_refl _

/-- A loaded mirror shows the array. -/
theorem shows_of_flat {p : Nat} {nulls : Option Nat} (canonical : ∀ d, some d ∈ elems → ty.Canonical d)
    (holds : PointsTo mem p .heap ((flatBytes ty elems).map some)) (absent : nulls = none → none ∉ elems)
    (flags : ∀ q, nulls = some q → PointsTo mem q .heap ((flagsOf elems).map some)) :
    Shows ty mem (some p) nulls elems.length elems := by
  have read : Reads mem p (elems.length * ty.size) (flatBytes ty elems) := by
    refine ⟨.heap, _, holds, ?_, ?_⟩
    · rw [List.length_map, flatBytes_length]
    · rw [List.take_of_length_le]
      rw [List.length_map, flatBytes_length]
  cases nulls with
  | none =>
    refine ⟨p, _, List.replicate elems.length false, rfl, read, rfl, ?_⟩
    have all : (elems.map fun e => e.getD 0).map some = elems := by
      rw [List.map_map]
      conv_rhs => rw [← List.map_id elems]
      refine List.map_congr_left fun e member => ?_
      cases e with
      | none => exact absurd member (absent rfl)
      | some d => rfl
    have length : elems.length = (elems.map fun e => e.getD 0).length := by rw [List.length_map]
    rw [elemsOf_flatBytes canonical]
    conv_rhs => rw [length, withNulls_none, all]
  | some q =>
    have marks : Reads mem q elems.length (flagsOf elems) := by
      refine ⟨.heap, _, flags q rfl, ?_, ?_⟩
      · simp [flagsOf]
      · rw [List.take_of_length_le]
        simp [flagsOf]
    refine ⟨p, _, _, rfl, read, ⟨_, marks, rfl⟩, ?_⟩
    rw [elemsOf_flatBytes canonical, withNulls_flags]

/-- The array that comes back. -/
theorem pack_round (fits : Storable ty lb elems) (nonempty : 0 < elems.length)
    (canonical : ∀ d, some d ∈ elems → ty.Canonical d) :
    (pack ty (elems.any Option.isNone) lb elems).WellFormed ty ∧
      (pack ty (elems.any Option.isNone) lb elems).denote ty = .flat lb elems :=
  ⟨packArray_wellFormed nonempty needed_bitmap (constructArray_ok fits), pack_denote fits.1 needed_bitmap canonical⟩

/-- A variable that holds a vector. -/
theorem denoteVar_flat {var : Option ArrayType} (wf : WellFormedVar ty var) (value : denoteVar ty var = .flat lb elems) :
    Storable ty lb elems ∧ 0 < elems.length ∧ ∀ d, some d ∈ elems → ty.Canonical d := by
  cases var with
  | none => cases value
  | some arr =>
    match dims : arr.dims with
    | [] =>
      simp only [denoteVar, ArrayType.denote, dims] at value
      cases value
    | d :: d' :: rest =>
      simp only [denoteVar, ArrayType.denote, dims] at value
      cases value
    | [(nelems, bound)] =>
      simp only [denoteVar, ArrayType.denote, dims] at value
      cases value
      have facts := (wf arr rfl).vector dims
      have positive := facts.positive
      have length := facts.length
      exact ⟨facts.storable (wf arr rfl) dims, by omega, facts.canonical⟩

/-- Loading the mirror of a variable and storing it again. -/
theorem load_store {var : Option ArrayType} (wf : WellFormedVar ty var) (mem : Mem) :
    ∃ m mem' stored, rtNativeArrayFromDatum ty var mem = (.ok m, mem') ∧
      rtNativeArrayToDatum ty m.data m.nelems m.lb m.nulls mem' = (.ok stored, mem') ∧
      denoteVar ty (stored.or var) = denoteVar ty var := by
  have loads : Cmd.wp (rtNativeArrayFromDatum ty var) (Loaded ty var mem) (fun _ _ => False) mem := wp_fromDatum wf
  obtain ⟨m, mem', ran, loaded⟩ := Cmd.exists_ok_of_wp loads
  cases loaded with
  | absent => exact ⟨_, _, none, ran, toDatum_skips (.inl rfl), rfl⟩
  | multi => exact ⟨_, _, none, ran, toDatum_skips (.inl rfl), rfl⟩
  | @flat lb nelems elems p nulls mem' value length fresh holds absent flags frame =>
    obtain ⟨fits, nonempty, canonical⟩ := denoteVar_flat wf value
    have few := fits.1
    have count : nelems.toInt.toNat = elems.length := by omega
    have shows : Shows ty mem' (some p) nulls nelems.toInt.toNat elems := by
      rw [count]
      exact shows_of_flat canonical holds absent fun q here => (flags q here).2.2
    refine ⟨_, _, _, ran, toDatum_stores (by simp only; omega) (by simp only; omega) shows (constructArray_ok fits), ?_⟩
    rw [value]
    exact (pack_round fits nonempty canonical).2

/-- Storing a mirror and loading it again. -/
theorem store_load {data nulls : Option Nat} {nelems : BitVec 32} (positive : 0 < nelems.toInt)
    (shows : Shows ty mem data nulls nelems.toInt.toNat elems) (fits : Storable ty lb elems) :
    ∃ arr m mem', rtNativeArrayToDatum ty data nelems lb nulls mem = (.ok (some arr), mem) ∧
      rtNativeArrayFromDatum ty (some arr) mem = (.ok m, mem') ∧ m.nelems = nelems ∧ m.lb = lb ∧
      Shows ty mem' m.data m.nulls nelems.toInt.toNat elems := by
  have length := shows.length
  have small := fits.1
  have canonical := shows.canonical
  obtain ⟨wf, value⟩ := pack_round fits (by omega) canonical
  have wfVar : WellFormedVar ty (some (pack ty (elems.any Option.isNone) lb elems)) := by
    rintro arr ⟨⟩
    exact wf
  have loads : Cmd.wp (rtNativeArrayFromDatum ty (some (pack ty (elems.any Option.isNone) lb elems)))
    (Loaded ty _ mem) (fun _ _ => False) mem := wp_fromDatum wfVar
  obtain ⟨m, mem', ran, loaded⟩ := Cmd.exists_ok_of_wp loads
  refine ⟨_, m, mem', toDatum_stores positive (by omega) shows (constructArray_ok fits), ran, ?_⟩
  cases loaded with
  | absent other =>
    rw [denoteVar, value] at other
    rcases other with other | other <;> cases other
  | multi other =>
    rw [denoteVar, value] at other
    cases other
  | flat same length' fresh holds absent flags frame =>
    rw [denoteVar, value] at same
    cases same
    refine ⟨BitVec.eq_of_toInt_eq (by simp only; omega), rfl, ?_⟩
    rw [← length]
    exact shows_of_flat canonical holds absent fun q here => (flags q here).2.2

/-- Marshalling there and back. A variable denotes the same array after it, and a
mirror whose elements PostgreSQL can hold in one array comes back with the same
length, bound and elements. Storing any other mirror raises an error and changes
nothing. -/
theorem marshalling_round_trip (ty : ElemType) :
    (∀ (var : Option ArrayType) (mem : Mem), WellFormedVar ty var →
      ∃ m mem' stored, rtNativeArrayFromDatum ty var mem = (.ok m, mem') ∧
        rtNativeArrayToDatum ty m.data m.nelems m.lb m.nulls mem' = (.ok stored, mem') ∧
        denoteVar ty (stored.or var) = denoteVar ty var) ∧
    ∀ (mem : Mem) (data nulls : Option Nat) (nelems lb : BitVec 32) (elems : List (Option (BitVec 64))),
      0 < nelems.toInt → Shows ty mem data nulls nelems.toInt.toNat elems →
      (Storable ty lb elems →
        ∃ arr m mem', rtNativeArrayToDatum ty data nelems lb nulls mem = (.ok (some arr), mem) ∧
          rtNativeArrayFromDatum ty (some arr) mem = (.ok m, mem') ∧ m.nelems = nelems ∧ m.lb = lb ∧
          Shows ty mem' m.data m.nulls nelems.toInt.toNat elems) ∧
      (¬ Storable ty lb elems → ∃ err, rtNativeArrayToDatum ty data nelems lb nulls mem = (.raise err, mem)) := by
  refine ⟨fun var mem wf => load_store wf mem, fun mem data nulls nelems lb elems positive shows =>
    ⟨fun fits => store_load positive shows fits, fun refused => ?_⟩⟩
  by_cases large : maxArraySize < nelems.toInt
  · obtain ⟨p, known, flags, rfl, -⟩ := shows
    exact ⟨_, toDatum_large positive large⟩
  · obtain ⟨err, raised⟩ := constructArray_error refused
    exact ⟨err, toDatum_raises positive (by omega) shows raised⟩

/-- Two elements of which the second has the greatest subscript. -/
def atTheEnd : Mem := [⟨.heap, true, List.replicate 8 (some 0)⟩]

theorem atTheEnd_shows : Shows .int4 atTheEnd (some 0) none 2 [some 0, some 0] :=
  ⟨0, List.replicate 8 0, [false, false], rfl, ⟨.heap, List.replicate 8 (some 0), rfl, by decide, rfl⟩, rfl, rfl⟩

/-- The array '{7,NULL}' and the mirror of two elements, from the subscript 1 on. -/
theorem marshalling_two_elements :
    (∃ m mem' stored, rtNativeArrayFromDatum .int4 (some (pack .int4 true 1 [some 7, none])) [] = (.ok m, mem') ∧
      rtNativeArrayToDatum .int4 m.data m.nelems m.lb m.nulls mem' = (.ok stored, mem') ∧
      denoteVar .int4 (stored.or (some (pack .int4 true 1 [some 7, none]))) = .flat 1 [some 7, none]) ∧
    ∃ arr m mem', rtNativeArrayToDatum .int4 (some 0) 2 1 none atTheEnd = (.ok (some arr), atTheEnd) ∧
      rtNativeArrayFromDatum .int4 (some arr) atTheEnd = (.ok m, mem') ∧ m.nelems = 2 ∧ m.lb = 1 ∧
      Shows .int4 mem' m.data m.nulls 2 [some 0, some 0] := by
  have wf : WellFormedVar .int4 (some (pack .int4 true 1 [some 7, none])) := by
    rintro arr ⟨⟩
    have packed : packArray .int4 true 1 [some 7, none] = .ok (pack .int4 true 1 [some 7, none]) := by
      decide +kernel
    exact packArray_wellFormed (by decide) (.inl rfl) packed
  have value : denoteVar .int4 (some (pack .int4 true 1 [some 7, none])) = .flat 1 [some 7, none] := by
    decide +kernel
  obtain ⟨m, mem', stored, loads, stores, same⟩ := (marshalling_round_trip .int4).1 _ [] wf
  exact ⟨⟨m, mem', stored, loads, stores, same.trans value⟩,
    ((marshalling_round_trip .int4).2 atTheEnd (some 0) none 2 1 [some 0, some 0] (by decide) atTheEnd_shows).1
      (by decide)⟩

theorem marshalling_atTheEnd_raises :
    ¬ ∀ (mem : Mem) (data nulls : Option Nat) (nelems lb : BitVec 32) (elems : List (Option (BitVec 64))),
      0 < nelems.toInt → Shows .int4 mem data nulls nelems.toInt.toNat elems →
      ∃ arr m mem' mem'', rtNativeArrayToDatum .int4 data nelems lb nulls mem = (.ok (some arr), mem') ∧
        rtNativeArrayFromDatum .int4 (some arr) mem' = (.ok m, mem'') ∧ m.nelems = nelems ∧ m.lb = lb ∧
        Shows .int4 mem'' m.data m.nulls nelems.toInt.toNat elems := by
  intro always
  obtain ⟨arr, m, mem', mem'', stored, -⟩ :=
    always atTheEnd (some 0) none 2 2147483646 [some 0, some 0] (by decide) atTheEnd_shows
  have raised : rtNativeArrayToDatum .int4 (some 0) 2 2147483646 none atTheEnd =
      (.raise (.lowerBoundTooLarge 2147483646), atTheEnd) := by decide +kernel
  rw [raised] at stored
  cases stored

end RoundTrip

end Uplpgsql
