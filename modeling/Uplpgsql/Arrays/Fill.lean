import Uplpgsql.Arrays.Safety
import Uplpgsql.Arrays.Packed

/-!
# The interception of array_fill

`uplpgsql_try_compile_assign` replaces `a := array_fill(v, ARRAY[n])` for a
native array by a flat allocation and a loop. The function is recognised by its
name, the fill value is stored in the register it was compiled in, and nothing
is tested. What PostgreSQL does with the same assignment is `assignFilled`:
`array_fill_internal`, then the cast of each element to the array's type.
-/

namespace Uplpgsql

open Lib.Words

/-! ### Which calls are lowered -/

/-- What the compiler sees of an argument: its class, and whether it is an external
parameter. -/
structure ArgNode where
  cls : ExprTypeClass
  externParam : Bool

/-- The second argument, if it is an ArrayExpr, by its elements. -/
structure FillCall where
  funcname : String
  nspname : String
  fill : ArgNode
  dims : Option (List ArgNode)
  /-- The arguments after the second. -/
  more : List ArgNode

inductive Lowering where
  | flat (fill : ElemType)
  /-- Another way to compile the assignment. -/
  | standard
  /-- `elog(ERROR)` at compile time. -/
  | unhandled
  deriving DecidableEq, Repr

def ExprTypeClass.elemType : ExprTypeClass → Option ElemType
  | .int4 => some .int4
  | .int8 => some .int8
  | .float8 => some .float8
  | _ => none

/-- An argument of another class is compiled nevertheless if it is a parameter, and
`uplpgsql_compile_expr_datum` then does not know its type. -/
def ArgNode.other (arg : ArgNode) : Lowering := if arg.externParam then .unhandled else .standard

/-- The interception. Only the name of the function is compared. -/
def lowerArrayFill (call : FillCall) : Lowering :=
  if call.funcname ≠ "array_fill" then .standard
  else
    match call.dims with
    | some [size] =>
      if size.cls ≠ .int4 then size.other
      else
        match call.fill.cls.elemType with
        | some fill => .flat fill
        | none => call.fill.other
    | _ => .standard

/-! ### The compiled assignment -/

/-- The low half of a Datum, as an int4 register. -/
def int4Of (d : BitVec 64) : BitVec 32 := d.setWidth 32

/-- The element that a store of the fill value leaves in a cleared slot, as a Datum.
An int4 is widened for int8 elements and an int8 cut for int4 elements; any other
register is stored as it is. There is none where the register is wider than the
element. -/
def storedElem : ElemType → ElemType → BitVec 64 → Option (BitVec 64)
  | .int4, .int4, v => some ((int4Of v).signExtend 64)
  | .int4, .int8, v => some ((int4Of v).signExtend 64)
  | .int4, .float8, v => some ((int4Of v).setWidth 64)
  | .int8, .int4, v => some ((int4Of v).signExtend 64)
  | .int8, .int8, v => some v
  | .int8, .float8, v => some v
  | .float8, .int4, _ => none
  | .float8, .int8, v => some v
  | .float8, .float8, v => some v

/-- A float8 stored over two int4 elements. -/
def storeWide (data : List (BitVec 64)) (idx0 : Int) (v : BitVec 64) :
    Native ArrayError (List (BitVec 64)) := do
  let data ← storeAt (some data) idx0 ((int4Of v).signExtend 64)
  storeAt (some data) (idx0 + 1) ((int4Of (v >>> 32)).signExtend 64)

def fillLoopWide (n : BitVec 32) (v : BitVec 64) :
    Nat → BitVec 32 → List (BitVec 64) → Native ArrayError (List (BitVec 64))
  | 0, _, _ => .undefined
  | fuel + 1, idx, data =>
    if idx.slt n then do
      let byteOff := (idx * 4).toInt
      let data ← storeWide data (byteOff / 4) v
      fillLoopWide n v fuel (idx + 1) data
    else .ok data

/-- `a := array_fill(v, ARRAY[n])` for float8 values and int4 elements. -/
def arrayFillWide (s : NativeArray) (n : BitVec 32) (v : BitVec 64) : Native ArrayError Unit × NativeArray :=
  match arrayFill 4 s n 0 with
  | (.ok (), s') =>
    match fillLoopWide n v (n.toInt.toNat + 1) 0 (s'.data.getD []) with
    | .ok data => (.ok (), { s' with data := some data })
    | .raise err => (.raise err, s')
    | .undefined => (.undefined, s')
  | failed => failed

/-- The arguments as the compiled code loads them: without their NULL flags. A third
argument is not evaluated. -/
def runArrayFill (fill elem : ElemType) (s : NativeArray) (n v : NullableDatum) :
    Native ArrayError Unit × NativeArray :=
  match storedElem fill elem v.value with
  | some word => arrayFill elem.size s (int4Of n.value) word
  | none => arrayFillWide s (int4Of n.value) v.value

/-! ### What PostgreSQL does -/

def dimensionArrayNull : ErrorData :=
  ⟨errcodeNullValueNotAllowed, "dimension array or low bound array cannot be null"⟩

def dimensionValuesNull : ErrorData := ⟨errcodeNullValueNotAllowed, "dimension values cannot be null"⟩

def byteSizeExceeded : ErrorData :=
  ⟨errcodeProgramLimitExceeded, "array size exceeds the maximum allowed (" ++ toString maxAllocSize ++ ")"⟩

/-- `ARR_OVERHEAD_NONULLS(1)`. -/
def arrOverheadNonulls : Nat := 24

/-- The lower bound of the result, from the array of lower bounds if there is one. -/
def fillLowerBound : Option ArrayDatum → Except ErrorData (BitVec 32)
  | none => .ok 1
  | some .null => .error dimensionArrayNull
  | some .empty => .error ArrayError.wrongSubscripts.report
  | some (.multi _ _) => .error ArrayError.wrongSubscripts.report
  | some (.flat _ elems) =>
    if elems.any Option.isNone then .error dimensionValuesNull
    else
      match elems with
      | [some lb] => .ok (int4Of lb)
      | _ => .error ArrayError.wrongSubscripts.report

/-- Allocates an array of `n` elements without NULLs. -/
def allocArray (ty : ElemType) (n : Nat) (a : ArrayDatum) : Except ErrorData ArrayDatum :=
  if maxAllocSize < n * ty.size then .error byteSizeExceeded
  else if maxAllocSize < n * ty.size + arrOverheadNonulls then
    .error (ArrayError.invalidAllocSize (n * ty.size + arrOverheadNonulls)).report
  else .ok a

/-- The array, once its size and lower bound are known: `ArrayGetNItems` and
`ArrayCheckBounds`, then the elements. -/
def fillSized (fill : ElemType) (v : Option (BitVec 64)) (n lb : BitVec 32) : Except ErrorData ArrayDatum :=
  if n.toInt < 0 ∨ maxArraySize < n.toInt then .error ArrayError.sizeExceeded.report
  else if 2 ^ 31 ≤ lb.toInt + n.toInt then .error (ArrayError.lowerBoundTooLarge lb).report
  else if n.toInt = 0 then .ok .empty
  else
    match v with
    -- An array of NULLs has no data.
    | none => .ok (.flat lb (List.replicate n.toInt.toNat none))
    | some v => allocArray fill n.toInt.toNat (.flat lb (List.replicate n.toInt.toNat (some v)))

/-- `array_fill_internal` for an array of one dimension, after the test for a NULL
array of lower bounds. -/
def arrayFillInternal (fill : ElemType) (n : Option (BitVec 32)) (lbs : Option ArrayDatum)
    (v : Option (BitVec 64)) : Except ErrorData ArrayDatum :=
  if lbs = some .null then .error dimensionArrayNull
  else
    match n with
    | none => .error dimensionValuesNull
    | some n => do fillSized fill v n (← fillLowerBound lbs)

/-- The conversions between numbers and float8. -/
structure FloatCasts where
  float8 : Int → BitVec 64
  dtoi4 : BitVec 64 → Except ErrorData (BitVec 64)
  dtoi8 : BitVec 64 → Except ErrorData (BitVec 64)

/-- The assignment cast of an element. -/
def castElem (casts : FloatCasts) : ElemType → ElemType → BitVec 64 → Except ErrorData (BitVec 64)
  | .int4, .int4, v => .ok ((int4Of v).signExtend 64)
  | .int4, .int8, v => .ok ((int4Of v).signExtend 64)
  | .int4, .float8, v => .ok (casts.float8 (int4Of v).toInt)
  | .int8, .int4, v => if (int4Of v).signExtend 64 = v then .ok v else .error rtIntOverflow
  | .int8, .int8, v => .ok v
  | .int8, .float8, v => .ok (casts.float8 v.toInt)
  | .float8, .int4, v => casts.dtoi4 v
  | .float8, .int8, v => casts.dtoi8 v
  | .float8, .float8, v => .ok v

/-- The cast of a filled array to the type of the variable. -/
def castFilled (casts : FloatCasts) (fill elem : ElemType) : Option (BitVec 64) → ArrayDatum →
    Except ErrorData ArrayDatum
  | some v, .flat lb elems => do
    let word ← castElem casts fill elem v
    allocArray elem elems.length (.flat lb (List.replicate elems.length (some word)))
  | _, a => .ok a

/-- The value of the assignment `a := array_fill(v, ARRAY[n], lbs)`. -/
def assignFilled (casts : FloatCasts) (fill elem : ElemType) (n : Option (BitVec 32))
    (lbs : Option ArrayDatum) (v : Option (BitVec 64)) : Except ErrorData ArrayDatum := do
  castFilled casts fill elem v (← arrayFillInternal fill n lbs v)

/-- Values of the element's type, and int4 values for int8 elements, are stored as
the cast has them; an int8 value for int4 elements if it fits. -/
theorem storedElem_cast (casts : FloatCasts) {fill elem : ElemType} {v : BitVec 64}
    (alike : fill = elem ∨ fill = .int4 ∧ elem = .int8 ∨
      fill = .int8 ∧ elem = .int4 ∧ (int4Of v).signExtend 64 = v) :
    ∃ word, storedElem fill elem v = some word ∧ castElem casts fill elem v = .ok word := by
  rcases alike with rfl | ⟨rfl, rfl⟩ | ⟨rfl, rfl, fits⟩
  · cases fill <;> exact ⟨_, rfl, rfl⟩
  · exact ⟨_, rfl, rfl⟩
  · exact ⟨v, by rw [storedElem, fits], by rw [castElem, if_pos fits]⟩

/-! ### What the compiled assignment does -/

section Compiled

variable {s : NativeArray} {elemSize : Nat} {n : BitVec 32} {v : BitVec 64}

/-- A negative size clears memory that nobody allocated. -/
theorem arrayFill_negative (size : elemSize = 4 ∨ elemSize = 8) (negative : n.toInt < 0) :
    (arrayFill elemSize s n v).1 = .undefined := by
  have below : n.toInt * elemSize < 0 := by
    rcases size with rfl | rfl <;> omega
  have stack : n.toInt * elemSize ≤ nativeArrayStackThreshold := by
    unfold nativeArrayStackThreshold
    omega
  unfold arrayFill
  rw [if_pos ⟨decide_eq_true stack, below⟩]

theorem arrayFill_tooLarge (large : maxAllocSize < n.toInt * elemSize) :
    (arrayFill elemSize s n v).1 = .raise (.invalidAllocSize (n.toInt * elemSize)) := by
  have heap : ¬n.toInt * elemSize ≤ nativeArrayStackThreshold := by
    unfold nativeArrayStackThreshold maxAllocSize at *
    omega
  have positive : ¬n.toInt * elemSize < 0 := by omega
  unfold arrayFill
  rw [if_neg (fun both => positive both.2), if_pos ⟨decide_eq_false heap, large⟩]

/-- The last element has no second half to store into. -/
theorem fillLoopWide_undefined (small : n.toInt * 4 ≤ maxAllocSize) (fuel : Nat) (idx : BitVec 32)
    (data : List (BitVec 64)) (nonneg : 0 ≤ idx.toInt) (below : idx.toInt < n.toInt)
    (length : (data.length : Int) = n.toInt) : fillLoopWide n v fuel idx data = .undefined := by
  induction fuel generalizing idx data with
  | zero => rfl
  | succ fuel ih =>
    have offset : (idx * 4).toInt / 4 = idx.toInt := fillOffset_eq (.inl rfl) small nonneg below
    have wide := toInt_fits n
    have one : (1 : BitVec 32).toInt = 1 := rfl
    have next : (idx + 1).toInt = idx.toInt + 1 := by
      rw [toInt_add_of_fits, one]
      simp only [Fits, one] at *
      omega
    have here : idx.toInt = (idx.toInt.toNat : Int) := by omega
    have there : idx.toInt + 1 = ((idx.toInt.toNat + 1 : Nat) : Int) := by omega
    rw [fillLoopWide, if_pos (by simpa [BitVec.slt] using below)]
    dsimp only
    rw [offset, storeWide, storeAt_inside here (by omega), Native.ok_bind]
    by_cases last : idx.toInt + 1 < n.toInt
    · rw [storeAt_inside there (by rw [List.length_set]; omega), Native.ok_bind]
      exact ih (idx + 1) _ (by omega) (by omega) (by rw [List.length_set, List.length_set]; exact length)
    · have outside : ¬(0 ≤ idx.toInt + 1 ∧ idx.toInt + 1 < (data.set idx.toInt.toNat
          ((int4Of v).signExtend 64)).length) := by
        rw [List.length_set]
        omega
      rw [storeAt, if_neg outside]
      rfl

variable {fill elem : ElemType}

/-- The state after a fill that succeeds, as far as it is fixed. -/
structure Filled (fill elem : ElemType) (n : BitVec 32) (v : BitVec 64) (s' : NativeArray) : Prop where
  len : s'.len = n
  lb : s'.lb = 1
  nulls : s'.nulls = none
  data : 0 < n.toInt →
    ∃ word, storedElem fill elem v = some word ∧ s'.data = some (List.replicate n.toInt.toNat word)

/-- Every way a fill can end. -/
inductive FillEnds (fill elem : ElemType) (n : BitVec 32) (v : BitVec 64) :
    Native ArrayError Unit × NativeArray → Prop where
  | filled {s' : NativeArray} (nonneg : 0 ≤ n.toInt) (small : n.toInt * elem.size ≤ maxAllocSize)
      (filled : Filled fill elem n v s') :
      FillEnds fill elem n v (.ok (), s')
  | tooLarge {s' : NativeArray} (large : maxAllocSize < n.toInt * elem.size) :
      FillEnds fill elem n v (.raise (.invalidAllocSize (n.toInt * elem.size)), s')
  | undefined {s' : NativeArray} (bad : n.toInt < 0 ∨ 0 < n.toInt ∧ storedElem fill elem v = none) :
      FillEnds fill elem n v (.undefined, s')

theorem storedElem_eq_none (none : storedElem fill elem v = none) : fill = .float8 ∧ elem = .int4 := by
  cases fill <;> cases elem <;> first | exact ⟨rfl, rfl⟩ | cases none

theorem arrayFill_ends {word : BitVec 64} (stored : storedElem fill elem v = some word) :
    FillEnds fill elem n v (arrayFill elem.size s n word) := by
  rcases Int.lt_or_le n.toInt 0 with negative | nonneg
  · have bad := arrayFill_negative (s := s) (v := word) elem.size_cases negative
    rw [← Prod.mk.eta (p := arrayFill elem.size s n word), bad]
    exact .undefined (.inl negative)
  · by_cases small : n.toInt * elem.size ≤ maxAllocSize
    · rw [arrayFill_eq elem.size_cases nonneg small word]
      exact .filled nonneg small ⟨rfl, rfl, rfl, fun _ => ⟨word, stored, rfl⟩⟩
    · have large := arrayFill_tooLarge (s := s) (v := word) (Int.not_le.mp small)
      rw [← Prod.mk.eta (p := arrayFill elem.size s n word), large]
      exact .tooLarge (Int.not_le.mp small)

theorem arrayFillWide_ends (wide : storedElem fill elem v = none) :
    FillEnds fill elem n v (arrayFillWide s n v) := by
  obtain ⟨rfl, rfl⟩ := storedElem_eq_none wide
  rcases Int.lt_or_le n.toInt 0 with negative | nonneg
  · have bad := arrayFill_negative (s := s) (v := 0) (.inl rfl) negative
    rw [arrayFillWide, ← Prod.mk.eta (p := arrayFill 4 s n 0), bad]
    exact .undefined (.inl negative)
  · by_cases small : n.toInt * (4 : Nat) ≤ maxAllocSize
    · rw [arrayFillWide, arrayFill_eq (.inl rfl) nonneg small 0]
      dsimp only [Option.getD_some]
      by_cases some : 0 < n.toInt
      · have bad := fillLoopWide_undefined (v := v) small (n.toInt.toNat + 1) 0
          (List.replicate n.toInt.toNat 0) (by decide) some (by rw [List.length_replicate]; omega)
        rw [bad]
        exact .undefined (.inr ⟨some, wide⟩)
      · have zero : n.toInt = 0 := by omega
        have done : fillLoopWide n v (n.toInt.toNat + 1) 0 (List.replicate n.toInt.toNat 0) =
            .ok (List.replicate n.toInt.toNat 0) := by
          rw [fillLoopWide, if_neg]
          rw [BitVec.slt, zero]
          decide
        rw [done]
        exact .filled nonneg small ⟨rfl, rfl, rfl, fun positive => absurd positive some⟩
    · have large := arrayFill_tooLarge (s := s) (v := 0) (Int.not_le.mp small)
      rw [arrayFillWide, ← Prod.mk.eta (p := arrayFill 4 s n 0), large]
      exact .tooLarge (Int.not_le.mp small)

theorem runArrayFill_ends (fill elem : ElemType) (s : NativeArray) (n v : NullableDatum) :
    FillEnds fill elem (int4Of n.value) v.value (runArrayFill fill elem s n v) := by
  unfold runArrayFill
  cases stored : storedElem fill elem v.value with
  | some word => exact arrayFill_ends stored
  | none => exact arrayFillWide_ends stored

end Compiled

/-! ### What PostgreSQL makes of it -/

section Sql

variable {casts : FloatCasts} {fill elem : ElemType} {lbs : Option ArrayDatum} {v : Option (BitVec 64)}

/-- Room for the array before and after its cast. -/
def RoomFor (fill elem : ElemType) (n : BitVec 32) : Prop :=
  n.toInt.toNat * fill.size + arrOverheadNonulls ≤ maxAllocSize ∧
    n.toInt.toNat * elem.size + arrOverheadNonulls ≤ maxAllocSize

/-- The array that is assigned, for a size that PostgreSQL accepts. -/
inductive SqlFilled (casts : FloatCasts) (fill elem : ElemType) (n : BitVec 32) (lb : BitVec 32) :
    Option (BitVec 64) → ArrayDatum → Prop where
  | empty {v : Option (BitVec 64)} (zero : n.toInt = 0) : SqlFilled casts fill elem n lb v .empty
  | nulls (positive : 0 < n.toInt) :
      SqlFilled casts fill elem n lb none (.flat lb (List.replicate n.toInt.toNat none))
  | values {x word : BitVec 64} (positive : 0 < n.toInt) (room : RoomFor fill elem n)
      (cast : castElem casts fill elem x = .ok word) :
      SqlFilled casts fill elem n lb (some x) (.flat lb (List.replicate n.toInt.toNat (some word)))

theorem allocArray_eq_ok {ty : ElemType} {n : Nat} {a b : ArrayDatum} (ok : allocArray ty n a = .ok b) :
    a = b ∧ n * ty.size + arrOverheadNonulls ≤ maxAllocSize := by
  unfold allocArray at ok
  split at ok
  next => cases ok
  next =>
    split at ok
    next => cases ok
    next fits => exact ⟨Except.ok.inj ok, Nat.not_lt.mp fits⟩

theorem allocArray_ok {ty : ElemType} {n : Nat} (a : ArrayDatum)
    (room : n * ty.size + arrOverheadNonulls ≤ maxAllocSize) : allocArray ty n a = .ok a := by
  unfold allocArray
  rw [if_neg (by omega), if_neg (by omega)]

theorem fillLowerBound_error {edata : ErrorData} (error : fillLowerBound lbs = .error edata) :
    edata.sqlerrcode ≠ errcodeInternalError := by
  unfold fillLowerBound at error
  split at error
  case h_1 => cases error
  case h_5 =>
    split at error
    · obtain rfl := Except.error.inj error
      decide +kernel
    · split at error
      · cases error
      · obtain rfl := Except.error.inj error
        decide +kernel
  all_goals
    obtain rfl := Except.error.inj error
    decide +kernel

/-- A NULL array of lower bounds is refused in either place. -/
theorem arrayFillInternal_some (fill : ElemType) (n : BitVec 32) (lbs : Option ArrayDatum)
    (v : Option (BitVec 64)) :
    arrayFillInternal fill (some n) lbs v = fillLowerBound lbs >>= fillSized fill v n := by
  unfold arrayFillInternal
  split
  next null => rw [null]; rfl
  next => rfl

/-- The errors for a NULL size and for a size beyond the limit. -/
theorem assignFilled_refuses {n : Option (BitVec 32)}
    (bad : n = none ∨ ∃ size : BitVec 32, n = some size ∧ maxArraySize < size.toInt) :
    ∃ edata, assignFilled casts fill elem n lbs v = .error edata ∧
      edata.sqlerrcode ≠ errcodeInternalError := by
  rcases bad with rfl | ⟨size, rfl, large⟩
  · by_cases null : lbs = some .null
    · refine ⟨dimensionArrayNull, ?_, by decide +kernel⟩
      rw [assignFilled, arrayFillInternal, if_pos null]
      rfl
    · refine ⟨dimensionValuesNull, ?_, by decide +kernel⟩
      rw [assignFilled, arrayFillInternal, if_neg null]
      rfl
  · rw [assignFilled, arrayFillInternal_some]
    cases bound : fillLowerBound lbs with
    | error edata => exact ⟨edata, rfl, fillLowerBound_error bound⟩
    | ok lb =>
      refine ⟨ArrayError.sizeExceeded.report, ?_, by decide +kernel⟩
      change (fillSized fill v size lb >>= castFilled casts fill elem v) = _
      unfold fillSized
      rw [if_pos (.inr large)]
      rfl

theorem fillSized_ok {n lb : BitVec 32} {a : ArrayDatum}
    (ok : (fillSized fill v n lb >>= castFilled casts fill elem v) = .ok a) :
    n.toInt ≤ maxArraySize ∧ SqlFilled casts fill elem n lb v a := by
  unfold fillSized at ok
  split at ok
  next => cases ok
  next size =>
    have small : n.toInt ≤ maxArraySize := by omega
    refine ⟨small, ?_⟩
    split at ok
    next => cases ok
    next =>
      split at ok
      next zero =>
        have same : castFilled casts fill elem v .empty = .ok a := ok
        have empty : castFilled casts fill elem v .empty = .ok .empty := by cases v <;> rfl
        obtain rfl := Except.ok.inj (empty.symm.trans same)
        exact .empty zero
      next nonzero =>
        have positive : 0 < n.toInt := by omega
        cases v with
        | none =>
          obtain rfl := Except.ok.inj ok
          exact .nulls positive
        | some x =>
          dsimp only at ok
          cases allocated : allocArray fill n.toInt.toNat
              (.flat lb (List.replicate n.toInt.toNat (some x))) with
          | error edata =>
            rw [allocated] at ok
            cases ok
          | ok b =>
            obtain ⟨rfl, room⟩ := allocArray_eq_ok allocated
            rw [allocated] at ok
            change castFilled casts fill elem (some x)
              (.flat lb (List.replicate n.toInt.toNat (some x))) = .ok a at ok
            rw [castFilled] at ok
            cases cast : castElem casts fill elem x with
            | error edata =>
              rw [cast] at ok
              cases ok
            | ok word =>
              rw [cast] at ok
              obtain ⟨rfl, room'⟩ := allocArray_eq_ok ok
              rw [List.length_replicate] at room' ⊢
              exact .values positive ⟨room, room'⟩ cast

theorem assignFilled_ok {n : Option (BitVec 32)} {a : ArrayDatum}
    (ok : assignFilled casts fill elem n lbs v = .ok a) :
    ∃ size lb, n = some size ∧ fillLowerBound lbs = .ok lb ∧ size.toInt ≤ maxArraySize ∧
      SqlFilled casts fill elem size lb v a := by
  cases n with
  | none =>
    obtain ⟨edata, error, -⟩ : ∃ edata, assignFilled casts fill elem none lbs v = .error edata ∧
        edata.sqlerrcode ≠ errcodeInternalError := assignFilled_refuses (.inl rfl)
    rw [error] at ok
    cases ok
  | some n =>
    rw [assignFilled, arrayFillInternal_some] at ok
    cases bound : fillLowerBound lbs with
    | error edata =>
      rw [bound] at ok
      cases ok
    | ok lb =>
      rw [bound] at ok
      exact ⟨n, lb, rfl, rfl, fillSized_ok ok⟩

/-- The other way round. -/
theorem SqlFilled.assigned {n lb : BitVec 32} {a : ArrayDatum} (filled : SqlFilled casts fill elem n lb v a)
    (bound : fillLowerBound lbs = .ok lb) (small : n.toInt ≤ maxArraySize)
    (bounds : lb.toInt + n.toInt < 2 ^ 31) : assignFilled casts fill elem (some n) lbs v = .ok a := by
  rw [assignFilled, arrayFillInternal_some, bound]
  change (fillSized fill v n lb >>= castFilled casts fill elem v) = .ok a
  unfold fillSized
  cases filled with
  | empty zero =>
    rw [if_neg (by omega), if_neg (by omega), if_pos zero]
    cases v <;> rfl
  | nulls positive =>
    rw [if_neg (by omega), if_neg (by omega), if_neg (by omega)]
    rfl
  | @values x word positive room cast =>
    rw [if_neg (by omega), if_neg (by omega), if_neg (by omega)]
    dsimp only
    rw [allocArray_ok _ room.1]
    change castFilled casts fill elem (some x)
      (.flat lb (List.replicate n.toInt.toNat (some x))) = _
    rw [castFilled, cast, List.length_replicate]
    exact allocArray_ok _ room.2

end Sql

/-! ### The comparison -/

def NullableDatum.int4 (d : NullableDatum) : Option (BitVec 32) := if d.isnull then none else some (int4Of d.value)

def NullableDatum.get (d : NullableDatum) : Option (BitVec 64) := if d.isnull then none else some d.value

/-- The function called is PostgreSQL's, and the mirror denotes what it returns, or
the same error is raised and the mirror denotes what it denoted. -/
def FillMeets (call : FillCall) (s : NativeArray) (ran : Native ArrayError Unit × NativeArray)
    (sql : Except ErrorData ArrayDatum) : Prop :=
  call.nspname = "pg_catalog" ∧
    ((∃ a, sql = .ok a ∧ ran.1 = .ok () ∧ ran.2.Denotes a) ∨
      ∃ err, sql = .error err.report ∧ ran.1 = .raise err ∧ ∀ a, s.Denotes a → ran.2.Denotes a)

/-- What the interception takes for granted. -/
structure FillFits (casts : FloatCasts) (fill elem : ElemType) (n : NullableDatum) (lbs : Option ArrayDatum)
    (v : NullableDatum) : Prop where
  size : n.isnull = false
  nonneg : 0 ≤ (int4Of n.value).toInt
  limit : (int4Of n.value).toInt ≤ maxArraySize
  lowerBound : ∃ lb, fillLowerBound lbs = .ok lb
  /-- An empty array has no lower bound and no elements. -/
  elements : 0 < (int4Of n.value).toInt →
    fillLowerBound lbs = .ok 1 ∧ v.isnull = false ∧ RoomFor fill elem (int4Of n.value) ∧
      ∃ word, storedElem fill elem v.value = some word ∧ castElem casts fill elem v.value = .ok word

/-- The assignment as it is compiled, if it is lowered. -/
def FillCall.run (call : FillCall) (elem : ElemType) (s : NativeArray) (n v : NullableDatum) :
    Option (Native ArrayError Unit × NativeArray) :=
  match lowerArrayFill call with
  | .flat fill => some (runArrayFill fill elem s n v)
  | _ => none

section Compare

variable {casts : FloatCasts} {fill elem : ElemType} {n v : BitVec 64} {s' : NativeArray}

theorem eq_zero_of_toInt {x : BitVec 32} (zero : x.toInt = 0) : x = 0 := BitVec.eq_of_toInt_eq zero

theorem Filled.denotes_empty {n : BitVec 32} (filled : Filled fill elem n v s') (zero : n.toInt = 0) :
    s'.Denotes .empty :=
  ⟨filled.len.trans (eq_zero_of_toInt zero), filled.lb, filled.nulls⟩

theorem Filled.denotes_flat {n : BitVec 32} (filled : Filled fill elem n v s') (positive : 0 < n.toInt)
    (small : n.toInt ≤ maxArraySize) {word : BitVec 64} (stored : storedElem fill elem v = some word) :
    s'.Denotes (.flat 1 (List.replicate n.toInt.toNat (some word))) := by
  obtain ⟨word', same, data⟩ := filled.data positive
  obtain rfl := Option.some.inj (same.symm.trans stored)
  have one : (1 : BitVec 32).toInt = 1 := rfl
  unfold maxArraySize at small
  refine ⟨filled.lb, ?_, ?_, ?_, _, data, ?_, ?_, ?_⟩
  · rw [List.length_replicate]
    omega
  · rw [List.length_replicate, filled.len]
    omega
  · rw [List.length_replicate, one]
    omega
  · rw [List.length_replicate, List.length_replicate]
  · intro flags present
    rw [filled.nulls] at present
    cases present
  · intro k inside
    rw [List.length_replicate] at inside
    rw [filled.nulls]
    simp [inside]

/-- What the first element says about an array that is denoted. -/
theorem Filled.first {n : BitVec 32} (filled : Filled fill elem n v s') (positive : 0 < n.toInt)
    {lb : BitVec 32} {x : Option (BitVec 64)}
    (denotes : s'.Denotes (.flat lb (List.replicate n.toInt.toNat x))) :
    lb = 1 ∧ ∃ word, storedElem fill elem v = some word ∧ x = some word := by
  obtain ⟨word, stored, data⟩ := filled.data positive
  obtain ⟨sameLb, -, -, -, buf, here, -, -, elements⟩ := denotes
  obtain rfl := Option.some.inj (data.symm.trans here)
  have first := elements 0 (by rw [List.length_replicate]; omega)
  rw [filled.nulls] at first
  have present : 0 < n.toInt.toNat := by omega
  refine ⟨sameLb.symm.trans filled.lb, word, stored, ?_⟩
  simpa [present] using first

theorem NullableDatum.int4_eq_some {d : NullableDatum} {x : BitVec 32} (some : d.int4 = some x) :
    d.isnull = false ∧ int4Of d.value = x := by
  unfold NullableDatum.int4 at some
  split at some
  next => cases some
  next present => exact ⟨by simpa using present, Option.some.inj some⟩

/-- The size of what could not be allocated is beyond PostgreSQL's limit too. -/
theorem beyond_limit {elem : ElemType} {n : BitVec 32} (large : maxAllocSize < n.toInt * elem.size) :
    maxArraySize < n.toInt := by
  unfold maxAllocSize at large
  unfold maxArraySize
  rcases elem.size_cases with size | size <;> rw [size] at large <;> omega

variable {n v : NullableDatum} {lbs : Option ArrayDatum} {ran : Native ArrayError Unit × NativeArray}

theorem FillEnds.fits (ends : FillEnds fill elem (int4Of n.value) v.value ran) {a : ArrayDatum}
    (sql : assignFilled casts fill elem n.int4 lbs v.get = .ok a) (ok : ran.1 = .ok ())
    (denotes : ran.2.Denotes a) : FillFits casts fill elem n lbs v := by
  obtain ⟨size, lb, present, bound, limit, assigned⟩ := assignFilled_ok sql
  obtain ⟨notNull, rfl⟩ := NullableDatum.int4_eq_some present
  cases ends with
  | tooLarge | undefined => cases ok
  | filled nonneg small filled =>
    refine ⟨notNull, nonneg, limit, ⟨lb, bound⟩, fun positive => ?_⟩
    generalize given : v.get = value at assigned
    cases assigned with
    | empty zero => omega
    | nulls =>
      obtain ⟨-, word, -, impossible⟩ := filled.first positive denotes
      cases impossible
    | values _ room cast =>
      obtain ⟨rfl, word, stored, same⟩ := filled.first positive denotes
      obtain rfl := Option.some.inj same
      unfold NullableDatum.get at given
      split at given
      next => cases given
      next hasValue =>
        obtain rfl := Option.some.inj given
        exact ⟨bound, by simpa using hasValue, room, _, stored, cast⟩

/-- The errors are never the same. -/
theorem FillEnds.raises_other (ends : FillEnds fill elem (int4Of n.value) v.value ran) {err : ArrayError}
    (raised : ran.1 = .raise err) : assignFilled casts fill elem n.int4 lbs v.get ≠ .error err.report := by
  cases ends with
  | filled | undefined => cases raised
  | tooLarge large =>
    cases raised
    have refused : n.int4 = none ∨ ∃ size : BitVec 32, n.int4 = some size ∧ maxArraySize < size.toInt := by
      unfold NullableDatum.int4
      split
      next => exact .inl rfl
      next => exact .inr ⟨_, rfl, beyond_limit large⟩
    obtain ⟨edata, error, code⟩ : ∃ edata, assignFilled casts fill elem n.int4 lbs v.get = .error edata ∧
        edata.sqlerrcode ≠ errcodeInternalError := assignFilled_refuses refused
    rw [error]
    intro same
    exact code (congrArg ErrorData.sqlerrcode (Except.error.inj same))

theorem FillFits.meets (fits : FillFits casts fill elem n lbs v)
    (ends : FillEnds fill elem (int4Of n.value) v.value ran) :
    ∃ a, assignFilled casts fill elem n.int4 lbs v.get = .ok a ∧ ran.1 = .ok () ∧ ran.2.Denotes a := by
  have size : n.int4 = some (int4Of n.value) := by
    rw [NullableDatum.int4, fits.size]
    rfl
  have limit := fits.limit
  have nonneg := fits.nonneg
  rw [size]
  cases ends with
  | tooLarge large => exact absurd (beyond_limit large) (by omega)
  | undefined bad =>
    rcases bad with negative | ⟨positive, wide⟩
    · omega
    · obtain ⟨-, -, -, word, stored, -⟩ := fits.elements positive
      rw [wide] at stored
      cases stored
  | filled _ small filled =>
    rcases Int.lt_or_eq_of_le nonneg with positive | zero
    · obtain ⟨bound, present, room, word, stored, cast⟩ := fits.elements positive
      have value : v.get = some v.value := by
        rw [NullableDatum.get, present]
        rfl
      have one : (1 : BitVec 32).toInt = 1 := rfl
      have assigned : SqlFilled casts fill elem (int4Of n.value) 1 (some v.value) _ :=
        .values positive room cast
      rw [value]
      refine ⟨_, assigned.assigned bound limit ?_, rfl, filled.denotes_flat positive limit stored⟩
      unfold maxArraySize at limit
      omega
    · obtain ⟨lb, bound⟩ := fits.lowerBound
      have assigned : SqlFilled casts fill elem (int4Of n.value) lb v.get .empty := .empty zero.symm
      refine ⟨_, assigned.assigned bound limit ?_, rfl, filled.denotes_empty zero.symm⟩
      have high := BitVec.toInt_lt (x := lb)
      omega

end Compare

/-- The assignments that are lowered, run. -/
theorem FillCall.run_eq {call : FillCall} {fill : ElemType} (lowered : lowerArrayFill call = .flat fill)
    (elem : ElemType) (s : NativeArray) (n v : NullableDatum) :
    call.run elem s n v = some (runArrayFill fill elem s n v) := by
  rw [FillCall.run, lowered]

theorem FillCall.fits_of_meets {casts : FloatCasts} {call : FillCall} {fill elem : ElemType}
    (lowered : lowerArrayFill call = .flat fill) {s : NativeArray} {n v : NullableDatum}
    {lbs : Option ArrayDatum}
    (meets : ∃ ran, call.run elem s n v = some ran ∧
      FillMeets call s ran (assignFilled casts fill elem n.int4 lbs v.get)) :
    call.nspname = "pg_catalog" ∧ FillFits casts fill elem n lbs v := by
  obtain ⟨ran, same, builtin, met⟩ := meets
  rw [FillCall.run_eq lowered] at same
  obtain rfl := Option.some.inj same
  have ends := runArrayFill_ends fill elem s n v
  refine ⟨builtin, ?_⟩
  rcases met with ⟨a, sql, ok, denotes⟩ | ⟨err, sql, raised, -⟩
  · exact ends.fits sql ok denotes
  · exact absurd sql (ends.raises_other raised)

/-- `array_fill(x, ARRAY[k])` for two int4 variables. -/
def fillVariables : FillCall := ⟨"array_fill", "pg_catalog", ⟨.int4, true⟩, some [⟨.int4, true⟩], []⟩

/-- As far as the conversion of 1 to float8 is concerned. -/
def castsOfOne : FloatCasts where
  float8 n := if n = 1 then 0x3FF0000000000000 else 0
  dtoi4 d := if d = 0x3FF0000000000000 then .ok 1 else .error rtIntOverflow
  dtoi8 d := if d = 0x3FF0000000000000 then .ok 1 else .error rtIntOverflow

end Uplpgsql
