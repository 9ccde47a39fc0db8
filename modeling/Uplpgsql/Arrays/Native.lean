import Uplpgsql.Arrays.Mirror
import Uplpgsql.Env

/-!
# Native arrays at run time

The mirror of an array variable with the capacity of its buffers, beside the
variable itself. An element is written in place, appended, or handed to
`array_set_element`: the mirror is then marshalled into the variable first and
loaded from it again afterwards. Memory never runs out here.
-/

namespace Uplpgsql

open Lib.Words

/-! ### The arrays of PostgreSQL -/

def maxAllocSize : Nat := 1073741823

/-- MaxAllocSize / sizeof(Datum). -/
def maxArraySize : Nat := 134217727

inductive ArrayError where
  | nullSubscript
  | wrongSubscripts
  | sizeExceeded
  | lowerBoundTooLarge (lb : BitVec 32)
  | invalidAllocSize (size : Int)
  deriving DecidableEq, Repr

def errcodeArraySubscriptError : Nat := makeSqlstate '2' '2' '0' '2' 'E'
def errcodeProgramLimitExceeded : Nat := makeSqlstate '5' '4' '0' '0' '0'
def errcodeInternalError : Nat := makeSqlstate 'X' 'X' '0' '0' '0'

def ArrayError.report : ArrayError → ErrorData
  | .nullSubscript => ⟨errcodeNullValueNotAllowed, "array subscript in assignment must not be null"⟩
  | .wrongSubscripts => ⟨errcodeArraySubscriptError, "wrong number of array subscripts"⟩
  | .sizeExceeded =>
    ⟨errcodeProgramLimitExceeded, "array size exceeds the maximum allowed (" ++ toString maxArraySize ++ ")"⟩
  | .lowerBoundTooLarge lb =>
    ⟨errcodeProgramLimitExceeded, "array lower bound is too large: " ++ toString lb.toInt⟩
  | .invalidAllocSize size =>
    ⟨errcodeInternalError, "invalid memory alloc request size " ++ toString size⟩

/-- The one-dimensional arrays that exist: neither their size nor the subscript
after the last one is too large. -/
def ArrayDatum.Valid : ArrayDatum → Prop
  | .flat lb elems => 0 < elems.length ∧ elems.length ≤ maxArraySize ∧ lb.toInt + elems.length < 2 ^ 31
  | _ => True

/-- `construct_md_array` with one dimension, with the tests of `ArrayGetNItems` and
`ArrayCheckBounds`. -/
def constructMdArray (lb : BitVec 32) (elems : List (Option (BitVec 64))) : Except ArrayError ArrayDatum :=
  if maxArraySize < elems.length then .error .sizeExceeded
  else if 2 ^ 31 ≤ lb.toInt + elems.length then .error (.lowerBoundTooLarge lb)
  else .ok (.flat lb elems)

/-- The elements with `v` at the subscript `i`. Those between `i` and the old ones
are NULL. -/
def setElem (i : BitVec 32) (v : Option (BitVec 64)) (lb : BitVec 32) (elems : List (Option (BitVec 64))) :
    BitVec 32 × List (Option (BitVec 64)) :=
  if i.toInt < lb.toInt then (i, v :: (List.replicate (lb.toInt - i.toInt - 1).toNat none ++ elems))
  else if i.toInt < lb.toInt + elems.length then (lb, elems.set (i.toInt - lb.toInt).toNat v)
  else (lb, elems ++ (List.replicate (i.toInt - lb.toInt - elems.length).toNat none ++ [v]))

/-- `array_set_element` with one subscript; a NULL array is taken as an empty one. -/
def arraySetElement (i : BitVec 32) (v : Option (BitVec 64)) : ArrayDatum → Except ArrayError ArrayDatum
  | .null => constructMdArray i [v]
  | .empty => constructMdArray i [v]
  | .multi _ _ => .error .wrongSubscripts
  | .flat lb elems => constructMdArray (setElem i v lb elems).1 (setElem i v lb elems).2

/-! ### Slots -/

/-- All slots of a native array, and its variable. -/
structure NativeArray extends Mirror where
  cap : BitVec 32
  isHeap : Bool
  var : ArrayDatum
  deriving DecidableEq, Repr

/-- The slots at the entry of a function. -/
def NativeArray.init (var : ArrayDatum) : NativeArray :=
  { data := none, len := 0, lb := 1, nulls := none, cap := 0, isHeap := false, var := var }

/-- A store into a buffer. -/
def storeAt {ε α : Type} (buffer : Option (List α)) (idx0 : Int) (x : α) : Native ε (List α) :=
  match buffer with
  | none => .undefined
  | some xs => if 0 ≤ idx0 ∧ idx0 < xs.length then .ok (xs.set idx0.toNat x) else .undefined

/-- A buffer of `n` elements that starts with the given ones. What else is in it
does not matter. -/
def resize {α : Type} (n : Nat) (fresh : α) (xs : List α) : List α :=
  xs.take n ++ List.replicate (n - xs.length) fresh

/-- The elements that marshalling reads. -/
def Mirror.elements {ε : Type} (m : Mirror) (buf : List (BitVec 64)) : Native ε (List (Option (BitVec 64))) :=
  let n := m.len.toInt.toNat
  if buf.length < n then .undefined
  else
    match m.nulls with
    | none => .ok ((buf.take n).map some)
    | some flags =>
      if flags.length < n then .undefined
      else .ok (List.zipWith (fun d isnull => if isnull then none else some d) (buf.take n) (flags.take n))

/-- `uplpgsql_rt_native_array_from_datum`. An array without NULLs may still have a
bitmap for them. -/
def nativeArrayFromDatum (bitmap : Bool) : ArrayDatum → Mirror
  | .null => ⟨none, 0, 1, none⟩
  | .empty => ⟨none, 0, 1, none⟩
  | .multi _ _ => ⟨none, -1, 1, none⟩
  | .flat lb elems =>
    ⟨if elems = [] then none else some (elems.map fun e => e.getD 0), BitVec.ofNat 32 elems.length, lb,
      if elems ≠ [] ∧ (bitmap = true ∨ none ∈ elems) then some (elems.map Option.isNone) else none⟩

/-- Twice the capacity, or 8, but enough for one more and not too large. -/
def newCapacity (cap len : BitVec 32) : BitVec 32 :=
  let newcap := if (0 : BitVec 32).slt cap then cap * 2 else 8
  let newcap := if newcap.sle len then len + 1 else newcap
  if (BitVec.ofNat 32 maxArraySize).slt newcap then BitVec.ofNat 32 maxArraySize else newcap

namespace NativeArray

variable (s : NativeArray)

/-- `uplpgsql_rt_native_array_to_datum`: what the variable holds afterwards. Nothing
is done for a length of 0 or less. -/
def toDatum : Native ArrayError ArrayDatum :=
  match s.data with
  | none => .ok s.var
  | some buf =>
    if s.len.sle 0 then .ok s.var
    else do
      match constructMdArray s.lb (← s.elements buf) with
      | .ok a => .ok a
      | .error err => .raise err

/-- `uplpgsql_emit_refresh_native_array`. -/
def refresh (bitmap : Bool) : NativeArray :=
  let m := nativeArrayFromDatum bitmap s.var
  { m with cap := m.len, isHeap := true, var := s.var }

/-- `uplpgsql_rt_native_array_reserve`. A buffer on the stack is copied, one on the
heap is enlarged. -/
def reserve : Native ArrayError NativeArray :=
  if s.len.slt s.cap then .ok s
  else if (BitVec.ofNat 32 maxArraySize).sle s.len then .raise .sizeExceeded
  else
    let newcap := newCapacity s.cap s.len
    let n := newcap.toInt.toNat
    let len := s.len.toInt.toNat
    let kept := if s.isHeap then s.data.getD [] else (s.data.getD []).take len
    .ok { s with
      data := some (resize n 0 kept)
      nulls := s.nulls.map fun flags => (resize n false flags).take len ++ List.replicate (n - len) false
      cap := newcap
      isHeap := true }

/-- The element gets a value, and its flag, if there are flags, is cleared. -/
def storeElem (idx0 : BitVec 32) (v : BitVec 64) : Native ArrayError NativeArray := do
  let data ← storeAt s.data idx0.toInt v
  match s.nulls with
  | none => .ok { s with data := some data }
  | some flags =>
    let flags ← storeAt (some flags) idx0.toInt false
    .ok { s with data := some data, nulls := some flags }

/-- Room for one more. -/
def grow : Native ArrayError NativeArray := if s.cap.sle s.len then s.reserve else .ok s

def append (v : BitVec 64) : Native ArrayError NativeArray := do
  let grown ← s.grow
  let stored ← grown.storeElem s.len v
  .ok { stored with len := s.len + 1 }

/-- Nothing is stored before an error. -/
def settle : Native ArrayError NativeArray → Native ArrayError Unit × NativeArray
  | .ok s' => (.ok (), s')
  | .raise err => (.raise err, s)
  | .undefined => (.undefined, s)

/-- Through the variable. It keeps the marshalled array after an error. -/
def slowWrite (i : BitVec 32) (v : Option (BitVec 64)) (bitmap : Bool) : Native ArrayError Unit × NativeArray :=
  match s.toDatum with
  | .ok var =>
    match arraySetElement i v var with
    | .ok var' => (.ok (), ({ s with var := var' } : NativeArray).refresh bitmap)
    | .error err => (.raise err, { s with var := var })
  | .raise err => (.raise err, s)
  | .undefined => (.undefined, s)

end NativeArray

/-! ### Writing an element -/

/-- `a[i] := v`, NULLs being `none`; and whether an array that comes back from
`array_set_element` has a bitmap that it does not need. -/
structure Write where
  subscript : Option (BitVec 32)
  value : Option (BitVec 64)
  bitmap : Bool

section Write

variable (s : NativeArray)

/-- The subscript has an element in flat memory. -/
def NativeArray.inRange (i : BitVec 32) : Bool :=
  (0 : BitVec 32).sle s.len && s.lb.sle i && i.sle (s.lb + s.len - 1)

def NativeArray.isAppend (i : BitVec 32) : Bool := (0 : BitVec 32).sle s.len && i == s.lb + s.len

/-- The element write of `uplpgsql_try_compile_assign`. A NULL value takes the slow
path. -/
def writeElement (w : Write) : Native ArrayError Unit × NativeArray :=
  match w.subscript, w.value with
  | none, _ => (.raise .nullSubscript, s)
  | some i, none => s.slowWrite i none w.bitmap
  | some i, some v =>
    if s.inRange i then s.settle (s.storeElem (i - s.lb) v)
    else if s.isAppend i then s.settle (s.append v)
    else s.slowWrite i (some v) w.bitmap

/-- The same write by the interpreter. -/
def assignElement (a : ArrayDatum) (w : Write) : Except ArrayError ArrayDatum :=
  match w.subscript with
  | none => .error .nullSubscript
  | some i => arraySetElement i w.value a

end Write

/-! ### Filling an array -/

def nativeArrayStackThreshold : Int := 4096

/-- data[i] = v for i from `idx` to `n`. Elements are addressed by their byte offset,
an int4. -/
def fillLoop (elemSize : Nat) (n : BitVec 32) (v : BitVec 64) :
    Nat → BitVec 32 → List (BitVec 64) → Native ArrayError (List (BitVec 64))
  | 0, _, _ => .undefined
  | fuel + 1, idx, data =>
    if idx.slt n then do
      let byteOff := (idx * BitVec.ofNat 32 elemSize).toInt
      let data ← storeAt (some data) (byteOff / elemSize) v
      fillLoop elemSize n v fuel (idx + 1) data
    else .ok data

/-- `a := array_fill(v, ARRAY[n])`. The length is stored before there is a buffer. A
size up to the threshold is on the stack; there a negative one is a memset of almost
the whole address space. -/
def arrayFill (elemSize : Nat) (s : NativeArray) (n : BitVec 32) (v : BitVec 64) :
    Native ArrayError Unit × NativeArray :=
  let s' := { s with len := n, lb := 1, nulls := none }
  let byteSize := n.toInt * elemSize
  let useStack := decide (byteSize ≤ nativeArrayStackThreshold)
  if useStack = true ∧ byteSize < 0 then (.undefined, s')
  else if useStack = false ∧ maxAllocSize < byteSize then (.raise (.invalidAllocSize byteSize), s')
  else
    match fillLoop elemSize n v (n.toInt.toNat + 1) 0 (List.replicate n.toInt.toNat 0) with
    | .ok data => (.ok (), { s' with data := some data, cap := n, isHeap := !useStack })
    | .raise err => (.raise err, s')
    | .undefined => (.undefined, s')

end Uplpgsql
