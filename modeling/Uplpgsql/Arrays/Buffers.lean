import Uplpgsql.Arrays.Packed

/-!
# The buffers of native arrays

The six slots of a native array with the memory they point into: the helpers of
`upl_runtime.c` that fill, enlarge and release its buffers, and the code that is
emitted around them. Signed overflow in the helpers is undefined, as in C. Mem
never runs out, but PostgreSQL refuses a request that is too large.
-/

namespace Uplpgsql

open Lib Lib.Words Lib.Heap

/-! ### PostgreSQL's allocator -/

section Palloc

def palloc (size : BitVec 64) : Cmd Mem ArrayError Nat :=
  if maxAllocSize < size.toNat then Cmd.raise (.invalidAllocSize size.toNat)
  else alloc .heap (List.replicate size.toNat none)

def palloc0 (size : BitVec 64) : Cmd Mem ArrayError Nat :=
  if maxAllocSize < size.toNat then Cmd.raise (.invalidAllocSize size.toNat)
  else alloc .heap (List.replicate size.toNat (some 0))

def repalloc (p : Nat) (size : BitVec 64) : Cmd Mem ArrayError Nat :=
  if maxAllocSize < size.toNat then Cmd.raise (.invalidAllocSize size.toNat)
  else realloc p size.toNat

def pfree (p : Nat) : Cmd Mem ArrayError Unit := free p

/-- A `*` of ints. -/
def mulInt (x y : BitVec 32) : Native ArrayError (BitVec 32) :=
  if Fits 32 (x.toInt * y.toInt) then .ok (x * y) else .undefined

/-- A `+` of ints. -/
def addInt (x y : BitVec 32) : Native ArrayError (BitVec 32) :=
  if Fits 32 (x.toInt + y.toInt) then .ok (x + y) else .undefined

/-- A `-` of ints. -/
def subInt (x y : BitVec 32) : Native ArrayError (BitVec 32) :=
  if Fits 32 (x.toInt - y.toInt) then .ok (x - y) else .undefined

/-- An int converted to `Size`. -/
def toSize (n : BitVec 32) : BitVec 64 := n.signExtend 64

end Palloc

/-! ### Slots -/

/-- A native array and its variable. -/
structure ArraySlots where
  elemtype : ElemType
  data : Option Nat
  len : BitVec 32
  lb : BitVec 32
  nulls : Option Nat
  cap : BitVec 32
  isHeap : BitVec 8
  var : Option ArrayType
  deriving DecidableEq, Repr

/-- `uplpgsql_setup_entry`. -/
def ArraySlots.entry (elemtype : ElemType) (var : Option ArrayType) : ArraySlots :=
  { elemtype := elemtype, data := none, len := 0, lb := 1, nulls := none, cap := 0, isHeap := 0, var := var }

/-- One array, and all memory. -/
structure ArrayFrame where
  mem : Mem
  slots : ArraySlots
  deriving DecidableEq, Repr

def onMemory {α : Type} (c : Cmd Mem ArrayError α) : Cmd ArrayFrame ArrayError α :=
  Cmd.zoom ArrayFrame.mem (fun f mem => { f with mem := mem }) c

def onSlots (change : ArraySlots → ArraySlots) : Cmd ArrayFrame ArrayError Unit :=
  Cmd.modify fun f => { f with slots := change f.slots }

/-! ### From a Datum to flat memory -/

/-- What `uplpgsql_rt_native_array_from_datum` returns. -/
structure FromDatum where
  data : Option Nat
  nelems : BitVec 32
  lb : BitVec 32
  nulls : Option Nat
  deriving DecidableEq, Repr

/-- `bitmap[i / 8] & (1 << (i % 8))` of an array. -/
def bitAt (bitmap : List Byte) (i : Nat) : Native ArrayError Bool :=
  match bitmap[i / 8]? with
  | none => .undefined
  | some byte => .ok (byte.getLsbD (i % 8))

/-- The `n` bytes behind `src`. -/
def bytesAt (data : List Byte) (src n : Nat) : Native ArrayError (List Byte) :=
  if src + n ≤ data.length then .ok ((data.drop src).take n) else .undefined

/-- The loop over an array with a bitmap. `src` advances only past the elements that
are there. -/
def unpackLoop (ty : ElemType) (arr : ArrayType) (bitmap : List Byte) (result nulls : Nat) :
    Nat → Nat → Nat → Cmd Mem ArrayError Unit
  | 0, _, _ => pure ()
  | n + 1, i, src => do
    let there ← Cmd.lift (bitAt bitmap i)
    store nulls i [some (if there then 0 else 1)]
    if there then do
      let bytes ← Cmd.lift (bytesAt arr.data src ty.size)
      store result (i * ty.size) (bytes.map some)
      unpackLoop ty arr bitmap result nulls n (i + 1) (src + ty.size)
    else do
      store result (i * ty.size) (List.replicate ty.size (some 0))
      unpackLoop ty arr bitmap result nulls n (i + 1) src

/-- `uplpgsql_rt_native_array_from_datum`. -/
def rtNativeArrayFromDatum (ty : ElemType) : Option ArrayType → Cmd Mem ArrayError FromDatum
  | none => pure ⟨none, 0, 1, none⟩
  | some arr =>
    match arr.dims with
    | [] => pure ⟨none, 0, 1, none⟩
    | [(nelems, lb)] =>
      if nelems = 0 then pure ⟨none, nelems, lb, none⟩
      else do
        let bytes ← Cmd.lift (mulInt nelems (BitVec.ofNat 32 ty.size))
        let result ← palloc (toSize bytes)
        match arr.bitmap with
        | some bitmap => do
          let nulls ← palloc (toSize nelems)
          unpackLoop ty arr bitmap result nulls nelems.toInt.toNat 0 0
          pure ⟨some result, nelems, lb, some nulls⟩
        | none => do
          let values ← Cmd.lift (bytesAt arr.data 0 (toSize bytes).toNat)
          store result 0 (values.map some)
          pure ⟨some result, nelems, lb, none⟩
    | _ => pure ⟨none, -1, 1, none⟩

/-! ### From flat memory to a Datum -/

/-- The elements as Datums. -/
def readElems (ty : ElemType) (data : Nat) : Nat → Nat → Cmd Mem ArrayError (List (BitVec 64))
  | 0, _ => pure []
  | n + 1, i => do
    match values (← load data (i * ty.size) ty.size) with
    | none => Cmd.undefined
    | some bytes => do
      let rest ← readElems ty data n (i + 1)
      pure (ty.datum bytes :: rest)

/-- The flags that `construct_md_array` looks at. -/
def readFlags (nulls : Nat) : Nat → Nat → Cmd Mem ArrayError (List Bool)
  | 0, _ => pure []
  | n + 1, i => do
    match values (← load nulls i 1) with
    | some [flag] => do
      let rest ← readFlags nulls n (i + 1)
      pure ((flag != 0) :: rest)
    | _ => Cmd.undefined

/-- All flags, if there are any. -/
def readNulls (nulls : Option Nat) (n : Nat) : Cmd Mem ArrayError (List Bool) :=
  match nulls with
  | none => pure (List.replicate n false)
  | some nulls => readFlags nulls n 0

def withNulls (elems : List (BitVec 64)) (flags : List Bool) : List (Option (BitVec 64)) :=
  List.zipWith (fun d isnull => if isnull then none else some d) elems flags

/-- The array that is built, or the error. -/
def buildArray (ty : ElemType) (lb : BitVec 32) (elems : List (Option (BitVec 64))) :
    Cmd Mem ArrayError (Option ArrayType) :=
  match constructArray ty lb elems with
  | .ok arr => pure (some arr)
  | .error err => Cmd.raise err

/-- `uplpgsql_rt_native_array_to_datum`: what the variable is set to, or nothing if
it is left alone. -/
def rtNativeArrayToDatum (ty : ElemType) (data : Option Nat) (nelems lb : BitVec 32) (nulls : Option Nat) :
    Cmd Mem ArrayError (Option ArrayType) :=
  match data with
  | none => pure none
  | some data =>
    if nelems.sle 0 then pure none
    -- The Datums are built in a buffer of their own.
    else if maxAllocSize < (toSize nelems * 8).toNat then
      Cmd.raise (.invalidAllocSize (toSize nelems * 8).toNat)
    else do
      let elems ← readElems ty data nelems.toInt.toNat 0
      let flags ← readNulls nulls nelems.toInt.toNat
      buildArray ty lb (withNulls elems flags)

/-! ### Growing and releasing -/

/-- `(*cap_io > 0) ? *cap_io * 2 : 8`. -/
def doubled (cap : BitVec 32) : Native ArrayError (BitVec 32) :=
  if (0 : BitVec 32).slt cap then mulInt cap 2 else .ok 8

def atLeast (newcap len : BitVec 32) : Native ArrayError (BitVec 32) :=
  if newcap.sle len then addInt len 1 else .ok newcap

/-- The capacity to grow to. -/
def growCapacity (cap len : BitVec 32) : Native ArrayError (BitVec 32) := do
  let newcap ← doubled cap
  let newcap ← atLeast newcap len
  .ok (if (BitVec.ofNat 32 maxArraySize).slt newcap then BitVec.ofNat 32 maxArraySize else newcap)

/-- A new buffer on the heap, with the elements of the old one. -/
def copyData (data : Option Nat) (newcap len elemSize : BitVec 32) : Cmd Mem ArrayError Nat := do
  let newdata ← palloc (toSize newcap * toSize elemSize)
  match data with
  | none => pure newdata
  | some data =>
    if (0 : BitVec 32).slt len then do
      let bytes ← load data 0 (toSize len * toSize elemSize).toNat
      store newdata 0 bytes
      pure newdata
    else pure newdata

/-- A buffer on the stack cannot be enlarged in place. -/
def growData (newcap len elemSize : BitVec 32) : Cmd ArrayFrame ArrayError Unit := do
  let s := (← Cmd.get).slots
  match s.data with
  | some data =>
    if s.isHeap ≠ 0 then do
      let data ← onMemory (repalloc data (toSize newcap * toSize elemSize))
      onSlots fun s => { s with data := some data }
    else do
      let data ← onMemory (copyData (some data) newcap len elemSize)
      onSlots fun s => { s with data := some data, isHeap := 1 }
  | none => do
    let data ← onMemory (copyData none newcap len elemSize)
    onSlots fun s => { s with data := some data, isHeap := 1 }

/-- The flags follow, and those that are new are cleared. -/
def growNulls (newcap len : BitVec 32) : Cmd ArrayFrame ArrayError Unit := do
  let s := (← Cmd.get).slots
  match s.nulls with
  | some nulls => do
    let nulls ← onMemory (repalloc nulls (toSize newcap))
    onSlots fun s => { s with nulls := some nulls }
    let cleared ← Cmd.lift (subInt newcap len)
    onMemory (store nulls len.toNat (List.replicate (toSize cleared).toNat (some 0)))
  | none => pure ()

/-- `uplpgsql_rt_native_array_reserve`. -/
def rtNativeArrayReserve (len elemSize : BitVec 32) : Cmd ArrayFrame ArrayError Unit := do
  let cap := (← Cmd.get).slots.cap
  if len.slt cap then pure ()
  else if (BitVec.ofNat 32 maxArraySize).sle len then Cmd.raise .sizeExceeded
  else do
    let newcap ← Cmd.lift (growCapacity cap len)
    growData newcap len elemSize
    growNulls newcap len
    onSlots fun s => { s with cap := newcap }

/-- The data, unless it is on the stack. -/
def releaseData (data : Option Nat) (isHeap : BitVec 8) : Cmd Mem ArrayError Unit :=
  match data with
  | some data => if isHeap ≠ 0 then pfree data else pure ()
  | none => pure ()

def releaseNulls (nulls : Option Nat) : Cmd Mem ArrayError Unit :=
  match nulls with
  | some nulls => pfree nulls
  | none => pure ()

/-- `uplpgsql_rt_native_array_release`. -/
def rtNativeArrayRelease (data nulls : Option Nat) (isHeap : BitVec 8) : Cmd Mem ArrayError Unit := do
  releaseData data isHeap
  releaseNulls nulls

/-! ### Emitted code -/

/-- `uplpgsql_emit_sync_native_array`. -/
def emitSyncNativeArray : Cmd ArrayFrame ArrayError Unit := do
  let s := (← Cmd.get).slots
  match ← onMemory (rtNativeArrayToDatum s.elemtype s.data s.len s.lb s.nulls) with
  | some arr => onSlots fun s => { s with var := some arr }
  | none => pure ()

/-- `uplpgsql_emit_refresh_native_array`. -/
def emitRefreshNativeArray : Cmd ArrayFrame ArrayError Unit := do
  let s := (← Cmd.get).slots
  onMemory (rtNativeArrayRelease s.data s.nulls s.isHeap)
  let m ← onMemory (rtNativeArrayFromDatum s.elemtype s.var)
  onSlots fun s =>
    { s with data := m.data, len := m.nelems, lb := m.lb, nulls := m.nulls, cap := m.nelems, isHeap := 1 }

/-- A store behind a pointer, `offset` bytes from it. -/
def storePtr (p : Option Nat) (offset : Int) (bytes : List Byte) : Cmd Mem ArrayError Unit :=
  match p with
  | none => Cmd.undefined
  | some p => if offset < 0 then Cmd.undefined else store p offset.toNat (bytes.map some)

/-- The flag of an element, if there are flags. -/
def clearFlag (nulls : Option Nat) (idx0 : BitVec 32) : Cmd Mem ArrayError Unit :=
  match nulls with
  | none => pure ()
  | some nulls => storePtr (some nulls) idx0.toInt [0]

/-- The value of an element, with its flag cleared. -/
def emitStoreElem (idx0 : BitVec 32) (v : BitVec 64) : Cmd ArrayFrame ArrayError Unit := do
  let s := (← Cmd.get).slots
  onMemory (storePtr s.data (idx0.toInt * s.elemtype.size) (s.elemtype.bytes v))
  onMemory (clearFlag s.nulls idx0)

/-- The append. -/
def emitAppend (v : BitVec 64) : Cmd ArrayFrame ArrayError Unit := do
  let s := (← Cmd.get).slots
  if s.cap.sle s.len then rtNativeArrayReserve s.len (BitVec.ofNat 32 s.elemtype.size) else pure ()
  emitStoreElem s.len v
  onSlots fun s' => { s' with len := s.len + 1 }

/-- `uplpgsql_rt_array_set_element`. -/
def rtArraySetElement (bitmap : Bool) (i : BitVec 32) (v : Option (BitVec 64)) : Cmd ArrayFrame ArrayError Unit := do
  let s := (← Cmd.get).slots
  match setElement s.elemtype bitmap i v s.var with
  | .ok arr => onSlots fun s => { s with var := some arr }
  | .error err => Cmd.raise err

/-- The write through the variable. -/
def emitSlowWrite (bitmap : Bool) (i : BitVec 32) (v : Option (BitVec 64)) : Cmd ArrayFrame ArrayError Unit := do
  emitSyncNativeArray
  rtArraySetElement bitmap i v
  emitRefreshNativeArray

/-- The element write of `uplpgsql_try_compile_assign`, for a subscript that is not
NULL. -/
def emitWrite (bitmap : Bool) (i : BitVec 32) (v : Option (BitVec 64)) : Cmd ArrayFrame ArrayError Unit := do
  let s := (← Cmd.get).slots
  let flat := (0 : BitVec 32).sle s.len
  match v with
  | none => emitSlowWrite bitmap i none
  | some v =>
    if flat && s.lb.sle i && i.sle (s.lb + s.len - 1) then emitStoreElem (i - s.lb) v
    else if flat && i == s.lb + s.len then emitAppend v
    else emitSlowWrite bitmap i (some v)

/-- The fill loop of `array_fill`. -/
def emitFillLoop (n : BitVec 32) (v : BitVec 64) : Nat → BitVec 32 → Cmd ArrayFrame ArrayError Unit
  | 0, _ => Cmd.undefined
  | fuel + 1, idx =>
    if idx.slt n then do
      let s := (← Cmd.get).slots
      let byteOff := (idx * BitVec.ofNat 32 s.elemtype.size).toInt
      onMemory (storePtr s.data byteOff (s.elemtype.bytes v))
      emitFillLoop n v fuel (idx + 1)
    else pure ()

/-- A cleared buffer, on the stack if it is small. -/
def fillBuffer (byteSize : BitVec 64) : Cmd Mem ArrayError Nat :=
  if byteSize.sle 4096 then do
    let p ← alloc .stack (List.replicate (byteSize.setWidth 32).toNat none)
    store p 0 (List.replicate byteSize.toNat (some 0))
    pure p
  else palloc0 byteSize

/-- `a := array_fill(v, ARRAY[n])`. The old buffers are not released. -/
def emitArrayFill (n : BitVec 32) (v : BitVec 64) : Cmd ArrayFrame ArrayError Unit := do
  onSlots fun s => { s with len := n, lb := 1, nulls := none }
  let s := (← Cmd.get).slots
  let byteSize := n.signExtend 64 * BitVec.ofNat 64 s.elemtype.size
  let data ← onMemory (fillBuffer byteSize)
  onSlots fun s => { s with data := some data, cap := n, isHeap := if byteSize.sle 4096 then 0 else 1 }
  emitFillLoop n v (n.toInt.toNat + 1) 0

end Uplpgsql
