import Uplpgsql.Arrays.Writes
import Uplpgsql.Rows.Targets

/-!
# The datums of a function

What a parameter of an expression can name: a scalar variable, a local array with
its mirror, a promise, a record or a field of one. `exec_eval_datum` reads each of
them. A field is found by its name, and what was found is kept with the identifier
of the row type; an expanded record is taken apart when a field is first read.
-/

namespace Uplpgsql.Leaves

/-! ### Row types -/

/-- `Form_pg_attribute`, as far as a field is found by it. -/
structure FieldAttr where
  attname : String
  atttypid : Nat
  atttypmod : Int
  attcollation : Nat
  attisdropped : Bool
  deriving DecidableEq, Repr

/-- `ExpandedRecordFieldInfo`. System columns have negative numbers. -/
structure FieldInfo where
  fnumber : Int
  ftypeid : Nat
  ftypmod : Int
  fcollation : Nat
  deriving DecidableEq, Repr

/-- `SystemAttributeByName`. -/
def systemAttributeByName : String → Option FieldInfo
  | "ctid" => some ⟨-1, 27, -1, 0⟩
  | "xmin" => some ⟨-2, 28, -1, 0⟩
  | "cmin" => some ⟨-3, 29, -1, 0⟩
  | "xmax" => some ⟨-4, 28, -1, 0⟩
  | "cmax" => some ⟨-5, 29, -1, 0⟩
  | "tableoid" => some ⟨-6, 26, -1, 0⟩
  | _ => none

/-- What the type cache knows of composite types. -/
structure TypeCache where
  /-- An identifier stands for one row type. -/
  desc : TupDescId → List FieldAttr
  /-- `revalidate_rectypeid`: the declared type by its name, as it is now. -/
  revalidateRectypeid : Nat → Except ErrorData Nat
  /-- `make_expanded_record_from_typeid`: the row type of a composite type. -/
  rowTypeOf : Nat → Except ErrorData TupDescId

/-- The user columns of `expanded_record_lookup_field`. -/
def lookupAttr (fieldname : String) : List FieldAttr → Int → Option FieldInfo
  | [], _ => none
  | attr :: rest, attnum =>
    if attr.attname = fieldname ∧ attr.attisdropped = false then
      some ⟨attnum, attr.atttypid, attr.atttypmod, attr.attcollation⟩
    else lookupAttr fieldname rest (attnum + 1)

variable (cache : TypeCache)

/-- `expanded_record_lookup_field`. -/
def TypeCache.lookupField (id : TupDescId) (fieldname : String) : Option FieldInfo :=
  (lookupAttr fieldname (cache.desc id) 1).or (systemAttributeByName fieldname)

/-! ### Expanded records -/

/-- A tuple with its system columns. -/
structure HeapTuple where
  fields : List NullableDatum
  sysattrs : List NullableDatum
  deriving DecidableEq, Repr

/-- `heap_getsysattr`. -/
def HeapTuple.getSysattr (tup : HeapTuple) (fnumber : Int) : NullableDatum :=
  tup.sysattrs[(-fnumber - 1).toNat]?.getD .null

/-- `ExpandedRecordHeader`. `dvalues` is there if `ER_FLAG_DVALUES_VALID` is set and
`fvalue` if `ER_FLAG_FVALUE_VALID` is. -/
structure ExpandedRecordHeader where
  erTupdescId : TupDescId
  erTypeid : Nat
  erTypmod : Int
  dvalues : Option (List NullableDatum)
  fvalue : Option HeapTuple
  /-- Its read-write pointer. -/
  rwPtr : BitVec 64
  dvalues_length : ∀ fields ∈ dvalues, fields.length = (cache.desc erTupdescId).length
  fvalue_length : ∀ tup ∈ fvalue, tup.fields.length = (cache.desc erTupdescId).length

namespace ExpandedRecordHeader

variable {cache} (erh : ExpandedRecordHeader cache)

/-- `ExpandedRecordIsEmpty`. -/
def isEmpty : Bool := erh.dvalues.isNone && erh.fvalue.isNone

/-- `deconstruct_expanded_record`, for a record that is not empty. -/
def deconstruct : ExpandedRecordHeader cache :=
  { erh with
    dvalues := erh.dvalues.or (erh.fvalue.map HeapTuple.fields)
    dvalues_length := by
      intro fields there
      cases apart : erh.dvalues with
      | some dvalues =>
        rw [apart] at there
        cases there
        exact erh.dvalues_length _ (by rw [apart]; rfl)
      | none =>
        cases whole : erh.fvalue with
        | none => simp [apart, whole] at there
        | some tup =>
          have same : tup.fields = fields := by simpa [apart, whole] using there
          rw [← same]
          exact erh.fvalue_length _ (by rw [whole]; rfl) }

/-- The field of a record that has been taken apart. A number out of range reads as
NULL. -/
def dvalue (fnumber : Int) : NullableDatum :=
  ((erh.dvalues.getD [])[(fnumber - 1).toNat]?).getD .null

/-- `expanded_record_get_field`. -/
def getField (fnumber : Int) : NullableDatum × ExpandedRecordHeader cache :=
  if 0 < fnumber then
    if erh.isEmpty then (.null, erh) else (erh.deconstruct.dvalue fnumber, erh.deconstruct)
  else
    match erh.fvalue with
    | none => (.null, erh)
    | some tup => (tup.getSysattr fnumber, erh)

end ExpandedRecordHeader

/-! ### Promises -/

/-- `UPLpgSQL_promise_type`, without the one for no promise. -/
inductive PromiseType where
  | tgName | tgWhen | tgLevel | tgOp | tgRelid | tgTableName | tgTableSchema | tgNargs | tgArgv
  | tgEvent | tgTag
  deriving DecidableEq, Repr

/-- `TriggerData` with what it points to. -/
structure TriggerData where
  tgEvent : BitVec 32
  tgname : String
  rdId : BitVec 32
  relname : String
  nspname : String
  tgargs : List String
  deriving DecidableEq, Repr

structure EventTriggerData where
  event : String
  tag : String
  deriving DecidableEq, Repr

/-- Datums passed by reference: where the values are put. -/
structure References where
  nameDatum : String → BitVec 64
  textDatum : String → BitVec 64
  /-- An array of texts with the lower bound 0. -/
  textArrayDatum : List String → BitVec 64

/-- What the function was called with. -/
structure Call where
  trigdata : Option TriggerData
  evtrigdata : Option EventTriggerData
  refs : References

def notInTrigger : ErrorData := ⟨errcodeInternalError, "trigger promise is not in a trigger function"⟩

def notInEventTrigger : ErrorData :=
  ⟨errcodeInternalError, "event trigger promise is not in an event trigger function"⟩

/-- `TRIGGER_FIRED_BEFORE` and its siblings. -/
def TriggerData.when (t : TriggerData) : Except ErrorData String :=
  if t.tgEvent &&& 0x18 = 0x08 then .ok "BEFORE"
  else if t.tgEvent &&& 0x18 = 0 then .ok "AFTER"
  else if t.tgEvent &&& 0x18 = 0x10 then .ok "INSTEAD OF"
  else .error ⟨errcodeInternalError,
    "unrecognized trigger execution time: not BEFORE, AFTER, or INSTEAD OF"⟩

/-- What is not for a row is for the statement. -/
def TriggerData.level (t : TriggerData) : String :=
  if t.tgEvent &&& 0x04 ≠ 0 then "ROW" else "STATEMENT"

/-- The four operations fill the mask. -/
def TriggerData.op (t : TriggerData) : String :=
  if t.tgEvent &&& 0x03 = 0 then "INSERT"
  else if t.tgEvent &&& 0x03 = 0x02 then "UPDATE"
  else if t.tgEvent &&& 0x03 = 0x01 then "DELETE"
  else "TRUNCATE"

/-- `uplpgsql_fulfill_promise`: what the variable is assigned. -/
def Call.promised (call : Call) : PromiseType → Except ErrorData NullableDatum
  | .tgEvent =>
    match call.evtrigdata with
    | none => .error notInEventTrigger
    | some t => .ok ⟨call.refs.textDatum t.event, false⟩
  | .tgTag =>
    match call.evtrigdata with
    | none => .error notInEventTrigger
    | some t => .ok ⟨call.refs.textDatum t.tag, false⟩
  | kind =>
    match call.trigdata with
    | none => .error notInTrigger
    | some t =>
      match kind with
      | .tgName => .ok ⟨call.refs.nameDatum t.tgname, false⟩
      | .tgWhen => t.when.map fun text => ⟨call.refs.textDatum text, false⟩
      | .tgLevel => .ok ⟨call.refs.textDatum t.level, false⟩
      | .tgOp => .ok ⟨call.refs.textDatum t.op, false⟩
      | .tgRelid => .ok ⟨t.rdId.setWidth 64, false⟩
      | .tgTableName => .ok ⟨call.refs.nameDatum t.relname, false⟩
      | .tgTableSchema => .ok ⟨call.refs.nameDatum t.nspname, false⟩
      | .tgNargs => .ok ⟨(BitVec.ofNat 16 t.tgargs.length).signExtend 64, false⟩
      | _ =>
        if t.tgargs = [] then .ok .null else .ok ⟨call.refs.textArrayDatum t.tgargs, false⟩

/-! ### Variables -/

/-- `UPLPGSQL_DTYPE_...`. A row has no name, so no parameter stands for one. -/
inductive Dtype where
  | var | promise | record | recfield
  deriving DecidableEq, Repr

/-- The datums as declared. -/
structure Declared where
  dtype : Nat → Dtype
  typoid : Nat → Nat
  atttypmod : Nat → Int
  /-- `find_native_array` finds one. -/
  native : Nat → Bool
  native_var : ∀ dno, native dno = true → dtype dno = .var

/-- A native array, and the array that the interpreter has in the variable. -/
structure ArrayVar where
  mirror : NativeArray
  held : ArrayDatum
  denoting : mirror.Denoting held

/-- A promise is NULL until it is fulfilled or assigned. -/
inductive PromiseVar where
  | pending (kind : PromiseType)
  | fulfilled (datum : NullableDatum)
  deriving DecidableEq, Repr

def PromiseVar.stored : PromiseVar → NullableDatum
  | .pending _ => .null
  | .fulfilled datum => datum

/-- `UPLpgSQL_rec`. -/
structure RecVar where
  refname : String
  rectypeid : Nat
  erh : Option (ExpandedRecordHeader cache)

/-- `UPLpgSQL_recfield`. `finfo` is what was found in the row type it was last
looked up in. -/
structure RecField where
  fieldname : String
  recparentno : Nat
  rectupledescid : Nat
  finfo : FieldInfo
  finfo_found : ∀ id : TupDescId, id.1 = rectupledescid → cache.lookupField id fieldname = some finfo

/-- The datums of a running function. -/
structure Store where
  vars : Nat → NullableDatum
  arrays : Nat → ArrayVar
  promises : Nat → PromiseVar
  recs : Nat → RecVar cache
  recfields : Nat → RecField cache

namespace Store

variable {cache} (s : Store cache)

def setArray (dno : Nat) (v : ArrayVar) : Store cache :=
  { s with arrays := Function.update s.arrays dno v }

def setPromise (dno : Nat) (v : PromiseVar) : Store cache :=
  { s with promises := Function.update s.promises dno v }

def setRec (dno : Nat) (v : RecVar cache) : Store cache :=
  { s with recs := Function.update s.recs dno v }

def setRecField (dno : Nat) (f : RecField cache) : Store cache :=
  { s with recfields := Function.update s.recfields dno f }

end Store

/-! ### Reading a datum -/

def recordNotAssigned (refname : String) : ErrorData :=
  ⟨makeSqlstate '5' '5' '0' '0' '0', "record \"" ++ refname ++ "\" is not assigned yet"⟩

def undefinedField (refname fieldname : String) : ErrorData :=
  ⟨makeSqlstate '4' '2' '7' '0' '3', "record \"" ++ refname ++ "\" has no field \"" ++ fieldname ++ "\""⟩

/-- A Datum. One that points to a local array stands for the array, wherever it is
in memory. -/
inductive LeafValue where
  | word (datum : BitVec 64)
  | array (a : ArrayDatum)
  deriving DecidableEq, Repr

structure LeafPair where
  value : LeafValue
  isnull : Bool
  deriving DecidableEq, Repr

def LeafPair.ofDatum (datum : NullableDatum) : LeafPair := ⟨.word datum.value, datum.isnull⟩

def LeafPair.ofArray (a : ArrayDatum) : LeafPair := ⟨.array a, a = .null⟩

@[simp] theorem LeafPair.ofDatum_isnull (datum : NullableDatum) :
    (LeafPair.ofDatum datum).isnull = datum.isnull := rfl

@[simp] theorem LeafPair.ofDatum_inj {a b : NullableDatum} : LeafPair.ofDatum a = .ofDatum b ↔ a = b := by
  obtain ⟨value, isnull⟩ := a
  obtain ⟨value', isnull'⟩ := b
  simp [LeafPair.ofDatum]

@[simp] theorem LeafPair.ofArray_inj {a b : ArrayDatum} : LeafPair.ofArray a = .ofArray b ↔ a = b := by
  constructor
  · intro same
    simp only [LeafPair.ofArray, LeafPair.mk.injEq, LeafValue.array.injEq] at same
    exact same.1
  · rintro rfl
    rfl

/-- What `exec_eval_datum` puts out. -/
structure EvalDatum where
  typeid : Nat
  typetypmod : Int
  pair : LeafPair
  deriving DecidableEq, Repr

section Eval

variable {cache}

/-- A record of the row type, with no fields yet. Where it is in memory is of no
account. -/
def emptyRecord (id : TupDescId) (typeid : Nat) (rwPtr : BitVec 64) : ExpandedRecordHeader cache where
  erTupdescId := id
  erTypeid := typeid
  erTypmod := -1
  dvalues := none
  fvalue := none
  rwPtr := rwPtr
  dvalues_length := nofun
  fvalue_length := nofun

/-- `instantiate_empty_record_variable`. -/
def instantiateEmptyRecordVariable (r : RecVar cache) :
    Except ErrorData (RecVar cache × ExpandedRecordHeader cache) :=
  if r.rectypeid = recordOid then .error (recordNotAssigned r.refname)
  else
    match cache.revalidateRectypeid r.rectypeid with
    | .error e => .error e
    | .ok typeid =>
      match cache.rowTypeOf typeid with
      | .error e => .error e
      | .ok id =>
        let erh := emptyRecord id typeid 0
        .ok ({ r with rectypeid := typeid, erh := some erh }, erh)

/-- The record of a variable, made if there is none. -/
def RecVar.instantiated (r : RecVar cache) :
    Except ErrorData (RecVar cache × ExpandedRecordHeader cache) :=
  match r.erh with
  | some erh => .ok (r, erh)
  | none => instantiateEmptyRecordVariable r

/-- The field of the record, looked up again if the row type is another one. -/
def RecField.resolve (f : RecField cache) (id : TupDescId) : Option (RecField cache) :=
  if f.rectupledescid = id.1 then some f
  else
    match found : cache.lookupField id f.fieldname with
    | none => none
    | some finfo =>
      some { f with
        rectupledescid := id.1
        finfo := finfo
        finfo_found := by
          intro id' same
          rw [Subtype.ext same, found] }

/-- The field of a record variable, in `exec_eval_datum`. -/
def evalRecfield (dno : Nat) (s : Store cache) : Except ErrorData EvalDatum × Store cache :=
  let f := s.recfields dno
  match (s.recs f.recparentno).instantiated with
  | .error e => (.error e, s)
  | .ok (r, erh) =>
    match f.resolve erh.erTupdescId with
    | none => (.error (undefinedField r.refname f.fieldname), s.setRec f.recparentno r)
    | some f' =>
      let got := erh.getField f'.finfo.fnumber
      (.ok ⟨f'.finfo.ftypeid, f'.finfo.ftypmod, .ofDatum got.1⟩,
        (s.setRec f.recparentno { r with erh := some got.2 }).setRecField dno f')

/-- The whole record, in `exec_eval_datum`. -/
def evalRec (r : RecVar cache) : EvalDatum :=
  match r.erh with
  | none => ⟨r.rectypeid, -1, .ofDatum .null⟩
  | some erh =>
    let pair := if erh.isEmpty then .ofDatum .null else .ofDatum ⟨erh.rwPtr, false⟩
    if r.rectypeid ≠ recordOid then ⟨r.rectypeid, -1, pair⟩ else ⟨erh.erTypeid, erh.erTypmod, pair⟩

variable (decl : Declared) (call : Call)

/-- `exec_eval_datum`. For a local array it is the interpreter's variable that is
read. -/
def execEvalDatum (dno : Nat) (s : Store cache) : Except ErrorData EvalDatum × Store cache :=
  match decl.dtype dno with
  | .promise =>
    match s.promises dno with
    | .fulfilled datum => (.ok ⟨decl.typoid dno, decl.atttypmod dno, .ofDatum datum⟩, s)
    | .pending kind =>
      match call.promised kind with
      | .error e => (.error e, s)
      | .ok datum =>
        (.ok ⟨decl.typoid dno, decl.atttypmod dno, .ofDatum datum⟩, s.setPromise dno (.fulfilled datum))
  | .var =>
    let pair := if decl.native dno then .ofArray (s.arrays dno).held else .ofDatum (s.vars dno)
    (.ok ⟨decl.typoid dno, decl.atttypmod dno, pair⟩, s)
  | .record => (.ok (evalRec (s.recs dno)), s)
  | .recfield => evalRecfield dno s

end Eval

end Uplpgsql.Leaves
