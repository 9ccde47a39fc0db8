import Uplpgsql.Expr.Datums

/-!
# Leaf reads

A parameter in a Tier 1 or Tier 2 expression is read by code that is fixed when
the function is compiled: its value and whether it is NULL, separately. Promises
and fields go through `uplpgsql_rt_get_recfield`, which drops the NULL flag, and a
field whose record existed at compile time is read at the position it had then.
-/

namespace Uplpgsql.Leaves

open Lib.Words

variable {cache : TypeCache} (decl : Declared) (call : Call)

/-! ### The code of a leaf -/

/-- Code for a value. -/
inductive ValueCode where
  /-- The datum is taken for a `UPLpgSQL_var` and its `value` is loaded. -/
  | loadVar (dno : Nat)
  /-- The same, after the array has been marshalled. -/
  | syncLoadVar (dno : Nat)
  | getRecfield (dno : Nat)
  /-- `erh->dvalues[field_idx]` if the fields are there, and otherwise a call of
  `uplpgsql_rt_get_recfield`. -/
  | inlineField (dno : Nat) (fieldIdx : Int)
  deriving DecidableEq, Repr

/-- Code for the NULL test. -/
inductive NullCode where
  | notNull
  | loadVar (dno : Nat)
  | syncLoadVar (dno : Nat)
  deriving DecidableEq, Repr

/-- The position of a field in the record that its variable holds while the function
is compiled. -/
def frozenIdx (compileErh : Nat → Option (ExpandedRecordHeader cache)) (f : RecField cache) : Option Int :=
  ((compileErh f.recparentno).bind fun erh => cache.lookupField erh.erTupdescId f.fieldname).map
    fun finfo => finfo.fnumber - 1

/-- `uplpgsql_emit_load_param_datum`. -/
def emitLoadParamDatum (compileErh : Nat → Option (ExpandedRecordHeader cache))
    (recfields : Nat → RecField cache) (dno : Nat) : ValueCode :=
  if decl.native dno then .syncLoadVar dno
  else
    match decl.dtype dno with
    | .promise => .getRecfield dno
    | .recfield =>
      match frozenIdx compileErh (recfields dno) with
      | some fieldIdx => .inlineField dno fieldIdx
      | none => .getRecfield dno
    | _ => .loadVar dno

/-- `uplpgsql_emit_load_param_isnull`. -/
def emitLoadParamIsnull (dno : Nat) : NullCode :=
  if decl.dtype dno = .recfield ∨ decl.dtype dno = .promise then .notNull
  else if decl.native dno then .syncLoadVar dno
  else .loadVar dno

/-- Where an expression reads a datum: as a whole, or as the array that is
subscripted. -/
inductive Leaf where
  | param (dno : Nat)
  | base (dno : Nat)
  deriving DecidableEq, Repr

def Leaf.dno : Leaf → Nat
  | .param dno => dno
  | .base dno => dno

/-- The code of a leaf. The array that is subscripted is taken for a variable by
`resolve_array_type_info` and `uplpgsql_rt_array_get_element`; the elements of a
native array are read in flat memory, and its Datum is not. -/
def Leaf.code (compileErh : Nat → Option (ExpandedRecordHeader cache)) (recfields : Nat → RecField cache) :
    Leaf → Option (NullCode × ValueCode)
  | .param dno => some (emitLoadParamIsnull decl dno, emitLoadParamDatum decl compileErh recfields dno)
  | .base dno => if decl.native dno then none else some (.loadVar dno, .loadVar dno)

/-! ### Running it -/

/-- `exec_eval_datum`, as far as a leaf is compared with it. -/
def evalDatum (dno : Nat) (s : Store cache) : Native ErrorData LeafPair :=
  match (execEvalDatum decl call dno s).1 with
  | .error e => .raise e
  | .ok out => .ok out.pair

/-- `uplpgsql_rt_get_recfield`. -/
def rtGetRecfield (dno : Nat) (s : Store cache) : Native ErrorData LeafValue × Store cache :=
  ((evalDatum decl call dno s) >>= fun pair => .ok (if pair.isnull then .word 0 else pair.value),
    (execEvalDatum decl call dno s).2)

/-- The slots of a `UPLpgSQL_var`. A promise has them too; in a record or a field
they are past the end of the struct. -/
def varSlots (dno : Nat) (s : Store cache) : Native ErrorData LeafPair :=
  match decl.dtype dno with
  | .var => .ok (if decl.native dno then .ofArray (s.arrays dno).mirror.var else .ofDatum (s.vars dno))
  | .promise => .ok (.ofDatum (s.promises dno).stored)
  | .record => .undefined
  | .recfield => .undefined

section Sync

variable {m : NativeArray} {a var : ArrayDatum}

theorem denoting_withVar (denoting : m.Denoting a) (valid : var.Valid) :
    ({ m with var := var } : NativeArray).Denoting a :=
  ⟨denoting.mirror, denoting.valid,
    ⟨denoting.alloc.len, denoting.alloc.data, denoting.alloc.flags⟩, denoting.size, valid⟩

/-- An array with elements is marshalled; of another one the variable stays as it
is. -/
theorem toDatum_denoting (denoting : m.Denoting a) :
    m.toDatum = .ok (if 0 < m.len.toInt then a else m.var) := by
  by_cases long : 0 < m.len.toInt
  · rw [if_pos long]
    cases a with
    | flat lb elems => exact denoting.toDatum_flat
    | null => simp [denoting.mirror.1] at long
    | empty => simp [denoting.mirror.1] at long
    | multi dims elems => simp [denoting.mirror.1] at long
  · rw [if_neg long, NativeArray.toDatum_short (by omega)]

theorem toDatum_valid (denoting : m.Denoting a) (marshalled : m.toDatum = .ok var) : var.Valid := by
  rw [toDatum_denoting denoting] at marshalled
  cases marshalled
  split
  · exact denoting.valid
  · exact denoting.var

end Sync

/-- `uplpgsql_emit_sync_native_array`. -/
def ArrayVar.sync (v : ArrayVar) : Native ErrorData ArrayVar :=
  match marshalled : v.mirror.toDatum with
  | .ok var =>
    .ok { v with
      mirror := { v.mirror with var := var }
      denoting := denoting_withVar v.denoting (toDatum_valid v.denoting marshalled) }
  | .raise e => .raise e.report
  | .undefined => .undefined

section Run

variable {α β : Type}

/-- One piece of code after another. -/
def andThen (x : Native ErrorData α × Store cache)
    (next : α → Store cache → Native ErrorData β × Store cache) : Native ErrorData β × Store cache :=
  match x.1 with
  | .ok a => next a x.2
  | .raise e => (.raise e, x.2)
  | .undefined => (.undefined, x.2)

def syncArray (dno : Nat) (s : Store cache) : Native ErrorData Unit × Store cache :=
  match (s.arrays dno).sync with
  | .ok v => (.ok (), s.setArray dno v)
  | .raise e => (.raise e, s)
  | .undefined => (.undefined, s)

/-- The load of one of the fields. -/
def loadField (fields : List NullableDatum) (fieldIdx : Int) : Native ErrorData LeafValue :=
  if fieldIdx < 0 then .undefined
  else
    match fields[fieldIdx.toNat]? with
    | none => .undefined
    | some datum => .ok (.word datum.value)

def NullCode.run (s : Store cache) : NullCode → Native ErrorData Bool × Store cache
  | .notNull => (.ok false, s)
  | .loadVar dno => (varSlots decl dno s >>= fun pair => .ok pair.isnull, s)
  | .syncLoadVar dno => andThen (syncArray dno s) fun _ s =>
    (varSlots decl dno s >>= fun pair => .ok pair.isnull, s)

def ValueCode.run (s : Store cache) : ValueCode → Native ErrorData LeafValue × Store cache
  | .loadVar dno => (varSlots decl dno s >>= fun pair => .ok pair.value, s)
  | .syncLoadVar dno => andThen (syncArray dno s) fun _ s =>
    (varSlots decl dno s >>= fun pair => .ok pair.value, s)
  | .getRecfield dno => rtGetRecfield decl call dno s
  | .inlineField dno fieldIdx =>
    match (s.recs (s.recfields dno).recparentno).erh with
    -- The flags are loaded through the pointer before it is tested.
    | none => (.undefined, s)
    | some erh =>
      match erh.dvalues with
      | some fields => (loadField fields fieldIdx, s)
      | none => rtGetRecfield decl call dno s

/-- A leaf: the NULL test comes first. -/
def runLeaf (code : NullCode × ValueCode) (s : Store cache) : Native ErrorData LeafPair × Store cache :=
  andThen (code.1.run decl s) fun isnull s =>
    andThen (code.2.run decl call s) fun value s => (.ok ⟨value, isnull⟩, s)

end Run

/-! ### Histories -/

/-- What happens to the datums while a function runs. A record variable is assigned
a record of any row type, or none; reads leave their marks too. -/
inductive Event (cache : TypeCache) where
  | assignVar (dno : Nat) (datum : NullableDatum)
  | assignArray (dno : Nat) (v : ArrayVar)
  | assignPromise (dno : Nat) (datum : NullableDatum)
  | assignRecord (dno rectypeid : Nat) (erh : Option (ExpandedRecordHeader cache))
  | evalDatum (dno : Nat)
  | leaf (code : NullCode × ValueCode)

def Event.apply (s : Store cache) : Event cache → Store cache
  | .assignVar dno datum => { s with vars := Function.update s.vars dno datum }
  | .assignArray dno v => s.setArray dno v
  | .assignPromise dno datum => s.setPromise dno (.fulfilled datum)
  | .assignRecord dno rectypeid erh =>
    s.setRec dno { s.recs dno with rectypeid := rectypeid, erh := erh }
  | .evalDatum dno => (execEvalDatum decl call dno s).2
  | .leaf code => (runLeaf decl call code s).2

def replay (s : Store cache) (history : List (Event cache)) : Store cache :=
  history.foldl (Event.apply decl call) s

/-! ### When a leaf is right -/

section Meets

variable (compileErh : Nat → Option (ExpandedRecordHeader cache)) (s : Store cache)

/-- The one promise that is NULL: `TG_ARGV` of a trigger without arguments. -/
def Call.promisesNull (kind : PromiseType) : Prop :=
  kind = .tgArgv ∧ ∃ t, call.trigdata = some t ∧ t.tgargs = []

/-- The field is not NULL, if the record has it. -/
def FieldPresent (f : RecField cache) : Prop :=
  ∀ r erh finfo, (s.recs f.recparentno).instantiated = .ok (r, erh) →
    cache.lookupField erh.erTupdescId f.fieldname = some finfo → (erh.getField finfo.fnumber).1.isnull = false

/-- The record has the field, not NULL, at the frozen position, or another field
there with the same Datum. -/
def FieldInPlace (f : RecField cache) (erh : ExpandedRecordHeader cache) (fields : List NullableDatum)
    (fieldIdx : Int) : Prop :=
  ∃ finfo there, cache.lookupField erh.erTupdescId f.fieldname = some finfo ∧
    (erh.getField finfo.fnumber).1.isnull = false ∧
    0 ≤ fieldIdx ∧ fields[fieldIdx.toNat]? = some there ∧
    (fieldIdx = finfo.fnumber - 1 ∨ there.value = (erh.getField finfo.fnumber).1.value)

/-- A field whose position was frozen: its record is there, and if it has been taken
apart, the field is in its place. -/
def FrozenFieldPresent (f : RecField cache) (fieldIdx : Int) : Prop :=
  ∃ erh, (s.recs f.recparentno).erh = some erh ∧
    match erh.dvalues with
    | some fields => FieldInPlace f erh fields fieldIdx
    | none => FieldPresent s f

def Leaf.Meets : Leaf → Prop
  | .param dno =>
    match decl.dtype dno with
    | .var => decl.native dno = true →
      0 < (s.arrays dno).mirror.len.toInt ∨ (s.arrays dno).mirror.var = (s.arrays dno).held
    | .promise =>
      match s.promises dno with
      | .fulfilled datum => datum.isnull = false
      | .pending kind => ¬call.promisesNull kind
    | .record => False
    | .recfield =>
      match frozenIdx compileErh (s.recfields dno) with
      | some fieldIdx => FrozenFieldPresent s (s.recfields dno) fieldIdx
      | none => FieldPresent s (s.recfields dno)
  | .base dno =>
    match decl.dtype dno with
    | .var => True
    | .promise =>
      match s.promises dno with
      | .fulfilled _ => True
      | .pending kind => call.promisesNull kind
    | .record => False
    | .recfield => False

end Meets

/-! ### Reading by name -/

section Fields

variable {decl call} {s : Store cache}

/-- What is kept of the last lookup is what a lookup finds. -/
theorem RecField.resolve_eq (f : RecField cache) (id : TupDescId) :
    (f.resolve id).map RecField.finfo = cache.lookupField id f.fieldname := by
  unfold RecField.resolve
  by_cases kept : f.rectupledescid = id.1
  · rw [if_pos kept]
    exact (f.finfo_found id kept.symm).symm
  · rw [if_neg kept]
    split
    · next missing => simp [missing]
    · next finfo found => simp [found]

theorem evalDatum_recfield {dno : Nat} (field : decl.dtype dno = .recfield) :
    evalDatum decl call dno s =
      match (s.recs (s.recfields dno).recparentno).instantiated with
      | .error e => .raise e
      | .ok (r, erh) =>
        match cache.lookupField erh.erTupdescId (s.recfields dno).fieldname with
        | none => .raise (undefinedField r.refname (s.recfields dno).fieldname)
        | some finfo => .ok (.ofDatum (erh.getField finfo.fnumber).1) := by
  simp only [evalDatum, execEvalDatum, field, evalRecfield]
  cases made : (s.recs (s.recfields dno).recparentno).instantiated with
  | error e => rfl
  | ok out =>
    obtain ⟨r, erh⟩ := out
    simp only
    rw [← RecField.resolve_eq]
    cases (s.recfields dno).resolve erh.erTupdescId with
    | none => rfl
    | some f => rfl

variable (call) in
theorem evalDatum_field_present_iff {dno : Nat} (field : decl.dtype dno = .recfield) :
    (∀ pair, evalDatum decl call dno s = .ok pair → pair.isnull = false) ↔
      FieldPresent s (s.recfields dno) := by
  rw [evalDatum_recfield field]
  unfold FieldPresent
  cases made : (s.recs (s.recfields dno).recparentno).instantiated with
  | error e => simp
  | ok out =>
    obtain ⟨r, erh⟩ := out
    cases found : cache.lookupField erh.erTupdescId (s.recfields dno).fieldname with
    | none =>
      simp only [found, Except.ok.injEq, Prod.mk.injEq]
      constructor
      · rintro - r' erh' finfo ⟨rfl, rfl⟩ found'
        rw [found] at found'
        cases found'
      · rintro - pair same
        cases same
    | some finfo =>
      simp only [found, Except.ok.injEq, Prod.mk.injEq, Native.ok.injEq]
      constructor
      · rintro present r' erh' finfo' ⟨rfl, rfl⟩ found'
        rw [found] at found'
        cases found'
        exact present _ rfl
      · rintro present pair rfl
        exact present r erh finfo ⟨rfl, rfl⟩ found

end Fields

/-! ### Each kind of leaf -/

section Kinds

variable {decl call} {s : Store cache} {dno : Nat}

theorem Call.promised_null_iff {kind : PromiseType} :
    call.promised kind = .ok .null ↔ call.promisesNull kind := by
  unfold Call.promised Call.promisesNull
  cases kind <;> cases call.trigdata <;> cases call.evtrigdata <;>
    simp [TriggerData.when, Except.map, NullableDatum.null] <;> grind

theorem Call.promised_isnull {kind : PromiseType} {datum : NullableDatum}
    (promised : call.promised kind = .ok datum) (isnull : datum.isnull = true) : datum = .null := by
  unfold Call.promised at promised
  cases kind <;> cases trig : call.trigdata <;> cases evtrig : call.evtrigdata <;>
    simp [trig, evtrig, TriggerData.when, Except.map] at promised <;> grind [NullableDatum.null]

/-- A leaf of one variable. -/
theorem runLeaf_loadVar : (runLeaf decl call (.loadVar dno, .loadVar dno) s).1 = varSlots decl dno s := by
  simp only [runLeaf, NullCode.run, ValueCode.run, andThen]
  cases varSlots decl dno s <;> rfl

theorem ArrayVar.sync_eq (v : ArrayVar) :
    ∃ v', v.sync = .ok v' ∧ v'.held = v.held ∧ v'.mirror.len = v.mirror.len ∧
      v'.mirror.var = if 0 < v.mirror.len.toInt then v.held else v.mirror.var := by
  have marshalled := toDatum_denoting v.denoting
  unfold ArrayVar.sync
  split
  · next var same =>
    rw [marshalled] at same
    cases same
    exact ⟨_, rfl, rfl, rfl, rfl⟩
  · next e same =>
    rw [marshalled] at same
    cases same
  · next same =>
    rw [marshalled] at same
    cases same

/-- The second marshalling gives the same as the first. -/
theorem runLeaf_syncLoadVar (native : decl.native dno = true) :
    (runLeaf decl call (.syncLoadVar dno, .syncLoadVar dno) s).1 =
      .ok (.ofArray
        (if 0 < (s.arrays dno).mirror.len.toInt then (s.arrays dno).held else (s.arrays dno).mirror.var)) := by
  have var := decl.native_var dno native
  obtain ⟨v, synced, held, len, first⟩ := (s.arrays dno).sync_eq
  obtain ⟨v', synced', held', len', second⟩ := v.sync_eq
  have again : v'.mirror.var = v.mirror.var := by
    rw [second, held, len, first]
    split <;> rfl
  simp only [runLeaf, NullCode.run, ValueCode.run, andThen, syncArray, synced, Store.setArray,
    Function.update_self, synced', varSlots, var, native, if_true, Native.ok_bind, again, first]

/-- The NULL flag is dropped, and so is the value of a NULL. -/
theorem runLeaf_getRecfield_iff :
    (runLeaf decl call (.notNull, .getRecfield dno) s).1 = evalDatum decl call dno s ↔
      ∀ pair, evalDatum decl call dno s = .ok pair → pair.isnull = false := by
  simp only [runLeaf, NullCode.run, ValueCode.run, andThen, rtGetRecfield]
  cases evalDatum decl call dno s with
  | raise e => simp
  | undefined => simp
  | ok pair =>
    obtain ⟨value, isnull⟩ := pair
    cases isnull <;> simp

theorem evalDatum_ne_undefined : evalDatum decl call dno s ≠ .undefined := by
  unfold evalDatum
  split <;> simp

theorem loadField_eq_ok_iff {fields : List NullableDatum} {fieldIdx : Int} {value : BitVec 64} :
    loadField fields fieldIdx = .ok (.word value) ↔
      0 ≤ fieldIdx ∧ ∃ there, fields[fieldIdx.toNat]? = some there ∧ there.value = value := by
  unfold loadField
  by_cases below : fieldIdx < 0
  · rw [if_pos below]
    have not_above : ¬0 ≤ fieldIdx := by omega
    simp [not_above]
  · rw [if_neg below]
    have above : 0 ≤ fieldIdx := by omega
    cases fields[fieldIdx.toNat]? <;> simp [above]

theorem loadField_ne_raise {fields : List NullableDatum} {fieldIdx : Int} {e : ErrorData} :
    loadField fields fieldIdx ≠ .raise e := by
  unfold loadField
  split
  · simp
  · split <;> simp

theorem ExpandedRecordHeader.getField_of_apart {erh : ExpandedRecordHeader cache} {fields : List NullableDatum}
    {fnumber : Int} {there : NullableDatum} (apart : erh.dvalues = some fields) (positive : 0 < fnumber)
    (inside : fields[(fnumber - 1).toNat]? = some there) : (erh.getField fnumber).1 = there := by
  have nonempty : erh.isEmpty = false := by simp [isEmpty, apart]
  rw [getField, if_pos positive, if_neg (by simp [nonempty])]
  simp only [dvalue, deconstruct, apart, Option.some_or, Option.getD_some, inside]

/-- The field of a record that has been taken apart. -/
theorem inlineField_apart_iff {f : RecField cache} {r : RecVar cache} {erh : ExpandedRecordHeader cache}
    {fields : List NullableDatum} (apart : erh.dvalues = some fields) (fieldIdx : Int) :
    ((loadField fields fieldIdx >>= fun value => .ok (LeafPair.mk value false)) =
      match cache.lookupField erh.erTupdescId f.fieldname with
      | none => Native.raise (undefinedField r.refname f.fieldname)
      | some finfo => .ok (.ofDatum (erh.getField finfo.fnumber).1)) ↔ FieldInPlace f erh fields fieldIdx := by
  unfold FieldInPlace
  cases found : cache.lookupField erh.erTupdescId f.fieldname with
  | none =>
    constructor
    · intro same
      cases loaded : loadField fields fieldIdx with
      | ok value => simp [loaded] at same
      | raise e => exact absurd loaded loadField_ne_raise
      | undefined => simp [loaded] at same
    · rintro ⟨finfo, there, missing, -⟩
      cases missing
  | some finfo =>
    have step : ((loadField fields fieldIdx >>= fun value => .ok (LeafPair.mk value false)) =
        Native.ok (.ofDatum (erh.getField finfo.fnumber).1)) ↔
        loadField fields fieldIdx = .ok (.word (erh.getField finfo.fnumber).1.value) ∧
          (erh.getField finfo.fnumber).1.isnull = false := by
      cases loadField fields fieldIdx with
      | ok value =>
        obtain ⟨value', isnull⟩ := (erh.getField finfo.fnumber).1
        cases isnull <;> simp [LeafPair.ofDatum]
      | raise e => simp
      | undefined => simp
    simp only
    rw [step, loadField_eq_ok_iff]
    constructor
    · rintro ⟨⟨above, there, inside, same⟩, present⟩
      exact ⟨finfo, there, rfl, present, above, inside, .inr same⟩
    · rintro ⟨_, there, ⟨⟩, present, above, inside, rfl | same⟩
      · have read := ExpandedRecordHeader.getField_of_apart apart (by omega) inside
        exact ⟨⟨above, there, inside, by rw [read]⟩, present⟩
      · exact ⟨⟨above, there, inside, same⟩, present⟩

theorem runLeaf_inlineField_iff (field : decl.dtype dno = .recfield) (fieldIdx : Int) :
    (runLeaf decl call (.notNull, .inlineField dno fieldIdx) s).1 = evalDatum decl call dno s ↔
      FrozenFieldPresent s (s.recfields dno) fieldIdx := by
  unfold FrozenFieldPresent
  cases made : (s.recs (s.recfields dno).recparentno).erh with
  | none =>
    simp only [runLeaf, NullCode.run, ValueCode.run, andThen, made]
    simpa using evalDatum_ne_undefined.symm
  | some erh =>
    cases apart : erh.dvalues with
    | none =>
      simp only [Option.some.injEq, exists_eq_left', apart]
      rw [← evalDatum_field_present_iff call field, ← runLeaf_getRecfield_iff]
      simp only [runLeaf, NullCode.run, ValueCode.run, andThen, made, apart]
    | some fields =>
      have known : (s.recs (s.recfields dno).recparentno).instantiated =
          .ok (s.recs (s.recfields dno).recparentno, erh) := by
        simp [RecVar.instantiated, made]
      simp only [Option.some.injEq, exists_eq_left', apart]
      rw [← inlineField_apart_iff apart, evalDatum_recfield field, known]
      simp only [runLeaf, NullCode.run, ValueCode.run, andThen, made, apart]
      cases loadField fields fieldIdx <;> rfl

end Kinds

/-! ### Whole histories -/

section Histories

variable {decl call} {s t : Store cache}

/-- The fields keep their names and their records. -/
def Store.SameFields (s t : Store cache) : Prop :=
  ∀ dno, (t.recfields dno).fieldname = (s.recfields dno).fieldname ∧
    (t.recfields dno).recparentno = (s.recfields dno).recparentno

theorem Store.SameFields.refl (s : Store cache) : s.SameFields s := fun _ => ⟨rfl, rfl⟩

theorem Store.SameFields.trans {u : Store cache} (first : s.SameFields t) (second : t.SameFields u) :
    s.SameFields u := fun dno =>
  ⟨(second dno).1.trans (first dno).1, (second dno).2.trans (first dno).2⟩

theorem Store.sameFields_of_eq (same : t.recfields = s.recfields) : s.SameFields t := by
  intro dno
  rw [same]
  exact ⟨rfl, rfl⟩

theorem RecField.resolve_name {f f' : RecField cache} {id : TupDescId} (resolved : f.resolve id = some f') :
    f'.fieldname = f.fieldname ∧ f'.recparentno = f.recparentno := by
  unfold RecField.resolve at resolved
  split at resolved
  · cases resolved
    exact ⟨rfl, rfl⟩
  · split at resolved
    · cases resolved
    · cases resolved
      exact ⟨rfl, rfl⟩

theorem evalRecfield_sameFields (dno : Nat) : s.SameFields (evalRecfield dno s).2 := by
  unfold evalRecfield
  simp only
  cases (s.recs (s.recfields dno).recparentno).instantiated with
  | error e => exact .refl s
  | ok out =>
    simp only
    cases resolved : (s.recfields dno).resolve out.2.erTupdescId with
    | none => exact Store.sameFields_of_eq rfl
    | some f' =>
      intro k
      by_cases here : k = dno
      · subst here
        simpa [Store.setRecField] using RecField.resolve_name resolved
      · simp [Store.setRecField, Store.setRec, Function.update_of_ne here]

theorem execEvalDatum_sameFields (dno : Nat) : s.SameFields (execEvalDatum decl call dno s).2 := by
  unfold execEvalDatum
  cases decl.dtype dno with
  | var => exact .refl s
  | record => exact .refl s
  | recfield => exact evalRecfield_sameFields dno
  | promise =>
    simp only
    cases s.promises dno with
    | fulfilled datum => exact .refl s
    | pending kind =>
      simp only
      cases call.promised kind with
      | error e => exact .refl s
      | ok datum => exact Store.sameFields_of_eq rfl

section AndThen

variable {α β : Type} {x : Native ErrorData α × Store cache}
  {next : α → Store cache → Native ErrorData β × Store cache}

theorem andThen_sameFields (first : s.SameFields x.2) (second : ∀ (a : α) (t : Store cache), t.SameFields (next a t).2) :
    s.SameFields (andThen x next).2 := by
  unfold andThen
  cases x.1 with
  | ok a => exact first.trans (second a x.2)
  | raise e => exact first
  | undefined => exact first

end AndThen

theorem syncArray_sameFields (dno : Nat) : s.SameFields (syncArray dno s).2 := by
  unfold syncArray
  cases (s.arrays dno).sync with
  | ok v => exact Store.sameFields_of_eq rfl
  | raise e => exact .refl s
  | undefined => exact .refl s

theorem NullCode.run_sameFields (code : NullCode) : s.SameFields (code.run decl s).2 := by
  cases code with
  | notNull => exact .refl s
  | loadVar dno => exact .refl s
  | syncLoadVar dno => exact andThen_sameFields (syncArray_sameFields dno) fun _ t => .refl t

theorem ValueCode.run_sameFields (code : ValueCode) : s.SameFields (code.run decl call s).2 := by
  cases code with
  | loadVar dno => exact .refl s
  | syncLoadVar dno => exact andThen_sameFields (syncArray_sameFields dno) fun _ t => .refl t
  | getRecfield dno => exact execEvalDatum_sameFields dno
  | inlineField dno fieldIdx =>
    simp only [ValueCode.run]
    cases (s.recs (s.recfields dno).recparentno).erh with
    | none => exact .refl s
    | some erh =>
      simp only
      cases erh.dvalues with
      | some fields => exact .refl s
      | none => exact execEvalDatum_sameFields dno

theorem Event.apply_sameFields (event : Event cache) : s.SameFields (event.apply decl call s) := by
  cases event with
  | assignVar dno datum => exact Store.sameFields_of_eq rfl
  | assignArray dno v => exact Store.sameFields_of_eq rfl
  | assignPromise dno datum => exact Store.sameFields_of_eq rfl
  | assignRecord dno rectypeid erh => exact Store.sameFields_of_eq rfl
  | evalDatum dno => exact execEvalDatum_sameFields dno
  | leaf code =>
    refine andThen_sameFields (code.1.run_sameFields) fun isnull t => ?_
    exact andThen_sameFields (code.2.run_sameFields) fun value t => .refl t

variable (decl call s) in
theorem replay_sameFields (history : List (Event cache)) : s.SameFields (replay decl call s history) := by
  induction history generalizing s with
  | nil => exact .refl s
  | cons event rest ih => exact event.apply_sameFields.trans (ih _)

/-- Code stays the same when the datums change. -/
theorem Store.SameFields.frozenIdx (same : s.SameFields t)
    (compileErh : Nat → Option (ExpandedRecordHeader cache)) (dno : Nat) :
    frozenIdx compileErh (t.recfields dno) = frozenIdx compileErh (s.recfields dno) := by
  unfold Leaves.frozenIdx
  rw [(same dno).1, (same dno).2]

end Histories

/-! ### Leaves -/

section Leaf

variable {decl call} {s : Store cache} {dno : Nat}

theorem param_var_iff (var : decl.dtype dno = .var)
    (compileErh : Nat → Option (ExpandedRecordHeader cache)) (recfields : Nat → RecField cache) :
    (runLeaf decl call (emitLoadParamIsnull decl dno, emitLoadParamDatum decl compileErh recfields dno) s).1 =
        evalDatum decl call dno s ↔
      (decl.native dno = true →
        0 < (s.arrays dno).mirror.len.toInt ∨ (s.arrays dno).mirror.var = (s.arrays dno).held) := by
  cases native : decl.native dno with
  | true =>
    have spec : evalDatum decl call dno s = .ok (.ofArray (s.arrays dno).held) := by
      simp [evalDatum, execEvalDatum, var, native]
    simp only [emitLoadParamIsnull, emitLoadParamDatum, native, var, if_true, reduceCtorEq, or_self, if_false]
    rw [runLeaf_syncLoadVar native, spec, Native.ok.injEq, LeafPair.ofArray_inj]
    by_cases long : 0 < (s.arrays dno).mirror.len.toInt
    · simp [long]
    · simp [long]
  | false =>
    simp only [emitLoadParamIsnull, emitLoadParamDatum, native, var, if_false, reduceCtorEq, or_self,
      Bool.false_eq_true, false_implies, iff_true]
    rw [runLeaf_loadVar]
    simp [varSlots, evalDatum, execEvalDatum, var, native]

theorem Declared.not_native (other : decl.dtype dno ≠ .var) : decl.native dno = false := by
  cases native : decl.native dno with
  | false => rfl
  | true => exact absurd (decl.native_var dno native) other

theorem evalDatum_pending {kind : PromiseType} (promise : decl.dtype dno = .promise)
    (pending : s.promises dno = .pending kind) {pair : LeafPair} :
    evalDatum decl call dno s = .ok pair ↔ ∃ datum, call.promised kind = .ok datum ∧ .ofDatum datum = pair := by
  simp only [evalDatum, execEvalDatum, promise, pending]
  cases call.promised kind <;> simp

theorem evalDatum_fulfilled {datum : NullableDatum} (promise : decl.dtype dno = .promise)
    (fulfilled : s.promises dno = .fulfilled datum) : evalDatum decl call dno s = .ok (.ofDatum datum) := by
  simp only [evalDatum, execEvalDatum, promise, fulfilled]

theorem param_promise_iff (promise : decl.dtype dno = .promise)
    (compileErh : Nat → Option (ExpandedRecordHeader cache)) (recfields : Nat → RecField cache) :
    (runLeaf decl call (emitLoadParamIsnull decl dno, emitLoadParamDatum decl compileErh recfields dno) s).1 =
        evalDatum decl call dno s ↔
      match s.promises dno with
      | .fulfilled datum => datum.isnull = false
      | .pending kind => ¬call.promisesNull kind := by
  have plain := decl.not_native (by simp [promise] : decl.dtype dno ≠ .var)
  simp only [emitLoadParamIsnull, emitLoadParamDatum, plain, promise, Bool.false_eq_true, if_false, or_true,
    if_true]
  rw [runLeaf_getRecfield_iff]
  cases stored : s.promises dno with
  | fulfilled datum => simp [evalDatum_fulfilled promise stored]
  | pending kind =>
    simp only [evalDatum_pending promise stored, ← Call.promised_null_iff]
    constructor
    · intro present null
      exact absurd (present _ ⟨_, null, rfl⟩) (by decide)
    · rintro present _ ⟨datum, promised, rfl⟩
      by_contra isnull
      rw [Call.promised_isnull promised (by simpa using isnull)] at promised
      exact present promised

theorem param_recfield_iff (field : decl.dtype dno = .recfield)
    (compileErh : Nat → Option (ExpandedRecordHeader cache)) {recfields : Nat → RecField cache}
    (same : frozenIdx compileErh (recfields dno) = frozenIdx compileErh (s.recfields dno)) :
    (runLeaf decl call (emitLoadParamIsnull decl dno, emitLoadParamDatum decl compileErh recfields dno) s).1 =
        evalDatum decl call dno s ↔
      match frozenIdx compileErh (s.recfields dno) with
      | some fieldIdx => FrozenFieldPresent s (s.recfields dno) fieldIdx
      | none => FieldPresent s (s.recfields dno) := by
  have plain := decl.not_native (by simp [field] : decl.dtype dno ≠ .var)
  simp only [emitLoadParamIsnull, emitLoadParamDatum, plain, field, Bool.false_eq_true, if_false, true_or,
    if_true, same]
  cases frozenIdx compileErh (s.recfields dno) with
  | none =>
    simp only
    rw [runLeaf_getRecfield_iff, evalDatum_field_present_iff call field]
  | some fieldIdx =>
    simp only
    rw [runLeaf_inlineField_iff field]

theorem base_promise_iff (promise : decl.dtype dno = .promise) :
    (runLeaf decl call (.loadVar dno, .loadVar dno) s).1 = evalDatum decl call dno s ↔
      match s.promises dno with
      | .fulfilled _ => True
      | .pending kind => call.promisesNull kind := by
  rw [runLeaf_loadVar]
  simp only [varSlots, promise]
  cases stored : s.promises dno with
  | fulfilled datum => simp [evalDatum_fulfilled promise stored, PromiseVar.stored]
  | pending kind =>
    simp only [PromiseVar.stored]
    rw [eq_comm, evalDatum_pending promise stored, ← Call.promised_null_iff]
    simp

/-- Where the slots of a variable are past the end of the struct. -/
theorem loadVar_past_end (outside : varSlots decl dno s = .undefined) :
    (runLeaf decl call (.loadVar dno, .loadVar dno) s).1 ≠ evalDatum decl call dno s := by
  rw [runLeaf_loadVar, outside]
  exact evalDatum_ne_undefined.symm

end Leaf

section Main

variable {decl call}

/-- A leaf reads what `exec_eval_datum` gives in exactly those states: the code was
fixed with other records in the variables, and anything may have happened since. -/
theorem leaf_reads (compileErh : Nat → Option (ExpandedRecordHeader cache)) (start : Store cache)
    (history : List (Event cache)) (leaf : Leaf) (code : NullCode × ValueCode)
    (emitted : leaf.code decl compileErh start.recfields = some code) :
    (runLeaf decl call code (replay decl call start history)).1 =
        evalDatum decl call leaf.dno (replay decl call start history) ↔
      leaf.Meets decl call compileErh (replay decl call start history) := by
  have same := replay_sameFields decl call start history
  generalize replay decl call start history = s at same
  cases leaf with
  | param dno =>
    cases emitted
    cases kind : decl.dtype dno with
    | var =>
      simp only [Leaf.Meets, Leaf.dno, kind]
      exact param_var_iff kind compileErh start.recfields
    | promise =>
      simp only [Leaf.Meets, Leaf.dno, kind]
      exact param_promise_iff kind compileErh start.recfields
    | recfield =>
      simp only [Leaf.Meets, Leaf.dno, kind]
      exact param_recfield_iff kind compileErh (same.frozenIdx compileErh dno).symm
    | record =>
      have plain := decl.not_native (by simp [kind] : decl.dtype dno ≠ .var)
      simp only [Leaf.Meets, Leaf.dno, emitLoadParamIsnull, emitLoadParamDatum, plain, kind, Bool.false_eq_true, if_false,
        reduceCtorEq, or_self, iff_false]
      exact loadVar_past_end (by simp [varSlots, kind])
  | base dno =>
    simp only [Leaf.code] at emitted
    split at emitted
    · cases emitted
    · next plain =>
      cases emitted
      cases kind : decl.dtype dno with
      | var =>
        rw [runLeaf_loadVar]
        simp [Leaf.Meets, Leaf.dno, varSlots, evalDatum, execEvalDatum, kind, plain]
      | promise =>
        simp only [Leaf.Meets, Leaf.dno, kind]
        exact base_promise_iff kind
      | record =>
        exact iff_of_false (loadVar_past_end (by simp [varSlots, kind])) (by simp [Leaf.Meets, kind])
      | recfield =>
        exact iff_of_false (loadVar_past_end (by simp [varSlots, kind])) (by simp [Leaf.Meets, kind])

end Main

/-! ### r.f, and r.f again -/

/-- The row types (f int4) and (g int4, f int4). -/
def gfTypes : TypeCache where
  desc id := if id.1 = 2 then [⟨"f", 23, -1, 0, false⟩] else [⟨"g", 23, -1, 0, false⟩, ⟨"f", 23, -1, 0, false⟩]
  revalidateRectypeid := .ok
  rowTypeOf _ := .ok ⟨2, by decide⟩

/-- r RECORD is datum 0, r.f is datum 1, and TG_ARGV is datum 2. -/
def gfDeclared : Declared where
  dtype dno := match dno with
    | 0 => .record
    | 1 => .recfield
    | 2 => .promise
    | _ => .var
  typoid _ := 23
  atttypmod _ := -1
  native _ := false
  native_var := nofun

/-- A record of the row type (f int4). -/
def recordF (f : NullableDatum) : ExpandedRecordHeader gfTypes where
  erTupdescId := ⟨2, by decide⟩
  erTypeid := recordOid
  erTypmod := 0
  dvalues := some [f]
  fvalue := none
  rwPtr := 4096
  dvalues_length := by
    rintro _ ⟨⟩
    rfl
  fvalue_length := nofun

/-- A record of the row type (g int4, f int4). -/
def recordGf (g f : NullableDatum) : ExpandedRecordHeader gfTypes where
  erTupdescId := ⟨3, by decide⟩
  erTypeid := recordOid
  erTypmod := 1
  dvalues := some [g, f]
  fvalue := none
  rwPtr := 8192
  dvalues_length := by
    rintro _ ⟨⟩
    rfl
  fvalue_length := nofun

def emptyArrayVar : ArrayVar where
  mirror := (NativeArray.init .null).refresh false
  held := .null
  denoting := NativeArray.refresh_denoting (by unfold NativeArray.init ArrayDatum.Valid; decide) false

/-- The datums when the function is entered. -/
def gfStart : Store gfTypes where
  vars _ := .null
  arrays _ := emptyArrayVar
  promises _ := .pending .tgArgv
  recs _ := ⟨"r", recordOid, none⟩
  recfields _ := ⟨"f", 0, invalidTupledescIdentifier, ⟨0, 0, 0, 0⟩, by
    rintro ⟨id, used⟩ same
    simp only at same
    omega⟩

/-- A trigger with one argument. -/
def gfCall : Call where
  trigdata := some ⟨0x08, "t", 16384, "tab", "public", ["a"]⟩
  evtrigdata := none
  refs := ⟨fun _ => 1024, fun _ => 2048, fun _ => 3072⟩

/-- After r has been assigned a record. -/
def assigned (erh : ExpandedRecordHeader gfTypes) : Store gfTypes :=
  replay gfDeclared gfCall gfStart [.assignRecord 0 recordOid (some erh)]

/-- Field f is found in its place. -/
theorem leaf_reads_in_place :
    (Leaf.param 1).code gfDeclared (fun _ => some (recordGf ⟨0, true⟩ ⟨0, true⟩)) gfStart.recfields =
        some (.notNull, .inlineField 1 1) ∧
      (runLeaf gfDeclared gfCall (.notNull, .inlineField 1 1) (assigned (recordGf ⟨7, false⟩ ⟨5, false⟩))).1 =
        evalDatum gfDeclared gfCall 1 (assigned (recordGf ⟨7, false⟩ ⟨5, false⟩)) :=
  ⟨rfl, (leaf_reads (fun _ => some (recordGf ⟨0, true⟩ ⟨0, true⟩)) gfStart
    [.assignRecord 0 recordOid (some (recordGf ⟨7, false⟩ ⟨5, false⟩))] (.param 1) _ rfl).mpr
    ⟨_, rfl, ⟨2, 23, -1, 0⟩, ⟨5, false⟩, rfl, rfl, by decide, rfl, .inl rfl⟩⟩

/-- A field that is NULL is read as 0; one that has moved is read where it was;
where there is no record it is looked for all the same; a whole record is taken for
a variable; and `TG_ARGV[0]` is read from a promise that nobody has fulfilled. -/
theorem leaf_misreads :
    ((Leaf.param 1).code gfDeclared (fun _ => none) gfStart.recfields = some (.notNull, .getRecfield 1) ∧
      (runLeaf gfDeclared gfCall (.notNull, .getRecfield 1) (assigned (recordF ⟨0, true⟩))).1 =
        .ok ⟨.word 0, false⟩ ∧
      evalDatum gfDeclared gfCall 1 (assigned (recordF ⟨0, true⟩)) = .ok ⟨.word 0, true⟩) ∧
    ((Leaf.param 1).code gfDeclared (fun _ => some (recordF ⟨0, true⟩)) gfStart.recfields =
        some (.notNull, .inlineField 1 0) ∧
      (runLeaf gfDeclared gfCall (.notNull, .inlineField 1 0) (assigned (recordGf ⟨7, false⟩ ⟨5, false⟩))).1 =
        .ok ⟨.word 7, false⟩ ∧
      evalDatum gfDeclared gfCall 1 (assigned (recordGf ⟨7, false⟩ ⟨5, false⟩)) = .ok ⟨.word 5, false⟩ ∧
      (runLeaf gfDeclared gfCall (.notNull, .inlineField 1 0) gfStart).1 = .undefined ∧
      evalDatum gfDeclared gfCall 1 gfStart = .raise (recordNotAssigned "r")) ∧
    ((Leaf.param 0).code gfDeclared (fun _ => none) gfStart.recfields = some (.loadVar 0, .loadVar 0) ∧
      (runLeaf gfDeclared gfCall (.loadVar 0, .loadVar 0) (assigned (recordF ⟨5, false⟩))).1 = .undefined ∧
      evalDatum gfDeclared gfCall 0 (assigned (recordF ⟨5, false⟩)) = .ok ⟨.word 4096, false⟩) ∧
    ((Leaf.base 2).code gfDeclared (fun _ => none) gfStart.recfields = some (.loadVar 2, .loadVar 2) ∧
      (runLeaf gfDeclared gfCall (.loadVar 2, .loadVar 2) gfStart).1 = .ok ⟨.word 0, true⟩ ∧
      evalDatum gfDeclared gfCall 2 gfStart = .ok ⟨.word 3072, false⟩) := by
  decide

end Uplpgsql.Leaves
