import Uplpgsql.Env
import Mathlib.Logic.Function.Basic

/-!
# Rows and their targets

A row loop reads rows from a portal into a record or into a list of scalars.
Both executions assign through `exec_move_row`. A record remembers its row type
by an identifier from a process-wide counter; programs see the row type and the
fields, never the identifier.
-/

namespace Uplpgsql

/-! ### Row types -/

/-- `Form_pg_attribute`, as far as `compatible_tupdescs` looks at it. -/
structure Attribute where
  atttypid : Nat
  atttypmod : Int
  attisdropped : Bool
  attlen : Int
  attalign : Char
  deriving DecidableEq, Repr

structure TupDesc where
  tdtypeid : Nat
  attrs : List Attribute
  deriving DecidableEq, Repr

def recordOid : Nat := 2249
def unknownOid : Nat := 705

def compatibleAttr (src dst : Attribute) : Bool :=
  if dst.attisdropped != src.attisdropped then false
  else if !dst.attisdropped then
    dst.atttypid == src.atttypid && !(0 ≤ dst.atttypmod && dst.atttypmod != src.atttypmod)
  else dst.attlen == src.attlen && dst.attalign == src.attalign

def compatibleTupdescs (src dst : TupDesc) : Bool :=
  dst.attrs.length == src.attrs.length &&
    (src.attrs.zip dst.attrs).all fun (s, d) => compatibleAttr s d

/-- `INVALID_TUPLEDESC_IDENTIFIER`. -/
def invalidTupledescIdentifier : Nat := 1

/-- The identifiers in use. -/
abbrev TupDescId := { n : Nat // invalidTupledescIdentifier < n }

variable {D V : Type}

/-- The fields of a row; `none` is NULL. -/
abbrev Tuple (D : Type) := List (Option D)

/-- `ExpandedRecordHeader`. -/
structure ExpandedRecord (D : Type) where
  erTupdescId : TupDescId
  tuple : Tuple D

/-- What assignment relies on: the type cache and the casts. -/
structure RowTypes (D : Type) where
  /-- An identifier stands for one row type. -/
  desc : TupDescId → TupDesc
  /-- The identifier of a composite type, or of the composite type of a domain. -/
  typeId : Nat → TupDescId
  /-- The identifier of a row type given by a descriptor: a new one, by the
  counter, if the row type is not registered. -/
  recordId : TupDesc → Nat → TupDescId
  desc_recordId : ∀ td counter, desc (recordId td counter) = td
  /-- `exec_move_row_from_fields` for a record: the fields cast from one row type
  to another. -/
  coerceFields : TupDesc → TupDesc → Tuple D → Except ErrorData (Tuple D)
  /-- The constraints of a type that is a domain. -/
  checkDomain : Nat → Tuple D → Except ErrorData Unit
  /-- `exec_assign_value`: what a scalar variable gets from a value of a type. -/
  assignValue : Nat → Option D → Nat → Int → Except ErrorData (Option D)
  /-- `strict_multi_assignment` among the extra errors. -/
  strictMulti : Bool

/-! ### The world of a row loop -/

/-- An open portal. `portalPos` rows have been fetched, and `fetches` has the
counts of the fetches so far. -/
structure Portal (D : Type) where
  rows : List (Tuple D)
  tupdesc : TupDesc
  portalPos : Nat
  atEnd : Bool
  fetches : List Nat

namespace Portal

def opened (rows : List (Tuple D)) (tupdesc : TupDesc) : Portal D := ⟨rows, tupdesc, 0, false, []⟩

/-- Up to `count` rows forward. A fetch that runs off the end leaves the portal
after its last row. -/
def fetch (p : Portal D) (count : Nat) : List (Tuple D) × Portal D :=
  if p.atEnd then ([], { p with fetches := p.fetches ++ [count] })
  else
    let vals := (p.rows.drop p.portalPos).take count
    (vals, { p with
      portalPos := p.portalPos + vals.length
      atEnd := vals.length < count
      fetches := p.fetches ++ [count] })

end Portal

/-- `UPLpgSQL_cursor_ctx`. The rows of `batch_tuptab` are `vals`, `batch_count`
of them. -/
structure CursorCtx (D : Type) where
  portal : Nat
  vals : List (Tuple D)
  tupdesc : TupDesc
  batchIdx : Nat
  batchTupdescId : Nat
  batchTupdescsMatch : Bool

/-- The variables of a function and what else a loop reaches. Portals and cursor
contexts are numbered; the numbers from `freshPortal` and `freshCtx` on are not
in use. -/
structure World (D V : Type) where
  recs : Nat → Option (ExpandedRecord D)
  scalars : Nat → Option D
  /-- Cursor variables hold the name of a portal. -/
  cursors : Nat → Option Nat
  found : Bool
  idCounter : Nat
  portals : Nat → Option (Portal D)
  freshPortal : Nat
  ctxs : Nat → Option (CursorCtx D)
  freshCtx : Nat
  rest : V
  portals_fresh : ∀ n, freshPortal ≤ n → portals n = none
  ctxs_fresh : ∀ h, freshCtx ≤ h → ctxs h = none

namespace World

def setRec (w : World D V) (dno : Nat) (erh : ExpandedRecord D) : World D V :=
  { w with recs := Function.update w.recs dno (some erh) }

def setScalar (w : World D V) (dno : Nat) (value : Option D) : World D V :=
  { w with scalars := Function.update w.scalars dno value }

def setCursor (w : World D V) (dno : Nat) (value : Option Nat) : World D V :=
  { w with cursors := Function.update w.cursors dno value }

def tick (w : World D V) : World D V := { w with idCounter := w.idCounter + 1 }

def setPortal (w : World D V) (name : Nat) (p : Portal D) : World D V :=
  { w with
    portals := Function.update w.portals name (some p)
    freshPortal := max w.freshPortal (name + 1)
    portals_fresh := by
      intro n fresh
      rw [Function.update_of_ne (by omega)]
      exact w.portals_fresh n (by omega) }

def dropPortal (w : World D V) (name : Nat) : World D V :=
  { w with
    portals := Function.update w.portals name none
    portals_fresh := by
      intro n fresh
      by_cases same : n = name
      · rw [same, Function.update_self]
      · rw [Function.update_of_ne same]
        exact w.portals_fresh n fresh }

def setCtx (w : World D V) (h : Nat) (c : CursorCtx D) : World D V :=
  { w with
    ctxs := Function.update w.ctxs h (some c)
    freshCtx := max w.freshCtx (h + 1)
    ctxs_fresh := by
      intro n fresh
      rw [Function.update_of_ne (by omega)]
      exact w.ctxs_fresh n (by omega) }

def freeCtx (w : World D V) (h : Nat) : World D V :=
  { w with
    ctxs := Function.update w.ctxs h none
    ctxs_fresh := by
      intro n fresh
      by_cases same : n = h
      · rw [same, Function.update_self]
      · rw [Function.update_of_ne same]
        exact w.ctxs_fresh n fresh }

end World

/-! ### Assignment -/

inductive LoopTarget where
  | record (dno rectypeid : Nat)
  | row (varnos : List Nat)
  deriving DecidableEq, Repr

/-- "number of source and target fields in assignment does not match". -/
def fieldCountMismatch : ErrorData :=
  ⟨makeSqlstate '4' '2' '8' '0' '4', "number of source and target fields in assignment does not match"⟩

section Assign

variable (types : RowTypes D)

/-- `make_expanded_record_for_rec`: the row type of the new record. -/
def makeExpandedRecordForRec (rectypeid : Nat) (td : TupDesc) (w : World D V) : TupDescId :=
  if rectypeid ≠ recordOid then types.typeId rectypeid else types.recordId td w.idCounter

/-- The fields of a row that were not dropped, with their attributes. -/
def liveFields (td : TupDesc) (tup : Tuple D) : List (Attribute × Option D) :=
  (td.attrs.zip tup).filter fun (a, _) => !a.attisdropped

/-- `exec_move_row_from_fields` for a list of scalars; without a row type the
fields are not counted. -/
def moveFields (counted : Bool) : List Nat → List (Attribute × Option D) → World D V → Res (World D V) Unit
  | [], [], w => .ok () w
  | [], _ :: _, w => if counted && types.strictMulti then .raise fieldCountMismatch w else .ok () w
  | dno :: rest, [], w =>
    if counted && types.strictMulti then .raise fieldCountMismatch w
    else
      match types.assignValue dno none unknownOid (-1) with
      | .error e => .raise e w
      | .ok value => moveFields counted rest [] (w.setScalar dno value)
  | dno :: rest, (a, field) :: fields, w =>
    match types.assignValue dno field a.atttypid a.atttypmod with
    | .error e => .raise e w
    | .ok value => moveFields counted rest fields (w.setScalar dno value)

/-- The fields a record of the type gets from a row: the row itself if the types
match, and otherwise its fields cast. -/
def rowForRec (rectypeid : Nat) (td newDesc : TupDesc) (tup : Tuple D) : Except ErrorData (Tuple D) := do
  let fields ←
    if rectypeid = recordOid ∨ rectypeid = td.tdtypeid ∨ compatibleTupdescs td newDesc then .ok tup
    else types.coerceFields td newDesc tup
  types.checkDomain rectypeid fields
  .ok fields

/-- `exec_move_row` with a row type; without a row it assigns nulls. -/
def execMoveRow (target : LoopTarget) (tup : Option (Tuple D)) (td : TupDesc) (w : World D V) :
    Res (World D V) Unit :=
  match target, tup with
  | .record dno rectypeid, some tup =>
    let id := makeExpandedRecordForRec types rectypeid td w
    match rowForRec types rectypeid td (types.desc id) tup with
    | .error e => .raise e w.tick
    | .ok fields => .ok () (w.tick.setRec dno ⟨id, fields⟩)
  | .record dno rectypeid, none =>
    let id := makeExpandedRecordForRec types rectypeid td w
    .ok () (w.tick.setRec dno ⟨id, (types.desc id).attrs.map fun _ => none⟩)
  | .row varnos, some tup => moveFields types true varnos (liveFields td tup) w
  | .row varnos, none => moveFields types false varnos [] w

/-- What a program sees of a loop target. -/
inductive TargetValue (D : Type) where
  | record (value : Option (TupDesc × Tuple D))
  | fields (values : List (Option D))

def World.value (w : World D V) : LoopTarget → TargetValue D
  | .record dno _ => .record ((w.recs dno).map fun erh => (types.desc erh.erTupdescId, erh.tuple))
  | .row varnos => .fields (varnos.map w.scalars)

end Assign

end Uplpgsql
