import Mathlib.Tactic.Common
import Uplpgsql.Rows.Loops

/-!
# Which rows a loop delivers

Batches have 10 rows, then 50 each, or one row each outside atomic contexts.
However the rows are batched, the loop target gets the portal's rows in order,
and a record that is assigned the fast way has the value `exec_move_row` would
have given it.
-/

namespace Uplpgsql

open Lib.Iteration

variable {D V : Type}

/-! ### What assignment leaves alone -/

/-- Portals and cursor contexts are the same. -/
def World.SameCursors (w w' : World D V) : Prop := w'.portals = w.portals ∧ w'.ctxs = w.ctxs

/-- The variables of one world and the cursors of another. -/
def World.withCursors (w src : World D V) : World D V :=
  { w with
    portals := src.portals
    freshPortal := src.freshPortal
    portals_fresh := src.portals_fresh
    ctxs := src.ctxs
    freshCtx := src.freshCtx
    ctxs_fresh := src.ctxs_fresh }

section Frame

variable {types : RowTypes D}

theorem moveFields_withCursors (counted : Bool) (varnos : List Nat) (fields : List (Attribute × Option D))
    (w src : World D V) :
    moveFields types counted varnos fields (w.withCursors src) =
      (moveFields types counted varnos fields w).mapWorld (·.withCursors src) := by
  induction varnos generalizing fields w with
  | nil =>
    cases fields with
    | nil => rfl
    | cons field fields =>
      rw [moveFields, moveFields]
      split <;> rfl
  | cons dno rest ih =>
    cases fields with
    | nil =>
      rw [moveFields, moveFields]
      split
      · rfl
      · cases types.assignValue dno none unknownOid (-1) with
        | error e => rfl
        | ok value => exact ih [] (w.setScalar dno value)
    | cons field fields =>
      obtain ⟨a, field⟩ := field
      rw [moveFields, moveFields]
      cases types.assignValue dno field a.atttypid a.atttypmod with
      | error e => rfl
      | ok value => exact ih fields (w.setScalar dno value)

/-- Assignment does not look at cursors. -/
theorem execMoveRow_withCursors (target : LoopTarget) (tup : Option (Tuple D)) (td : TupDesc)
    (w src : World D V) :
    execMoveRow types target tup td (w.withCursors src) =
      (execMoveRow types target tup td w).mapWorld (·.withCursors src) := by
  cases target with
  | record dno rectypeid =>
    cases tup with
    | none => rfl
    | some tup =>
      have same : makeExpandedRecordForRec types rectypeid td (w.withCursors src) =
        makeExpandedRecordForRec types rectypeid td w := rfl
      rw [execMoveRow, execMoveRow, same]
      cases rowForRec types rectypeid td (types.desc (makeExpandedRecordForRec types rectypeid td w)) tup with
      | error e => rfl
      | ok fields => rfl
  | row varnos =>
    cases tup with
    | none => exact moveFields_withCursors false varnos [] w src
    | some tup => exact moveFields_withCursors true varnos _ w src

theorem execMoveRow_frame {target : LoopTarget} {tup : Option (Tuple D)} {td : TupDesc}
    {w w' : World D V} (moved : execMoveRow types target tup td w = .ok () w') : w.SameCursors w' := by
  have own : execMoveRow types target tup td w = _ := execMoveRow_withCursors target tup td w w
  rw [moved] at own
  injection own with _ eq
  rw [eq]
  exact ⟨rfl, rfl⟩

end Frame

/-! ### The schedule of fetches -/

/-- The counts of the first `m` fetches. -/
def fetchSchedule (prefetch : Bool) : Nat → List Nat
  | 0 => []
  | m + 1 => (if prefetch then 10 else 1) :: List.replicate m (if prefetch then 50 else 1)

/-- The rows before the `m`-th batch, and with it if it is full. -/
def batchStart (prefetch : Bool) (m : Nat) : Nat := if prefetch then 50 * m - 90 else m - 1

def batchEnd (prefetch : Bool) (m : Nat) : Nat := if prefetch then 50 * m - 40 else m

/-- The number of fetches up to the `k`-th row. -/
def fetchesFor (prefetch : Bool) (k : Nat) : Nat :=
  if k = 0 then 0 else if prefetch then (k + 89) / 50 else k

theorem fetchSchedule_succ (prefetch : Bool) (m : Nat) :
    fetchSchedule prefetch (m + 1) = fetchSchedule prefetch m ++
      [if m = 0 then (if prefetch then 10 else 1) else (if prefetch then 50 else 1)] := by
  cases m with
  | zero => rfl
  | succ m =>
    rw [fetchSchedule, fetchSchedule, List.replicate_succ']
    rfl

theorem fetchesFor_eq {prefetch : Bool} {m k : Nat} (after : batchStart prefetch m < k)
    (upTo : k ≤ batchEnd prefetch m) : fetchesFor prefetch k = m := by
  unfold batchStart at after
  unfold batchEnd at upTo
  unfold fetchesFor
  cases prefetch with
  | true =>
    simp only [if_true] at after upTo ⊢
    rw [if_neg (by omega)]
    omega
  | false =>
    simp only [Bool.false_eq_true, if_false] at after upTo ⊢
    rw [if_neg (by omega)]
    omega

theorem batchStart_succ (prefetch : Bool) (m : Nat) :
    batchStart prefetch (m + 1) = batchEnd prefetch m := by
  unfold batchStart batchEnd
  cases prefetch with
  | true => simp only [if_true]; omega
  | false => simp

/-! ### Fetching one row -/

section Fetch

variable (types : RowTypes D) (atomic : Bool) (target : LoopTarget) (rows : List (Tuple D))
  (td : TupDesc)

/-- The row type of a record after an assignment from rows of type `td`. -/
def recordDesc (rectypeid : Nat) : TupDesc :=
  if rectypeid ≠ recordOid then types.desc (types.typeId rectypeid) else td

theorem desc_makeExpandedRecordForRec (rectypeid : Nat) (w : World D V) :
    types.desc (makeExpandedRecordForRec types rectypeid td w) = recordDesc types td rectypeid := by
  unfold makeExpandedRecordForRec recordDesc
  split
  · rfl
  · exact types.desc_recordId td _

/-- Rows of type `td` are rows of the record's type as they are. -/
def PhysicalRow (rectypeid : Nat) : Prop :=
  rectypeid = recordOid ∨ rectypeid = td.tdtypeid ∨
    compatibleTupdescs td (recordDesc types td rectypeid) = true

/-- What the fast way relies on: the identifier stands for the record's row type,
and no field has to be cast. -/
def FastReady (c : CursorCtx D) : Prop :=
  ∀ id : TupDescId, c.batchTupdescId = id → c.batchTupdescsMatch = true →
    match target with
    | .row _ => True
    | .record _ rectypeid =>
      PhysicalRow types td rectypeid ∧ types.desc id = recordDesc types td rectypeid

/-- `m` batches have been fetched, and `k` rows delivered. -/
structure Ready (name m k : Nat) (c : CursorCtx D) (p : Portal D) : Prop where
  portal : c.portal = name
  result : p.rows = rows
  portalDesc : p.tupdesc = td
  desc : c.tupdesc = td
  fetches : p.fetches = fetchSchedule atomic m
  vals : c.vals = (rows.take p.portalPos).drop (batchStart atomic m)
  pos : p.portalPos = batchStart atomic m + c.vals.length
  delivered : batchStart atomic m + c.batchIdx = k
  idx : c.batchIdx ≤ c.vals.length
  nonempty : m ≠ 0 → c.vals ≠ []
  first : m = 0 → c.vals = [] ∧ p.atEnd = false
  upTo : p.portalPos ≤ batchEnd atomic m
  full : p.atEnd = false → p.portalPos = batchEnd atomic m
  within : p.portalPos ≤ rows.length
  ended : p.atEnd = true → p.portalPos = rows.length
  fast : FastReady types target td c

variable {types atomic target rows td} {name m k h : Nat} {c : CursorCtx D} {p : Portal D}

/-- The next row of the batch is the next row of the portal. -/
theorem Ready.next (ready : Ready types atomic target rows td name m k c p) {tup : Tuple D}
    (here : c.vals[c.batchIdx]? = some tup) : rows[k]? = some tup := by
  rw [ready.vals, List.getElem?_drop, List.getElem?_take] at here
  split at here
  · rw [← ready.delivered]
    exact here
  · cases here

theorem Ready.fetched (ready : Ready types atomic target rows td name m k c p)
    (started : m ≠ 0 → 0 < c.batchIdx) : fetchesFor atomic k = m := by
  by_cases none : m = 0
  · have idx := ready.idx
    rw [(ready.first none).1] at idx
    simp only [List.length_nil, Nat.le_zero] at idx
    have delivered := ready.delivered
    subst none
    rw [idx] at delivered
    subst delivered
    cases atomic <;> rfl
  · have started := started none
    have idx := ready.idx
    have delivered := ready.delivered
    have pos := ready.pos
    have upTo := ready.upTo
    exact fetchesFor_eq (by omega) (by omega)

/-- The context and the portal of a loop are there, and ready. -/
def World.Ready (types : RowTypes D) (atomic : Bool) (target : LoopTarget) (rows : List (Tuple D))
    (td : TupDesc) (name h k : Nat) (w : World D V) : Prop :=
  ∃ c p m, w.ctxs h = some c ∧ w.portals name = some p ∧
    Uplpgsql.Ready types atomic target rows td name m k c p ∧ (m ≠ 0 → 0 < c.batchIdx)

/-- The row is assigned as `exec_move_row` assigns it. -/
def AssignedFrom (types : RowTypes D) (target : LoopTarget) (td : TupDesc) (row : Tuple D)
    (before after : World D V) : Prop :=
  ∃ moved, execMoveRow types target (some row) td before = .ok () moved ∧
    after.value types target = moved.value types target

/-- Assigning a row the slow way leaves a record of the right type. -/
theorem execMoveRow_desc {dno rectypeid : Nat} {tup : Tuple D} {w w' : World D V}
    (moved : execMoveRow types (.record dno rectypeid) (some tup) td w = .ok () w') :
    ∃ erh fields, w'.recs dno = some erh ∧
      types.desc erh.erTupdescId = recordDesc types td rectypeid ∧
      rowForRec types rectypeid td (recordDesc types td rectypeid) tup = .ok fields ∧
      erh.tuple = fields := by
  rw [execMoveRow] at moved
  rw [← desc_makeExpandedRecordForRec types td rectypeid w]
  split at moved
  next => cases moved
  next fields row =>
    cases moved
    exact ⟨_, fields, Function.update_self .., rfl, row, rfl⟩

theorem rowForRec_physical {rectypeid : Nat} {tup : Tuple D} {w : World D V}
    (physical : PhysicalRow types td rectypeid) :
    rowForRec types rectypeid td (types.desc (makeExpandedRecordForRec types rectypeid td w)) tup =
      (do types.checkDomain rectypeid tup; .ok tup) := by
  unfold PhysicalRow at physical
  rw [desc_makeExpandedRecordForRec, rowForRec, if_pos physical]
  rfl

/-- The fast way gives the value the slow way gives. -/
theorem expandedRecordSetTuple_assigned {dno rectypeid : Nat} {erh : ExpandedRecord D} {tup : Tuple D}
    {w w' : World D V} (physical : PhysicalRow types td rectypeid)
    (desc : types.desc erh.erTupdescId = recordDesc types td rectypeid)
    (set : expandedRecordSetTuple types dno rectypeid erh tup w = .ok () w') :
    AssignedFrom types (.record dno rectypeid) td tup w w' := by
  rw [expandedRecordSetTuple] at set
  split at set
  next => cases set
  next check =>
    cases set
    have fields : rowForRec types rectypeid td
        (types.desc (makeExpandedRecordForRec types rectypeid td w)) tup = .ok tup := by
      rw [rowForRec_physical physical, check]
      rfl
    refine ⟨_, by rw [execMoveRow, fields], ?_⟩
    simp only [World.value, World.setRec, Function.update_self, Option.map_some, desc,
      desc_makeExpandedRecordForRec]

theorem AssignedFrom.withCursors {tup : Tuple D} {w src w' : World D V}
    (moved : execMoveRow types target (some tup) td (w.withCursors src) = .ok () w') (after : World D V)
    (same : after.value types target = w'.value types target) :
    AssignedFrom types target td tup w after := by
  rw [execMoveRow_withCursors] at moved
  cases plain : execMoveRow types target (some tup) td w with
  | raise e w₁ =>
    rw [plain] at moved
    cases moved
  | ok u w₁ =>
    rw [plain] at moved
    cases moved
    exact ⟨w₁, plain, same⟩

/-- `c'` differs from `c` only in what the fast way uses. -/
structure CursorCtx.SameBatch (c c' : CursorCtx D) : Prop where
  portal : c'.portal = c.portal
  vals : c'.vals = c.vals
  desc : c'.tupdesc = c.tupdesc
  idx : c'.batchIdx = c.batchIdx

theorem Ready.sameBatch (ready : Ready types atomic target rows td name m k c p) {c' : CursorCtx D}
    (same : c.SameBatch c') (fast : FastReady types target td c') :
    Ready types atomic target rows td name m k c' p := by
  obtain ⟨portal, vals, tupdesc, batchIdx, id, matching⟩ := c
  obtain ⟨portal', vals', tupdesc', batchIdx', id', matching'⟩ := c'
  obtain ⟨rfl, rfl, rfl, rfl⟩ := same
  exact { ready with fast := fast }

theorem moveAndRemember_spec {w src w' : World D V} {matching : Bool} {tup : Tuple D}
    {r : Option (Tuple D)} (desc : c.tupdesc = td) (ctx : src.ctxs h = some c)
    (fast : FastReady types target td c)
    (assigned : moveAndRemember types target h c matching tup (w.withCursors src) = .ok r w') :
    r = some tup ∧ AssignedFrom types target td tup w w' ∧ w'.portals = src.portals ∧
      ∃ c', w'.ctxs h = some c' ∧ c.SameBatch c' ∧ FastReady types target td c' := by
  rw [moveAndRemember, desc] at assigned
  cases moved : execMoveRow types target (some tup) td (w.withCursors src) with
  | raise e w₁ =>
    rw [moved] at assigned
    cases assigned
  | ok u w₁ =>
    rw [moved] at assigned
    obtain ⟨portals, ctxs⟩ := execMoveRow_frame moved
    have kept : w₁.ctxs h = some c := by
      rw [ctxs]
      exact ctx
    cases target with
    | row varnos =>
      cases assigned
      exact ⟨rfl, .withCursors moved _ rfl, portals, c, kept, ⟨rfl, rfl, rfl, rfl⟩, fast⟩
    | record dno rectypeid =>
      obtain ⟨erh, fields, recs, rowType, -⟩ := execMoveRow_desc moved
      simp only [recs] at assigned
      cases assigned
      refine ⟨rfl, .withCursors moved _ rfl, portals, _, Function.update_self .., ⟨rfl, rfl, desc.symm, rfl⟩, ?_⟩
      intro id isId matched
      simp only [Bool.and_eq_true, physicalMatch, Bool.or_eq_true, decide_eq_true_eq] at matched
      refine ⟨matched.2.elim .inl fun eq => .inr (.inl eq), ?_⟩
      rw [← rowType, Subtype.ext isId]

/-- One more row of the batch is delivered. -/
theorem Ready.advance (ready : Ready types atomic target rows td name m k c p)
    (some : c.batchIdx < c.vals.length) :
    Ready types atomic target rows td name m (k + 1) { c with batchIdx := c.batchIdx + 1 } p :=
  { ready with
    delivered := by rw [← ready.delivered]; rfl
    idx := some }

theorem assignFromBatch_spec {w w' : World D V} {tup : Tuple D} {r : Option (Tuple D)}
    (portal : w.portals name = some p) (ready : Ready types atomic target rows td name m k c p)
    (here : c.vals[c.batchIdx]? = some tup)
    (assigned : assignFromBatch types target h c tup w = .ok r w') :
    r = some tup ∧ AssignedFrom types target td tup w w' ∧
      w'.Ready types atomic target rows td name h (k + 1) := by
  have next := ready.advance (List.getElem?_eq_some_iff.mp here).1
  -- The slow way, whichever test led to it.
  have slow (moved : moveAndRemember types target h { c with batchIdx := c.batchIdx + 1 }
      c.batchTupdescsMatch tup (w.setCtx h { c with batchIdx := c.batchIdx + 1 }) = .ok r w') :
      r = some tup ∧ AssignedFrom types target td tup w w' ∧
        w'.Ready types atomic target rows td name h (k + 1) := by
    have moved' : moveAndRemember types target h { c with batchIdx := c.batchIdx + 1 }
      c.batchTupdescsMatch tup (w.withCursors (w.setCtx h { c with batchIdx := c.batchIdx + 1 }))
        = .ok r w' := moved
    obtain ⟨row, from_, portals, c', ctx', same, fast⟩ :=
      moveAndRemember_spec next.desc (Function.update_self ..) next.fast moved'
    refine ⟨row, from_, c', p, m, ctx', by rw [portals]; exact portal, next.sameBatch same fast, ?_⟩
    rw [same.idx]
    exact fun _ => Nat.succ_pos _
  cases target with
  | row varnos => exact slow assigned
  | record dno rectypeid =>
    simp only [assignFromBatch] at assigned
    split at assigned
    next => exact slow assigned
    next erh record =>
      split at assigned
      next guard =>
        obtain ⟨sameId, matching⟩ := guard
        obtain ⟨physical, desc⟩ := ready.fast erh.erTupdescId sameId.symm matching
        split at assigned
        next => cases assigned
        next w₁ set =>
          cases assigned
          rw [expandedRecordSetTuple] at set
          split at set
          next => cases set
          next check =>
            cases set
            have plain : expandedRecordSetTuple types dno rectypeid erh tup w =
                .ok () (w.setRec dno { erh with tuple := tup }) := by
              rw [expandedRecordSetTuple, check]
            obtain ⟨moved, eq, same⟩ :=
              expandedRecordSetTuple_assigned physical desc plain
            exact ⟨rfl, ⟨moved, eq, same⟩, _, p, m, Function.update_self .., portal, next,
              fun _ => Nat.succ_pos _⟩
      next => exact slow assigned

theorem Ready.started_of_spent (ready : Ready types atomic target rows td name m k c p)
    (spent : c.vals[c.batchIdx]? = none) (some : m ≠ 0) : 0 < c.batchIdx := by
  have past := List.getElem?_eq_none_iff.mp spent
  have length := List.length_pos_iff.mpr (ready.nonempty some)
  omega

theorem fetchCount_eq (ready : Ready types atomic target rows td name m k c p) :
    fetchCount atomic c.vals.length =
      if m = 0 then (if atomic then 10 else 1) else (if atomic then 50 else 1) := by
  have none : c.vals.length = 0 ↔ m = 0 := by
    constructor
    · intro empty
      by_contra some
      exact ready.nonempty some (List.length_eq_zero_iff.mp empty)
    · intro zero
      rw [(ready.first zero).1]
      rfl
  unfold fetchCount
  simp only [none]
  cases atomic <;> simp

theorem batchEnd_succ (atomic : Bool) (m : Nat) :
    batchEnd atomic (m + 1) = batchEnd atomic m +
      if m = 0 then (if atomic then 10 else 1) else (if atomic then 50 else 1) := by
  unfold batchEnd
  cases atomic with
  | true =>
    simp only [if_true]
    split <;> omega
  | false =>
    simp only [Bool.false_eq_true, if_false]
    split <;> rfl

/-- A batch that has been delivered is followed by the next one. -/
theorem Ready.refill (ready : Ready types atomic target rows td name m k c p)
    (spent : c.vals[c.batchIdx]? = none) {vals : List (Tuple D)} {p' : Portal D}
    (fetch : p.fetch (fetchCount atomic c.vals.length) = (vals, p')) :
    p'.fetches = fetchSchedule atomic (m + 1) ∧ (vals = [] → k = rows.length) ∧
      (vals ≠ [] → Ready types atomic target rows td name (m + 1) k
        { c with vals, tupdesc := td, batchIdx := 0 } p') := by
  rw [fetchCount_eq ready] at fetch
  -- The whole batch has been delivered, so the portal stands at the next row.
  have all : c.batchIdx = c.vals.length := by
    have idx := ready.idx
    have past := List.getElem?_eq_none_iff.mp spent
    omega
  have here : k = p.portalPos := by
    rw [ready.pos, ← ready.delivered, all]
  have within := ready.within
  rw [Portal.fetch] at fetch
  -- At the end of the portal nothing is fetched, and there was nothing left.
  cases atEnd : p.atEnd with
  | true =>
    rw [if_pos atEnd] at fetch
    cases fetch
    refine ⟨by rw [fetchSchedule_succ, ← ready.fetches], fun _ => ?_, fun some => absurd rfl some⟩
    rw [here]
    exact ready.ended atEnd
  | false =>
    rw [if_neg (by rw [atEnd]; exact Bool.false_ne_true), ready.result] at fetch
    have full := ready.full atEnd
    -- The size of the batch: the first one is small, the others are not.
    generalize size : (if m = 0 then (if atomic then 10 else 1) else (if atomic then 50 else 1)) = count
      at fetch
    have next : batchEnd atomic (m + 1) = batchEnd atomic m + count := by
      rw [batchEnd_succ, size]
    obtain ⟨rfl, rfl⟩ := Prod.mk.inj fetch.symm
    have length : ((rows.drop p.portalPos).take count).length = min count (rows.length - p.portalPos) := by
      rw [List.length_take, List.length_drop]
    refine ⟨by rw [fetchSchedule_succ, ← ready.fetches, size], fun none => ?_, fun some => ?_⟩
    · have pos : 0 < count := by
        rw [← size]
        split <;> cases atomic <;> decide
      rw [none, List.length_nil] at length
      omega
    -- A batch that is not empty starts where the last one ended.
    · have start := batchStart_succ atomic m
      constructor
      case portal => exact ready.portal
      case result => rfl
      case portalDesc => exact ready.portalDesc
      case desc => rfl
      case fetches => rw [fetchSchedule_succ, ← ready.fetches, size]
      case vals =>
        simp only
        rw [start, ← full, List.drop_take, Nat.add_sub_cancel_left, length]
        nth_rewrite 1 [List.take_eq_take_min]
        rw [List.length_drop]
      case pos => simp only; omega
      case delivered => simp only; omega
      case idx => exact Nat.zero_le _
      case nonempty => exact fun _ => some
      case first => exact fun zero => absurd zero (Nat.succ_ne_zero m)
      case upTo => simp only; omega
      case full =>
        simp only [decide_eq_false_iff_not]
        omega
      case within => simp only; omega
      case ended =>
        simp only [decide_eq_true_eq]
        omega
      case fast => exact ready.fast

/-- After a call the next row has been assigned, or there was none left. -/
def FetchPost (types : RowTypes D) (atomic : Bool) (target : LoopTarget) (rows : List (Tuple D))
    (td : TupDesc) (name h k : Nat) (w w' : World D V) : Option (Tuple D) → Prop
  | some row => rows[k]? = some row ∧ AssignedFrom types target td row w w' ∧
      w'.Ready types atomic target rows td name h (k + 1)
  | none => k = rows.length ∧ ∃ p, w'.portals name = some p ∧
      p.fetches = fetchSchedule atomic (fetchesFor atomic k + 1)

theorem nextBatch_spec {w w' : World D V} {r : Option (Tuple D)} (portal : w.portals name = some p)
    (ready : Ready types atomic target rows td name m k c p) (spent : c.vals[c.batchIdx]? = none)
    (fetched : nextBatch types atomic target h c w = .ok r w') :
    FetchPost types atomic target rows td name h k w w' r := by
  obtain ⟨vals, p', batch⟩ : ∃ vals p', p.fetch (fetchCount atomic c.vals.length) = (vals, p') :=
    ⟨_, _, rfl⟩
  obtain ⟨fetches, exhausted, refilled⟩ := ready.refill spent batch
  rw [nextBatch, spiCursorFetch, ready.portal, portal] at fetched
  simp only [batch] at fetched
  cases vals with
  | nil =>
    cases moved : execMoveRow types target none p.tupdesc ((w.setPortal name p').setCtx h
        { c with portal := name, vals := [], tupdesc := p.tupdesc, batchIdx := 0 }) with
    | raise e w₁ => simp only [moved, reduceCtorEq] at fetched
    | ok u w₁ =>
      simp only [moved, Res.ok.injEq] at fetched
      obtain ⟨rfl, rfl⟩ := fetched
      refine ⟨exhausted rfl, p', ?_, by rw [ready.fetched (ready.started_of_spent spent), fetches]⟩
      rw [(execMoveRow_frame moved).1]
      exact Function.update_self ..
  | cons tup rest =>
    have filled := refilled nofun
    have next := filled.advance (Nat.succ_pos _)
    rw [ready.portalDesc] at fetched
    have own : moveAndRemember types target h { c with vals := tup :: rest, tupdesc := td, batchIdx := 1 }
        true tup (w.withCursors ((w.setPortal name p').setCtx h
          { c with vals := tup :: rest, tupdesc := td, batchIdx := 1 })) = .ok r w' := by
      rw [ready.portal]
      exact fetched
    obtain ⟨rfl, from_, portals, c', ctx', same, fast⟩ :=
      moveAndRemember_spec next.desc (Function.update_self ..) next.fast own
    refine ⟨filled.next rfl, from_, c', p', m + 1, ctx', ?_, next.sameBatch same fast, ?_⟩
    · rw [portals]
      exact Function.update_self ..
    · rw [same.idx]
      exact fun _ => Nat.succ_pos _

theorem fetchCursorRow_spec {w w' : World D V} {r : Option (Tuple D)}
    (ready : w.Ready types atomic target rows td name h k)
    (fetched : fetchCursorRow types atomic target h w = .ok r w') :
    FetchPost types atomic target rows td name h k w w' r := by
  obtain ⟨c, p, m, ctx, portal, ready, -⟩ := ready
  rw [fetchCursorRow, ctx] at fetched
  simp only at fetched
  split at fetched
  next tup here =>
    obtain ⟨rfl, from_, next⟩ := assignFromBatch_spec portal ready here fetched
    exact ⟨ready.next here, from_, next⟩
  next spent => exact nextBatch_spec portal ready spent fetched

/-- An assignment of the row that is due fails, or the one of nulls at the end. -/
def MoveFails (types : RowTypes D) (target : LoopTarget) (rows : List (Tuple D)) (td : TupDesc)
    (V : Type) (k : Nat) (e : ErrorData) : Prop :=
  ∃ w w' : World D V, execMoveRow types target rows[k]? td w = .raise e w'

theorem moveAndRemember_raise {w w' : World D V} {matching : Bool} {tup : Tuple D} {e : ErrorData}
    (desc : c.tupdesc = td) (here : rows[k]? = some tup)
    (raised : moveAndRemember types target h c matching tup w = .raise e w') :
    MoveFails types target rows td V k e := by
  rw [moveAndRemember, desc] at raised
  cases moved : execMoveRow types target (some tup) td w with
  | raise e' w₁ =>
    rw [moved] at raised
    cases raised
    exact ⟨w, _, by rw [here, moved]⟩
  | ok u w₁ =>
    rw [moved] at raised
    cases target with
    | row varnos => cases raised
    | record dno rectypeid =>
      simp only at raised
      split at raised <;> cases raised

theorem expandedRecordSetTuple_raise {dno rectypeid : Nat} {erh : ExpandedRecord D} {tup : Tuple D}
    {w w' : World D V} {e : ErrorData} (physical : PhysicalRow types td rectypeid)
    (here : rows[k]? = some tup)
    (raised : expandedRecordSetTuple types dno rectypeid erh tup w = .raise e w') :
    MoveFails types (.record dno rectypeid) rows td V k e := by
  rw [expandedRecordSetTuple] at raised
  split at raised
  next e' check =>
    cases raised
    refine ⟨w, w.tick, ?_⟩
    rw [here, execMoveRow, rowForRec_physical physical, check]
    rfl
  next => cases raised

/-- A call fails only where `exec_move_row` does. -/
theorem fetchCursorRow_raise {w w' : World D V} {e : ErrorData}
    (ready : w.Ready types atomic target rows td name h k)
    (raised : fetchCursorRow types atomic target h w = .raise e w') :
    MoveFails types target rows td V k e := by
  obtain ⟨c, p, m, ctx, portal, ready, -⟩ := ready
  rw [fetchCursorRow, ctx] at raised
  simp only at raised
  split at raised
  next tup here =>
    have due := ready.next here
    -- Every way but one assigns the row through `exec_move_row`.
    have slow (moved : moveAndRemember types target h { c with batchIdx := c.batchIdx + 1 }
        c.batchTupdescsMatch tup (w.setCtx h { c with batchIdx := c.batchIdx + 1 }) = .raise e w') :=
      moveAndRemember_raise (c := { c with batchIdx := c.batchIdx + 1 }) ready.desc due moved
    cases target with
    | row varnos => exact slow raised
    | record dno rectypeid =>
      simp only [assignFromBatch] at raised
      split at raised
      next => exact slow raised
      next erh record =>
        split at raised
        next guard =>
          -- A record with the row's own type takes the tuple as it is.
          obtain ⟨physical, -⟩ := ready.fast erh.erTupdescId guard.1.symm guard.2
          split at raised
          next e' w₁ set =>
            cases raised
            exact expandedRecordSetTuple_raise physical due set
          next => cases raised
        next => exact slow raised
  next spent =>
    -- The batch is spent: the next one is fetched, and its first row assigned.
    obtain ⟨vals, p', batch⟩ : ∃ vals p', p.fetch (fetchCount atomic c.vals.length) = (vals, p') :=
      ⟨_, _, rfl⟩
    obtain ⟨-, exhausted, refilled⟩ := ready.refill spent batch
    rw [nextBatch, spiCursorFetch, ready.portal, portal] at raised
    simp only [batch, ready.portalDesc] at raised
    cases vals with
    -- There is no further row, and the target is set to nulls.
    | nil =>
      unfold MoveFails
      rw [List.getElem?_eq_none (Nat.le_of_eq (exhausted rfl).symm)]
      simp only at raised
      split at raised
      next e' w₁ moved =>
        cases raised
        exact ⟨_, _, moved⟩
      next => cases raised
    | cons tup rest =>
      exact moveAndRemember_raise
        (c := { c with portal := name, vals := tup :: rest, tupdesc := td, batchIdx := 1 }) rfl
        ((refilled nofun).next rfl) raised

end Fetch

/-! ### Whole loops -/

/-- Cursor contexts are reached only by the loop they belong to. -/
def Body.KeepsCtxs (body : Body D V) : Prop :=
  ∀ w h c, w.ctxs h = some c → (body w).2.ctxs h = some c

/-- The body does not touch the portal. -/
def Body.SparesPortal (body : Body D V) (name : Nat) : Prop :=
  ∀ w p, w.portals name = some p → (body w).2.portals name = some p

section Loops

variable (types : RowTypes D) (prefetch : Bool) (target : LoopTarget) (rows : List (Tuple D))
  (td : TupDesc) (name : Nat)

/-- The rounds of a loop got the portal's rows in order, assigned as
`exec_move_row` does, with the fetches of the schedule. -/
structure Delivers (rounds : List (Round D V)) : Prop where
  inOrder : rounds.map Round.row = rows.take rounds.length
  assigned : ∀ r ∈ rounds, AssignedFrom types target td r.row r.before r.entry
  fetches : ∀ i r, rounds[i]? = some r → ∃ p, r.entry.portals name = some p ∧
    p.fetches = fetchSchedule prefetch (fetchesFor prefetch (i + 1))

/-- How a loop ends, beside what it delivers. -/
structure DeliversUntil (body : Body D V) (run : LoopRun D V) : Prop
    extends Delivers types prefetch target rows td name run.rounds where
  exhausted : run.how = .exhausted → run.rounds.length = rows.length ∧
    ∃ p, run.world.portals name = some p ∧
      p.fetches = fetchSchedule prefetch (fetchesFor prefetch rows.length + 1)
  /-- A loop that ends in any other way was left by its body, or an assignment
  failed. -/
  early : run.how = .exhausted ∨ (∃ w, (body w).1 ≠ .next) ∨
    ∃ e, MoveFails types target rows td V run.rounds.length e

variable {types prefetch target rows td name} {rounds : List (Round D V)}

theorem Delivers.nil : Delivers (V := V) types prefetch target rows td name [] :=
  ⟨rfl, nofun, nofun⟩

theorem Delivers.snoc (delivers : Delivers types prefetch target rows td name rounds)
    {r : Round D V} (due : rows[rounds.length]? = some r.row)
    (assigned : AssignedFrom types target td r.row r.before r.entry)
    (fetches : ∃ p, r.entry.portals name = some p ∧
      p.fetches = fetchSchedule prefetch (fetchesFor prefetch (rounds.length + 1))) :
    Delivers types prefetch target rows td name (rounds ++ [r]) where
  inOrder := by
    rw [List.map_append, delivers.inOrder, List.length_append, List.length_singleton,
      List.take_add_one, due]
    rfl
  assigned := by
    intro r' mem
    rcases List.mem_append.mp mem with old | new
    · exact delivers.assigned r' old
    · rw [List.mem_singleton.mp new]
      exact assigned
  fetches := by
    intro i r' here
    rw [List.getElem?_append] at here
    split at here
    next => exact delivers.fetches i r' here
    next past =>
      have last : i = rounds.length := by
        have bound := (List.getElem?_eq_some_iff.mp here).1
        simp only [List.length_singleton] at bound
        omega
      subst last
      simp only [Nat.sub_self, List.getElem?_cons_zero, Option.some.injEq] at here
      rw [← here]
      exact fetches

theorem World.Ready.fetches {atomic : Bool} {w : World D V} {h k : Nat}
    (ready : w.Ready types atomic target rows td name h k) :
    ∃ p, w.portals name = some p ∧ p.fetches = fetchSchedule atomic (fetchesFor atomic k) := by
  obtain ⟨c, p, m, -, portal, ready, started⟩ := ready
  exact ⟨p, portal, by rw [ready.fetched started, ready.fetches]⟩

theorem World.Ready.body {atomic : Bool} {w : World D V} {h k : Nat} {body : Body D V}
    (ready : w.Ready types atomic target rows td name h k) (keeps : body.KeepsCtxs)
    (spares : body.SparesPortal name) :
    (body w).2.Ready types atomic target rows td name h k := by
  obtain ⟨c, p, m, ctx, portal, ready, started⟩ := ready
  exact ⟨c, p, m, keeps w h c ctx, spares w p portal, ready, started⟩

theorem Delivers.length_le (delivers : Delivers types prefetch target rows td name rounds) :
    rounds.length ≤ rows.length := by
  have count := congrArg List.length delivers.inOrder
  simp only [List.length_map, List.length_take] at count
  omega

/-- The rounds of the compiled loop, from any point of it. -/
theorem rowRounds_delivers {atomic : Bool} {body : Body D V} (keeps : body.KeepsCtxs)
    (spares : body.SparesPortal name) {h fuel : Nat} {w : World D V} (enough : rows.length < fuel)
    (ready : w.Ready types atomic target rows td name h 0) :
    DeliversUntil types atomic target rows td name body
      (rowRounds types atomic target body fuel h w).2 := by
  refine loopN_total
    (fun s : RowState D V => Delivers types atomic target rows td name s.rounds ∧
      s.world.Ready types atomic target rows td name h s.rounds.length)
    (fun r : Bool × LoopRun D V => DeliversUntil types atomic target rows td name body r.2)
    (fun s => rows.length - s.rounds.length) ?_ fuel ⟨w, false, []⟩ ⟨.nil, ready⟩ enough
  rintro s ⟨delivers, ready⟩
  rw [rowRound]
  cases fetched : fetchCursorRow types atomic target h s.world with
  | raise e w =>
    exact ⟨delivers, (fun ended => by cases ended), .inr (.inr ⟨e, fetchCursorRow_raise ready fetched⟩)⟩
  | ok r w =>
    have post := fetchCursorRow_spec ready fetched
    cases r with
    | none =>
      obtain ⟨all, p, portal, fetches⟩ := post
      exact ⟨delivers, fun _ => ⟨all, p, portal, by rw [← all]; exact fetches⟩, .inl rfl⟩
    | some row =>
      obtain ⟨due, assigned, next⟩ := post
      have more : Delivers types atomic target rows td name
          (s.rounds ++ [⟨s.world, row, w, (body w).2⟩]) :=
        delivers.snoc due assigned next.fetches
      have longer := more.length_le
      simp only [List.length_append, List.length_singleton] at longer
      simp only
      cases how : (body w).1 with
      | next =>
        refine ⟨⟨more, ?_⟩, ?_⟩
        · simp only [List.length_append, List.length_singleton]
          exact next.body keeps spares
        · simp only [List.length_append, List.length_singleton]
          omega
      | exit => exact ⟨more, (fun ended => by cases ended), .inr (.inl ⟨w, by rw [how]; intro same; cases same⟩)⟩
      | leave => exact ⟨more, (fun ended => by cases ended), .inr (.inl ⟨w, by rw [how]; intro same; cases same⟩)⟩
      | error e => exact ⟨more, (fun ended => by cases ended), .inr (.inl ⟨w, by rw [how]; intro same; cases same⟩)⟩

/-- A portal that was just opened is ready for its first row. -/
theorem ready_opened (id : Nat) (noId : ¬invalidTupledescIdentifier < id) (matching : Bool) :
    Ready types prefetch target rows td name 0 0 ⟨name, [], td, 0, id, matching⟩ (.opened rows td) where
  portal := rfl
  result := rfl
  portalDesc := rfl
  desc := rfl
  fetches := rfl
  vals := by simp [Portal.opened]
  pos := by cases prefetch <;> rfl
  delivered := by cases prefetch <;> rfl
  idx := Nat.le_refl 0
  nonempty := fun some => absurd rfl some
  first := fun _ => ⟨rfl, rfl⟩
  upTo := Nat.zero_le _
  full := by cases prefetch <;> exact fun _ => rfl
  within := Nat.zero_le _
  ended := nofun
  fast := fun id' same => absurd id'.2 (same ▸ noId)

theorem openQueryCursor_ready {atomic : Bool} (w : World D V) :
    (openQueryCursor rows td w).Ready types atomic target rows td w.freshPortal w.freshCtx 0 := by
  refine ⟨_, _, 0, Function.update_self .., Function.update_self .., ready_opened 0 (by decide) false,
    fun some => absurd rfl some⟩

/-! The interpreter keeps the same bookkeeping in local variables. -/

/-- The locals of `exec_for_query` as a cursor context. -/
def QueryState.ctx (s : QueryState D V) (name : Nat) (vals : List (Tuple D)) (td : TupDesc) (idx : Nat) :
    CursorCtx D :=
  ⟨name, vals, td, idx, s.previousId, s.tupdescsMatch⟩

variable {body : Body D V} {vals : List (Tuple D)} {idx m k : Nat} {p : Portal D}

theorem moveAndCompare_spec {s : QueryState D V} {tup : Tuple D} {next : Nat × Bool} {w : World D V}
    (fast : FastReady types target td (s.ctx name vals td idx))
    (assigned : moveAndCompare types target td tup s = .ok next w) :
    AssignedFrom types target td tup s.world w ∧ s.world.SameCursors w ∧
      FastReady types target td ⟨name, vals, td, idx, next.1, next.2⟩ := by
  rw [moveAndCompare] at assigned
  cases moved : execMoveRow types target (some tup) td s.world with
  | raise e w₁ =>
    rw [moved] at assigned
    cases assigned
  | ok u w₁ =>
    rw [moved] at assigned
    cases target with
    | row varnos =>
      cases assigned
      exact ⟨⟨w, moved, rfl⟩, execMoveRow_frame moved, fast⟩
    | record dno rectypeid =>
      obtain ⟨erh, fields, recs, rowType, -⟩ := execMoveRow_desc moved
      simp only [recs, rowType] at assigned
      cases assigned
      refine ⟨⟨w, moved, rfl⟩, execMoveRow_frame moved, ?_⟩
      intro id isId matched
      simp only [Bool.and_eq_true, physicalMatch, Bool.or_eq_true, decide_eq_true_eq] at matched
      refine ⟨?_, by rw [← rowType, Subtype.ext isId]⟩
      rcases matched.2 with (eq | eq) | eq
      · exact .inl eq
      · exact .inr (.inl eq)
      · exact .inr (.inr eq)

theorem moveAndCompare_raise {s : QueryState D V} {tup : Tuple D} {e : ErrorData} {w : World D V}
    (here : rows[k]? = some tup) (raised : moveAndCompare types target td tup s = .raise e w) :
    MoveFails types target rows td V k e := by
  rw [moveAndCompare] at raised
  cases moved : execMoveRow types target (some tup) td s.world with
  | raise e' w₁ =>
    rw [moved] at raised
    cases raised
    exact ⟨s.world, _, by rw [here, moved]⟩
  | ok u w₁ =>
    rw [moved] at raised
    cases target with
    | row varnos => cases raised
    | record dno rectypeid =>
      simp only at raised
      split at raised <;> cases raised

theorem execAssignRow_spec {s : QueryState D V} {tup : Tuple D} {next : Nat × Bool} {w : World D V}
    (fast : FastReady types target td (s.ctx name vals td idx))
    (assigned : execAssignRow types target td tup s = .ok next w) :
    AssignedFrom types target td tup s.world w ∧ s.world.SameCursors w ∧
      FastReady types target td ⟨name, vals, td, idx, next.1, next.2⟩ := by
  cases target with
  | row varnos => exact moveAndCompare_spec fast assigned
  | record dno rectypeid =>
    simp only [execAssignRow] at assigned
    split at assigned
    next => exact moveAndCompare_spec fast assigned
    next erh record =>
      split at assigned
      next guard =>
        obtain ⟨physical, desc⟩ := fast erh.erTupdescId guard.1.symm guard.2
        split at assigned
        next => cases assigned
        next w₁ set =>
          cases assigned
          refine ⟨expandedRecordSetTuple_assigned physical desc set, ?_, fast⟩
          rw [expandedRecordSetTuple] at set
          split at set
          next => cases set
          next =>
            cases set
            exact ⟨rfl, rfl⟩
      next => exact moveAndCompare_spec fast assigned

theorem execAssignRow_raise {s : QueryState D V} {tup : Tuple D} {e : ErrorData} {w : World D V}
    (fast : FastReady types target td (s.ctx name vals td idx)) (here : rows[k]? = some tup)
    (raised : execAssignRow types target td tup s = .raise e w) :
    MoveFails types target rows td V k e := by
  cases target with
  | row varnos => exact moveAndCompare_raise here raised
  | record dno rectypeid =>
    simp only [execAssignRow] at raised
    split at raised
    next => exact moveAndCompare_raise here raised
    next erh record =>
      split at raised
      next guard =>
        obtain ⟨physical, -⟩ := fast erh.erTupdescId guard.1.symm guard.2
        split at raised
        next e' w₁ set =>
          cases raised
          exact expandedRecordSetTuple_raise physical here set
        next => cases raised
      next => exact moveAndCompare_raise here raised

/-- After the inner loop the batch is delivered, or the loop has ended. -/
def BatchPost (types : RowTypes D) (prefetch : Bool) (target : LoopTarget) (rows : List (Tuple D))
    (td : TupDesc) (name : Nat) (body : Body D V) (vals : List (Tuple D)) (m count idx : Nat) (p : Portal D) :
    QueryState D V ⊕ LoopRun D V → Prop
  | .inl s => Delivers types prefetch target rows td name s.rounds ∧ s.world.portals name = some p ∧
      s.rounds.length = count ∧
      Ready types prefetch target rows td name m count (s.ctx name vals td idx) p
  | .inr run => DeliversUntil types prefetch target rows td name body run

/-- The rows from `idx` on of a batch. -/
theorem execBatch_delivers (spares : body.SparesPortal name) (rest : List (Tuple D)) (s : QueryState D V)
    (idx : Nat) (suffix : rest = vals.drop idx) (portal : s.world.portals name = some p)
    (delivers : Delivers types prefetch target rows td name s.rounds)
    (ready : Ready types prefetch target rows td name m s.rounds.length (s.ctx name vals td idx) p) :
    BatchPost types prefetch target rows td name body vals m (s.rounds.length + rest.length)
      (idx + rest.length) p (execBatch types target body td rest s) := by
  induction rest generalizing s idx with
  | nil => exact ⟨delivers, portal, rfl, ready⟩
  | cons row rest ih =>
    have here : vals[idx]? = some row := by
      have head := congrArg (·[0]?) suffix
      simpa [List.getElem?_drop] using head.symm
    have due : rows[s.rounds.length]? = some row := ready.next here
    rw [execBatch]
    cases assigned : execAssignRow types target td row s with
    | raise e w => exact ⟨delivers, nofun, .inr (.inr ⟨e, execAssignRow_raise ready.fast due assigned⟩)⟩
    | ok next w =>
      obtain ⟨from_, cursors, fast⟩ := execAssignRow_spec ready.fast assigned
      have same : CursorCtx.SameBatch { s.ctx name vals td idx with batchIdx := idx + 1 }
        ⟨name, vals, td, idx + 1, next.1, next.2⟩ := ⟨rfl, rfl, rfl, rfl⟩
      have advanced := (ready.advance (List.getElem?_eq_some_iff.mp here).1).sameBatch same fast
      have portal' : w.portals name = some p := by
        rw [cursors.1]
        exact portal
      have more : Delivers types prefetch target rows td name
          (s.rounds ++ [⟨s.world, row, w, (body w).2⟩]) :=
        delivers.snoc due from_
          ⟨p, portal', by rw [advanced.fetched fun _ => Nat.succ_pos _, advanced.fetches]⟩
      simp only
      cases how : (body w).1 with
      | next =>
        have longer : (s.rounds ++ [(⟨s.world, row, w, (body w).2⟩ : Round D V)]).length =
            s.rounds.length + 1 := by
          rw [List.length_append, List.length_singleton]
        have later := ih ⟨(body w).2, next.1, next.2, s.rounds ++ [⟨s.world, row, w, (body w).2⟩]⟩ (idx + 1)
          (by rw [← List.drop_drop, ← suffix]; rfl) (spares w p portal') more
          (by rw [longer]; exact advanced)
        rw [longer, Nat.add_right_comm, Nat.add_right_comm idx] at later
        exact later
      | exit => exact ⟨more, nofun, .inr (.inl ⟨w, by rw [how]; nofun⟩)⟩
      | leave => exact ⟨more, nofun, .inr (.inl ⟨w, by rw [how]; nofun⟩)⟩
      | error e => exact ⟨more, nofun, .inr (.inl ⟨w, by rw [how]; nofun⟩)⟩

/-- The outer loop holds a batch that is not delivered yet, or has fetched the
empty one. -/
def Batched (types : RowTypes D) (prefetch : Bool) (target : LoopTarget) (rows : List (Tuple D))
    (td : TupDesc) (name : Nat) (s : QueryState D V × List (Tuple D)) : Prop :=
  Delivers types prefetch target rows td name s.1.rounds ∧
    ∃ p, s.1.world.portals name = some p ∧
      if s.2 = [] then s.1.rounds.length = rows.length ∧
        p.fetches = fetchSchedule prefetch (fetchesFor prefetch rows.length + 1)
      else ∃ m, m ≠ 0 ∧ Ready types prefetch target rows td name m s.1.rounds.length
        (s.1.ctx name s.2 td 0) p

/-- A fetch when the batch at hand is delivered. -/
theorem batched_fetch {s : QueryState D V} {count : Nat}
    (delivers : Delivers types prefetch target rows td name s.rounds)
    (ready : Ready types prefetch target rows td name m s.rounds.length (s.ctx name vals td vals.length) p)
    (size : count = fetchCount prefetch vals.length) :
    Batched types prefetch target rows td name
      ({ s with world := s.world.setPortal name (p.fetch count).2 }, (p.fetch count).1) := by
  subst size
  have spent : (s.ctx name vals td vals.length).vals[(s.ctx name vals td vals.length).batchIdx]? = none :=
    List.getElem?_eq_none (Nat.le_refl _)
  obtain ⟨fetches, exhausted, refilled⟩ := ready.refill spent rfl
  refine ⟨delivers, _, Function.update_self .., ?_⟩
  split
  next none =>
    have all := exhausted none
    refine ⟨all, ?_⟩
    rw [← all, ready.fetched (ready.started_of_spent spent)]
    exact fetches
  next some => exact ⟨m + 1, Nat.succ_ne_zero m, refilled some⟩

theorem execBatches_delivers (spares : body.SparesPortal name) {fuel : Nat}
    {s : QueryState D V × List (Tuple D)} (batched : Batched types prefetch target rows td name s)
    (enough : rows.length < fuel) :
    DeliversUntil types prefetch target rows td name body
      (loopN (execBatches types target body prefetch name td)
        (fun s => ⟨.spent, s.1.world, s.1.rounds⟩) fuel s) := by
  refine loopN_total (Batched types prefetch target rows td name)
    (DeliversUntil types prefetch target rows td name body) (fun s => rows.length - s.1.rounds.length)
    ?_ fuel s batched (by omega)
  rintro ⟨s, vals⟩ ⟨delivers, p, portal, batch⟩
  cases vals with
  | nil =>
    rw [if_pos rfl] at batch
    exact ⟨delivers, fun _ => ⟨batch.1, p, portal, batch.2⟩, .inl rfl⟩
  | cons row rest =>
    rw [if_neg nofun] at batch
    obtain ⟨m, some, ready⟩ := batch
    have post := execBatch_delivers spares (row :: rest) s 0 rfl portal delivers ready
    simp only [execBatches]
    cases done : execBatch types target body td (row :: rest) s with
    | inr run =>
      rw [done] at post
      exact post
    | inl s' =>
      rw [done] at post
      obtain ⟨delivers', portal', length, ready'⟩ := post
      rw [Nat.zero_add, ← length] at ready'
      simp only [spiCursorFetch, portal']
      refine ⟨batched_fetch delivers' ready' (by cases prefetch <;> rfl), ?_⟩
      have bound := delivers'.length_le
      simp only [List.length_cons] at length bound ⊢
      omega

/-- The rounds of the interpreter, from a portal that was just opened. -/
theorem execQueryRounds_delivers {atomic prefetchOk : Bool} (spares : body.SparesPortal name)
    {fuel : Nat} {w : World D V} (portal : w.portals name = some (.opened rows td))
    (enough : rows.length < fuel) :
    DeliversUntil types (prefetchOk && atomic) target rows td name body
      (execQueryRounds types atomic target body prefetchOk fuel name w).2 := by
  have size : (if prefetchOk && atomic then 10 else 1) = fetchCount (prefetchOk && atomic) 0 := by
    cases prefetchOk && atomic <;> rfl
  have first : Batched types (prefetchOk && atomic) target rows td name _ :=
    batched_fetch (s := ⟨w, invalidTupledescIdentifier, true, []⟩) .nil
      (ready_opened invalidTupledescIdentifier (Nat.lt_irrefl _) true) size
  simp only [execQueryRounds, spiCursorFetch, portal]
  generalize (Portal.opened rows td).fetch (if prefetchOk && atomic then 10 else 1) = fetched at first ⊢
  obtain ⟨vals, p⟩ := fetched
  cases vals with
  | nil =>
    obtain ⟨delivers, p', portal', batch⟩ := first
    rw [if_pos rfl] at batch
    obtain ⟨all, fetches⟩ := batch
    simp only
    cases moved : execMoveRow types target none (Portal.opened rows td).tupdesc (w.setPortal name p) with
    | raise e w' =>
      refine ⟨delivers, nofun, .inr (.inr ⟨e, w.setPortal name p, w', ?_⟩)⟩
      rw [List.getElem?_eq_none (Nat.le_of_eq all.symm)]
      exact moved
    | ok u w' =>
      refine ⟨delivers, fun _ => ⟨all, p', ?_, fetches⟩, .inl rfl⟩
      rw [(execMoveRow_frame moved).1]
      exact portal'
  | cons row rest => exact execBatches_delivers spares first enough

end Loops

end Uplpgsql
