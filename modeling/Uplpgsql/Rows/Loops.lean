import Uplpgsql.Lib.Iteration
import Uplpgsql.Rows.Targets

/-!
# Row loops

The interpreter's `exec_for_query` is two nested loops, over batches and over
the rows of a batch. Compiled code has one loop that calls
`uplpgsql_rt_fetch_cursor_row`, with the batch kept in a cursor context between
calls. Here are both, over an arbitrary loop body; and loops over a bound cursor,
which are the same loops around a portal the body can reach.
-/

namespace Uplpgsql

open Lib.Iteration

variable {D V : Type}

/-! ### Fetching a row -/

/-- `SPI_cursor_fetch` on a portal that is not open. -/
def invalidPortal : ErrorData :=
  ⟨makeSqlstate 'X' 'X' '0' '0' '0', "invalid portal in SPI cursor operation"⟩

/-- `SPI_cursor_fetch`: the rows and their row type. -/
def spiCursorFetch (name count : Nat) (w : World D V) :
    Res (World D V) (List (Tuple D) × TupDesc) :=
  match w.portals name with
  | none => .raise invalidPortal w
  | some p => .ok ((p.fetch count).1, p.tupdesc) (w.setPortal name (p.fetch count).2)

section Fetch

variable (types : RowTypes D) (atomic : Bool)

/-- Whether `expanded_record_set_tuple` can do the next assignment. -/
def physicalMatch (rectypeid : Nat) (td : TupDesc) : Bool :=
  rectypeid = recordOid || rectypeid = td.tdtypeid

/-- `expanded_record_set_tuple` on the record of a variable. -/
def expandedRecordSetTuple (dno rectypeid : Nat) (erh : ExpandedRecord D) (tup : Tuple D)
    (w : World D V) : Res (World D V) Unit :=
  match types.checkDomain rectypeid tup with
  | .error e => .raise e w
  | .ok () => .ok () (w.setRec dno { erh with tuple := tup })

/-- The assignment through `exec_move_row`, after which the context remembers the
record's row type. Once the types have not matched within a batch, they are not
compared again. -/
def moveAndRemember (target : LoopTarget) (h : Nat) (c : CursorCtx D) (matching : Bool) (tup : Tuple D)
    (w : World D V) : Res (World D V) (Option (Tuple D)) :=
  match execMoveRow types target (some tup) c.tupdesc w with
  | .raise e w => .raise e w
  | .ok () w =>
    match target with
    | .row _ => .ok (some tup) w
    | .record dno rectypeid =>
      match w.recs dno with
      | none => .ok (some tup) w
      | some erh =>
        .ok (some tup) (w.setCtx h { c with
          batchTupdescsMatch := matching && physicalMatch rectypeid c.tupdesc
          batchTupdescId := erh.erTupdescId })

/-- The rows of the current batch are assigned one a call. -/
def assignFromBatch (target : LoopTarget) (h : Nat) (c : CursorCtx D) (tup : Tuple D) (w : World D V) :
    Res (World D V) (Option (Tuple D)) :=
  let c := { c with batchIdx := c.batchIdx + 1 }
  let w := w.setCtx h c
  match target with
  | .row _ => moveAndRemember types target h c c.batchTupdescsMatch tup w
  | .record dno rectypeid =>
    match w.recs dno with
    | none => moveAndRemember types target h c c.batchTupdescsMatch tup w
    | some erh =>
      if erh.erTupdescId.val = c.batchTupdescId ∧ c.batchTupdescsMatch then
        match expandedRecordSetTuple types dno rectypeid erh tup w with
        | .raise e w => .raise e w
        | .ok () w => .ok (some tup) w
      else moveAndRemember types target h c c.batchTupdescsMatch tup w

/-- The first row of a new batch. -/
def assignFirst (target : LoopTarget) (h : Nat) (c : CursorCtx D) (tup : Tuple D) (w : World D V) :
    Res (World D V) (Option (Tuple D)) :=
  let c := { c with batchIdx := 1 }
  moveAndRemember types target h c true tup (w.setCtx h c)

/-- No prefetching outside atomic contexts; 10 rows first, 50 from then on. -/
def fetchCount (batchCount : Nat) : Nat :=
  if !atomic then 1 else if batchCount = 0 then 10 else 50

/-- A new batch. Where there is no row left, the target is set to NULL. -/
def nextBatch (target : LoopTarget) (h : Nat) (c : CursorCtx D) (w : World D V) :
    Res (World D V) (Option (Tuple D)) :=
  match spiCursorFetch c.portal (fetchCount atomic c.vals.length) w with
  | .raise e w => .raise e w
  | .ok ([], tupdesc) w =>
    match execMoveRow types target none tupdesc
        (w.setCtx h { c with vals := [], tupdesc, batchIdx := 0 }) with
    | .raise e w => .raise e w
    | .ok () w => .ok none w
  | .ok (tup :: rest, tupdesc) w => assignFirst types target h { c with vals := tup :: rest, tupdesc } tup w

/-- `uplpgsql_rt_fetch_cursor_row`. Where the code returns true, the row it has
assigned is returned. -/
def fetchCursorRow (target : LoopTarget) (h : Nat) (w : World D V) :
    Res (World D V) (Option (Tuple D)) :=
  match w.ctxs h with
  | none => .raise invalidPortal w
  | some c =>
    match c.vals[c.batchIdx]? with
    | some tup => assignFromBatch types target h c tup w
    | none => nextBatch types atomic target h c w

end Fetch

/-! ### The loops -/

/-- How a loop body ends: with the next round, with an EXIT of this loop, with a
RETURN or a jump further out, or with an error. -/
inductive BodyEnd where
  | next
  | exit
  | leave
  | error (e : ErrorData)
  deriving DecidableEq, Repr

abbrev Body (D V : Type) := World D V → BodyEnd × World D V

/-- One round: the row was assigned in `before`, and the body ran from `entry` to
`exit`. -/
structure Round (D V : Type) where
  before : World D V
  row : Tuple D
  entry : World D V
  exit : World D V

inductive LoopEnd where
  | exhausted
  | exit
  | leave
  | error (e : ErrorData)
  /-- The bound on the rounds is spent. -/
  | spent
  deriving DecidableEq, Repr

structure LoopRun (D V : Type) where
  how : LoopEnd
  world : World D V
  rounds : List (Round D V)

/-- The state between two rounds of the compiled loop. -/
structure RowState (D V : Type) where
  world : World D V
  found : Bool
  rounds : List (Round D V)

/-- The end of a round that is not followed by another. -/
def BodyEnd.loopEnd : BodyEnd → LoopEnd
  | .next => .spent
  | .exit => .exit
  | .leave => .leave
  | .error e => .error e

section Compiled

variable (types : RowTypes D) (atomic : Bool) (target : LoopTarget) (body : Body D V)

def rowRound (h : Nat) (s : RowState D V) : RowState D V ⊕ (Bool × LoopRun D V) :=
  match fetchCursorRow types atomic target h s.world with
  | .raise e w => .inr (s.found, ⟨.error e, w, s.rounds⟩)
  | .ok none w => .inr (s.found, ⟨.exhausted, w, s.rounds⟩)
  | .ok (some row) entry =>
    let (how, exit) := body entry
    let rounds := s.rounds ++ [⟨s.world, row, entry, exit⟩]
    match how with
    | .next => .inl ⟨exit, true, rounds⟩
    | how => .inr (true, ⟨how.loopEnd, exit, rounds⟩)

/-- The rounds of the loop, and the flag its blocks keep for FOUND. -/
def rowRounds (fuel h : Nat) (w : World D V) : Bool × LoopRun D V :=
  loopN (rowRound types atomic target body h) (fun s => (s.found, ⟨.spent, s.world, s.rounds⟩)) fuel
    ⟨w, false, []⟩

/-- The blocks around the body. The portal is closed on every way out but by an
error, and FOUND is set where the function goes on after the loop. -/
def rowLoop (close : World D V → World D V) (fuel h : Nat) (w : World D V) : LoopRun D V :=
  let (found, run) := rowRounds types atomic target body fuel h w
  match run.how with
  | .exhausted | .exit => { run with world := { close run.world with found } }
  | .leave => { run with world := close run.world }
  | .error _ | .spent => run

/-- An empty cursor context. -/
def CursorCtx.zero (portal : Nat) (tupdesc : TupDesc) : CursorCtx D := ⟨portal, [], tupdesc, 0, 0, false⟩

/-- `uplpgsql_rt_open_query_cursor` and `uplpgsql_rt_open_dynfors_cursor`, for a
query with these rows. -/
def openQueryCursor (rows : List (Tuple D)) (td : TupDesc) (w : World D V) : World D V :=
  (w.setPortal w.freshPortal (.opened rows td)).setCtx w.freshCtx (.zero w.freshPortal td)

/-- `uplpgsql_rt_close_portal`. -/
def rtClosePortal (h : Nat) (w : World D V) : World D V :=
  match w.ctxs h with
  | none => w
  | some c => (w.dropPortal c.portal).freeCtx h

/-- `uplpgsql_compile_fors`, and `_dynfors`. -/
def compiledFors (rows : List (Tuple D)) (td : TupDesc) (fuel : Nat) (w : World D V) : LoopRun D V :=
  rowLoop types atomic target body (rtClosePortal w.freshCtx) fuel w.freshCtx (openQueryCursor rows td w)

end Compiled

/-! ### The interpreter -/

section Interpreter

variable (types : RowTypes D) (atomic : Bool) (target : LoopTarget) (body : Body D V)

/-- The locals of `exec_for_query`. -/
structure QueryState (D V : Type) where
  world : World D V
  previousId : Nat
  tupdescsMatch : Bool
  rounds : List (Round D V)

/-- The assignment through `exec_move_row`; `previous_id` and `tupdescs_match`
after it. -/
def moveAndCompare (td : TupDesc) (tup : Tuple D) (s : QueryState D V) :
    Res (World D V) (Nat × Bool) :=
  match execMoveRow types target (some tup) td s.world with
  | .raise e w => .raise e w
  | .ok () w =>
    match target with
    | .row _ => .ok (s.previousId, s.tupdescsMatch) w
    | .record dno rectypeid =>
      match w.recs dno with
      | none => .ok (s.previousId, s.tupdescsMatch) w
      | some erh =>
        .ok (erh.erTupdescId.val, s.tupdescsMatch &&
          (physicalMatch rectypeid td || compatibleTupdescs td (types.desc erh.erTupdescId))) w

/-- The assignment of a row. -/
def execAssignRow (td : TupDesc) (tup : Tuple D) (s : QueryState D V) :
    Res (World D V) (Nat × Bool) :=
  match target with
  | .row _ => moveAndCompare types target td tup s
  | .record dno rectypeid =>
    match s.world.recs dno with
    | none => moveAndCompare types target td tup s
    | some erh =>
      if erh.erTupdescId.val = s.previousId ∧ s.tupdescsMatch then
        match expandedRecordSetTuple types dno rectypeid erh tup s.world with
        | .raise e w => .raise e w
        | .ok () w => .ok (s.previousId, s.tupdescsMatch) w
      else moveAndCompare types target td tup s

/-- The inner loop, over the rows of a batch. -/
def execBatch (td : TupDesc) : List (Tuple D) → QueryState D V → QueryState D V ⊕ LoopRun D V
  | [], s => .inl s
  | row :: rest, s =>
    match execAssignRow types target td row s with
    | .raise e w => .inr ⟨.error e, w, s.rounds⟩
    | .ok (previousId, tupdescsMatch) entry =>
      let (how, exit) := body entry
      let rounds := s.rounds ++ [⟨s.world, row, entry, exit⟩]
      match how with
      | .next => execBatch td rest ⟨exit, previousId, tupdescsMatch, rounds⟩
      | how => .inr ⟨how.loopEnd, exit, rounds⟩

/-- The outer loop, with the batch at hand. -/
def execBatches (prefetch : Bool) (portal : Nat) (td : TupDesc) (s : QueryState D V × List (Tuple D)) :
    (QueryState D V × List (Tuple D)) ⊕ LoopRun D V :=
  match s.2 with
  | [] => .inr ⟨.exhausted, s.1.world, s.1.rounds⟩
  | vals =>
    match execBatch types target body td vals s.1 with
    | .inr run => .inr run
    | .inl s =>
      match spiCursorFetch portal (if prefetch then 50 else 1) s.world with
      | .raise e w => .inr ⟨.error e, w, s.rounds⟩
      | .ok (vals, _) w => .inl ({ s with world := w }, vals)

/-- `exec_for_query` up to `loop_exit`, and `found`. -/
def execQueryRounds (prefetchOk : Bool) (fuel portal : Nat) (w : World D V) : Bool × LoopRun D V :=
  let prefetch := prefetchOk && atomic
  match spiCursorFetch portal (if prefetch then 10 else 1) w with
  | .raise e w => (false, ⟨.error e, w, []⟩)
  | .ok (vals, td) w =>
    match vals with
    | [] =>
      match execMoveRow types target none td w with
      | .raise e w => (false, ⟨.error e, w, []⟩)
      | .ok () w => (false, ⟨.exhausted, w, []⟩)
    | vals =>
      (true, loopN (execBatches types target body prefetch portal td)
        (fun s => ⟨.spent, s.1.world, s.1.rounds⟩) fuel
        (⟨w, invalidTupledescIdentifier, true, []⟩, vals))

/-- After `loop_exit` FOUND is set. -/
def execForQueryRows (prefetchOk : Bool) (fuel portal : Nat) (w : World D V) : LoopRun D V :=
  let (found, run) := execQueryRounds types atomic target body prefetchOk fuel portal w
  match run.how with
  | .error _ | .spent => run
  | _ => { run with world := { run.world with found } }

/-- `exec_stmt_fors` and `exec_stmt_dynfors`. -/
def execFors (rows : List (Tuple D)) (td : TupDesc) (fuel : Nat) (w : World D V) : LoopRun D V :=
  let run := execForQueryRows types atomic target body true fuel w.freshPortal
    (w.setPortal w.freshPortal (.opened rows td))
  match run.how with
  | .error _ | .spent => run
  | _ => { run with world := run.world.dropPortal w.freshPortal }

end Interpreter

/-! ### Loops over a bound cursor -/

/-- `UPLpgSQL_stmt_forc`, with the data of its cursor variable. -/
structure ForcStmt (D V : Type) where
  curvar : Nat
  refname : String
  isconst : Bool
  dno : Nat
  rectypeid : Nat
  /-- The arguments are assigned to the cursor's row by a statement. -/
  argquery : Option (World D V → Res (World D V) Unit)
  cursorExplicitArgrow : Bool
  cursorExplicitExpr : World D V → Res (World D V) (List (Tuple D) × TupDesc)

/-- The loop target of a cursor loop is a record. -/
def ForcStmt.var (stmt : ForcStmt D V) : LoopTarget := .record stmt.dno stmt.rectypeid

def duplicateCursor (name : Nat) (problem : String) : ErrorData :=
  ⟨makeSqlstate '4' '2' 'P' '0' '3', "cursor \"" ++ toString name ++ "\" " ++ problem⟩

def cursorSyntaxError (message : String) : ErrorData := ⟨makeSqlstate '4' '2' '6' '0' '1', message⟩

/-- `exec_check_assignable`. -/
def declaredConstant (refname : String) : ErrorData :=
  ⟨makeSqlstate '2' '2' '0' '0' '5', "variable \"" ++ refname ++ "\" is declared CONSTANT"⟩

/-- The arguments of the cursor. -/
def ForcStmt.setArgs (stmt : ForcStmt D V) (w : World D V) : Res (World D V) Unit :=
  match stmt.argquery with
  | some argquery =>
    if !stmt.cursorExplicitArgrow then
      .raise (cursorSyntaxError "arguments given for cursor without arguments") w
    else argquery w
  | none =>
    if stmt.cursorExplicitArgrow then .raise (cursorSyntaxError "arguments required for cursor") w
    else .ok () w

/-- `SPI_cursor_open_with_paramlist`; without a name it makes one up. -/
def spiCursorOpen (curname : Option Nat) (rows : List (Tuple D)) (td : TupDesc) (w : World D V) :
    Res (World D V) Nat :=
  match curname with
  | none => .ok w.freshPortal (w.setPortal w.freshPortal (.opened rows td))
  | some name =>
    match w.portals name with
    | some _ => .raise (duplicateCursor name "already exists") w
    | none => .ok name (w.setPortal name (.opened rows td))

/-- `SPI_cursor_find`, where the cursor variable has a name. -/
def checkNotInUse (curname : Option Nat) (w : World D V) : Res (World D V) Unit :=
  match curname with
  | none => .ok () w
  | some name =>
    match w.portals name with
    | some _ => .raise (duplicateCursor name "already in use") w
    | none => .ok () w

/-- A name that was made up is stored in the cursor variable. -/
def ForcStmt.storeName (stmt : ForcStmt D V) (curname : Option Nat) (name : Nat) (w : World D V) :
    Res (World D V) Unit :=
  match curname with
  | some _ => .ok () w
  | none =>
    if stmt.isconst then .raise (declaredConstant stmt.refname) w
    else .ok () (w.setCursor stmt.curvar (some name))

/-- `exec_open_forc_cursor`, which is also how `exec_stmt_forc` starts: the portal
and its row type. -/
def execOpenForcCursor (stmt : ForcStmt D V) (w : World D V) : Res (World D V) (Nat × TupDesc) :=
  let curname := w.cursors stmt.curvar
  match checkNotInUse curname w with
  | .raise e w => .raise e w
  | .ok () w =>
    match stmt.setArgs w with
    | .raise e w => .raise e w
    | .ok () w =>
      match stmt.cursorExplicitExpr w with
      | .raise e w => .raise e w
      | .ok (rows, td) w =>
        match spiCursorOpen curname rows td w with
        | .raise e w => .raise e w
        | .ok name w =>
          match stmt.storeName curname name w with
          | .raise e w => .raise e w
          | .ok () w => .ok (name, td) w

/-- `exec_close_forc_cursor`. The cursor variable is looked up and left alone. -/
def execCloseForcCursor (name : Nat) (w : World D V) : World D V := w.dropPortal name

/-- `uplpgsql_rt_close_forc_cursor`. -/
def rtCloseForcCursor (h : Nat) (w : World D V) : World D V :=
  match w.ctxs h with
  | none => w
  | some c => (execCloseForcCursor c.portal w).freeCtx h

section Forc

variable (types : RowTypes D) (atomic : Bool) (stmt : ForcStmt D V) (body : Body D V)

/-- `uplpgsql_compile_forc`. -/
def compiledForc (fuel : Nat) (w : World D V) : LoopRun D V :=
  match execOpenForcCursor stmt w with
  | .raise e w => ⟨.error e, w, []⟩
  | .ok (name, td) w =>
    rowLoop types atomic stmt.var body (rtCloseForcCursor w.freshCtx) fuel w.freshCtx
      (w.setCtx w.freshCtx (.zero name td))

/-- `exec_stmt_forc`, without prefetching. The cursor variable is restored if it
was NULL. -/
def execStmtForc (fuel : Nat) (w : World D V) : LoopRun D V :=
  match execOpenForcCursor stmt w with
  | .raise e w => ⟨.error e, w, []⟩
  | .ok (name, _) opened =>
    let run := execForQueryRows types atomic stmt.var body false fuel name opened
    match run.how with
    | .error _ | .spent => run
    | _ =>
      let closed := run.world.dropPortal name
      { run with world := if w.cursors stmt.curvar = none then closed.setCursor stmt.curvar none else closed }

end Forc

end Uplpgsql
