import Uplpgsql.ExceptionFrames

/-!
# The value of a RETURN

`exec_stmt_return` stores its value in the execution state before it has checked
it. A block with handlers that is left has to take the value out of its
subtransaction: the interpreter does so when the block is left by a RETURN, the
compiled code when a value that is not NULL is stored. This module says when
the two agree. What the transfer does to the value is not modelled, only
whether it is made.
-/

namespace Uplpgsql

open Lib.Flow

variable {W : Type}

/-! ### `exec_stmt_return` -/

structure Value where
  datum : Nat
  isnull : Bool
  typoid : Nat
  deriving DecidableEq, Repr

def invalidOid : Nat := 0
def voidOid : Nat := 2278

/-- The fields of the execution state that a RETURN writes. -/
structure ReturnState where
  retval : Nat
  retisnull : Bool
  rettype : Nat
  deriving DecidableEq, Repr

/-- As `uplpgsql_estate_setup` leaves them. -/
def ReturnState.setup : ReturnState := ⟨0, true, invalidOid⟩

def ReturnState.store (v : Value) : ReturnState := ⟨v.datum, v.isnull, v.typoid⟩

/-- What a RETURN statement returns. -/
inductive ReturnSource where
  /-- A scalar variable, perhaps with a promise to be fulfilled first. -/
  | var
  /-- A row or a record variable. -/
  | composite
  | expr
  | nothing
  deriving DecidableEq, Repr

/-- The function a RETURN is in, and how its operands are evaluated. -/
structure ReturnEnv (W : Type) where
  retisset : Bool
  retistuple : Bool
  fnRettype : Nat
  isProcedure : Bool
  typeIsRowtype : Nat → Bool
  source : Nat → ReturnSource
  fulfillPromise : Nat → W → Res W Unit
  readVar : Nat → W → Value
  evalDatum : Nat → W → Res W Value
  evalExpr : Nat → W → Res W Value

def errcodeDatatypeMismatch : Nat := makeSqlstate '4' '2' '8' '0' '4'

def nonCompositeReturn : ErrorData :=
  ⟨errcodeDatatypeMismatch,
    "cannot return non-composite value from function returning composite type"⟩

/-- The world with the return fields beside it. -/
structure Returning (W : Type) where
  w : W
  estate : ReturnState
  /-- Whether the last RETURN that did not fail had a value that is not NULL.
  Nothing reads it. -/
  produced : Bool

def Returning.start (w : W) : Returning W := ⟨w, .setup, false⟩

namespace ReturnEnv

variable (R : ReturnEnv W)

def execStmtReturn (id : Nat) (w : W) (estate : ReturnState) : Res (W × ReturnState) Unit :=
  if R.retisset then .ok () (w, estate)
  else
    let estate := ReturnState.setup
    match R.source id with
    | .var =>
      match R.fulfillPromise id w with
      | .raise e w => .raise e (w, estate)
      | .ok _ w =>
        let estate := ReturnState.store (R.readVar id w)
        if R.retistuple && !estate.retisnull then .raise nonCompositeReturn (w, estate)
        else .ok () (w, estate)
    | .composite =>
      match R.evalDatum id w with
      | .raise e w => .raise e (w, estate)
      | .ok v w => .ok () (w, .store v)
    | .expr =>
      match R.evalExpr id w with
      | .raise e w => .raise e (w, estate)
      | .ok v w =>
        let estate := ReturnState.store v
        if R.retistuple && !estate.retisnull && !R.typeIsRowtype estate.rettype then
          .raise nonCompositeReturn (w, estate)
        else .ok () (w, estate)
    | .nothing =>
      if R.fnRettype == voidOid && !R.isProcedure then .ok () (w, ⟨0, false, voidOid⟩)
      else .ok () (w, estate)

/-- The test of `uplpgsql_rt_exception_try_exit`. -/
def transfers (estate : ReturnState) : Bool := !R.retisset && !estate.retisnull

/-! What a RETURN is for: the value of its operand, which a function returning a
composite refuses when it is a scalar. -/

def value (id : Nat) (w : W) : Res W Value :=
  match R.source id with
  | .var =>
    match R.fulfillPromise id w with
    | .raise e w => .raise e w
    | .ok _ w => .ok (R.readVar id w) w
  | .composite => R.evalDatum id w
  | .expr => R.evalExpr id w
  | .nothing =>
    .ok (if R.fnRettype == voidOid && !R.isProcedure then ⟨0, false, voidOid⟩
      else ⟨0, true, invalidOid⟩) w

def produces (id : Nat) (w : W) : Bool :=
  !R.retisset &&
    match R.value id w with
    | .ok v _ => !v.isnull
    | .raise _ _ => false

/-- Whether the kind of operand is checked against a composite result. -/
def scalar (id : Nat) (v : Value) : Bool :=
  match R.source id with
  | .var => true
  | .expr => !R.typeIsRowtype v.typoid
  | _ => false

/-- The RETURN has a value that is not NULL and is refused. -/
def refuses (id : Nat) (w : W) : Bool :=
  !R.retisset && R.retistuple &&
    match R.value id w with
    | .ok v _ => !v.isnull && R.scalar id v
    | .raise _ _ => false

/-- The return fields together with the world. -/
def execReturn (id : Nat) (s : Returning W) : Res (Returning W) Unit :=
  match R.execStmtReturn id s.w s.estate with
  | .ok _ (w, estate) => .ok () ⟨w, estate, R.produces id s.w⟩
  | .raise e (w, estate) => .raise e ⟨w, estate, s.produced⟩

variable {R}

/-- A value is stored first and refused afterwards. -/
theorem execStmtReturn_eq (plain : R.retisset = false) (id : Nat) (w : W) (estate : ReturnState) :
    R.execStmtReturn id w estate =
      match R.value id w with
      | .raise e w => .raise e (w, .setup)
      | .ok v w =>
        if R.retistuple && !v.isnull && R.scalar id v then .raise nonCompositeReturn (w, .store v)
        else .ok () (w, .store v) := by
  cases source : R.source id with
  | var =>
    simp only [execStmtReturn, value, scalar, plain, source, Bool.false_eq_true, if_false]
    cases R.fulfillPromise id w with
    | ok _ w => simp [ReturnState.store]
    | raise e w => rfl
  | composite =>
    simp only [execStmtReturn, value, scalar, plain, source, Bool.false_eq_true, if_false]
    cases R.evalDatum id w with
    | ok v w => simp
    | raise e w => rfl
  | expr =>
    simp only [execStmtReturn, value, scalar, plain, source, Bool.false_eq_true, if_false]
    cases R.evalExpr id w with
    | ok v w => simp [ReturnState.store]
    | raise e w => rfl
  | nothing =>
    by_cases hack : (R.fnRettype == voidOid && !R.isProcedure) = true
    · simp [execStmtReturn, value, scalar, plain, source, hack, ReturnState.store]
    · simp [execStmtReturn, value, scalar, plain, source, hack, ReturnState.store,
        ReturnState.setup]

/-- A RETURN that does not fail leaves behind what it produced. -/
theorem execStmtReturn_ok {id : Nat} {w w' : W} {estate estate' : ReturnState}
    (ok : R.execStmtReturn id w estate = .ok () (w', estate')) :
    R.transfers estate' = R.produces id w := by
  by_cases set : R.retisset = true
  · simp [transfers, produces, set]
  · have plain : R.retisset = false := by simpa using set
    rw [execStmtReturn_eq plain] at ok
    cases result : R.value id w with
    | raise e w₁ => simp [result] at ok
    | ok v w₁ =>
      simp only [result] at ok
      split at ok
      · cases ok
      · cases ok
        simp [transfers, produces, plain, result, ReturnState.store]

/-- One that fails leaves nothing behind, unless its value is refused. -/
theorem execStmtReturn_raise {id : Nat} {w w' : W} {estate estate' : ReturnState} {e : ErrorData}
    (raises : R.execStmtReturn id w estate = .raise e (w', estate')) :
    R.transfers estate' = R.refuses id w := by
  by_cases set : R.retisset = true
  · simp [execStmtReturn, set] at raises
  · have plain : R.retisset = false := by simpa using set
    rw [execStmtReturn_eq plain] at raises
    cases result : R.value id w with
    | raise e w₁ =>
      simp only [result] at raises
      cases raises
      simp [transfers, refuses, plain, result, ReturnState.setup]
    | ok v w₁ =>
      simp only [result] at raises
      split at raises
      next refused =>
        cases raises
        simp only [Bool.and_eq_true] at refused
        simp [transfers, refuses, plain, result, ReturnState.store, refused]
      next => cases raises

end ReturnEnv

namespace Env

variable (env : Env W) (R : ReturnEnv W)

/-- An action that has nothing to do with the return fields. -/
def beside {α : Type} (act : W → Res W α) (s : Returning W) : Res (Returning W) α :=
  (act s.w).mapWorld fun w => { s with w := w }

/-- The same actions, with RETURN as `exec_stmt_return` does it. -/
def returning : Env (Returning W) where
  leaf id := beside (env.leaf id)
  initVar dno := beside (env.initVar dno)
  caseAssignTest varno expr := beside (env.caseAssignTest varno expr)
  assignNull dno s := { s with w := env.assignNull dno s.w }
  execReturn := R.execReturn
  evalBool expr := beside (env.evalBool expr)
  evalInt expr := beside (env.evalInt expr)
  assignInt var v := beside (env.assignInt var v)
  setFound b s := { s with w := env.setFound b s.w }
  getFound s := env.getFound s.w
  openPortal kind id := beside (env.openPortal kind id)
  fetchRow kind id handle := beside (env.fetchRow kind id handle)
  closePortal kind id handle s := { s with w := env.closePortal kind id handle s.w }
  beginSub s := { s with w := env.beginSub s.w }
  releaseSub s := { s with w := env.releaseSub s.w }
  rollbackSub s := { s with w := env.rollbackSub s.w }
  setHandlerVars edata s := { s with w := env.setHandlerVars edata s.w }
  foreachStart id := beside (env.foreachStart id)
  foreachNext id := beside (env.foreachNext id)
  foreachEnd id s := { s with w := env.foreachEnd id s.w }
  needsMcontext := env.needsMcontext
  inert dno s := env.inert dno s.w
  inert_spec {dno s} inert := by
    obtain ⟨w, outside, inside⟩ := env.inert_spec inert
    exact ⟨{ s with w := w }, by simp [beside, outside, Res.mapWorld],
      by simp [beside, inside, Res.mapWorld]⟩

end Env

def ExecOut.world : ExecOut W → W
  | .done _ w => w
  | .err _ w => w
  | .spent w => w

/-! ### What is asked of a run -/

section Runs

variable (R : ReturnEnv W) (delegate : Delegate (Returning W)) (code : Nat → List Item)

/-- The next step stores no value that is not returned: the RETURN is not
refused, and the FOREACH handed to the interpreter leaves no value behind. -/
def clean (c : Config (Returning W)) : Bool :=
  match (code c.block)[c.index]? with
  | some (.instr (.call (.execReturn id))) => !R.refuses id c.w.w
  | some (.instr (.foreachA label id body)) =>
    !R.transfers (delegate label id body c.w).world.estate
  | _ => true

/-- The next step leaves the body of a block with handlers. -/
def leavesTry (c : Config (Returning W)) : Bool :=
  match c.status, (code c.block)[c.index]? with
  | .running, some (.instr (.tryExit _)) => true
  | _, _ => false

/-- A RETURN whose value is not NULL is on its way out. -/
def ReturnsValue (c : Config (Returning W)) : Prop := c.rcReturn = true ∧ c.w.produced = true

end Runs

/-! ### The invariant -/

/-- Every jump buffer that is filled leads to a block that is entered by an error. -/
def FramesLand (T : Entries Point) (rt : Rt) : Prop :=
  ∀ f frame b, rt.frames f = some frame → frame.jmpbuf = some b →
    ∃ r held, T b = some (.caught r held)

def Point.phase : Point → Phase
  | .plain phase _ => phase
  | _ => .body

/-- What is stored when a RETURN has come so far. -/
def Stored (R : ReturnEnv W) (c : Config (Returning W)) : Phase → Prop
  | .body => c.rcReturn = false ∧ R.transfers c.w.estate = false
  | .returned => c.rcReturn = false ∧ R.transfers c.w.estate = c.w.produced
  | .leaving => R.transfers c.w.estate = (c.rcReturn && c.w.produced)

/-- The invariant of a run. -/
structure ReturnKept (T : Entries Point) (R : ReturnEnv W) (code : Nat → List Item)
    (c : Config (Returning W)) : Prop where
  lands : FramesLand T c.rt
  stored : c.status = .running →
    ∃ p r, Path discipline T (some p) ((code c.block).drop c.index) r ∧ Stored R c p.phase

section Kept

variable {T : Entries Point} {R : ReturnEnv W} {code : Nat → List Item}
  {c c' : Config (Returning W)}

theorem ReturnKept.of_halted (lands : FramesLand T c.rt) (halted : c.status ≠ .running) :
    ReturnKept T R code c :=
  ⟨lands, fun running => absurd running halted⟩

theorem ReturnKept.enter (checked : Checked discipline T code) {p : Point} (lands : FramesLand T c.rt)
    (index : c.index = 0) (known : T c.block = some p) (stored : Stored R c p.phase) :
    ReturnKept T R code c := by
  obtain ⟨r, path⟩ := checked c.block p known
  exact ⟨lands, fun _ => ⟨p, r, by rw [index, List.drop_zero]; exact path, stored⟩⟩

/-- An error arrives where nothing may be stored. -/
theorem ReturnKept.throw (checked : Checked discipline T code) (lands : FramesLand T c.rt)
    (stored : Stored R c .body) (e : ErrorData) : ReturnKept T R code (c.throw e) := by
  unfold Config.throw
  split
  · exact .of_halted lands nofun
  next f _ =>
    split
    · exact .of_halted lands nofun
    next b jumps =>
      obtain ⟨frame, live, buffer⟩ := Option.bind_eq_some_iff.mp jumps
      obtain ⟨r, held, catches⟩ := lands f frame b live buffer
      exact .enter checked lands rfl catches stored

theorem FramesLand.setFrame {rt : Rt} (lands : FramesLand T rt) {f : Nat} {frame : Option Frame}
    (new : ∀ fr b, frame = some fr → fr.jmpbuf = some b → ∃ r held, T b = some (.caught r held)) :
    FramesLand T (rt.setFrame f frame) := by
  intro f' frame' b live buffer
  by_cases same : f' = f
  · subst same
    exact new frame' b (by simpa [Rt.setFrame] using live) buffer
  · exact lands f' frame' b (by simpa [Rt.setFrame, Function.update_of_ne same] using live) buffer

theorem FramesLand.congr {rt rt' : Rt} (lands : FramesLand T rt) (same : rt'.frames = rt.frames) :
    FramesLand T rt' := by
  intro f frame b live buffer
  rw [same] at live
  exact lands f frame b live buffer

/-- Neither the return fields nor the return code change. -/
structure SameReturn (c c' : Config (Returning W)) : Prop where
  rc : c'.rcReturn = c.rcReturn
  estate : c'.w.estate = c.w.estate
  produced : c'.w.produced = c.w.produced

theorem SameReturn.stored (same : SameReturn c c') {phase : Phase} (stored : Stored R c phase) :
    Stored R c' phase := by
  cases phase with
  | body => exact ⟨same.rc.trans stored.1, by rw [same.estate]; exact stored.2⟩
  | returned =>
    exact ⟨same.rc.trans stored.1, by rw [same.estate, same.produced]; exact stored.2⟩
  | leaving =>
    rw [Stored, same.rc, same.estate, same.produced]
    exact stored

/-- Control goes on with the next item, or stops. -/
structure Advances (T : Entries Point) (c c' : Config (Returning W)) : Prop where
  same : SameReturn c c'
  lands : FramesLand T c'.rt
  goes : c'.status = .running → c'.block = c.block ∧ c'.index = c.index + 1

theorem Advances.kept (advances : Advances T c c') {p q : Point} {r : Option Point}
    (stored : Stored R c p.phase)
    (rest : Path discipline T (some q) ((code c.block).drop (c.index + 1)) r)
    (phase : q.phase = p.phase) :
    ReturnKept T R code c' := by
  refine ⟨advances.lands, fun running => ⟨q, r, ?_, ?_⟩⟩
  · obtain ⟨block, index⟩ := advances.goes running
    rw [block, index]
    exact rest
  · rw [phase]
    exact advances.same.stored stored

/-- An instruction that leaves the return fields alone goes on or raises an error. -/
inductive Moves (T : Entries Point) (c : Config (Returning W)) : Config (Returning W) → Prop where
  | advances {c' : Config (Returning W)} (advances : Advances T c c') : Moves T c c'
  | throws {c' : Config (Returning W)} (same : SameReturn c c') (lands : FramesLand T c'.rt)
      (e : ErrorData) : Moves T c (c'.throw e)

theorem Moves.kept (checked : Checked discipline T code) (moves : Moves T c c') {p q : Point}
    {r : Option Point} (stored : Stored R c p.phase)
    (rest : Path discipline T (some q) ((code c.block).drop (c.index + 1)) r)
    (body : p.phase = .body) (phase : q.phase = .body) :
    ReturnKept T R code c' := by
  cases moves with
  | advances advances => exact advances.kept stored rest (phase.trans body.symm)
  | throws same lands e =>
    rw [body] at stored
    exact .throw checked lands (same.stored stored) e

/-! ### Instructions -/

variable (env : Env W) (delegate : Delegate (Returning W))

theorem SameReturn.withRt (c : Config (Returning W)) (rt : Rt) : SameReturn c (c.withRt rt) :=
  ⟨rfl, rfl, rfl⟩

theorem SameReturn.withWorld (c : Config (Returning W)) (w : W) :
    SameReturn c (c.withWorld { c.w with w := w }) :=
  ⟨rfl, rfl, rfl⟩

/-- Something is written to a register, and control goes on. -/
theorem Advances.setReg (lands : FramesLand T c.rt) (w : W) (dst : Nat) (v : Val) :
    Advances T c ((c.withWorld { c.w with w := w }).setReg dst v).next :=
  ⟨⟨rfl, rfl, rfl⟩, lands, fun _ => ⟨rfl, rfl⟩⟩

theorem Advances.next {rt : Rt} (lands : FramesLand T rt) (w : W) :
    Advances T c ((c.withRt rt).withWorld { c.w with w := w }).next :=
  ⟨⟨rfl, rfl, rfl⟩, lands, fun _ => ⟨rfl, rfl⟩⟩

theorem moves_after {α : Type} (lands : FramesLand T c.rt) (act : W → Res W α)
    (ok : Config (Returning W) → α → Config (Returning W))
    (goes : ∀ w value, Moves T c (ok (c.withWorld { c.w with w := w }) value)) :
    Moves T c (c.after (Env.beside act c.w) ok) := by
  unfold Config.after Env.beside
  cases act c.w.w with
  | ok value w => exact goes w value
  | raise e w =>
    have same := SameReturn.withWorld c w
    exact .throws same lands e

theorem callRt_lands (lands : FramesLand T c.rt) (op : Op) :
    FramesLand T (callRt (env.returning R) op c.rt) := by
  unfold callRt
  split
  · exact lands.congr c.rt.getStmtMcontext_frames
  · exact lands

theorem moves_call (lands : FramesLand T c.rt) {op : Op} (other : ∀ id, op ≠ .execReturn id) :
    Moves T c (stepInstr (env.returning R) delegate c (.call op)) := by
  have lands' := callRt_lands (R := R) env lands op
  have act (run : W → Res W Unit) (calls : (env.returning R).call op c.w = Env.beside run c.w) :
      Moves T c (stepInstr (env.returning R) delegate c (.call op)) := by
    simp only [stepInstr, calls, Env.beside, Config.after]
    cases run c.w.w with
    | ok value w => exact .advances (.next lands' w)
    | raise e w =>
      have same : SameReturn c ((c.withRt (callRt (env.returning R) op c.rt)).withWorld
        { c.w with w := w }) := ⟨rfl, rfl, rfl⟩
      exact .throws same lands' e
  cases op with
  | leaf id => exact act _ rfl
  | initVar dno => exact act _ rfl
  | caseAssignTest varno expr => exact act _ rfl
  | assignNull dno => exact act (fun w => .ok () (env.assignNull dno w)) rfl
  | caseError => exact act (fun w => .raise caseNotFound w) rfl
  | execReturn id => exact absurd rfl (other id)

theorem moves_quiet (lands : FramesLand T c.rt) {i : Instr} (quiet : i.quiet = true)
    (own : ∀ label id body, i ≠ .foreachA label id body) :
    Moves T c (stepInstr (env.returning R) delegate c i) := by
  cases i with
  | call op => exact moves_call env delegate lands fun id same => by subst same; cases quiet
  | evalBool dst expr =>
    simp only [stepInstr, Env.returning]
    exact moves_after lands _ _ fun w value => .advances (.setReg lands w dst _)
  | evalInt dst expr =>
    simp only [stepInstr, Env.returning]
    refine moves_after lands _ _ fun w value => ?_
    cases value with
    | none => exact .throws (.withWorld c w) lands _
    | some v => exact .advances (.setReg lands w dst _)
  | assignInt var src =>
    simp only [stepInstr, Env.returning]
    exact moves_after lands _ _ fun w value => .advances (.next lands w)
  | const dst v => exact .advances (.setReg lands c.w.w dst _)
  | move dst src => exact .advances (.setReg lands c.w.w dst _)
  | icmpSlt dst a b => exact .advances (.setReg lands c.w.w dst _)
  | icmpSgt dst a b => exact .advances (.setReg lands c.w.w dst _)
  | add dst a b => exact .advances (.setReg lands c.w.w dst _)
  | sub dst a b => exact .advances (.setReg lands c.w.w dst _)
  | setFound src => exact .advances (.next lands _)
  | fetchRow dst kind id portal =>
    simp only [stepInstr, Env.returning]
    exact moves_after lands _ _ fun w value => .advances (.setReg lands w dst _)
  | foreachA label id body => exact absurd rfl (own label id body)
  | _ => cases quiet

/-- A release that works on a frame goes on, or the frame is gone. -/
theorem advances_withFrame (lands : FramesLand T c.rt) (reg : Nat)
    (ok : Nat → Frame → Config (Returning W))
    (goes : ∀ f frame, c.rt.frames f = some frame → Advances T c (ok f frame)) :
    Advances T c (c.withFrame reg ok) := by
  unfold Config.withFrame
  split
  · exact ⟨⟨rfl, rfl, rfl⟩, lands, nofun⟩
  next frame live => exact goes _ frame live

theorem advances_release (lands : FramesLand T c.rt) (cleanup : Cleanup) :
    Advances T c (stepInstr (env.returning R) delegate c cleanup.release) := by
  have gone (f : Nat) : FramesLand T (c.rt.setFrame f none) :=
    lands.setFrame (by rintro _ _ ⟨⟩)
  cases cleanup with
  | closePortal kind id reg => exact .next lands _
  | tryExit reg =>
    simp only [Cleanup.release, stepInstr]
    exact advances_withFrame lands reg _ fun f frame _ =>
      ⟨⟨rfl, rfl, rfl⟩, gone f, fun _ => ⟨rfl, rfl⟩⟩
  | handlerDone reg =>
    simp only [Cleanup.release, stepInstr]
    exact advances_withFrame lands reg _ fun f frame _ =>
      ⟨⟨rfl, rfl, rfl⟩, gone f, fun _ => ⟨rfl, rfl⟩⟩

/-- A RETURN stores what it produces, or raises an error with nothing stored. -/
theorem kept_execReturn (checked : Checked discipline T code) (lands : FramesLand T c.rt) {id : Nat}
    {held : List Cleanup} {r : Option Point} (stored : Stored R c .body)
    (accepted : R.refuses id c.w.w = false)
    (rest : Path discipline T (some (.plain .returned held)) ((code c.block).drop (c.index + 1)) r) :
    ReturnKept T R code (stepInstr (env.returning R) delegate c (.call (.execReturn id))) := by
  have lands' := callRt_lands (R := R) env lands (.execReturn id)
  have calls : (env.returning R).call (.execReturn id) c.w = R.execReturn id c.w := rfl
  simp only [stepInstr, calls, ReturnEnv.execReturn, Config.after]
  cases result : R.execStmtReturn id c.w.w c.w.estate with
  | ok value s =>
    exact ⟨lands', fun _ => ⟨_, r, rest, stored.1, ReturnEnv.execStmtReturn_ok result⟩⟩
  | raise e s =>
    have idle : Stored R ((c.withRt (callRt (env.returning R) (.execReturn id) c.rt)).withWorld
        ⟨s.1, s.2, c.w.produced⟩) .body :=
      ⟨stored.1, (ReturnEnv.execStmtReturn_raise result).trans accepted⟩
    exact .throw checked lands' idle e

theorem kept_foreachA (checked : Checked discipline T code) (lands : FramesLand T c.rt)
    {label : Option Nat} {id : Nat} {body : Stmts} {p : Point} {r : Option Point}
    (stored : Stored R c .body) (phase : p.phase = .body)
    (none : R.transfers (delegate label id body c.w).world.estate = false)
    (rest : Path discipline T (some p) ((code c.block).drop (c.index + 1)) r) :
    ReturnKept T R code (stepInstr (env.returning R) delegate c (.foreachA label id body)) := by
  have lands' : FramesLand T c.rt.getStmtMcontext := lands.congr c.rt.getStmtMcontext_frames
  simp only [stepInstr]
  cases result : delegate label id body c.w with
  | done rc w =>
    rw [result] at none
    exact ⟨lands', fun _ => ⟨p, r, rest, by rw [phase]; exact ⟨stored.1, none⟩⟩⟩
  | err e w =>
    rw [result] at none
    have idle : Stored R ((c.withWorld w).withRt c.rt.getStmtMcontext.pushStmtMcontext) .body :=
      ⟨stored.1, none⟩
    exact .throw checked lands' idle e
  | spent w => exact .of_halted lands (by rintro ⟨⟩)

theorem FramesLand.exceptionPushFrame {rt : Rt} (lands : FramesLand T rt) :
    FramesLand T rt.exceptionPushFrame := by
  have before : FramesLand T rt.getStmtMcontext := lands.congr rt.getStmtMcontext_frames
  have pushed (frame : Frame) (empty : frame.jmpbuf = none) :
      FramesLand T (rt.getStmtMcontext.setFrame rt.getStmtMcontext.nextFrame (some frame)) :=
    before.setFrame fun fr b same buffer => by
      cases same
      rw [empty] at buffer
      cases buffer
  exact pushed _ rfl

/-- The jump buffer of a frame that is armed stays as it is. -/
theorem FramesLand.exceptionArm {rt : Rt} (lands : FramesLand T rt) {f : Nat} {frame : Frame}
    (live : rt.frames f = some frame) : FramesLand T (rt.exceptionArm f frame) := by
  have armed : FramesLand T
      (rt.setFrame f (some { frame with savedExceptionStack := rt.exceptionStack })) :=
    lands.setFrame fun fr b same buffer => by
      cases same
      exact lands f frame b live buffer
  exact armed

theorem kept_instr (checked : Checked discipline T code) (lands : FramesLand T c.rt) {p : Point}
    {q r : Option Point} {i : Instr} (item : (code c.block)[c.index]? = some (.instr i))
    (stored : Stored R c p.phase) (cleanly : clean R delegate code c = true)
    (flows : Flows T p (.instr i) q)
    (rest : Path discipline T q ((code c.block).drop (c.index + 1)) r) :
    ReturnKept T R code (stepInstr (env.returning R) delegate c i) := by
  simp only [clean, item] at cleanly
  cases flows with
  | quiet quiet spare =>
    -- A FOREACH over an array runs its body in the interpreter, which may return.
    by_cases own : ∃ label id body, i = .foreachA label id body
    · obtain ⟨label, id, body, rfl⟩ := own
      exact kept_foreachA env delegate checked lands stored rfl (by simpa using cleanly) rest
    · have moves : Moves T c (stepInstr (env.returning R) delegate c i) :=
        moves_quiet env delegate lands quiet fun label id body same => own ⟨label, id, body, same⟩
      exact moves.kept checked stored rest rfl rfl
  | execReturn =>
    exact kept_execReturn env delegate checked lands stored (by simpa using cleanly) rest
  -- The value has been stored before, and now the flag that says so.
  | storeRc =>
    refine ⟨lands, fun _ => ⟨_, r, rest, ?_⟩⟩
    simpa [Stored, Point.phase, stepInstr, Config.next] using stored.2
  | @openPortal _ dst id kind spare =>
    have moves : Moves T c (stepInstr (env.returning R) delegate c (.openPortal dst kind id)) := by
      simp only [stepInstr, Env.returning]
      exact moves_after lands _ _ fun w value => .advances (.setReg lands w dst _)
    exact moves.kept checked stored rest rfl rfl
  | release cleanup settled => exact (advances_release env delegate lands cleanup).kept stored rest rfl
  | @pushFrame _ dst spare =>
    have advances : Advances T c (stepInstr (env.returning R) delegate c (.pushFrame dst)) :=
      ⟨⟨rfl, rfl, rfl⟩, lands.exceptionPushFrame, fun _ => ⟨rfl, rfl⟩⟩
    exact advances.kept stored rest rfl
  | @arm _ reg catchBb catches =>
    have advances : Advances T c (stepInstr (env.returning R) delegate c (.arm reg)) := by
      simp only [stepInstr]
      exact advances_withFrame lands reg _ fun f frame live =>
        ⟨⟨rfl, rfl, rfl⟩, lands.exceptionArm live, fun _ => ⟨rfl, rfl⟩⟩
    exact advances.kept stored rest rfl
  | @catchError _ reg dst handlers spare =>
    have advances : Advances T c
        (stepInstr (env.returning R) delegate c (.catchError dst reg handlers)) := by
      simp only [stepInstr]
      exact advances_withFrame lands reg _ fun f frame _ =>
        ⟨⟨rfl, rfl, rfl⟩, lands, fun _ => ⟨rfl, rfl⟩⟩
    exact advances.kept stored rest rfl
  | setHandlerVars =>
    have advances : Advances T c (stepInstr (env.returning R) delegate c .setHandlerVars) := by
      simp only [stepInstr]
      split
      · exact ⟨⟨rfl, rfl, rfl⟩, lands, by rintro ⟨⟩⟩
      · exact ⟨⟨rfl, rfl, rfl⟩, lands, fun _ => ⟨rfl, rfl⟩⟩
    exact advances.kept stored rest rfl
  -- The frame is gone, and the error goes to the next one with nothing returned.
  | @rethrow _ reg =>
    simp only [stepInstr, Config.withFrame]
    split
    · exact .of_halted lands (by rintro ⟨⟩)
    next frame _ =>
      split
      · exact .of_halted lands (by rintro ⟨⟩)
      next e _ =>
        have gone : FramesLand T (c.rt.setFrame (c.regs reg).toPtr none) :=
          lands.setFrame (by rintro _ _ ⟨⟩)
        have idle : Stored R (c.withRt (c.rt.exceptionRethrow (c.regs reg).toPtr frame)) .body :=
          (SameReturn.withRt c _).stored stored
        exact .throw checked gone idle e

/-- The end of the body and a RETURN may meet. -/
theorem Stored.join {phase phase' : Phase} (stored : Stored R c phase) (joins : phase.Joins phase') :
    Stored R c phase' := by
  rcases joins with ⟨rfl, -⟩ | ⟨rfl, rfl⟩
  · exact stored
  · simpa [Stored, stored.1] using stored.2

/-- One step. -/
theorem kept_step (checked : Checked discipline T code) (kept : ReturnKept T R code c)
    (cleanly : clean R delegate code c = true) :
    ReturnKept T R code (step (env.returning R) delegate code c) := by
  unfold step
  split
  next running =>
    obtain ⟨p, r, path, stored⟩ := kept.stored running
    split
    · exact .of_halted kept.lands (by rintro ⟨⟩)
    next x item =>
      obtain ⟨q, flows, rest⟩ := path.fetch item
      cases x with
      | instr i => exact kept_instr env delegate checked kept.lands item stored cleanly flows rest
      | br target =>
        cases flows with
        | br goes joins => exact .enter checked kept.lands rfl goes (stored.join joins)
      | condBr cond thenBb elseBb =>
        cases flows with
        | condBr goes otherwise =>
          simp only [stepItem]
          split
          · exact .enter checked kept.lands rfl goes stored
          · exact .enter checked kept.lands rfl otherwise stored
      | sigsetjmp reg tryBb catchBb =>
        cases flows with
        | sigsetjmp tries catches =>
          simp only [stepItem, Config.withFrame]
          split
          · exact .of_halted kept.lands (by rintro ⟨⟩)
          next frame live =>
            have filled : FramesLand T
                (c.rt.setFrame (c.regs reg).toPtr (some { frame with jmpbuf := some catchBb })) :=
              kept.lands.setFrame fun fr b same buffer => by
                cases same
                cases buffer
                exact ⟨reg, _, catches⟩
            exact .enter checked filled rfl tries stored
      | switch index cases default =>
        cases flows with
        | switch each =>
          exact .enter checked kept.lands rfl (each _ (switch_target_mem _ cases default)) stored
      | ret => exact .of_halted kept.lands (by rintro ⟨⟩)
      | unreachable => cases flows
  next => exact kept

/-- A whole run. -/
theorem kept_run (checked : Checked discipline T code) (start : ReturnKept T R code c) (n : Nat)
    (cleanly : ∀ k < n, clean R delegate code ((step (env.returning R) delegate code)^[k] c) = true) :
    ReturnKept T R code ((step (env.returning R) delegate code)^[n] c) := by
  induction n with
  | zero => exact start
  | succ n ih =>
    rw [Function.iterate_succ_apply']
    exact kept_step env delegate checked (ih fun k lt => cleanly k (Nat.lt_succ_of_lt lt))
      (cleanly n (Nat.lt_succ_self n))

theorem leavesTry_iff : leavesTry code c = true ↔
    c.status = .running ∧ ∃ r, (code c.block)[c.index]? = some (.instr (.tryExit r)) := by
  unfold leavesTry
  split
  next r running item => simp [running, item]
  next other =>
    constructor
    · intro leaves
      cases leaves
    · rintro ⟨running, r, item⟩
      exact absurd item (other r running)

/-- Where the body of a block is left, a value is transferred for a RETURN only. -/
theorem ReturnKept.transfers_iff (kept : ReturnKept T R code c) (leaves : leavesTry code c = true) :
    R.transfers c.w.estate = true ↔ ReturnsValue c := by
  obtain ⟨running, reg, item⟩ := leavesTry_iff.mp leaves
  obtain ⟨p, r, path, stored⟩ := kept.stored running
  obtain ⟨q, flows, -⟩ := path.fetch item
  have cases_release {x : Item} (same : x = .instr (.tryExit reg)) (flows : Flows T p x q) :
      p.phase ≠ .returned := by
    cases flows with
    | quiet quiet spare => cases same; cases quiet
    | release cleanup settled => exact settled
    | _ => cases same
  cases phase : p.phase with
  | body =>
    rw [phase] at stored
    simp [ReturnsValue, stored.1, stored.2]
  | returned => exact absurd phase (cases_release rfl flows)
  | leaving =>
    rw [phase, Stored] at stored
    rw [stored, Bool.and_eq_true, ReturnsValue]

end Kept

/-- In every run in which no RETURN has its value refused and no FOREACH leaves a
value behind: wherever the body of a block with handlers is left, a value is
transferred exactly when a RETURN with a value that is not NULL leaves it. -/
theorem compiled_transfer (action : Stmt) (resolves : action.resolves [] = true) :
    ∃ code, compileFunction action = some code ∧
      ∀ (W : Type) (env : Env W) (R : ReturnEnv W) (delegate : Delegate (Returning W)) (level : Nat)
        (w : W) (n : Nat),
        (∀ k < n, clean R delegate code
          ((step (env.returning R) delegate code)^[k] (Config.start level (Returning.start w))) = true) →
        leavesTry code
          ((step (env.returning R) delegate code)^[n] (Config.start level (Returning.start w))) = true →
        (R.transfers
            ((step (env.returning R) delegate code)^[n]
              (Config.start level (Returning.start w))).w.estate = true ↔
          ReturnsValue
            ((step (env.returning R) delegate code)^[n] (Config.start level (Returning.start w)))) := by
  obtain ⟨code, compiled⟩ := compileFunction_returns action resolves
  obtain ⟨T, entry, checked⟩ := compileFunction_checked compiled
  refine ⟨code, compiled, fun W env R delegate level w n cleanly leaves => ?_⟩
  have idle : Stored R (Config.start level (Returning.start w)) .body := by
    simp [Stored, Config.start, Returning.start, ReturnState.setup, ReturnEnv.transfers]
  have start : ReturnKept T R code (Config.start level (Returning.start w)) :=
    .enter checked (fun _ _ _ live => nomatch live) rfl entry idle
  exact (kept_run env delegate checked start n cleanly).transfers_iff leaves

/-- A function in which every RETURN has the same integer. -/
def ReturnEnv.sevens (retistuple : Bool) : ReturnEnv Small where
  retisset := false
  retistuple := retistuple
  fnRettype := 23
  isProcedure := false
  typeIsRowtype _ := false
  source _ := .expr
  fulfillPromise _ w := .ok () w
  readVar _ _ := ⟨7, false, 23⟩
  evalDatum _ w := .ok ⟨7, false, 23⟩ w
  evalExpr _ w := .ok ⟨7, false, 23⟩ w

/-- A RETURN in a block with handlers, and another such block after it. -/
def returnThenBlock : Stmt :=
  .block none [] (.cons
    (.blockExceptions none [] (.cons (.ret 0) .nil) (.cons [.others] (.cons (.leaf 1) .nil) .nil)) (.cons
    (.blockExceptions none [] (.cons (.leaf 2) .nil) (.cons [.others] (.cons (.leaf 3) .nil) .nil)) .nil))

/-- A FOREACH that returns, in a block with handlers. -/
def returnInForeach : Stmt :=
  .block none [] (.cons
    (.blockExceptions none [] (.cons (.foreachA none 0 (.cons (.ret 1) .nil)) .nil)
      (.cons [.others] (.cons (.leaf 2) .nil) .nil)) .nil)

/-- A state in a run of a function in the small environment. -/
def smallReturns (action : Stmt) (retistuple : Bool) (n : Nat) : Config (Returning Small) :=
  (step (Env.small.returning (.sevens retistuple))
    (interpretForeach (Env.small.returning (.sevens retistuple)) 4)
    ((compileFunction action).getD fun _ => []))^[n] (Config.start 0 (Returning.start .start))

/-- The value is returned: it is transferred when the first block is left. -/
theorem returnThenBlock_transfer :
    leavesTry ((compileFunction returnThenBlock).getD fun _ => [])
        (smallReturns returnThenBlock false 6) = true ∧
      ((ReturnEnv.sevens false).transfers (smallReturns returnThenBlock false 6).w.estate = true ↔
        ReturnsValue (smallReturns returnThenBlock false 6)) := by
  have leaves : leavesTry ((compileFunction returnThenBlock).getD fun _ => [])
      (smallReturns returnThenBlock false 6) = true := by decide +kernel
  have cleanly : ∀ k < 6, clean (ReturnEnv.sevens false)
      (interpretForeach (Env.small.returning (.sevens false)) 4)
      ((compileFunction returnThenBlock).getD fun _ => []) (smallReturns returnThenBlock false k) =
        true := by decide +kernel
  refine ⟨leaves, ?_⟩
  obtain ⟨code, compiled, transfer⟩ := compiled_transfer returnThenBlock (by decide +kernel)
  simp only [smallReturns, compiled, Option.getD_some] at leaves cleanly ⊢
  exact transfer Small Env.small (.sevens false) _ 0 .start 6 cleanly leaves

/-- In a function returning a composite the value is stored, refused and the
error caught; the second block, left at its end, transfers it. So does a block
left at its end after a FOREACH that executed RETURN. -/
theorem returnThenBlock_stale :
    (¬∀ n, leavesTry ((compileFunction returnThenBlock).getD fun _ => [])
        (smallReturns returnThenBlock true n) = true →
      ((ReturnEnv.sevens true).transfers (smallReturns returnThenBlock true n).w.estate = true ↔
        ReturnsValue (smallReturns returnThenBlock true n))) ∧
    (¬∀ n, leavesTry ((compileFunction returnInForeach).getD fun _ => [])
        (smallReturns returnInForeach false n) = true →
      ((ReturnEnv.sevens false).transfers (smallReturns returnInForeach false n).w.estate = true ↔
        ReturnsValue (smallReturns returnInForeach false n))) := by
  constructor
  · intro transfer
    have leaves : leavesTry ((compileFunction returnThenBlock).getD fun _ => [])
        (smallReturns returnThenBlock true 15) = true := by decide +kernel
    have returns := ((transfer 15 leaves).mp (by decide +kernel)).1
    have rc : (smallReturns returnThenBlock true 15).rcReturn = false := by decide +kernel
    rw [rc] at returns
    cases returns
  · intro transfer
    have leaves : leavesTry ((compileFunction returnInForeach).getD fun _ => [])
        (smallReturns returnInForeach false 5) = true := by decide +kernel
    have returns := ((transfer 5 leaves).mp (by decide +kernel)).1
    have rc : (smallReturns returnInForeach false 5).rcReturn = false := by decide +kernel
    rw [rc] at returns
    cases returns

end Uplpgsql
