import Uplpgsql.Exec
import Uplpgsql.Compile.Stmts

/-!
# The structured meaning of compiled code

What the emitted blocks do, read off statement by statement: a statement runs
into the code after it, takes a jump to an enclosing construct, returns, or
raises. A jump releases what it crosses before it arrives. The machine is shown
to implement this meaning; the interpreter is compared with it.

The run keeps notes of the places where the compiled code parts from the
interpreter, so that the comparison can say when it does not.
-/

namespace Uplpgsql

open Lib.Iteration

variable {W : Type}

structure Notes where
  /-- A FOREACH ended with a code other than OK, which nobody looked at. -/
  foreachDropped : Bool
  /-- A jump left a FOR loop while FOUND was false and skipped its update. -/
  foundLost : Bool
  /-- A block with handlers initialised variables inside its subtransaction, and
  it mattered. -/
  lateInit : Bool
  /-- A FOR bound was NULL or a BY value was not positive. -/
  badBound : Bool
  deriving DecidableEq, Repr

namespace Notes

def none : Notes := ⟨false, false, false, false⟩

def dropForeach (notes : Notes) (b : Bool) : Notes :=
  { notes with foreachDropped := notes.foreachDropped || b }

def loseFound (notes : Notes) (b : Bool) : Notes :=
  { notes with foundLost := notes.foundLost || b }

def initLate (notes : Notes) (b : Bool) : Notes :=
  { notes with lateInit := notes.lateInit || b }

def boundBad (notes : Notes) (b : Bool) : Notes :=
  { notes with badBound := notes.badBound || b }

end Notes

structure RunState (W : Type) where
  w : W
  notes : Notes

namespace RunState

def set (s : RunState W) (w : W) : RunState W := { s with w := w }

def map (s : RunState W) (f : W → W) : RunState W := { s with w := f s.w }

def note (s : RunState W) (f : Notes → Notes) : RunState W := { s with notes := f s.notes }

end RunState

/-- How compiled code leaves a statement. `jump isExit k` is for the `k`-th
enclosing construct, counted from the innermost. -/
inductive Out (W : Type) where
  | next (s : RunState W)
  | jump (isExit : Bool) (k : Nat) (s : RunState W)
  | ret (s : RunState W)
  | raise (edata : ErrorData) (s : RunState W)
  | spent (s : RunState W)

def Out.state : Out W → RunState W
  | .next s => s
  | .jump _ _ s => s
  | .ret s => s
  | .raise _ s => s
  | .spent s => s

/-- Code after a statement runs when the statement runs into it. -/
def Out.andThen (out : Out W) (next : RunState W → Out W) : Out W :=
  match out with
  | .next s => next s
  | out => out

/-- An enclosing loop or labelled block; `isFor` loops assign FOUND when left. -/
structure Enclosing where
  label : Option Nat
  isLoop : Bool
  isFor : Bool
  cleanupDepth : Nat

def Enclosing.scope (e : Enclosing) : Scope := ⟨e.label, e.isLoop⟩

/-- A held resource, by what releasing it does to the world. -/
inductive Release where
  | tryExit
  | handlerDone
  | closePortal (kind : ForKind) (id handle : Nat)

def Release.run (env : Env W) : Release → W → W
  | .tryExit, w => env.releaseSub w
  | .handlerDone, w => w
  | .closePortal kind id handle, w => env.closePortal kind id handle w

structure RunCtx where
  loops : List Enclosing
  cleanups : List Release

namespace RunCtx

def pushLoop (rctx : RunCtx) (label : Option Nat) (isFor : Bool) : RunCtx :=
  { rctx with loops := ⟨label, true, isFor, rctx.cleanups.length⟩ :: rctx.loops }

def pushLabel (rctx : RunCtx) (label : Option Nat) : RunCtx :=
  match label with
  | none => rctx
  | some _ => { rctx with loops := ⟨label, false, false, rctx.cleanups.length⟩ :: rctx.loops }

def pushCleanup (rctx : RunCtx) (release : Release) : RunCtx :=
  { rctx with cleanups := release :: rctx.cleanups }

def scopes (rctx : RunCtx) : List Scope := rctx.loops.map Enclosing.scope

end RunCtx

/-- Runs compiled code from a state, inside the given constructs. -/
abbrev Run (W : Type) := RunCtx → RunState W → Out W

def Res.run {α : Type} (r : Res W α) (s : RunState W) (next : α → RunState W → Out W) : Out W :=
  match r with
  | .ok value w => next value (s.set w)
  | .raise edata w => .raise edata (s.set w)

/-- The end of a loop body: another round, or the end of the loop. -/
def leaveBody (exited : RunState W → Out W) : Out W → RunState W ⊕ Out W
  | .next s => .inl s
  | .jump false 0 s => .inl s
  | .jump true 0 s => .inr (exited s)
  | .jump isExit (k + 1) s => .inr (.jump isExit k s)
  | .ret s => .inr (.ret s)
  | .raise edata s => .inr (.raise edata s)
  | .spent s => .inr (.spent s)

/-- The end of a labelled block: a jump to it arrives after it. -/
def leaveLabel (label : Option Nat) (out : Out W) : Out W :=
  match label with
  | none => out
  | some _ =>
    match out with
    | .jump _ 0 s => .next s
    | .jump isExit (k + 1) s => .jump isExit k s
    | out => out

/-- Falling off the end and RETURN release a resource on their own paths. -/
def Out.release (f : W → W) : Out W → Out W
  | .next s => .next (s.map f)
  | .ret s => .ret (s.map f)
  | out => out

section Statements

variable (env : Env W) (fuel : Nat)

def runSeq (first second : Run W) : Run W := fun rctx s =>
  (first rctx s).andThen (second rctx)

def runOp (op : Op) : Run W := fun _ s => (env.call op s.w).run s fun _ s => .next s

def runInitVars : List Nat → Run W
  | [] => fun _ s => .next s
  | dno :: rest => runSeq (runOp env (.initVar dno)) (runInitVars rest)

def runBlock (label : Option Nat) (initvars : List Nat) (body : Run W) : Run W :=
  runSeq (runInitVars env initvars) fun rctx s => leaveLabel label (body (rctx.pushLabel label) s)

/-- The first handler that matches, in source order. -/
def runHandlers (label : Option Nat) : List (List Condition × Run W) → ErrorData → Run W
  | [], edata => fun _ s => .raise edata s
  | (conditions, action) :: rest, edata => fun rctx s =>
    if exceptionMatchesConditions edata conditions then
      leaveLabel label
        (action ((rctx.pushCleanup .handlerDone).pushLabel label) (s.map (env.setHandlerVars edata)))
    else runHandlers label rest edata rctx s

def runBlockExceptions (label : Option Nat) (initvars : List Nat) (body : Run W)
    (handlers : List (List Condition × Run W)) : Run W := fun rctx s =>
  let s := (s.map env.beginSub).note (·.initLate !env.initsInert initvars s.w)
  let inner := (rctx.pushCleanup .tryExit).pushLabel label
  match leaveLabel label (runSeq (runInitVars env initvars) body inner s) with
  | .raise edata s => runHandlers env label handlers edata rctx (s.map env.rollbackSub)
  | out => out.release env.releaseSub

def runWhen (expr : Nat) (matched rest : Run W) : Run W := fun rctx s =>
  (env.evalBool expr s.w).run s fun value s =>
    if isTrue value then matched rctx s else rest rctx s

def runClauses (otherwise : Run W) : List (Nat × Run W) → Run W
  | [] => otherwise
  | (expr, body) :: rest => runWhen env expr body (runClauses otherwise rest)

def runIf (expr : Nat) (thenBody : Run W) (elsifs : List (Nat × Run W)) (elseBody : Run W) :
    Run W :=
  runWhen env expr thenBody (runClauses env elseBody elsifs)

def runClearTest : Option (Nat × Nat) → Run W
  | some (varno, _) => runOp env (.assignNull varno)
  | none => fun _ s => .next s

def runCaseTest : Option (Nat × Nat) → Run W
  | some (varno, expr) => runOp env (.caseAssignTest varno expr)
  | none => fun _ s => .next s

def runCaseElse (haveElse : Bool) (elseStmts : Run W) : Run W :=
  if haveElse then elseStmts else runOp env .caseError

def runCase (test : Option (Nat × Nat)) (whens : List (Nat × Run W)) (haveElse : Bool)
    (elseStmts : Run W) : Run W :=
  runSeq (runCaseTest env test)
    (runClauses env (runSeq (runClearTest env test) (runCaseElse env haveElse elseStmts))
      (whens.map fun c => (c.1, runSeq (runClearTest env test) c.2)))

def runLoop (label : Option Nat) (body : Run W) : Run W := fun rctx =>
  loopN (fun s => leaveBody .next (body (rctx.pushLoop label false) s)) .spent fuel

def runWhileRound (label : Option Nat) (expr : Nat) (body : Run W) (rctx : RunCtx)
    (s : RunState W) : RunState W ⊕ Out W :=
  match env.evalBool expr s.w with
  | .raise edata w => .inr (.raise edata (s.set w))
  | .ok value w =>
    if isTrue value then leaveBody .next (body (rctx.pushLoop label false) (s.set w))
    else .inr (.next (s.set w))

def runRepeatRound (label : Option Nat) (expr : Nat) (body : Run W) (rctx : RunCtx)
    (s : RunState W) : RunState W ⊕ Out W :=
  match leaveBody .next (body (rctx.pushLoop label false) s) with
  | .inr out => .inr out
  | .inl s =>
    match env.evalBool expr s.w with
    | .raise edata w => .inr (.raise edata (s.set w))
    | .ok value w => if isTrue value then .inr (.next (s.set w)) else .inl (s.set w)

def runCondLoop (label : Option Nat) (expr : Nat) (testAtTop : Bool) (body : Run W) : Run W :=
  fun rctx =>
    if testAtTop then loopN (runWhileRound env label expr body rctx) .spent fuel
    else loopN (runRepeatRound env label expr body rctx) .spent fuel

/-- `uplpgsql_rt_eval_int`. -/
def runBound (expr : Nat) (s : RunState W) (next : BitVec 32 → RunState W → Out W) : Out W :=
  (env.evalInt expr s.w).run s fun value s =>
    match value with
    | none => .raise rtEvalIntNull (s.note (·.boundBad true))
    | some v => next v s

def runStep (step : Option Nat) (s : RunState W) (next : BitVec 32 → RunState W → Out W) : Out W :=
  match step with
  | none => next 1 s
  | some expr => runBound env expr s fun v s => next v (s.note (·.boundBad (v.toInt ≤ 0)))

/-- The state of a compiled FOR loop between rounds. -/
structure ForiRun (W : Type) where
  s : RunState W
  value : BitVec 32
  found : Bool

def doneTest (reverse : Bool) (value bound : BitVec 32) : Bool :=
  if reverse then value.slt bound else bound.slt value

/-- The wrap-around test of the step block. -/
def wraps (reverse : Bool) (value step : BitVec 32) : Bool :=
  if reverse then value.slt (value - step) else (value + step).slt value

def runForiRound (label : Option Nat) (var : Nat) (upper step : BitVec 32) (reverse : Bool)
    (body : Run W) (rctx : RunCtx) (r : ForiRun W) : ForiRun W ⊕ Out W :=
  if doneTest reverse r.value upper then .inr (.next (r.s.map (env.setFound r.found)))
  else
    match env.assignInt var r.value r.s.w with
    | .raise edata w => .inr (.raise edata (r.s.set w))
    | .ok _ w =>
      match leaveBody (fun s => .next (s.map (env.setFound true)))
          (body (rctx.pushLoop label true) (r.s.set w)) with
      | .inr out => .inr out
      | .inl s =>
        if wraps reverse r.value step then .inr (.next (s.map (env.setFound true)))
        else .inl ⟨s, nextValue reverse r.value step, true⟩

def runFori (label : Option Nat) (var lower upper : Nat) (step : Option Nat) (reverse : Bool)
    (body : Run W) : Run W := fun rctx s =>
  runBound env lower s fun lo s =>
  runBound env upper s fun hi s =>
  runStep env step s fun by' s =>
  loopN (runForiRound env label var hi by' reverse body rctx) (fun r => .spent r.s) fuel
    ⟨s, lo, false⟩

structure ForqRun (W : Type) where
  s : RunState W
  found : Bool

def runForqRound (kind : ForKind) (label : Option Nat) (id handle : Nat) (body : Run W)
    (rctx : RunCtx) (r : ForqRun W) : ForqRun W ⊕ Out W :=
  let close (s : RunState W) : RunState W := s.map (env.closePortal kind id handle)
  match env.fetchRow kind id handle r.s.w with
  | .raise edata w => .inr (.raise edata (r.s.set w))
  | .ok false w => .inr (.next ((close (r.s.set w)).map (env.setFound r.found)))
  | .ok true w =>
    match leaveBody (fun s => .next ((close s).map (env.setFound true)))
        (body ((rctx.pushCleanup (.closePortal kind id handle)).pushLoop label true) (r.s.set w)) with
    | .inr (.ret s) => .inr (.ret (close s))
    | .inr out => .inr out
    | .inl s => .inl ⟨s, true⟩

def runForq (kind : ForKind) (label : Option Nat) (id : Nat) (body : Run W) : Run W := fun rctx s =>
  (env.openPortal kind id s.w).run s fun handle s =>
    loopN (runForqRound env kind label id handle body rctx) (fun r => .spent r.s) fuel ⟨s, false⟩

/-- `compile_foreach_a` goes on whatever the interpreter returned. -/
def runForeachA (foreachA : Exec W) : Run W := fun _ s =>
  match foreachA s.w with
  | .done rc w => .next ((s.set w).note (·.dropForeach (rc != .ok)))
  | .err edata w => .raise edata (s.set w)
  | .spent w => .spent (s.set w)

/-- FOREACH as the compiled code runs it, handed to the interpreter. -/
def ignoreRc (delegate : Option Nat → Nat → Stmts → Exec W) (label : Option Nat) (id : Nat)
    (body : Stmts) : Run W :=
  runForeachA (delegate label id body)

/-- A jump to the `k`-th construct skips the FOUND updates of the FOR loops
inside it. That does not matter if it is the EXIT of a FOR loop, which assigns
FOUND itself. -/
def losesFound (loops : List Enclosing) (isExit : Bool) (k : Nat) (w : W) : Bool :=
  (loops.take k).any (·.isFor) && !(isExit && (loops[k]?.map (·.isFor)).getD false) &&
    !env.getFound w

/-- The cleanups a jump to the `k`-th construct crosses, innermost first. -/
def RunCtx.crossed (rctx : RunCtx) (k : Nat) : List Release :=
  rctx.cleanups.take (rctx.cleanups.length - (rctx.loops[k]?.map (·.cleanupDepth)).getD 0)

def releaseAll (releases : List Release) (w : W) : W :=
  releases.foldl (fun w release => release.run env w) w

def takeJump (isExit : Bool) (label : Option Nat) : Run W := fun rctx s =>
  match findTarget rctx.scopes label with
  | none => .next s
  | some k =>
    .jump isExit k
      ((s.note (·.loseFound (losesFound env rctx.loops isExit k s.w))).map
        (releaseAll env (rctx.crossed k)))

def runExit (isExit : Bool) (label : Option Nat) (cond : Option Nat) : Run W :=
  match cond with
  | none => takeJump env isExit label
  | some expr => runWhen env expr (takeJump env isExit label) fun _ s => .next s

def runReturn (id : Nat) : Run W := fun _ s =>
  (env.call (.execReturn id) s.w).run s fun _ s => .ret s

end Statements

mutual

def Stmt.run (env : Env W) (foreach : Option Nat → Nat → Stmts → Run W) (fuel : Nat) :
    Stmt → Run W
  | .leaf id => runOp env (.leaf id)
  | .block label initvars body => runBlock env label initvars (body.run env foreach fuel)
  | .blockExceptions label initvars body exceptions =>
    runBlockExceptions env label initvars (body.run env foreach fuel)
      (exceptions.run env foreach fuel)
  | .cond expr thenBody elsifs elseBody =>
    runIf env expr (thenBody.run env foreach fuel) (elsifs.run env foreach fuel)
      (elseBody.run env foreach fuel)
  | .case test whens haveElse elseStmts =>
    runCase env test (whens.run env foreach fuel) haveElse (elseStmts.run env foreach fuel)
  | .condLoop label expr testAtTop body =>
    runCondLoop env fuel label expr testAtTop (body.run env foreach fuel)
  | .loop label body => runLoop fuel label (body.run env foreach fuel)
  | .fori label var lower upper step reverse body =>
    runFori env fuel label var lower upper step reverse (body.run env foreach fuel)
  | .forq kind label id body => runForq env fuel kind label id (body.run env foreach fuel)
  | .foreachA label id body => foreach label id body
  | .exit isExit label cond => runExit env isExit label cond
  | .ret id => runReturn env id

def Stmts.run (env : Env W) (foreach : Option Nat → Nat → Stmts → Run W) (fuel : Nat) :
    Stmts → Run W
  | .nil => fun _ s => .next s
  | .cons head tail => runSeq (head.run env foreach fuel) (tail.run env foreach fuel)

def Whens.run (env : Env W) (foreach : Option Nat → Nat → Stmts → Run W) (fuel : Nat) :
    Whens → List (Nat × Run W)
  | .nil => []
  | .cons expr body rest => (expr, body.run env foreach fuel) :: rest.run env foreach fuel

def Exceptions.run (env : Env W) (foreach : Option Nat → Nat → Stmts → Run W) (fuel : Nat) :
    Exceptions → List (List Condition × Run W)
  | .nil => []
  | .cons conditions action rest =>
    (conditions, action.run env foreach fuel) :: rest.run env foreach fuel

end

/-- The body of a function is inside no construct. -/
def functionRunCtx : RunCtx := ⟨[], []⟩

end Uplpgsql
