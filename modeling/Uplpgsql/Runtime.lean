import Uplpgsql.Env
import Mathlib.Logic.Function.Basic

/-!
# The exception helpers

The state a BEGIN ... EXCEPTION block saves and restores, and the helpers of
`common/upl_runtime.c` (`uplpgsql_rt_exception_*`) that do it. Memory contexts,
resource owners and expression contexts are numbers; a new one gets the next
number. `CurrentMemoryContext`, the error context stack and the return value
are left out: no other helper reads them.
-/

namespace Uplpgsql

/-- `UPLpgSQL_exception_frame`. `jmpbuf` is the block `sigsetjmp` returns to
when it returns for the second time. -/
structure Frame where
  jmpbuf : Option Nat
  savedExceptionStack : Option Nat
  oldowner : Nat
  oldEvalEcontext : Nat
  savedCurError : Option ErrorData
  stmtMcontext : Nat
  deriving DecidableEq, Repr

structure Rt where
  /-- `PG_exception_stack`: the frame an error jumps to. -/
  exceptionStack : Option Nat
  /-- The subtransaction nesting level. -/
  subLevel : Nat
  /-- `CurrentResourceOwner`. -/
  owner : Nat
  evalEcontext : Nat
  /-- `cur_error` of the PL/pgSQL execution state. -/
  plCurError : Option ErrorData
  /-- `cur_error` of the state the compiled code is called with. -/
  curError : Option ErrorData
  stmtMcontext : Option Nat
  stmtMcontextParent : Nat
  /-- `MemoryContextGetParent`. -/
  parentOf : Nat → Nat
  frames : Nat → Option Frame
  nextFrame : Nat
  nextObject : Nat

namespace Rt

def getStmtMcontext (rt : Rt) : Rt :=
  match rt.stmtMcontext with
  | some _ => rt
  | none =>
    { rt with
      stmtMcontext := some rt.nextObject
      parentOf := Function.update rt.parentOf rt.nextObject rt.stmtMcontextParent
      nextObject := rt.nextObject + 1 }

@[simp] theorem getStmtMcontext_exceptionStack (rt : Rt) :
    rt.getStmtMcontext.exceptionStack = rt.exceptionStack := by
  unfold getStmtMcontext
  split <;> rfl

@[simp] theorem getStmtMcontext_frames (rt : Rt) : rt.getStmtMcontext.frames = rt.frames := by
  unfold getStmtMcontext
  split <;> rfl

@[simp] theorem getStmtMcontext_nextFrame (rt : Rt) :
    rt.getStmtMcontext.nextFrame = rt.nextFrame := by
  unfold getStmtMcontext
  split <;> rfl

def pushStmtMcontext (rt : Rt) : Rt :=
  { rt with
    stmtMcontextParent := rt.stmtMcontext.getD rt.stmtMcontextParent
    stmtMcontext := none }

def popStmtMcontext (rt : Rt) : Rt :=
  { rt with
    stmtMcontext := some rt.stmtMcontextParent
    stmtMcontextParent := rt.parentOf rt.stmtMcontextParent }

def beginInternalSubTransaction (rt : Rt) : Rt :=
  { rt with subLevel := rt.subLevel + 1, owner := rt.nextObject, nextObject := rt.nextObject + 1 }

/-- Both ways of ending a subtransaction leave its level. -/
def endSubTransaction (rt : Rt) : Rt := { rt with subLevel := rt.subLevel - 1 }

def createEcontext (rt : Rt) : Rt :=
  { rt with evalEcontext := rt.nextObject, nextObject := rt.nextObject + 1 }

def setFrame (rt : Rt) (f : Nat) (frame : Option Frame) : Rt :=
  { rt with frames := Function.update rt.frames f frame }

/-- The frame is allocated and filled before the subtransaction begins. -/
def exceptionPushFrame (rt : Rt) : Rt :=
  let rt := rt.getStmtMcontext
  let frame : Frame :=
    { jmpbuf := none
      savedExceptionStack := none
      oldowner := rt.owner
      oldEvalEcontext := rt.evalEcontext
      savedCurError := rt.plCurError
      stmtMcontext := rt.stmtMcontext.getD 0 }
  { (rt.setFrame rt.nextFrame (some frame)).beginInternalSubTransaction with
    nextFrame := rt.nextFrame + 1 }

/-- `sigsetjmp` fills the frame's jump buffer. -/
def sigsetjmp (rt : Rt) (f : Nat) (frame : Frame) (catchBb : Nat) : Rt :=
  rt.setFrame f (some { frame with jmpbuf := some catchBb })

def exceptionArm (rt : Rt) (f : Nat) (frame : Frame) : Rt :=
  { (rt.setFrame f (some { frame with savedExceptionStack := rt.exceptionStack })).createEcontext with
    exceptionStack := some f }

def exceptionTryExit (rt : Rt) (f : Nat) (frame : Frame) : Rt :=
  { (rt.setFrame f none).endSubTransaction with
    exceptionStack := frame.savedExceptionStack
    owner := frame.oldowner
    evalEcontext := frame.oldEvalEcontext }

def exceptionCatch (rt : Rt) (frame : Frame) (edata : ErrorData) : Rt :=
  { rt.endSubTransaction with
    exceptionStack := frame.savedExceptionStack
    owner := frame.oldowner
    stmtMcontextParent := frame.stmtMcontext
    stmtMcontext := none
    evalEcontext := frame.oldEvalEcontext
    curError := some edata }

def exceptionSetHandlerVars (rt : Rt) : Rt := { rt with plCurError := rt.curError }

def exceptionHandlerDone (rt : Rt) (f : Nat) (frame : Frame) : Rt :=
  { (rt.setFrame f none).popStmtMcontext with
    plCurError := frame.savedCurError
    curError := frame.savedCurError }

/-- The rethrow helper up to `ReThrowError`. -/
def exceptionRethrow (rt : Rt) (f : Nat) (frame : Frame) : Rt :=
  { (rt.setFrame f none).popStmtMcontext with
    plCurError := frame.savedCurError
    curError := frame.savedCurError }

/-- The state a function starts in, called from `level` subtransactions. -/
def start (level : Nat) : Rt :=
  { exceptionStack := none
    subLevel := level
    owner := 0
    evalEcontext := 1
    plCurError := none
    curError := none
    stmtMcontext := none
    stmtMcontextParent := 2
    parentOf := fun _ => 2
    frames := fun _ => none
    nextFrame := 0
    nextObject := 3 }

end Rt

end Uplpgsql
