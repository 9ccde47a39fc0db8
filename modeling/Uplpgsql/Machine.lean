import Uplpgsql.Compile.Stmts
import Uplpgsql.Runtime
import Uplpgsql.Exec

/-!
# Running the compiled code

A deterministic machine over the emitted blocks. An error raised by anything
the code calls jumps to the block recorded in the frame on top of
`PG_exception_stack`; with no frame there it leaves the function. Touching a
frame that has been freed crashes.
-/

namespace Uplpgsql

variable {W : Type}

inductive Status where
  | running
  | returned
  | uncaught (edata : ErrorData)
  /-- A statement handed to the interpreter has spent its fuel. -/
  | spent
  | crashed
  deriving DecidableEq, Repr

structure Config (W : Type) where
  block : Nat
  index : Nat
  regs : Nat → Val
  /-- The return code storage: whether a RETURN has been executed. -/
  rcReturn : Bool
  rt : Rt
  /-- The error on its way to a handler. -/
  thrown : ErrorData
  w : W
  status : Status

namespace Config

def next (c : Config W) : Config W := { c with index := c.index + 1 }

def goto (c : Config W) (b : Nat) : Config W := { c with block := b, index := 0 }

def setReg (c : Config W) (r : Nat) (v : Val) : Config W :=
  { c with regs := Function.update c.regs r v }

def withWorld (c : Config W) (w : W) : Config W := { c with w := w }

def withRt (c : Config W) (rt : Rt) : Config W := { c with rt := rt }

def halt (c : Config W) (status : Status) : Config W := { c with status := status }

/-- `ereport(ERROR)`: jump to the innermost armed frame. -/
def throw (c : Config W) (edata : ErrorData) : Config W :=
  match c.rt.exceptionStack with
  | none => c.halt (.uncaught edata)
  | some f =>
    match (c.rt.frames f).bind (·.jmpbuf) with
    | none => c.halt .crashed
    | some catchBb => { c.goto catchBb with thrown := edata }

/-- Goes on with the result of a call, or throws. -/
def after {α : Type} (c : Config W) (r : Res W α) (ok : Config W → α → Config W) : Config W :=
  match r with
  | .ok value w => ok (c.withWorld w) value
  | .raise edata w => (c.withWorld w).throw edata

/-- Goes on with the frame a register points to. -/
def withFrame (c : Config W) (r : Nat) (ok : Nat → Frame → Config W) : Config W :=
  match c.rt.frames (c.regs r).toPtr with
  | none => c.halt .crashed
  | some frame => ok (c.regs r).toPtr frame

end Config

/-- How the interpreter runs a FOREACH it is handed. -/
abbrev Delegate (W : Type) := Option Nat → Nat → Stmts → Exec W

section Step

variable (env : Env W) (delegate : Delegate W)

/-- `needsMcontext` calls make sure of a statement context first. -/
def callRt (op : Op) (rt : Rt) : Rt := if env.needsMcontext op then rt.getStmtMcontext else rt

def stepInstr (c : Config W) : Instr → Config W
  | .call op => (c.withRt (callRt env op c.rt)).after (env.call op c.w) fun c _ => c.next
  | .evalBool dst expr =>
    c.after (env.evalBool expr c.w) fun c value => (c.setReg dst (.bool (isTrue value))).next
  | .evalInt dst expr =>
    c.after (env.evalInt expr c.w) fun c value =>
      match value with
      | none => c.throw rtEvalIntNull
      | some v => (c.setReg dst (.int v)).next
  | .assignInt var src =>
    c.after (env.assignInt var (c.regs src).toInt32 c.w) fun c _ => c.next
  | .const dst v => (c.setReg dst v).next
  | .move dst src => (c.setReg dst (c.regs src)).next
  | .icmpSlt dst a b =>
    (c.setReg dst (.bool ((c.regs a).toInt32.slt (c.regs b).toInt32))).next
  | .icmpSgt dst a b =>
    (c.setReg dst (.bool ((c.regs b).toInt32.slt (c.regs a).toInt32))).next
  | .add dst a b => (c.setReg dst (.int ((c.regs a).toInt32 + (c.regs b).toInt32))).next
  | .sub dst a b => (c.setReg dst (.int ((c.regs a).toInt32 - (c.regs b).toInt32))).next
  | .setFound src => (c.withWorld (env.setFound (c.regs src).toBool c.w)).next
  | .storeRc => { c with rcReturn := true }.next
  | .openPortal dst kind id =>
    c.after (env.openPortal kind id c.w) fun c handle => (c.setReg dst (.ptr handle)).next
  | .fetchRow dst kind id portal =>
    c.after (env.fetchRow kind id (c.regs portal).toPtr c.w) fun c row =>
      (c.setReg dst (.bool row)).next
  | .closePortal kind id portal =>
    (c.withWorld (env.closePortal kind id (c.regs portal).toPtr c.w)).next
  | .foreachA label id body =>
    match delegate label id body c.w with
    | .done _ w => ((c.withWorld w).withRt c.rt.getStmtMcontext).next
    | .err edata w =>
      ((c.withWorld w).withRt c.rt.getStmtMcontext.pushStmtMcontext).throw edata
    | .spent w => (c.withWorld w).halt .spent
  | .pushFrame dst =>
    (((c.withRt c.rt.exceptionPushFrame).withWorld (env.beginSub c.w)).setReg dst
      (.ptr c.rt.nextFrame)).next
  | .arm r => c.withFrame r fun f frame => (c.withRt (c.rt.exceptionArm f frame)).next
  | .tryExit r =>
    c.withFrame r fun f frame =>
      ((c.withRt (c.rt.exceptionTryExit f frame)).withWorld (env.releaseSub c.w)).next
  | .catchError dst r handlers =>
    c.withFrame r fun _ frame =>
      (((c.withRt (c.rt.exceptionCatch frame c.thrown)).withWorld (env.rollbackSub c.w)).setReg dst
        (.index (findHandler c.thrown handlers))).next
  | .setHandlerVars =>
    match c.rt.curError with
    | none => c.halt .crashed
    | some edata =>
      ((c.withRt c.rt.exceptionSetHandlerVars).withWorld (env.setHandlerVars edata c.w)).next
  | .handlerDone r =>
    c.withFrame r fun f frame => (c.withRt (c.rt.exceptionHandlerDone f frame)).next
  | .rethrow r =>
    c.withFrame r fun f frame =>
      match c.rt.curError with
      | none => c.halt .crashed
      | some edata => (c.withRt (c.rt.exceptionRethrow f frame)).throw edata

def stepItem (c : Config W) : Item → Config W
  | .instr i => stepInstr env delegate c i
  | .br target => c.goto target
  | .condBr cond thenBb elseBb => c.goto (if (c.regs cond).toBool then thenBb else elseBb)
  | .sigsetjmp r tryBb catchBb =>
    c.withFrame r fun f frame => (c.withRt (c.rt.sigsetjmp f frame catchBb)).goto tryBb
  | .switch r cases default =>
    c.goto (((c.regs r).toIndex.bind (cases[·]?)).getD default)
  | .ret => c.halt .returned
  | .unreachable => c.halt .crashed

/-- One step; a configuration that has stopped stays as it is. -/
def step (code : Nat → List Item) (c : Config W) : Config W :=
  match c.status with
  | .running =>
    match (code c.block)[c.index]? with
    | none => c.halt .crashed
    | some x => stepItem env delegate c x
  | _ => c

end Step

/-- The state in which a compiled function is entered. -/
def Config.start (level : Nat) (w : W) : Config W :=
  { block := entryBb
    index := 0
    regs := fun _ => .ptr 0
    rcReturn := false
    rt := Rt.start level
    thrown := caseNotFound
    w := w
    status := .running }

/-- FOREACH as `exec_stmt_foreach_a` runs it. -/
def interpretForeach (env : Env W) (fuel : Nat) : Delegate W := fun label id body =>
  (Stmt.foreachA label id body).exec env fuel

end Uplpgsql
