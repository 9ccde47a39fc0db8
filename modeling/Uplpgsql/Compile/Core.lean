import Uplpgsql.Env
import Uplpgsql.Lib.Blocks

/-!
# The core emitters

`core/upl_compile.c`: the control-flow graphs of IF, CASE, the loops,
EXIT/CONTINUE and RETURN. An emitter gets its sub-statements as emitters (the
`compile_stmts` callback) and the stacks of the compile context as an argument,
which is what pushing before and popping after a sub-statement amounts to.

An expression or a call that the driver compiles inline is one item here. An
alloca and the loads and stores through it are a register that is moved to and
from; `sigsetjmp`, the test of its result and the branch are one terminator.
-/

namespace Uplpgsql

open Lib.Blocks Emit

/-! ### Items of a basic block -/

inductive Val where
  | int (v : BitVec 32)
  | bool (b : Bool)
  | ptr (p : Nat)
  /-- The result of the catch helper: a handler, or -1 for none. -/
  | index (i : Option Nat)
  deriving DecidableEq, Repr

namespace Val

def toInt32 : Val → BitVec 32
  | .int v => v
  | _ => 0

def toBool : Val → Bool
  | .bool b => b
  | _ => false

def toPtr : Val → Nat
  | .ptr p => p
  | _ => 0

def toIndex : Val → Option Nat
  | .index i => i
  | _ => none

end Val

inductive Instr where
  | call (op : Op)
  | evalBool (dst expr : Nat)
  | evalInt (dst expr : Nat)
  | assignInt (var src : Nat)
  | const (dst : Nat) (v : Val)
  | move (dst src : Nat)
  | icmpSlt (dst a b : Nat)
  | icmpSgt (dst a b : Nat)
  | add (dst a b : Nat)
  | sub (dst a b : Nat)
  | setFound (src : Nat)
  | storeRc
  | openPortal (dst : Nat) (kind : ForKind) (id : Nat)
  | fetchRow (dst : Nat) (kind : ForKind) (id portal : Nat)
  | closePortal (kind : ForKind) (id portal : Nat)
  | foreachA (label : Option Nat) (id : Nat) (body : Stmts)
  | pushFrame (dst : Nat)
  | arm (frame : Nat)
  | tryExit (frame : Nat)
  | catchError (dst frame : Nat) (handlers : List (List Condition))
  | setHandlerVars
  | handlerDone (frame : Nat)
  | rethrow (frame : Nat)

inductive Item where
  | instr (i : Instr)
  | br (target : Nat)
  | condBr (cond thenBb elseBb : Nat)
  | sigsetjmp (frame tryBb catchBb : Nat)
  | switch (index : Nat) (cases : List Nat) (default : Nat)
  | ret
  | unreachable

def Item.isTerminator : Item → Bool
  | .instr _ => false
  | _ => true

/-! ### The compile context -/

/-- `UPL_loop_info`. A block label has no `continueBb`. -/
structure LoopInfo where
  label : Option Nat
  isLoop : Bool
  continueBb : Option Nat
  exitBb : Nat
  cleanupDepth : Nat

/-- `UPL_cleanup_info`: the release helper and the registers it is called with. -/
inductive Cleanup where
  | tryExit (frame : Nat)
  | handlerDone (frame : Nat)
  | closePortal (kind : ForKind) (id portal : Nat)
  deriving DecidableEq, Repr

def Cleanup.release : Cleanup → Instr
  | .tryExit frame => .tryExit frame
  | .handlerDone frame => .handlerDone frame
  | .closePortal kind id portal => .closePortal kind id portal

structure Ctx where
  loopStack : List LoopInfo
  cleanupStack : List Cleanup
  returnBb : Nat

def Ctx.cleanupDepth (ctx : Ctx) : Nat := ctx.cleanupStack.length

abbrev Emitter := Ctx → Emit Item Unit

def uplPushLoop (ctx : Ctx) (label : Option Nat) (continueBb exitBb : Nat) : Ctx :=
  { ctx with loopStack := ⟨label, true, some continueBb, exitBb, ctx.cleanupDepth⟩ :: ctx.loopStack }

def uplPushBlockLabel (ctx : Ctx) (label : Option Nat) (exitBb : Nat) : Ctx :=
  { ctx with loopStack := ⟨label, false, none, exitBb, ctx.cleanupDepth⟩ :: ctx.loopStack }

def uplPushCleanup (ctx : Ctx) (cleanup : Cleanup) : Ctx :=
  { ctx with cleanupStack := cleanup :: ctx.cleanupStack }

/-- Without a label, the innermost loop; with one, the innermost entry that
carries it. -/
def uplFindLoop : List LoopInfo → Option Nat → Option LoopInfo
  | [], _ => none
  | info :: rest, label =>
    match label with
    | none => if info.isLoop then some info else uplFindLoop rest label
    | some _ => if info.label = label then some info else uplFindLoop rest label

/-! ### Emitters -/

def instr (i : Instr) : Emit Item Unit := item (.instr i)

def br (target : Nat) : Emit Item Unit := item (.br target)

def condBr (cond thenBb elseBb : Nat) : Emit Item Unit := item (.condBr cond thenBb elseBb)

def instrs : List Instr → Emit Item Unit
  | [] => pure ()
  | i :: rest => do
    instr i
    instrs rest

/-- The release calls of every cleanup above `targetDepth`, innermost first. -/
def uplEmitCleanupUnwind (ctx : Ctx) (targetDepth : Nat) : Emit Item Unit :=
  instrs ((ctx.cleanupStack.take (ctx.cleanupDepth - targetDepth)).map Cleanup.release)

def uplEvalBool (expr : Nat) : Emit Item Nat := do
  let cond ← newReg
  instr (.evalBool cond expr)
  return cond

/-- A block of its own that makes one call and goes on to `target`. -/
def emitPad (padBb : Nat) (i : Instr) (target : Nat) : Emit Item Unit := do
  positionAtEnd padBb
  instr i
  br target

def rtEvalInt (expr : Nat) : Emit Item Nat := do
  let value ← newReg
  instr (.evalInt value expr)
  return value

/-- One clause of an IF or CASE chain. Its body ends at `mergeBb`; the builder is
left where the next clause is tested. -/
def emitClause (mergeBb expr : Nat) (body : Emit Item Unit) : Emit Item Unit := do
  let cond ← uplEvalBool expr
  let thenBb ← appendBlock
  let elseBb ← appendBlock
  condBr cond thenBb elseBb
  positionAtEnd thenBb
  body
  br mergeBb
  positionAtEnd elseBb

def emitClauses (mergeBb : Nat) : List (Nat × Emit Item Unit) → Emit Item Unit
  | [] => pure ()
  | (expr, body) :: rest => do
    emitClause mergeBb expr body
    emitClauses mergeBb rest

def uplEmitIf (expr : Nat) (thenStmts : Emitter) (elsifs : List (Nat × Emitter))
    (elseStmts : Emitter) : Emitter := fun ctx => do
  let mergeBb ← appendBlock
  emitClause mergeBb expr (thenStmts ctx)
  emitClauses mergeBb (elsifs.map fun c => (c.1, c.2 ctx))
  elseStmts ctx
  br mergeBb
  positionAtEnd mergeBb

/-- The temporary of a simple CASE is set to NULL before a body runs. -/
def emitClearTest : Option (Nat × Nat) → Emit Item Unit
  | some (varno, _) => instr (.call (.assignNull varno))
  | none => pure ()

def emitCaseTest : Option (Nat × Nat) → Emit Item Unit
  | some (varno, expr) => instr (.call (.caseAssignTest varno expr))
  | none => pure ()

def emitCaseElse (haveElse : Bool) (elseStmts : Emitter) : Emitter := fun ctx =>
  if haveElse then elseStmts ctx else instr (.call .caseError)

def uplEmitCase (test : Option (Nat × Nat)) (whens : List (Nat × Emitter)) (haveElse : Bool)
    (elseStmts : Emitter) : Emitter := fun ctx => do
  let mergeBb ← appendBlock
  emitCaseTest test
  emitClauses mergeBb (whens.map fun c => (c.1, do emitClearTest test; c.2 ctx))
  emitClearTest test
  emitCaseElse haveElse elseStmts ctx
  br mergeBb
  positionAtEnd mergeBb

def uplEmitCondLoop (label : Option Nat) (expr : Nat) (testAtTop : Bool) (body : Emitter) :
    Emitter := fun ctx => do
  let condBb ← appendBlock
  let bodyBb ← appendBlock
  let exitBb ← appendBlock
  if testAtTop then
    br condBb
    positionAtEnd condBb
    let cond ← uplEvalBool expr
    condBr cond bodyBb exitBb
    positionAtEnd bodyBb
    body (uplPushLoop ctx label condBb exitBb)
    br condBb
  else
    br bodyBb
    positionAtEnd bodyBb
    body (uplPushLoop ctx label condBb exitBb)
    br condBb
    positionAtEnd condBb
    let cond ← uplEvalBool expr
    condBr cond exitBb bodyBb
  positionAtEnd exitBb

def uplEmitLoop (label : Option Nat) (body : Emitter) : Emitter := fun ctx => do
  let bodyBb ← appendBlock
  let exitBb ← appendBlock
  br bodyBb
  positionAtEnd bodyBb
  body (uplPushLoop ctx label bodyBb exitBb)
  br bodyBb
  positionAtEnd exitBb

def rtEvalStep : Option Nat → Emit Item Nat
  | some expr => rtEvalInt expr
  | none => do
    let value ← newReg
    instr (.const value (.int 1))
    return value

/-- The condition block: is the loop value past the end? -/
def emitForiCond (reverse : Bool) (loopVal upper bodyBb exitBb : Nat) : Emit Item Nat := do
  let cur ← newReg
  instr (.move cur loopVal)
  let done ← newReg
  instr (if reverse then .icmpSlt done cur upper else .icmpSgt done cur upper)
  condBr done exitBb bodyBb
  return cur

/-- The step block. The overflow test looks for wrap-around: the next value on
the wrong side of the current one. -/
def emitForiStep (reverse : Bool) (loopVal step condBb exitBb : Nat) : Emit Item Unit := do
  let cur ← newReg
  instr (.move cur loopVal)
  let storeBb ← appendBlock
  let next ← newReg
  instr (if reverse then .sub next cur step else .add next cur step)
  let overflow ← newReg
  instr (if reverse then .icmpSgt overflow next cur else .icmpSlt overflow next cur)
  condBr overflow exitBb storeBb
  positionAtEnd storeBb
  instr (.move loopVal next)
  br condBb

def emitSetFound (found : Nat) : Emit Item Unit := do
  let foundVal ← newReg
  instr (.move foundVal found)
  instr (.setFound foundVal)

/-- The bounds are evaluated once, before the loop. -/
def uplEmitFori (label : Option Nat) (var lowerExpr upperExpr : Nat) (stepExpr : Option Nat)
    (reverse : Bool) (body : Emitter) : Emitter := fun ctx => do
  let lower ← rtEvalInt lowerExpr
  let upper ← rtEvalInt upperExpr
  let step ← rtEvalStep stepExpr
  let loopVal ← newReg
  let found ← newReg
  instr (.move loopVal lower)
  instr (.const found (.bool false))
  let condBb ← appendBlock
  let bodyBb ← appendBlock
  let stepBb ← appendBlock
  let exitBb ← appendBlock
  br condBb
  positionAtEnd condBb
  let cur ← emitForiCond reverse loopVal upper bodyBb exitBb
  positionAtEnd bodyBb
  instr (.const found (.bool true))
  instr (.assignInt var cur)
  body (uplPushLoop ctx label stepBb exitBb)
  br stepBb
  positionAtEnd stepBb
  emitForiStep reverse loopVal step condBb exitBb
  positionAtEnd exitBb
  emitSetFound found

/-- The block a jump branches to; `none` where the compiler gives up. -/
def jumpTarget (isExit : Bool) (info : LoopInfo) : Option Nat :=
  if isExit then some info.exitBb else info.continueBb

def uplEmitLoopExit (label : Option Nat) (isExit : Bool) (condExpr : Option Nat) : Emitter :=
  fun ctx =>
    match uplFindLoop ctx.loopStack label with
    | none => fail
    | some info =>
      if !isExit && !info.isLoop then fail
      else
        match jumpTarget isExit info with
        | none => fail
        | some targetBb =>
          match condExpr with
          | some expr => do
            let skipBb ← appendBlock
            let cond ← uplEvalBool expr
            if info.cleanupDepth < ctx.cleanupDepth then
              let unwindBb ← appendBlock
              condBr cond unwindBb skipBb
              positionAtEnd unwindBb
              uplEmitCleanupUnwind ctx info.cleanupDepth
              br targetBb
            else
              condBr cond targetBb skipBb
            positionAtEnd skipBb
          | none => do
            uplEmitCleanupUnwind ctx info.cleanupDepth
            br targetBb
            let deadBb ← appendBlock
            positionAtEnd deadBb

def uplEmitReturn (id : Nat) : Emitter := fun ctx => do
  instr (.call (.execReturn id))
  instr .storeRc
  br ctx.returnBb
  let deadBb ← appendBlock
  positionAtEnd deadBb

end Uplpgsql
