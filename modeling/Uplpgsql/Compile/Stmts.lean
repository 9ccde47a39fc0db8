import Uplpgsql.Compile.Core

/-!
# The statement compiler

`common/upl_compile_stmts.c`: blocks with and without handlers, the row loops,
FOREACH, and the dispatch over statements. The marshalling of native arrays
around these calls is not control flow and is modelled where it matters.
-/

namespace Uplpgsql

open Lib.Blocks Emit

def emitInitVars (initvars : List Nat) : Emit Item Unit :=
  instrs (initvars.map fun dno => .call (.initVar dno))

/-- The builder's current block has its terminator. -/
def hasTerminator : Emit Item Bool := fun σ =>
  some (((σ.code σ.cur).getLast?.map Item.isTerminator).getD false, σ)

def compileBlock (label : Option Nat) (initvars : List Nat) (body : Emitter) : Emitter :=
  fun ctx => do
    emitInitVars initvars
    match label with
    | none => body ctx
    | some _ =>
      let endBb ← appendBlock
      body (uplPushBlockLabel ctx label endBb)
      let terminated ← hasTerminator
      if !terminated then br endBb
      positionAtEnd endBb

/-- A label, where the block has one, is pushed inside the block's cleanup: its
exit path releases the frame itself. -/
def pushLabel (ctx : Ctx) (label : Option Nat) (exitBb : Nat) : Ctx :=
  match label with
  | none => ctx
  | some _ => uplPushBlockLabel ctx label exitBb

def appendBlocks : Nat → Emit Item (List Nat)
  | 0 => pure []
  | n + 1 => do
    let first ← appendBlock
    let rest ← appendBlocks n
    return first :: rest

/-- The handler bodies, each in the block its index switches to. -/
def emitHandlers (frame afterBb : Nat) : List (Nat × Emit Item Unit) → Emit Item Unit
  | [] => pure ()
  | (handlerBb, action) :: rest => do
    positionAtEnd handlerBb
    instr .setHandlerVars
    action
    instr (.handlerDone frame)
    br afterBb
    emitHandlers frame afterBb rest

/-- The handler blocks are appended before the switch over them is built. The
compiler adds each case to the finished switch instead, which LLVM allows. -/
def compileBlockExceptions (label : Option Nat) (initvars : List Nat) (body : Emitter)
    (handlers : List (List Condition × Emitter)) : Emitter := fun ctx => do
  let tryEnterBb ← appendBlock
  let catchEnterBb ← appendBlock
  let tryExitBb ← appendBlock
  let exceptionReturnBb ← appendBlock
  let handlerReturnBb ← appendBlock
  let handlerExitBb ← appendBlock
  let afterBlockBb ← appendBlock
  let rethrowBb ← appendBlock
  let frame ← newReg
  instr (.pushFrame frame)
  item (.sigsetjmp frame tryEnterBb catchEnterBb)
  positionAtEnd tryEnterBb
  instr (.arm frame)
  emitInitVars initvars
  body (pushLabel (uplPushCleanup { ctx with returnBb := exceptionReturnBb } (.tryExit frame))
    label tryExitBb)
  br tryExitBb
  emitPad exceptionReturnBb (.tryExit frame) ctx.returnBb
  emitPad tryExitBb (.tryExit frame) afterBlockBb
  positionAtEnd catchEnterBb
  let handlerIdx ← newReg
  instr (.catchError handlerIdx frame (handlers.map (·.1)))
  let handlerBbs ← appendBlocks handlers.length
  item (.switch handlerIdx handlerBbs rethrowBb)
  let handlerCtx := pushLabel
    (uplPushCleanup { ctx with returnBb := handlerReturnBb } (.handlerDone frame)) label handlerExitBb
  emitHandlers frame afterBlockBb (handlerBbs.zip (handlers.map fun h => h.2 handlerCtx))
  emitPad handlerReturnBb (.handlerDone frame) ctx.returnBb
  emitPad handlerExitBb (.handlerDone frame) afterBlockBb
  positionAtEnd rethrowBb
  instr (.rethrow frame)
  item .unreachable
  positionAtEnd afterBlockBb

/-- `uplpgsql_compile_fors`, `_forc` and `_dynfors` differ in the helpers that
open and close the portal. -/
def compileForq (kind : ForKind) (label : Option Nat) (id : Nat) (body : Emitter) : Emitter :=
  fun ctx => do
    let portal ← newReg
    instr (.openPortal portal kind id)
    let found ← newReg
    instr (.const found (.bool false))
    let condBb ← appendBlock
    let bodyBb ← appendBlock
    let exitBb ← appendBlock
    let returnBb ← appendBlock
    let contBb ← appendBlock
    br condBb
    positionAtEnd condBb
    let hasRow ← newReg
    instr (.fetchRow hasRow kind id portal)
    condBr hasRow bodyBb exitBb
    positionAtEnd bodyBb
    instr (.const found (.bool true))
    body (uplPushLoop (uplPushCleanup { ctx with returnBb := returnBb } (.closePortal kind id portal))
      label condBb exitBb)
    br condBb
    emitPad returnBb (.closePortal kind id portal) ctx.returnBb
    positionAtEnd exitBb
    instr (.closePortal kind id portal)
    emitSetFound found
    br contBb
    positionAtEnd contBb

/-- The whole statement is handed to the interpreter; the code it returns is not
looked at. -/
def compileForeachA (label : Option Nat) (id : Nat) (body : Stmts) : Emitter := fun _ =>
  instr (.foreachA label id body)

/-! ### The statement dispatch -/

mutual

def Stmt.compile : Stmt → Emitter
  | .leaf id => fun _ => instr (.call (.leaf id))
  | .block label initvars body => compileBlock label initvars body.compile
  | .blockExceptions label initvars body exceptions =>
    compileBlockExceptions label initvars body.compile exceptions.compile
  | .cond expr thenBody elsifs elseBody =>
    uplEmitIf expr thenBody.compile elsifs.compile elseBody.compile
  | .case test whens haveElse elseStmts =>
    uplEmitCase test whens.compile haveElse elseStmts.compile
  | .condLoop label expr testAtTop body => uplEmitCondLoop label expr testAtTop body.compile
  | .loop label body => uplEmitLoop label body.compile
  | .fori label var lower upper step reverse body =>
    uplEmitFori label var lower upper step reverse body.compile
  | .forq kind label id body => compileForq kind label id body.compile
  | .foreachA label id body => compileForeachA label id body
  | .exit isExit label cond => uplEmitLoopExit label isExit cond
  | .ret id => uplEmitReturn id

def Stmts.compile : Stmts → Emitter
  | .nil => fun _ => pure ()
  | .cons head tail => fun ctx => do
    head.compile ctx
    tail.compile ctx

def Whens.compile : Whens → List (Nat × Emitter)
  | .nil => []
  | .cons expr body rest => (expr, body.compile) :: rest.compile

def Exceptions.compile : Exceptions → List (List Condition × Emitter)
  | .nil => []
  | .cons conditions action rest => (conditions, action.compile) :: rest.compile

end

/-- Block 0 is the entry, block 1 the return block. -/
def entryBb : Nat := 0

def returnBb : Nat := 1

def functionCtx : Ctx := ⟨[], [], returnBb⟩

/-- `upl_compile_function` around the body of the function. -/
def emitFunction (body : Emitter) : Emit Item Unit := do
  body functionCtx
  br returnBb
  positionAtEnd returnBb
  item .ret

/-- The basic blocks of a compiled function. -/
def compileFunction (action : Stmt) : Option (Nat → List Item) :=
  (emitFunction action.compile (Builder.start Item 2)).map fun r => r.2.code

end Uplpgsql
