import Uplpgsql.Env
import Uplpgsql.Lib.Iteration

/-!
# The interpreter

`exec_stmt_*` of `common/upl_exec.c`. A statement returns a code; EXIT and
CONTINUE return to the construct they are for, one enclosing construct at a
time. The label in `estate->exitlabel` means something only while such a code
is on its way, so the code carries it here. Loops run at most `fuel` rounds.
-/

namespace Uplpgsql

open Lib.Iteration

variable {W : Type}

inductive Rc where
  | ok
  | exit (label : Option Nat)
  | continue (label : Option Nat)
  | ret
  deriving DecidableEq, Repr

/-- How a statement ends: with a code, by an error, or with its fuel spent. -/
inductive ExecOut (W : Type) where
  | done (rc : Rc) (w : W)
  | err (edata : ErrorData) (w : W)
  | spent (w : W)

abbrev Exec (W : Type) := W → ExecOut W

def Res.exec {α : Type} (r : Res W α) (next : α → Exec W) : ExecOut W :=
  match r with
  | .ok value w => next value w
  | .raise edata w => .err edata w

/-- What happens to the world when a statement ends with a code. -/
def ExecOut.mapDone (f : W → W) : ExecOut W → ExecOut W
  | .done rc w => .done rc (f w)
  | .err edata w => .err edata w
  | .spent w => .spent w

/-- `LOOP_RC_PROCESSING`: `none` continues in the loop, a code leaves it. -/
def loopRcProcessing (looplabel : Option Nat) : Rc → Option Rc
  | .ok => none
  | .ret => some .ret
  | .exit none => some .ok
  | .exit (some label) =>
    if looplabel = some label then some .ok else some (.exit (some label))
  | .continue none => none
  | .continue (some label) =>
    if looplabel = some label then none else some (.continue (some label))

/-- The end of a loop body: another round, or the end of the loop. -/
def afterBody (looplabel : Option Nat) : ExecOut W → W ⊕ ExecOut W
  | .done rc w =>
    match loopRcProcessing looplabel rc with
    | none => .inl w
    | some rc => .inr (.done rc w)
  | .err edata w => .inr (.err edata w)
  | .spent w => .inr (.spent w)

/-- The last switch of `exec_stmt_block`: CONTINUE never matches a block, and
EXIT only by label. -/
def blockRc (label : Option Nat) : Rc → Rc
  | .exit (some exitlabel) => if label = some exitlabel then .ok else .exit (some exitlabel)
  | rc => rc

def ExecOut.mapRc (f : Rc → Rc) : ExecOut W → ExecOut W
  | .done rc w => .done (f rc) w
  | .err edata w => .err edata w
  | .spent w => .spent w

section Statements

variable (env : Env W) (fuel : Nat)

def execSeq (first second : Exec W) : Exec W := fun w =>
  match first w with
  | .done .ok w => second w
  | out => out

def execOp (op : Op) : Exec W := fun w => (env.call op w).exec fun _ w => .done .ok w

def execInitVars : List Nat → Exec W
  | [] => fun w => .done .ok w
  | dno :: rest => execSeq (execOp env (.initVar dno)) (execInitVars rest)

def execStmtBlock (label : Option Nat) (initvars : List Nat) (body : Exec W) : Exec W := fun w =>
  (execSeq (execInitVars env initvars) body w).mapRc (blockRc label)

/-- A block with handlers initialises its variables before the subtransaction
begins. -/
def execStmtBlockExceptions (label : Option Nat) (initvars : List Nat) (body : Exec W)
    (handle : ErrorData → Exec W) : Exec W := fun w =>
  let guarded : Exec W := fun w =>
    match body (env.beginSub w) with
    | .done rc w => .done rc (env.releaseSub w)
    | .err edata w => handle edata (env.rollbackSub w)
    | .spent w => .spent w
  (execSeq (execInitVars env initvars) guarded w).mapRc (blockRc label)

/-- One clause of an IF or CASE; `matched` is its body. -/
def execWhen (expr : Nat) (matched rest : Exec W) : Exec W := fun w =>
  (env.evalBool expr w).exec fun value w => if isTrue value then matched w else rest w

def execClearTest (test : Option (Nat × Nat)) : Exec W :=
  match test with
  | some (varno, _) => execOp env (.assignNull varno)
  | none => fun w => .done .ok w

def execCaseTest (test : Option (Nat × Nat)) : Exec W :=
  match test with
  | some (varno, expr) => execOp env (.caseAssignTest varno expr)
  | none => fun w => .done .ok w

def execCaseElse (test : Option (Nat × Nat)) (haveElse : Bool) (elseStmts : Exec W) : Exec W :=
  execSeq (execClearTest env test) (if haveElse then elseStmts else execOp env .caseError)

def execStmtLoop (label : Option Nat) (body : Exec W) : Exec W :=
  loopN (fun w => afterBody label (body w)) .spent fuel

def execStmtWhile (label : Option Nat) (expr : Nat) (testAtTop : Bool) (body : Exec W) : Exec W :=
  loopN
    (fun w =>
      if testAtTop then
        match env.evalBool expr w with
        | .raise edata w => .inr (.err edata w)
        | .ok value w => if isTrue value then afterBody label (body w) else .inr (.done .ok w)
      else
        match afterBody label (body w) with
        | .inr out => .inr out
        | .inl w =>
          match env.evalBool expr w with
          | .raise edata w => .inr (.err edata w)
          | .ok value w => if isTrue value then .inr (.done .ok w) else .inl w)
    .spent fuel

/-- A bound of a FOR loop must not be NULL. -/
def execBound (role : BoundRole) (expr : Nat) (w : W) : Res W (BitVec 32) :=
  match env.evalInt expr w with
  | .ok (some value) w => .ok value w
  | .ok none w => .raise role.nullError w
  | .raise edata w => .raise edata w

def execStep (step : Option Nat) (w : W) : Res W (BitVec 32) :=
  match step with
  | none => .ok 1 w
  | some expr =>
    match execBound env .step expr w with
    | .ok value w => if value.toInt ≤ 0 then .raise stepNotPositive w else .ok value w
    | .raise edata w => .raise edata w

/-- The state of an integer FOR loop between rounds. -/
structure ForiState (W : Type) where
  w : W
  value : BitVec 32
  found : Bool

/-- The loop value is past the end. -/
def pastEnd (reverse : Bool) (value bound : BitVec 32) : Bool :=
  if reverse then value.toInt < bound.toInt else bound.toInt < value.toInt

/-- The next value would leave the range of `int32`. -/
def stepOverflows (reverse : Bool) (value step : BitVec 32) : Bool :=
  if reverse then value.toInt < -2147483648 + step.toInt
  else 2147483647 - step.toInt < value.toInt

def nextValue (reverse : Bool) (value step : BitVec 32) : BitVec 32 :=
  if reverse then value - step else value + step

def foriRound (label : Option Nat) (var : Nat) (upper step : BitVec 32) (reverse : Bool)
    (body : Exec W) (s : ForiState W) : ForiState W ⊕ ExecOut W :=
  if pastEnd reverse s.value upper then .inr (.done .ok (env.setFound s.found s.w))
  else
    match env.assignInt var s.value s.w with
    | .raise edata w => .inr (.err edata w)
    | .ok _ w =>
      match afterBody label (body w) with
      | .inr out => .inr (out.mapDone (env.setFound true))
      | .inl w =>
        if stepOverflows reverse s.value step then .inr (.done .ok (env.setFound true w))
        else .inl ⟨w, nextValue reverse s.value step, true⟩

def execStmtFori (label : Option Nat) (var lower upper : Nat) (step : Option Nat) (reverse : Bool)
    (body : Exec W) : Exec W := fun w =>
  (execBound env .lower lower w).exec fun lo w =>
  (execBound env .upper upper w).exec fun hi w =>
  (execStep env step w).exec fun by' w =>
  loopN (foriRound env label var hi by' reverse body) (fun s => .spent s.w) fuel ⟨w, lo, false⟩

/-- The state of a row loop between rounds. -/
structure ForqState (W : Type) where
  w : W
  found : Bool

def forQueryRound (fetch : W → Res W Bool) (label : Option Nat) (body : Exec W)
    (s : ForqState W) : ForqState W ⊕ ExecOut W :=
  match fetch s.w with
  | .raise edata w => .inr (.err edata w)
  | .ok false w => .inr (.done .ok (env.setFound s.found w))
  | .ok true w =>
    match afterBody label (body w) with
    | .inr out => .inr (out.mapDone (env.setFound true))
    | .inl w => .inl ⟨w, true⟩

def execForQuery (fetch : W → Res W Bool) (label : Option Nat) (body : Exec W) : Exec W := fun w =>
  loopN (forQueryRound env fetch label body) (fun s => .spent s.w) fuel ⟨w, false⟩

/-- FOR over a query, a cursor or a dynamic query: the portal is closed once the
loop is over, however it ended, unless by an error. -/
def execStmtForq (kind : ForKind) (label : Option Nat) (id : Nat) (body : Exec W) : Exec W :=
  fun w =>
    (env.openPortal kind id w).exec fun handle w =>
      (execForQuery env fuel (env.fetchRow kind id handle) label body w).mapDone
        (env.closePortal kind id handle)

/-- FOREACH sets FOUND after it has released its array. -/
def execStmtForeachA (label : Option Nat) (id : Nat) (body : Exec W) : Exec W := fun w =>
  let round (s : ForqState W) : ForqState W ⊕ ExecOut W :=
    match env.foreachNext id s.w with
    | .raise edata w => .inr (.err edata w)
    | .ok false w => .inr (.done .ok (env.setFound s.found (env.foreachEnd id w)))
    | .ok true w =>
      match afterBody label (body w) with
      | .inr out => .inr (out.mapDone fun w => env.setFound true (env.foreachEnd id w))
      | .inl w => .inl ⟨w, true⟩
  (env.foreachStart id w).exec fun _ w => loopN round (fun s => .spent s.w) fuel ⟨w, false⟩

def execStmtExit (isExit : Bool) (label : Option Nat) (cond : Option Nat) : Exec W := fun w =>
  let rc : Rc := if isExit then .exit label else .continue label
  match cond with
  | none => .done rc w
  | some expr =>
    (env.evalBool expr w).exec fun value w => if isTrue value then .done rc w else .done .ok w

def execStmtReturn (id : Nat) : Exec W := fun w =>
  (env.call (.execReturn id) w).exec fun _ w => .done .ret w

end Statements

/-! ### The statement dispatch -/

mutual

def Stmt.exec (env : Env W) (fuel : Nat) : Stmt → Exec W
  | .leaf id => execOp env (.leaf id)
  | .block label initvars body => execStmtBlock env label initvars (body.exec env fuel)
  | .blockExceptions label initvars body exceptions =>
    execStmtBlockExceptions env label initvars (body.exec env fuel) (exceptions.exec env fuel)
  | .cond expr thenBody elsifs elseBody =>
    execWhen env expr (thenBody.exec env fuel)
      (elsifs.exec env fuel none (elseBody.exec env fuel))
  | .case test whens haveElse elseStmts =>
    execSeq (execCaseTest env test)
      (whens.exec env fuel test (execCaseElse env test haveElse (elseStmts.exec env fuel)))
  | .condLoop label expr testAtTop body =>
    execStmtWhile env fuel label expr testAtTop (body.exec env fuel)
  | .loop label body => execStmtLoop fuel label (body.exec env fuel)
  | .fori label var lower upper step reverse body =>
    execStmtFori env fuel label var lower upper step reverse (body.exec env fuel)
  | .forq kind label id body => execStmtForq env fuel kind label id (body.exec env fuel)
  | .foreachA label id body => execStmtForeachA env fuel label id (body.exec env fuel)
  | .exit isExit label cond => execStmtExit env isExit label cond
  | .ret id => execStmtReturn env id

def Stmts.exec (env : Env W) (fuel : Nat) : Stmts → Exec W
  | .nil => fun w => .done .ok w
  | .cons head tail => execSeq (head.exec env fuel) (tail.exec env fuel)

/-- The clauses in order; `test` is the temporary of a simple CASE, discarded as
soon as a clause matches. -/
def Whens.exec (env : Env W) (fuel : Nat) (test : Option (Nat × Nat)) (otherwise : Exec W) :
    Whens → Exec W
  | .nil => otherwise
  | .cons expr body rest =>
    execWhen env expr (execSeq (execClearTest env test) (body.exec env fuel))
      (rest.exec env fuel test otherwise)

/-- The first matching handler runs with SQLSTATE and SQLERRM set; without one
the error goes on. -/
def Exceptions.exec (env : Env W) (fuel : Nat) : Exceptions → ErrorData → Exec W
  | .nil, edata => fun w => .err edata w
  | .cons conditions action rest, edata => fun w =>
    if exceptionMatchesConditions edata conditions then
      action.exec env fuel (env.setHandlerVars edata w)
    else rest.exec env fuel edata w

end

end Uplpgsql
