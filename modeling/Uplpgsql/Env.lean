import Uplpgsql.Syntax

/-!
# What statements act on

Control flow is modelled over an arbitrary world `W`: datums, database,
portals, whatever the leaf statements and expressions read and write. `Env` is
the interface through which both the interpreter and the compiled code act on
it. An action finishes or raises an error.
-/

namespace Uplpgsql

/-! ### Errors -/

/-- `ErrorData`, as far as a handler looks at it. -/
structure ErrorData where
  sqlerrcode : Nat
  message : String
  deriving DecidableEq, Repr

/-- One character of an SQLSTATE, in six bits (`PGSIXBIT`). -/
def pgSixbit (ch : Char) : Nat := (ch.toNat - '0'.toNat) % 64

/-- `MAKE_SQLSTATE`: six bits a character, the first character lowest. -/
def makeSqlstate (c₁ c₂ c₃ c₄ c₅ : Char) : Nat :=
  pgSixbit c₁ + pgSixbit c₂ * 2 ^ 6 + pgSixbit c₃ * 2 ^ 12 + pgSixbit c₄ * 2 ^ 18 +
    pgSixbit c₅ * 2 ^ 24

/-- The category of a code is its first two characters. -/
def errcodeToCategory (code : Nat) : Nat := code % 2 ^ 12

def errcodeIsCategory (code : Nat) : Bool := code / 2 ^ 12 == 0

def errcodeQueryCanceled : Nat := makeSqlstate '5' '7' '0' '1' '4'
def errcodeAssertFailure : Nat := makeSqlstate 'P' '0' '0' '0' '4'
def errcodeCaseNotFound : Nat := makeSqlstate '2' '0' '0' '0' '0'
def errcodeNullValueNotAllowed : Nat := makeSqlstate '2' '2' '0' '0' '4'
def errcodeInvalidParameterValue : Nat := makeSqlstate '2' '2' '0' '2' '3'

/-- OTHERS leaves cancellation and failed assertions alone; a code matches
itself, and a category every code in it. -/
def Condition.matchesError (edata : ErrorData) : Condition → Bool
  | .others =>
    edata.sqlerrcode != errcodeQueryCanceled && edata.sqlerrcode != errcodeAssertFailure
  | .sqlstate code =>
    edata.sqlerrcode == code ||
      (errcodeIsCategory code && errcodeToCategory edata.sqlerrcode == code)

def exceptionMatchesConditions (edata : ErrorData) (conditions : List Condition) : Bool :=
  conditions.any (·.matchesError edata)

/-- The first handler, in source order, with a matching condition. -/
def findHandler (edata : ErrorData) (handlers : List (List Condition)) : Option Nat :=
  handlers.findIdx? (exceptionMatchesConditions edata)

def caseNotFound : ErrorData := ⟨errcodeCaseNotFound, "case not found"⟩

/-! ### Actions on the world -/

inductive Res (W α : Type) where
  | ok (value : α) (w : W)
  | raise (edata : ErrorData) (w : W)

def Res.world {W α : Type} : Res W α → W
  | .ok _ w => w
  | .raise _ w => w

def Res.mapWorld {W V α : Type} (f : W → V) : Res W α → Res V α
  | .ok value w => .ok value (f w)
  | .raise edata w => .raise edata (f w)

/-- The actions both executions call for their effect alone. -/
inductive Op where
  | leaf (id : Nat)
  | initVar (dno : Nat)
  | caseAssignTest (varno expr : Nat)
  | assignNull (dno : Nat)
  | caseError
  | execReturn (id : Nat)
  deriving DecidableEq, Repr

structure Env (W : Type) where
  leaf : Nat → W → Res W Unit
  initVar : Nat → W → Res W Unit
  /-- A simple CASE evaluates its test expression into a temporary. -/
  caseAssignTest : Nat → Nat → W → Res W Unit
  assignNull : Nat → W → W
  execReturn : Nat → W → Res W Unit
  /-- `none` is SQL NULL. -/
  evalBool : Nat → W → Res W (Option Bool)
  evalInt : Nat → W → Res W (Option (BitVec 32))
  assignInt : Nat → BitVec 32 → W → Res W Unit
  setFound : Bool → W → W
  getFound : W → Bool
  /-- Opening a row loop's portal yields a handle; fetching assigns the row
  target and says whether there was a row. -/
  openPortal : ForKind → Nat → W → Res W Nat
  fetchRow : ForKind → Nat → Nat → W → Res W Bool
  closePortal : ForKind → Nat → Nat → W → W
  beginSub : W → W
  releaseSub : W → W
  rollbackSub : W → W
  setHandlerVars : ErrorData → W → W
  /-- A FOREACH evaluates its array once and then hands out its elements. -/
  foreachStart : Nat → W → Res W Unit
  foreachNext : Nat → W → Res W Bool
  foreachEnd : Nat → W → W
  /-- Whether a call makes sure that `stmt_mcontext` exists. -/
  needsMcontext : Op → Bool
  /-- Initialising the variable here neither fails nor touches the database: it
  does not matter on which side of the start of a subtransaction it happens. -/
  inert : Nat → W → Bool
  inert_spec : ∀ {dno : Nat} {w : W}, inert dno w = true →
    ∃ w', initVar dno w = .ok () w' ∧ initVar dno (beginSub w) = .ok () (beginSub w')

variable {W : Type}

def Env.initsInert (env : Env W) : List Nat → W → Bool
  | [], _ => true
  | dno :: rest, w =>
    env.inert dno w &&
      match env.initVar dno w with
      | .ok _ w => initsInert env rest w
      | .raise _ _ => false

def Env.call (env : Env W) : Op → W → Res W Unit
  | .leaf id, w => env.leaf id w
  | .initVar dno, w => env.initVar dno w
  | .caseAssignTest varno expr, w => env.caseAssignTest varno expr w
  | .assignNull dno, w => .ok () (env.assignNull dno w)
  | .caseError, w => .raise caseNotFound w
  | .execReturn id, w => env.execReturn id w

/-- A condition holds when it is neither NULL nor false. -/
def isTrue (value : Option Bool) : Bool := value.getD false

/-! ### FOR bounds -/

inductive BoundRole where
  | lower
  | upper
  | step
  deriving DecidableEq, Repr

/-- The interpreter names the bound that was NULL. -/
def BoundRole.nullError : BoundRole → ErrorData
  | .lower => ⟨errcodeNullValueNotAllowed, "lower bound of FOR loop cannot be null"⟩
  | .upper => ⟨errcodeNullValueNotAllowed, "upper bound of FOR loop cannot be null"⟩
  | .step => ⟨errcodeNullValueNotAllowed, "BY value of FOR loop cannot be null"⟩

def stepNotPositive : ErrorData :=
  ⟨errcodeInvalidParameterValue, "BY value of FOR loop must be greater than zero"⟩

/-- `uplpgsql_rt_eval_int` has one message for all of them. -/
def rtEvalIntNull : ErrorData :=
  ⟨errcodeNullValueNotAllowed, "NULL value not allowed for integer expression"⟩

/-- What the two executions rely on about FOUND: it is a variable of its own,
and releasing a portal or a subtransaction does not assign variables. An
environment in which FOUND cannot be observed at all satisfies this too. -/
structure Env.FoundLaws (env : Env W) : Prop where
  keep : ∀ w, env.getFound w = true → env.setFound true w = w
  set_set : ∀ b b' w, env.setFound b (env.setFound b' w) = env.setFound b w
  set_close : ∀ b kind id h w,
    env.setFound b (env.closePortal kind id h w) = env.closePortal kind id h (env.setFound b w)
  set_release : ∀ b w, env.setFound b (env.releaseSub w) = env.releaseSub (env.setFound b w)

end Uplpgsql
