import Mathlib.Algebra.Group.Nat.Defs
import Mathlib.Algebra.Ring.Int.Defs
import Mathlib.Data.List.Basic

/-!
# Statement trees

The statements of a function body as the parser leaves them
(`UPLpgSQL_stmt_*` in `common/upl_plpgsql.h`). Labels, datum numbers and
expressions are numbers: nothing in the control flow looks inside them. Every
statement that neither branches nor loops (assignments, SQL, RAISE, FETCH, ...)
is a `leaf`; what a leaf does is decided by the environment it runs in.
-/

namespace Uplpgsql

/-- One condition of a WHEN clause (`UPLpgSQL_condition`): OTHERS, or an error
code, which may stand for a whole category. -/
inductive Condition where
  | others
  | sqlstate (code : Nat)
  deriving DecidableEq, Repr

/-- The three row loops that are compiled natively: over a query, over a bound
cursor, and over a dynamic query. -/
inductive ForKind where
  | fors
  | forc
  | dynfors
  deriving DecidableEq, Repr

mutual

inductive Stmt where
  | leaf (id : Nat)
  | block (label : Option Nat) (initvars : List Nat) (body : Stmts)
  | blockExceptions (label : Option Nat) (initvars : List Nat) (body : Stmts)
      (exceptions : Exceptions)
  | cond (expr : Nat) (thenBody : Stmts) (elsifs : Whens) (elseBody : Stmts)
  | case (test : Option (Nat × Nat)) (whens : Whens) (haveElse : Bool) (elseStmts : Stmts)
  | condLoop (label : Option Nat) (expr : Nat) (testAtTop : Bool) (body : Stmts)
  | loop (label : Option Nat) (body : Stmts)
  | fori (label : Option Nat) (var : Nat) (lower upper : Nat) (step : Option Nat)
      (reverse : Bool) (body : Stmts)
  | forq (kind : ForKind) (label : Option Nat) (id : Nat) (body : Stmts)
  | foreachA (label : Option Nat) (id : Nat) (body : Stmts)
  | exit (isExit : Bool) (label : Option Nat) (cond : Option Nat)
  | ret (id : Nat)

/-- Statement lists. -/
inductive Stmts where
  | nil
  | cons (head : Stmt) (tail : Stmts)

/-- ELSIF clauses of an IF, or WHEN clauses of a CASE. -/
inductive Whens where
  | nil
  | cons (expr : Nat) (body : Stmts) (rest : Whens)

/-- The WHEN clauses of an EXCEPTION section. -/
inductive Exceptions where
  | nil
  | cons (conditions : List Condition) (action : Stmts) (rest : Exceptions)

end

namespace Exceptions

/-- The condition lists, in source order. -/
def conditions : Exceptions → List (List Condition)
  | .nil => []
  | .cons conds _ rest => conds :: conditions rest

end Exceptions

/-! ### Labels in scope -/

/-- What the compiler and the parser know about an enclosing construct that an
EXIT or CONTINUE may name: its label, and whether it is a loop or a block. -/
structure Scope where
  label : Option Nat
  isLoop : Bool
  deriving DecidableEq, Repr

/-- A jump without a label is for the innermost loop; one with a label is for
whatever carries that label. -/
def Scope.isTarget (scope : Scope) (label : Option Nat) : Bool :=
  match label with
  | none => scope.isLoop
  | some _ => scope.label == label

/-- The position of the construct a jump is for, innermost first. -/
def findTarget : List Scope → Option Nat → Option Nat
  | [], _ => none
  | scope :: rest, label =>
    if scope.isTarget label then some 0 else (findTarget rest label).map (· + 1)

/-- The parser's check of an EXIT or CONTINUE: the target exists, and CONTINUE
does not name a block. -/
def jumpResolves (scopes : List Scope) (isExit : Bool) (label : Option Nat) : Bool :=
  match findTarget scopes label with
  | none => false
  | some k => isExit || (scopes[k]?.map (·.isLoop)).getD false

/-- The label of a block joins the scope only if it has one. -/
def blockScope (label : Option Nat) (scopes : List Scope) : List Scope :=
  match label with
  | none => scopes
  | some _ => ⟨label, false⟩ :: scopes

mutual

/-- Every jump of the statement resolves, as the parser guarantees. -/
def Stmt.resolves (scopes : List Scope) : Stmt → Bool
  | .leaf _ => true
  | .block label _ body => body.resolves (blockScope label scopes)
  | .blockExceptions label _ body exceptions =>
    body.resolves (blockScope label scopes) && exceptions.resolves (blockScope label scopes)
  | .cond _ thenBody elsifs elseBody =>
    thenBody.resolves scopes && elsifs.resolves scopes && elseBody.resolves scopes
  | .case _ whens _ elseStmts => whens.resolves scopes && elseStmts.resolves scopes
  | .condLoop label _ _ body => body.resolves (⟨label, true⟩ :: scopes)
  | .loop label body => body.resolves (⟨label, true⟩ :: scopes)
  | .fori label _ _ _ _ _ body => body.resolves (⟨label, true⟩ :: scopes)
  | .forq _ label _ body => body.resolves (⟨label, true⟩ :: scopes)
  | .foreachA label _ body => body.resolves (⟨label, true⟩ :: scopes)
  | .exit isExit label _ => jumpResolves scopes isExit label
  | .ret _ => true

def Stmts.resolves (scopes : List Scope) : Stmts → Bool
  | .nil => true
  | .cons head tail => head.resolves scopes && tail.resolves scopes

def Whens.resolves (scopes : List Scope) : Whens → Bool
  | .nil => true
  | .cons _ body rest => body.resolves scopes && rest.resolves scopes

def Exceptions.resolves (scopes : List Scope) : Exceptions → Bool
  | .nil => true
  | .cons _ action rest => action.resolves scopes && rest.resolves scopes

end

/-! ### Fragments -/

/-- The constructs a statement tree may contain besides blocks without handlers,
branches, plain loops, integer FOR loops, jumps and RETURN. -/
structure Features where
  handlers : Bool
  rows : Bool
  foreach : Bool
  deriving DecidableEq, Repr

mutual

def Stmt.within (f : Features) : Stmt → Bool
  | .leaf _ => true
  | .block _ _ body => body.within f
  | .blockExceptions _ _ body exceptions => f.handlers && body.within f && exceptions.within f
  | .cond _ thenBody elsifs elseBody => thenBody.within f && elsifs.within f && elseBody.within f
  | .case _ whens _ elseStmts => whens.within f && elseStmts.within f
  | .condLoop _ _ _ body => body.within f
  | .loop _ body => body.within f
  | .fori _ _ _ _ _ _ body => body.within f
  | .forq _ _ _ body => f.rows && body.within f
  | .foreachA _ _ body => f.foreach && body.within f
  | .exit _ _ _ => true
  | .ret _ => true

def Stmts.within (f : Features) : Stmts → Bool
  | .nil => true
  | .cons head tail => head.within f && tail.within f

def Whens.within (f : Features) : Whens → Bool
  | .nil => true
  | .cons _ body rest => body.within f && rest.within f

def Exceptions.within (f : Features) : Exceptions → Bool
  | .nil => true
  | .cons _ action rest => action.within f && rest.within f

end

/-- No construct is ruled out. -/
def Features.all : Features := ⟨true, true, true⟩

mutual

theorem Stmt.within_all (st : Stmt) : st.within .all = true := by
  cases st with
  | block label initvars body => exact body.within_all
  | blockExceptions label initvars body exceptions =>
    rw [Stmt.within, body.within_all, exceptions.within_all]
    rfl
  | cond expr thenBody elsifs elseBody =>
    simp [Stmt.within, thenBody.within_all, elsifs.within_all, elseBody.within_all]
  | case test whens haveElse elseStmts =>
    simp [Stmt.within, whens.within_all, elseStmts.within_all]
  | condLoop label expr testAtTop body => exact body.within_all
  | loop label body => exact body.within_all
  | fori label var lower upper step reverse body => exact body.within_all
  | forq kind label id body => exact body.within_all
  | foreachA label id body => exact body.within_all
  | _ => rfl

theorem Stmts.within_all (ss : Stmts) : ss.within .all = true := by
  cases ss with
  | nil => rfl
  | cons head tail => simp [Stmts.within, head.within_all, tail.within_all]

theorem Whens.within_all (ws : Whens) : ws.within .all = true := by
  cases ws with
  | nil => rfl
  | cons expr body rest => simp [Whens.within, body.within_all, rest.within_all]

theorem Exceptions.within_all (es : Exceptions) : es.within .all = true := by
  cases es with
  | nil => rfl
  | cons conditions action rest => simp [Exceptions.within, action.within_all, rest.within_all]

end

end Uplpgsql
