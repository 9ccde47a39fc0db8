import Uplpgsql.Lib.Traced
import Uplpgsql.Expr.Tree
import Uplpgsql.Syntax

/-!
# What compiling leaves in the function

The compiler has expressions analysed against the datums of the function itself,
which every later call copies, and puts temporary headers into its records. What
the parser asks for, and whether any other part of the compiler raises an error,
is decided outside. Only the fields of the function that are written are state.
-/

namespace Uplpgsql.Shared

open Lib

/-! ### The function -/

/-- `UPLpgSQL_datum`, as far as its type is asked for. -/
inductive DatumDecl where
  | var (typoid : Nat)
  | row
  /-- `rectypeid`, `none` for RECORD. -/
  | record (rectypeid : Option Nat)
  | recfield (recparentno fieldname : Nat)
  deriving DecidableEq, Repr

/-- The statements that have an expression compiled, besides the branches. -/
inductive LeafStmt where
  | assign (varno expr : Nat)
  | assert (cond : Nat)
  | other
  deriving DecidableEq, Repr

/-- What the compiler reads of a `UPLpgSQL_function`. -/
structure FunctionTree where
  datums : Nat → DatumDecl
  leaf : Nat → LeafStmt
  /-- The variable and the query of a FOR loop over a query. -/
  fors : Nat → Nat × Nat
  action : Stmt

inductive EstateRef where
  | null
  | running (id : Nat)
  /-- The state on the compiler's stack that analysis runs with. -/
  | fake
  deriving DecidableEq, Repr

/-- A query after its analysis. -/
structure Plan where
  /-- The expression, if the query is nothing else. -/
  expr : Option PgExpr
  /-- The tuple descriptor of its rows. -/
  resultDesc : Option Nat

/-- What the compiler writes of a `UPLpgSQL_function`: a header is known by its
tuple descriptor. -/
structure FuncState where
  erh : Nat → Option Nat
  curEstate : EstateRef
  plan : Nat → Option Plan

/-! ### The surroundings -/

/-- The analysis of a query: the types it asks the hooks for, going by the
answers, until it has a plan or raises an error of its own. -/
inductive Parsing where
  | done (plan : Plan)
  | error
  | param (dno : Nat) (next : Option Nat → Parsing)

/-- The other work of the compiler, by its occasion. -/
inductive Task where
  | setup
  | enter (stmt : Stmt)
  | leave (stmt : Stmt)
  /-- Code for an expression, or the answer that there is none. -/
  | assign (varno : Nat) (e : PgExpr)
  | condition (e : PgExpr)
  /-- The call of the interpreter in its place. -/
  | execAssign (varno expr : Nat)
  | rtEvalBool (expr : Nat)
  | makeRecord (desc : Nat)
  | finish

structure Surroundings (σ : Type) where
  /-- `SPI_prepare_extended`, by expression. -/
  parse : Nat → Parsing
  /-- The tuple descriptor of a composite type, as the type cache has it. -/
  rowType : Nat → Option Nat
  /-- `er_typeid` of a header. -/
  descType : Nat → Option Nat
  fieldType : Nat → Nat → Option (Option Nat)
  /-- What the compiler does to the module it builds; it reads the headers, and
  may raise. -/
  work : Task → (Nat → Option Nat) → σ → Option (Bool × σ)
  start : σ

structure CompileWorld (σ : Type) extends FuncState where
  /-- The records whose header is the temporary one of a loop that is being
  compiled, innermost first: `installed_erh` of `uplpgsql_compile_fors`. -/
  installed : List Nat
  rest : σ

/-- What a compilation does that may matter to the function. -/
inductive CompileStep where
  | paramType (dno : Nat)
  | raise
  deriving DecidableEq, Repr

/-- A part of the compilation: its steps, each with the world it is taken in. An
error leaves the world as it is. -/
abbrev Pass (σ : Type) := Traced (CompileWorld σ) Unit (CompileWorld σ × CompileStep)

variable {σ : Type}

namespace CompileWorld

def setErh (w : CompileWorld σ) (dno : Nat) (header : Option Nat) : CompileWorld σ :=
  { w with erh := Function.update w.erh dno header }

def setPlan (w : CompileWorld σ) (expr : Nat) (plan : Option Plan) : CompileWorld σ :=
  { w with plan := Function.update w.plan expr plan }

end CompileWorld

/-! ### The compiler -/

namespace Pass

def read {α : Type} (f : CompileWorld σ → α) : Pass σ α := fun w => ⟨[], .ok (f w), w⟩

def change (f : CompileWorld σ → CompileWorld σ) : Pass σ Unit := fun w => ⟨[], .ok (), f w⟩

def fail {α : Type} : Pass σ α := fun w => ⟨[], .error (), w⟩

end Pass

section Compiler

variable (env : Surroundings σ) (fn : FunctionTree)

/-- The header to look a field up in: that of a composite variable without one is
made now. -/
def fieldOwner (w : CompileWorld σ) (recparentno : Nat) : Option (Nat × CompileWorld σ) :=
  match w.erh recparentno with
  | some desc => some (desc, w)
  | none =>
    match fn.datums recparentno with
    | .record (some typid) => (env.rowType typid).map fun desc => (desc, w.setErh recparentno desc)
    | _ => none

/-- `uplpgsql_exec_get_datum_type_info`. -/
def datumTypeInfo (dno : Nat) (w : CompileWorld σ) : Except Unit (Option Nat) × CompileWorld σ :=
  match fn.datums dno with
  | .var typoid => (.ok (some typoid), w)
  | .row => (.error (), w)
  | .record (some typid) => (.ok (some typid), w)
  | .record none => (.ok ((w.erh dno).bind env.descType), w)
  | .recfield recparentno fieldname =>
    match fieldOwner env fn w recparentno with
    | none => (.error (), w)
    | some (desc, w') =>
      match env.fieldType desc fieldname with
      | none => (.error (), w')
      | some ty => (.ok ty, w')

/-- `make_datum_param`. -/
def makeDatumParam (dno : Nat) : Pass σ (Option Nat) := fun w =>
  Traced.event (w, .paramType dno) (datumTypeInfo env fn dno) w

def Parsing.run : Parsing → Pass σ Plan
  | .done plan => pure plan
  | .error => Pass.fail
  | .param dno next => makeDatumParam env fn dno >>= fun ty => (next ty).run

/-- The analysis under the fake state, in a `PG_TRY`: an error is no plan. -/
def prepareExtended (expr : Nat) : Pass σ (Option Plan) := fun w =>
  let o := (env.parse expr).run env fn { w with curEstate := .fake }
  ⟨o.trace, .ok o.result.toOption, { o.world with curEstate := w.curEstate }⟩

def prepareAndGetExpr (expr : Nat) : Pass σ (Option PgExpr) := do
  match ← Pass.read fun w => w.plan expr with
  | some plan => pure plan.expr
  | none =>
    match ← prepareExtended env fn expr with
    | none => pure none
    | some plan => do
      Pass.change fun w => w.setPlan expr plan
      pure plan.expr

def perform (task : Task) : Pass σ Bool := fun w =>
  match env.work task w.erh w.rest with
  | some (done, rest) => ⟨[], .ok done, { w with rest := rest }⟩
  | none => ⟨[(w, .raise)], .error (), w⟩

def doTask (task : Task) : Pass σ Unit := do
  let _ ← perform env task
  pure ()

def clearPlan (expr : Nat) : Pass σ Unit := Pass.change fun w => w.setPlan expr none

def tryCompileAssign (varno expr : Nat) : Pass σ Bool :=
  match fn.datums varno with
  | .var _ => do
    match ← prepareAndGetExpr env fn expr with
    | none => pure false
    | some e => perform env (.assign varno e)
  | _ => pure false

def compileAssign (varno expr : Nat) : Pass σ Unit := do
  if ← tryCompileAssign env fn varno expr then pure ()
  else do
    doTask env (.execAssign varno expr)
    clearPlan expr

def codeForCondition (expr : Nat) (e : PgExpr) : Pass σ Bool := do
  if ← perform env (.condition e) then pure true
  else do
    clearPlan expr
    pure false

/-- The conditions of a simple CASE are not planned. -/
def tryCompileBool (deferCondPlan : Bool) (expr : Nat) : Pass σ Bool :=
  if deferCondPlan then pure false
  else do
    match ← prepareAndGetExpr env fn expr with
    | none => pure false
    | some e => codeForCondition env expr e

def evalBool (deferCondPlan : Bool) (expr : Nat) : Pass σ Unit := do
  if ← tryCompileBool env fn deferCondPlan expr then pure () else doTask env (.rtEvalBool expr)

/-- The rows of the query, where the loop's record is to have a header of them. -/
def temporaryDesc (dno query : Nat) : Pass σ (Option Nat) :=
  match fn.datums dno with
  | .record none => do
    if ← Pass.read fun w => (w.erh dno).isSome || (w.plan query).isSome then pure none
    else
      match ← prepareExtended env fn query with
      | none => pure none
      | some plan => do
        Pass.change fun w => w.setPlan query plan
        match plan.resultDesc with
        | none => pure none
        | some desc => do
          doTask env (.makeRecord desc)
          pure (some desc)
  | _ => pure none

def installErh (dno desc : Nat) : Pass σ Unit :=
  Pass.change fun w => { w.setErh dno desc with installed := dno :: w.installed }

def restoreErh (dno : Nat) (saved : Option Nat) : Pass σ Unit :=
  Pass.change fun w => { w.setErh dno saved with installed := w.installed.tail }

/-- The body of a loop whose record has the header for as long as it is compiled.
Nothing restores the record if the body raises. -/
def withTemporary (dno desc : Nat) (body : Pass σ Unit) : Pass σ Unit := do
  let saved ← Pass.read fun w => w.erh dno
  installErh dno desc
  body
  restoreErh dno saved

def compileFors (dno query : Nat) (body : Pass σ Unit) : Pass σ Unit := do
  match ← temporaryDesc env fn dno query with
  | none => body
  | some desc => withTemporary dno desc body

def compileLeaf : LeafStmt → Pass σ Unit
  | .assign varno expr => compileAssign env fn varno expr
  | .assert cond => evalBool env fn false cond
  | .other => pure ()

def compileExitCond : Option Nat → Pass σ Unit
  | some expr => evalBool env fn false expr
  | none => pure ()

/-- A statement's own code. -/
def around (stmt : Stmt) (parts : Pass σ Unit) : Pass σ Unit := do
  doTask env (.enter stmt)
  parts
  doTask env (.leave stmt)

mutual

/-- `uplpgsql_compile_stmt`, in the order in which it comes to the expressions. The body
of a FOREACH is left to the interpreter. -/
def compileStmt : Stmt → Pass σ Unit
  | .leaf id => around env (.leaf id) (compileLeaf env fn (fn.leaf id))
  | .block label initvars body => around env (.block label initvars body) (compileStmts body)
  | .blockExceptions label initvars body exceptions =>
    around env (.blockExceptions label initvars body exceptions) do
      compileStmts body
      compileExceptions exceptions
  | .cond expr thenBody elsifs elseBody =>
    around env (.cond expr thenBody elsifs elseBody) do
      evalBool env fn false expr
      compileStmts thenBody
      compileWhens false elsifs
      compileStmts elseBody
  | .case test whens haveElse elseStmts =>
    around env (.case test whens haveElse elseStmts) do
      compileWhens test.isSome whens
      if haveElse then compileStmts elseStmts else pure ()
  | .condLoop label expr testAtTop body =>
    around env (.condLoop label expr testAtTop body)
      (if testAtTop then do
        evalBool env fn false expr
        compileStmts body
      else do
        compileStmts body
        evalBool env fn false expr)
  | .loop label body => around env (.loop label body) (compileStmts body)
  | .fori label var lower upper step reverse body =>
    around env (.fori label var lower upper step reverse body) (compileStmts body)
  | .forq .fors label id body =>
    around env (.forq .fors label id body)
      (compileFors env fn (fn.fors id).1 (fn.fors id).2 (compileStmts body))
  | .forq .forc label id body => around env (.forq .forc label id body) (compileStmts body)
  | .forq .dynfors label id body => around env (.forq .dynfors label id body) (compileStmts body)
  | .foreachA label id body => around env (.foreachA label id body) (pure ())
  | .exit isExit label cond => around env (.exit isExit label cond) (compileExitCond env fn cond)
  | .ret id => around env (.ret id) (pure ())

def compileStmts : Stmts → Pass σ Unit
  | .nil => pure ()
  | .cons head tail => do
    compileStmt head
    compileStmts tail

def compileWhens (deferCondPlan : Bool) : Whens → Pass σ Unit
  | .nil => pure ()
  | .cons expr body rest => do
    evalBool env fn deferCondPlan expr
    compileStmts body
    compileWhens deferCondPlan rest

def compileExceptions : Exceptions → Pass σ Unit
  | .nil => pure ()
  | .cons _ action rest => do
    compileStmts action
    compileExceptions rest

end

/-- `uplpgsql_compile_function`. -/
def compilePass : Pass σ Unit := do
  doTask env .setup
  compileStmt env fn fn.action
  doTask env .finish

end Compiler

end Uplpgsql.Shared
