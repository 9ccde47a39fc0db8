import Uplpgsql.Env
import Uplpgsql.Lib.Objects

/-!
# Expanded objects in assignments

A variable may hold an expanded object. Where the variable is also an input of
the expression that is assigned to it, `exec_check_rw_parameter` looks for one
reference that may hand the object over to be modified; all other references
only lend it. The choice is made when the variable is first found to hold such
an object, and is kept in the steps of the compiled expression.
-/

namespace Uplpgsql.ReadWrite

open Lib

/-! ### Expressions -/

/-- What is called at a node of an expression. -/
inductive Routine where
  | func (funcid : Nat)
  | subscriptFetch (container : Nat)
  | subscriptAssign (container : Nat)
  deriving DecidableEq, Repr

mutual

/-- A simple expression. A Param is known by its node and by the datum it refers
to. -/
inductive Expr (V : Type) where
  | const (value : Option V)
  | param (node dno : Nat)
  | funcExpr (funcid : Nat) (args : Exprs V)
  | opExpr (opfuncid : Nat) (args : Exprs V)
  | relabelType (arg : Expr V)
  | subscriptFetch (container : Nat) (refexpr : Expr V) (subscripts : Exprs V)
  | subscriptAssign (container : Nat) (refexpr : Expr V) (subscripts : Exprs V)
      (refassgnexpr : Expr V)
  | caseExpr (cond result defresult : Expr V)

inductive Exprs (V : Type) where
  | nil
  | cons (head : Expr V) (tail : Exprs V)

end

variable {V E : Type}

def Exprs.toList : Exprs V → List (Expr V)
  | .nil => []
  | .cons head tail => head :: tail.toList

mutual

/-- The Params of an expression, node and datum, in the order of
`expression_tree_walker`: the subscripts come before what is subscripted. -/
def Expr.params : Expr V → List (Nat × Nat)
  | .const _ => []
  | .param node dno => [(node, dno)]
  | .funcExpr _ args => args.params
  | .opExpr _ args => args.params
  | .relabelType arg => arg.params
  | .subscriptFetch _ refexpr subscripts => subscripts.params ++ refexpr.params
  | .subscriptAssign _ refexpr subscripts refassgnexpr =>
    subscripts.params ++ (refexpr.params ++ refassgnexpr.params)
  | .caseExpr cond result defresult => cond.params ++ (result.params ++ defresult.params)

def Exprs.params : Exprs V → List (Nat × Nat)
  | .nil => []
  | .cons head tail => head.params ++ tail.params

end

/-- The function that decides at the top level, with its arguments; there may be
one RelabelType above. -/
def Expr.topFunction (typsubscript : Nat → Nat) : Expr V → Option (Nat × List (Option (Expr V)))
  | .funcExpr funcid args => some (funcid, args.toList.map some)
  | .opExpr opfuncid args => some (opfuncid, args.toList.map some)
  | .subscriptFetch container refexpr _ => some (typsubscript container, [some refexpr, none])
  | .subscriptAssign container refexpr _ refassgnexpr =>
    some (typsubscript container, [some refexpr, some refassgnexpr])
  | _ => none

/-! ### Walking an expression -/

/-- What is done at the nodes of an expression, with states `S` and results `R`. -/
structure Interpretation (V S R : Type) where
  const : Option V → R
  param : Nat → Nat → S → R × S
  call : Routine → List R → S → Except ErrorData R × S
  isTrue : R → S → Bool

section Interpret

variable {S R : Type} (I : Interpretation V S R)

mutual

/-- `ExecEvalExpr`: the arguments are evaluated first, in their order; what is
subscripted comes before the subscripts. -/
def Expr.interpret : Expr V → S → Except ErrorData R × S
  | .const value, s => (.ok (I.const value), s)
  | .param node dno, s =>
    let o := I.param node dno s
    (.ok o.1, o.2)
  | .funcExpr funcid args, s =>
    match args.interpret s with
    | (.error e, s) => (.error e, s)
    | (.ok rs, s) => I.call (.func funcid) rs s
  | .opExpr opfuncid args, s =>
    match args.interpret s with
    | (.error e, s) => (.error e, s)
    | (.ok rs, s) => I.call (.func opfuncid) rs s
  | .relabelType arg, s => arg.interpret s
  | .subscriptFetch container refexpr subscripts, s =>
    match refexpr.interpret s with
    | (.error e, s) => (.error e, s)
    | (.ok r, s) =>
      match subscripts.interpret s with
      | (.error e, s) => (.error e, s)
      | (.ok rs, s) => I.call (.subscriptFetch container) (r :: rs) s
  | .subscriptAssign container refexpr subscripts refassgnexpr, s =>
    match refexpr.interpret s with
    | (.error e, s) => (.error e, s)
    | (.ok r, s) =>
      match subscripts.interpret s with
      | (.error e, s) => (.error e, s)
      | (.ok rs, s) =>
        match refassgnexpr.interpret s with
        | (.error e, s) => (.error e, s)
        | (.ok r', s) => I.call (.subscriptAssign container) (r :: (rs ++ [r'])) s
  | .caseExpr cond result defresult, s =>
    match cond.interpret s with
    | (.error e, s) => (.error e, s)
    | (.ok r, s) => if I.isTrue r s then result.interpret s else defresult.interpret s

def Exprs.interpret : Exprs V → S → Except ErrorData (List R) × S
  | .nil, s => (.ok [], s)
  | .cons head tail, s =>
    match head.interpret s with
    | (.error e, s) => (.error e, s)
    | (.ok r, s) =>
      match tail.interpret s with
      | (.error e, s) => (.error e, s)
      | (.ok rs, s) => (.ok (r :: rs), s)

end

end Interpret

/-! ### What is given -/

/-- `UPLpgSQL_type`, as far as assigning to a variable looks at it. -/
structure VarDecl where
  refname : String
  /-- `typlen = -1` -/
  varlena : Bool
  typbyval : Bool
  typisarray : Bool
  notnull : Bool
  byval_fixed : varlena = true → typbyval = false
  deriving DecidableEq, Repr

structure Performed (V E : Type) where
  result : Except ErrorData (Ref V)
  heap : Objects V
  ext : E

/-- The functions of the system, as what they mean and as what they do with
objects, and the catalogs. `E` is the rest of the world. -/
structure Executor (V E : Type) where
  decl : Nat → VarDecl
  meaning : Routine → List (Option V) → E → Except ErrorData (Option V) × E
  impl : Routine → List (Ref V) → Objects V → E → Performed V E
  /-- No function frees what it did not make. -/
  impl_alive : ∀ routine args h ext a, h a ≠ none → (impl routine args h ext).heap a ≠ none
  isTrue : V → Bool
  /-- The support function of a function: which Param it may be given to modify,
  of those of its arguments that refer to the datum. -/
  prosupport : Nat → Option (List (Option (Expr V)) → Nat → Option Nat)
  typsubscript : Nat → Nat

/-- `UPLpgSQL_expr`, for an assignment. `cast` converts the value to the type of
the target, if it has another. -/
structure PlExpr (V : Type) where
  simpleExpr : Expr V
  targetParam : Nat
  targetIsLocal : Bool
  cast : Option Routine

/-! ### The choice -/

inductive RwOpt where
  | unknown
  | nope
  | transfer
  | inplace
  deriving DecidableEq, Repr

structure CountContext where
  count : Nat
  lastParam : Option Nat
  deriving DecidableEq, Repr

mutual

/-- `count_param_references`; the result says whether the walk was cut off, at
the second reference. -/
def countParamReferences (dno : Nat) : Expr V → CountContext → Bool × CountContext
  | .const _, context => (false, context)
  | .param node dno', context =>
    if dno' = dno then (context.count + 1 > 1, ⟨context.count + 1, some node⟩) else (false, context)
  | .funcExpr _ args, context => countAll dno args context
  | .opExpr _ args, context => countAll dno args context
  | .relabelType arg, context => countParamReferences dno arg context
  | .subscriptFetch _ refexpr subscripts, context =>
    match countAll dno subscripts context with
    | (true, context) => (true, context)
    | (false, context) => countParamReferences dno refexpr context
  | .subscriptAssign _ refexpr subscripts refassgnexpr, context =>
    match countAll dno subscripts context with
    | (true, context) => (true, context)
    | (false, context) =>
      match countParamReferences dno refexpr context with
      | (true, context) => (true, context)
      | (false, context) => countParamReferences dno refassgnexpr context
  | .caseExpr cond result defresult, context =>
    match countParamReferences dno cond context with
    | (true, context) => (true, context)
    | (false, context) =>
      match countParamReferences dno result context with
      | (true, context) => (true, context)
      | (false, context) => countParamReferences dno defresult context

def countAll (dno : Nat) : Exprs V → CountContext → Bool × CountContext
  | .nil, context => (false, context)
  | .cons head tail, context =>
    match countParamReferences dno head context with
    | (true, context) => (true, context)
    | (false, context) => countAll dno tail context

end

section Choice

variable (env : Executor V E) (expr : PlExpr V)

/-- The top-level function is asked whether it can modify the object in place. -/
def checkTopLevel (sexpr : Expr V) : RwOpt × Option Nat :=
  match sexpr.topFunction env.typsubscript with
  | none => (.nope, none)
  | some (funcid, fargs) =>
    match env.prosupport funcid with
    | none => (.nope, none)
    | some supports =>
      match supports fargs expr.targetParam with
      | none => (.nope, none)
      | some param => (.inplace, some param)

def checkInPlace : RwOpt × Option Nat :=
  match expr.simpleExpr with
  | .relabelType arg => checkTopLevel env expr arg
  | sexpr => checkTopLevel env expr sexpr

/-- `exec_check_rw_parameter`: `expr_rwopt` and `expr_rw_param`. -/
def execCheckRwParameter : RwOpt × Option Nat :=
  let context := (countParamReferences expr.targetParam expr.simpleExpr ⟨0, none⟩).2
  if expr.targetIsLocal ∧ context.count = 1 then (.transfer, context.lastParam)
  else checkInPlace env expr

end Choice

/-! ### The steps of the compiled expression -/

/-- The callback of an `EEOP_PARAM_CALLBACK` step. -/
inductive ParamFunc where
  | evalVar
  | evalVarRo
  | evalVarCheck
  | evalVarTransfer
  deriving DecidableEq, Repr

/-- `uplpgsql_param_compile`. -/
def paramCompile (env : Executor V E) (expr : PlExpr V) (dno : Nat) : ParamFunc :=
  if (env.decl dno).varlena then
    if dno = expr.targetParam then .evalVarCheck else .evalVarRo
  else .evalVar

/-- What an expression remembers from one evaluation to the next: the choice, and
the callbacks that have been replaced. -/
structure Link where
  rwopt : RwOpt
  rwParam : Option Nat
  paramfunc : Nat → Option ParamFunc

def Link.choose (link : Link) (node : Nat) (func : ParamFunc) : Link :=
  { link with paramfunc := Function.update link.paramfunc node (some func) }

/-! ### The world -/

/-- Whose memory an object is in. -/
inductive Owner where
  | variable
  | eval
  | caller
  deriving DecidableEq, Repr

structure Var (V : Type) where
  value : Ref V
  freeval : Bool

structure World (V E : Type) where
  vars : Nat → Var V
  heap : Objects V
  owner : Nat → Owner
  ext : E

structure EvalState (V E : Type) extends World V E where
  link : Link

namespace World

def setVar (w : World V E) (dno : Nat) (var : Var V) : World V E :=
  { w with vars := Function.update w.vars dno var }

def setOwner (w : World V E) (a : Nat) (o : Owner) : World V E :=
  { w with owner := Function.update w.owner a o }

/-- The SQL value of a variable. -/
def value (w : World V E) (dno : Nat) : Option V := ((w.vars dno).value.read w.heap).getD none

/-- After a call: what was not there before is in the memory of the evaluation. -/
def afterCall (w : World V E) (heap : Objects V) (ext : E) : World V E :=
  { w with heap, ext, owner := fun a => if (w.heap a).isNone then .eval else w.owner a }

/-- `exec_eval_cleanup`. -/
def evalCleanup (w : World V E) : World V E :=
  { w with heap := w.heap.restrict fun a => w.owner a != .eval }

end World

/-! ### Evaluation -/

section Evaluation

variable (env : Executor V E) (expr : PlExpr V)

/-- `uplpgsql_param_eval_var_transfer`. -/
def evalVarTransfer (dno : Nat) (s : EvalState V E) : Ref V × EvalState V E :=
  match (s.vars dno).value with
  | .rw a => (.rw a, { s with toWorld := (s.setOwner a .eval).setVar dno ⟨.null, false⟩ })
  | r => (r, s)

/-- What happens when a Param is found to refer to an object that could be handed
over. -/
def evalChosen (node dno a : Nat) (s : EvalState V E) : Ref V × EvalState V E :=
  match s.link.rwopt with
  | .unknown => (.ro a, s)
  | .nope => (.ro a, { s with link := s.link.choose node .evalVarRo })
  | .transfer => evalVarTransfer dno { s with link := s.link.choose node .evalVarTransfer }
  | .inplace =>
    if s.link.rwParam = some node then (.rw a, { s with link := s.link.choose node .evalVar })
    else (.ro a, { s with link := s.link.choose node .evalVarRo })

/-- The choice is made once. -/
def decide (link : Link) : Link :=
  if link.rwopt = .unknown then
    { link with rwopt := (execCheckRwParameter env expr).1
                rwParam := (execCheckRwParameter env expr).2 }
  else link

/-- `uplpgsql_param_eval_var_check`. -/
def evalVarCheck (node dno : Nat) (s : EvalState V E) : Ref V × EvalState V E :=
  match (s.vars dno).value with
  | .rw a => evalChosen node dno a { s with link := decide env expr s.link }
  | r => (r, s)

def evalParam (node dno : Nat) (s : EvalState V E) : Ref V × EvalState V E :=
  match (s.link.paramfunc node).getD (paramCompile env expr dno) with
  | .evalVar => ((s.vars dno).value, s)
  | .evalVarRo => ((s.vars dno).value.readOnly, s)
  | .evalVarTransfer => evalVarTransfer dno s
  | .evalVarCheck => evalVarCheck env expr node dno s

/-- A function is called in the memory of the evaluation. -/
def call (routine : Routine) (args : List (Ref V)) (s : EvalState V E) :
    Except ErrorData (Ref V) × EvalState V E :=
  let o := env.impl routine args s.heap s.ext
  (o.result, { s with toWorld := s.afterCall o.heap o.ext })

/-- Is the reference to a value that is true? -/
def holds (r : Ref V) (heap : Objects V) : Bool :=
  match r.read heap with
  | some (some v) => env.isTrue v
  | _ => false

def evaluation : Interpretation V (EvalState V E) (Ref V) where
  const := .ofValue
  param := evalParam env expr
  call := call env
  isTrue r s := holds env r s.heap

/-! ### Assignment -/

/-- `exec_cast_value`. -/
def execCastValue (r : Ref V) (s : EvalState V E) : Except ErrorData (Ref V) × EvalState V E :=
  match expr.cast with
  | none => (.ok r, s)
  | some routine => call env routine [r] s

/-- `expand_array`: the object is made in the memory of the variables. -/
def expandArray (v : V) (w : World V E) : Ref V × World V E :=
  (.rw w.heap.next, { w with heap := w.heap.alloc v }.setOwner w.heap.next .variable)

/-- A copy of the value, or the object itself, in the memory of the variables. A
value of fixed length is never an object. -/
def newValue (decl : VarDecl) (r : Ref V) (w : World V E) : Ref V × World V E :=
  if decl.varlena then
    match r with
    | .null => (.null, w)
    | .rw a => (r, w.setOwner a .variable)
    | .flat v => if decl.typisarray then expandArray v w else (.flat v, w)
    | .ro a =>
      match w.heap a with
      | none => (.null, w)
      | some v => if decl.typisarray then expandArray v w else (.flat v, w)
  else (.ofValue ((r.read w.heap).getD none), w)

/-- `assign_simple_var`: the old object goes, if it is the variable's. -/
def assignSimpleVar (dno : Nat) (var : Var V) (w : World V E) : World V E :=
  match (w.vars dno).freeval, (w.vars dno).value with
  | true, .rw a => { w with heap := w.heap.free a }.setVar dno var
  | _, _ => w.setVar dno var

/-- Is it the object that is there already? -/
def sameObject : Ref V → Ref V → Bool
  | .rw a, .rw b => a == b
  | _, _ => false

def isNull : Ref V → Bool
  | .null => true
  | _ => false

def nullValueNotAllowed (decl : VarDecl) : ErrorData :=
  ⟨errcodeNullValueNotAllowed,
    "null value cannot be assigned to variable \"" ++ decl.refname ++ "\" declared NOT NULL"⟩

/-- The end of `exec_assign_value`: the variable lets go of its old value, unless
that is the new one. -/
def install (decl : VarDecl) (dno : Nat) (value : Ref V) (w : World V E) : World V E :=
  if sameObject (w.vars dno).value value then w
  else assignSimpleVar dno ⟨value, !decl.typbyval && !isNull value⟩ w

def storeValue (dno : Nat) (r : Ref V) (w : World V E) : World V E :=
  install (env.decl dno) dno (newValue (env.decl dno) r w).1 (newValue (env.decl dno) r w).2

/-- `exec_assign_expr`. After an error the memory of the evaluation is left for
whoever catches it. -/
def execAssignExpr (s : EvalState V E) : Except ErrorData Unit × EvalState V E :=
  match expr.simpleExpr.interpret (evaluation env expr) s with
  | (.error e, s) => (.error e, s)
  | (.ok r, s) =>
    match execCastValue env expr r s with
    | (.error e, s) => (.error e, s)
    | (.ok r, s) =>
      if isNull r && (env.decl expr.targetParam).notnull then
        (.error (nullValueNotAllowed (env.decl expr.targetParam)), s)
      else (.ok (), { s with toWorld := (storeValue env expr.targetParam r s.toWorld).evalCleanup })

end Evaluation

end Uplpgsql.ReadWrite
