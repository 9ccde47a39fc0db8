import Uplpgsql.Expr.Evaluation

/-!
# The frame of a function call

A function sees its arguments, the collation and, through `fn_expr`, the expression
that calls it. The executor gets all this from the planned tree, to which the planner
has added the defaults of the arguments that were left out. Tier 2 works on the tree
before planning, and has no `fn_expr`.
-/

namespace Uplpgsql

/-! ### Trees, and what the planner does to them -/

/-- Analysed expressions with the types and the variadic mark of their calls. Named
arguments are among the other nodes. -/
inductive CallExpr where
  | const (consttype : TypeOid) (constisnull : Bool) (constvalue : BitVec 64)
  | param (paramtype : TypeOid) (dno : Nat)
  | relabelType (resulttype : TypeOid) (arg : CallExpr)
  /-- An OpExpr or a FuncExpr. -/
  | call (isOp : Bool) (funcid : Fid) (resulttype : TypeOid) (funcvariadic : Bool) (inputcollid : Nat)
      (args : List CallExpr)
  | boolExpr (boolop : BoolExprType) (args : List CallExpr)
  | other (type : TypeOid)

namespace CallExpr

def exprType : CallExpr → TypeOid
  | .const ty _ _ => ty
  | .param ty _ => ty
  | .relabelType ty _ => ty
  | .call _ _ ty _ _ _ => ty
  | .boolExpr _ _ => .bool
  | .other ty => ty

mutual

/-- What the compiler looks at. -/
def toPgExpr : CallExpr → PgExpr
  | .const ty isnull v => .const ty isnull v
  | .param ty dno => .param true dno ty
  | .relabelType _ arg => .relabelType arg.toPgExpr
  | .call isOp funcid _ _ coll args =>
    if isOp then .opExpr funcid coll (toPgExprs args) else .funcExpr funcid coll (toPgExprs args)
  | .boolExpr op args => .boolExpr op (toPgExprs args)
  | .other _ => .other

def toPgExprs : List CallExpr → List PgExpr
  | [] => []
  | e :: es => e.toPgExpr :: toPgExprs es

end

end CallExpr

/-- A row of pg_proc. The defaults of built-in functions are constants, for the last
arguments. -/
structure Proc where
  proargtypes : List TypeOid
  proargdefaults : List (TypeOid × NullableDatum)

/-- The pseudo-type `any`, which is not polymorphic. -/
def anyOid : TypeOid := .other 2276

def Proc.overAny (proc : Proc) : Bool := decide (anyOid ∈ proc.proargtypes)

/-- The defaults for the arguments that are not there. -/
def Proc.missing (proc : Proc) (nargs : Nat) : List (TypeOid × NullableDatum) :=
  proc.proargdefaults.drop (proc.proargdefaults.length - (proc.proargtypes.length - nargs))

section Plan

variable (cat : Catalog) (procs : Fid → Proc)

/-- `add_function_defaults`. -/
def addFunctionDefaults (proc : Proc) (args : List CallExpr) : List CallExpr :=
  args ++ (proc.missing args.length).map fun d => .const d.1 d.2.isnull d.2.value

/-- A conversion that is folded, by the planner as by the compiler. -/
def foldedCall (isOp : Bool) (funcid : Fid) (args : List CallExpr) : Option NullableDatum :=
  if isOp then none else foldedNumeric funcid (CallExpr.toPgExprs args)

mutual

def CallExpr.plan : CallExpr → CallExpr
  | .relabelType ty arg => .relabelType ty arg.plan
  | .call isOp funcid ty var coll args =>
    match foldedCall isOp funcid args with
    | some c => .const .float8 c.isnull (if c.isnull then 0 else cat.numericFloat8 c.value)
    | none => .call isOp funcid ty var coll (addFunctionDefaults (procs funcid) (CallExpr.planAll args))
  | .boolExpr op args => .boolExpr op (CallExpr.planAll args)
  | .const ty isnull v => .const ty isnull v
  | .param ty dno => .param ty dno
  | .other ty => .other ty

def CallExpr.planAll : List CallExpr → List CallExpr
  | [] => []
  | e :: es => e.plan :: CallExpr.planAll es

end

end Plan

/-! ### Frames -/

/-- What `get_fn_expr_argtype` and `get_fn_expr_variadic` find. -/
structure CallSite where
  argtypes : List TypeOid
  funcvariadic : Bool
  deriving DecidableEq, Repr

/-- `FunctionCallInfoBaseData` with its `FmgrInfo`. A NULL argument has no value. -/
structure CallFrame where
  fn : Fid
  nargs : Nat
  fncollation : Nat
  args : List (Option (BitVec 64))
  fnExpr : Option CallSite
  deriving DecidableEq, Repr

def fmgrFrame (funcid : Fid) (collation : Nat) (ds : List NullableDatum) : CallFrame :=
  ⟨funcid, ds.length, collation, ds.map (·.toOption), none⟩

def execFrame (funcid : Fid) (collation : Nat) (funcvariadic : Bool) (args : List CallExpr)
    (ds : List NullableDatum) : CallFrame :=
  ⟨funcid, ds.length, collation, ds.map (·.toOption), some ⟨args.map (·.exprType), funcvariadic⟩⟩

section Run

-- The C functions, and the variables.
variable (fns : CallFrame → Except ErrorData NullableDatum) (cat : Catalog) (params : Nat → NullableDatum)

/-- The frames of the calls, in order, and the result. -/
abbrev FrameLog (α : Type) := List CallFrame × Except ErrorData α

/-- A strict function is not called on a NULL. -/
def invoke (fnStrict : Bool) (ds : List NullableDatum) (frame : CallFrame) : FrameLog NullableDatum :=
  if fnStrict && ds.any (·.isnull) then ([], .ok ⟨0, true⟩) else ([frame], fns frame)

def FrameLog.bind {α β : Type} (x : FrameLog α) (f : α → FrameLog β) : FrameLog β :=
  match x with
  | (frames, .ok a) => (frames ++ (f a).1, (f a).2)
  | (frames, .error err) => (frames, .error err)

mutual

def FmgrCode.frames : FmgrCode → FrameLog NullableDatum
  | .const d => ([], .ok d)
  | .load dno => ([], .ok (params dno))
  | .not arg => FrameLog.bind arg.frames fun d => ([], .ok ⟨boolDatum (!datumBit d), d.isnull⟩)
  | .fold isAnd args => FrameLog.bind (FmgrCode.framesArgs args) fun ds => ([], .ok (foldBool isAnd ds))
  | .call fnAddr fnStrict collation args =>
    FrameLog.bind (FmgrCode.framesArgs args) fun ds => invoke fns fnStrict ds (fmgrFrame fnAddr collation ds)

def FmgrCode.framesArgs : List FmgrCode → FrameLog (List NullableDatum)
  | [] => ([], .ok [])
  | code :: codes =>
    FrameLog.bind code.frames fun d => FrameLog.bind (FmgrCode.framesArgs codes) fun ds => ([], .ok (d :: ds))

end

-- What the executor does at nodes Tier 2 does not know.
variable (foreign : TypeOid → FrameLog NullableDatum)

mutual

/-- The executor, on a planned tree. -/
def CallExpr.frames : CallExpr → FrameLog NullableDatum
  | .const _ constisnull constvalue => ([], .ok ⟨constvalue, constisnull⟩)
  | .param _ dno => ([], .ok (params dno))
  | .relabelType _ arg => arg.frames
  | .call _ funcid _ funcvariadic collation args =>
    FrameLog.bind (CallExpr.framesArgs args) fun ds =>
      invoke fns (cat.fnStrict funcid) ds (execFrame funcid collation funcvariadic args ds)
  | .boolExpr .not args =>
    FrameLog.bind (CallExpr.framesArgs args) fun ds => ([], .ok (execNot ds))
  | .boolExpr .and args => CallExpr.framesBool true false args
  | .boolExpr .or args => CallExpr.framesBool false false args
  | .other ty => foreign ty

def CallExpr.framesArgs : List CallExpr → FrameLog (List NullableDatum)
  | [] => ([], .ok [])
  | e :: es => FrameLog.bind e.frames fun d => FrameLog.bind (CallExpr.framesArgs es) fun ds => ([], .ok (d :: ds))

/-- AND and OR stop at an operand that decides them. -/
def CallExpr.framesBool (isAnd : Bool) (anyNull : Bool) : List CallExpr → FrameLog NullableDatum
  | [] => ([], .ok (if anyNull then ⟨0, true⟩ else ⟨boolDatum isAnd, false⟩))
  | e :: es =>
    FrameLog.bind e.frames fun d =>
      if d.isnull then CallExpr.framesBool isAnd true es
      else if (d.value != 0) != isAnd then ([], .ok ⟨boolDatum !isAnd, false⟩)
      else CallExpr.framesBool isAnd anyNull es

end

end Run

/-! ### The calls of a tree -/

/-- A call, its arguments as they are written. -/
structure CallNode where
  funcid : Fid
  funcvariadic : Bool
  inputcollid : Nat
  args : List CallExpr

mutual

def CallExpr.calls : CallExpr → List CallNode
  | .relabelType _ arg => arg.calls
  | .call isOp funcid _ var coll args =>
    if (foldedCall isOp funcid args).isSome then []
    else CallExpr.callsAll args ++ [⟨funcid, var, coll, args⟩]
  | .boolExpr _ args => CallExpr.callsAll args
  | _ => []

def CallExpr.callsAll : List CallExpr → List CallNode
  | [] => []
  | e :: es => e.calls ++ CallExpr.callsAll es

end

mutual

/-- Without AND, OR and NOT. -/
def CallExpr.callsOnly : CallExpr → Bool
  | .relabelType _ arg => arg.callsOnly
  | .call _ _ _ _ _ args => CallExpr.allCallsOnly args
  | .boolExpr _ _ => false
  | _ => true

def CallExpr.allCallsOnly : List CallExpr → Bool
  | [] => true
  | e :: es => e.callsOnly && CallExpr.allCallsOnly es

end

section Agreement

variable (cat : Catalog) (procs : Fid → Proc)

/-- The same frame. Only a function that is declared over `any` needs the call
expression. -/
structure FrameAgrees (f g : CallFrame) : Prop where
  fn : f.fn = g.fn
  nargs : f.nargs = g.nargs
  collation : f.fncollation = g.fncollation
  args : f.args = g.args
  fnExpr : (procs f.fn).overAny = true → f.fnExpr = g.fnExpr

namespace CallNode

/-- Whatever the arguments are, Tier 2 builds the frame the executor builds. -/
def SameFrame (c : CallNode) : Prop :=
  ∀ ds : List NullableDatum, ds.length = c.args.length →
    FrameAgrees procs (fmgrFrame c.funcid c.inputcollid ds)
      (execFrame c.funcid c.inputcollid c.funcvariadic
        (addFunctionDefaults (procs c.funcid) (CallExpr.planAll cat procs c.args))
        (ds ++ ((procs c.funcid).missing c.args.length).map (·.2)))

/-- All declared arguments are there, and none of them is declared as `any`. -/
def Complete (c : CallNode) : Prop :=
  (procs c.funcid).proargtypes.length ≤ c.args.length ∧ (procs c.funcid).overAny = false

/-- Parse analysis finds the function: an argument that is not there has a default. -/
def Resolved (c : CallNode) : Prop :=
  (procs c.funcid).proargtypes.length ≤ c.args.length + (procs c.funcid).proargdefaults.length

end CallNode

variable {cat procs}

theorem Proc.missing_length {proc : Proc} {nargs : Nat}
    (resolved : proc.proargtypes.length ≤ nargs + proc.proargdefaults.length) :
    (proc.missing nargs).length = proc.proargtypes.length - nargs := by
  rw [Proc.missing, List.length_drop]
  omega

theorem Proc.missing_eq_nil {proc : Proc} {nargs : Nat} (complete : proc.proargtypes.length ≤ nargs) :
    proc.missing nargs = [] := by
  rw [Proc.missing, List.drop_eq_nil_iff]
  omega

/-- The frames are the same if and only if there is nothing to add, and nothing to
look up. -/
theorem CallNode.sameFrame_iff {c : CallNode} (resolved : c.Resolved procs) :
    c.SameFrame cat procs ↔ c.Complete procs := by
  constructor
  · intro same
    have agrees := same (List.replicate c.args.length ⟨0, true⟩) (List.length_replicate ..)
    have nargs := agrees.nargs
    simp only [fmgrFrame, execFrame, List.length_append, List.length_map,
      Proc.missing_length resolved] at nargs
    refine ⟨by omega, ?_⟩
    cases any : (procs c.funcid).overAny with
    | false => rfl
    | true =>
      have fnExpr := agrees.fnExpr any
      cases fnExpr
  · rintro ⟨complete, notAny⟩ ds length
    rw [Proc.missing_eq_nil complete, List.map_nil, List.append_nil]
    refine ⟨rfl, rfl, rfl, rfl, fun any => ?_⟩
    change (procs c.funcid).overAny = true at any
    rw [notAny] at any
    cases any

end Agreement

/-! ### Whole evaluations -/

section Evaluation

variable {procs : Fid → Proc} {α β γ δ : Type}

/-- The same calls and the same result, seen through `view`. -/
def LogsAgree (procs : Fid → Proc) (view : α → β) (x y : FrameLog α) : Prop :=
  List.Forall₂ (FrameAgrees procs) x.1 y.1 ∧ x.2.map view = y.2.map view

theorem LogsAgree.bind {view : α → β} {view' : γ → δ} {x y : FrameLog α} {f g : α → FrameLog γ}
    (agree : LogsAgree procs view x y) (next : ∀ a b, view a = view b → LogsAgree procs view' (f a) (g b)) :
    LogsAgree procs view' (FrameLog.bind x f) (FrameLog.bind y g) := by
  obtain ⟨framesx, resultx⟩ := x
  obtain ⟨framesy, resulty⟩ := y
  obtain ⟨frames, results⟩ := agree
  cases resultx with
  | error err =>
    cases resulty with
    | error err' =>
      cases results
      exact ⟨frames, rfl⟩
    | ok b => cases results
  | ok a =>
    cases resulty with
    | error err => cases results
    | ok b =>
      obtain ⟨frames', results'⟩ := next a b (Except.ok.inj results)
      exact ⟨List.rel_append frames frames', results'⟩

variable {fns : CallFrame → Except ErrorData NullableDatum} {frame frame' : CallFrame}

theorem invoke_agree (documented : ∀ f g, FrameAgrees procs f g → fns f = fns g) {fnStrict : Bool}
    {ds ds' : List NullableDatum} (same : ds.map (·.toOption) = ds'.map (·.toOption))
    (frames : FrameAgrees procs frame frame') :
    LogsAgree procs (·.toOption) (invoke fns fnStrict ds frame) (invoke fns fnStrict ds' frame') := by
  unfold invoke
  have nulls : ds.any (·.isnull) = ds'.any (·.isnull) := by
    rw [any_isnull_eq, any_isnull_eq, same]
  rw [nulls]
  split
  · exact ⟨.nil, rfl⟩
  · exact ⟨.cons frames .nil, by rw [documented frame frame' frames]⟩

variable {cat : Catalog} {params : Nat → NullableDatum} {foreign : TypeOid → FrameLog NullableDatum}

/-- A call whose arguments agree. -/
theorem call_agree (documented : ∀ f g, FrameAgrees procs f g → fns f = fns g) {c : CallNode} {isOp : Bool}
    {ty : TypeOid} {codes : List FmgrCode} (complete : c.Complete procs)
    (args : LogsAgree procs (List.map (·.toOption)) (FmgrCode.framesArgs fns params codes)
      (CallExpr.framesArgs fns cat params foreign (CallExpr.planAll cat procs c.args))) :
    LogsAgree procs (·.toOption)
      ((FmgrCode.call c.funcid (cat.fnStrict c.funcid) c.inputcollid codes).frames fns params)
      ((CallExpr.call isOp c.funcid ty c.funcvariadic c.inputcollid
        (addFunctionDefaults (procs c.funcid) (CallExpr.planAll cat procs c.args))).frames fns cat params foreign) := by
  have length : (CallExpr.planAll cat procs c.args).length = c.args.length := by
    generalize c.args = es
    induction es with
    | nil => rfl
    | cons e es ih => simp [CallExpr.planAll, ih]
  have nothing : addFunctionDefaults (procs c.funcid) (CallExpr.planAll cat procs c.args) =
      CallExpr.planAll cat procs c.args := by
    rw [addFunctionDefaults, length, Proc.missing_eq_nil complete.1, List.map_nil, List.append_nil]
  rw [nothing, FmgrCode.frames, CallExpr.frames]
  refine args.bind fun ds ds' same => invoke_agree documented same ⟨rfl, ?_, rfl, same, fun any => ?_⟩
  · simpa [fmgrFrame, execFrame] using congrArg List.length same
  · change (procs c.funcid).overAny = true at any
    rw [complete.2] at any
    cases any

mutual

theorem frames_agree (documented : ∀ f g, FrameAgrees procs f g → fns f = fns g) :
    ∀ (e : CallExpr) (code : FmgrCode), compileExprFmgrFull cat e.toPgExpr = some code →
      e.callsOnly = true → (∀ c ∈ e.calls, c.Complete procs) →
      LogsAgree procs (·.toOption) (code.frames fns params) ((e.plan cat procs).frames fns cat params foreign)
  | .const ty isnull v, code, compiled, _, _ => by
    cases compiled
    refine ⟨.nil, ?_⟩
    cases isnull <;> rfl
  | .param ty dno, code, compiled, _, _ => by
    cases compiled
    exact ⟨.nil, rfl⟩
  | .relabelType ty arg, code, compiled, only, complete => by
    rw [CallExpr.toPgExpr, compileExprFmgrFull] at compiled
    rw [CallExpr.plan, CallExpr.frames]
    exact frames_agree documented arg code compiled only complete
  | .call isOp funcid ty var coll args, code, compiled, only, complete => by
    have operands (codes : List FmgrCode) (compiledArgs : compileArgs cat (CallExpr.toPgExprs args) = some codes)
        (whole : foldedCall isOp funcid args = none) :
        LogsAgree procs (·.toOption) ((FmgrCode.call funcid (cat.fnStrict funcid) coll codes).frames fns params)
          (((CallExpr.call isOp funcid ty var coll args).plan cat procs).frames fns cat params foreign) := by
      have calls : (CallExpr.call isOp funcid ty var coll args).calls =
          CallExpr.callsAll args ++ [⟨funcid, var, coll, args⟩] := by
        simp [CallExpr.calls, whole]
      rw [calls] at complete
      have inner := framesArgs_agree documented args codes compiledArgs only
        fun c there => complete c (List.mem_append_left _ there)
      rw [CallExpr.plan, whole]
      exact call_agree documented (complete ⟨funcid, var, coll, args⟩ (by simp)) inner
    cases isOp with
    | true =>
      simp only [CallExpr.toPgExpr, if_true, compileExprFmgrFull] at compiled
      split at compiled
      · cases compiled
      · obtain ⟨codes, compiledArgs, rfl⟩ := Option.map_eq_some_iff.mp compiled
        exact operands codes compiledArgs rfl
    | false =>
      simp only [CallExpr.toPgExpr, Bool.false_eq_true, if_false, compileExprFmgrFull] at compiled
      cases folded : foldedNumeric funcid (CallExpr.toPgExprs args) with
      | some c =>
        have planned : foldedCall false funcid args = some c := folded
        rw [folded] at compiled
        cases compiled
        rw [CallExpr.plan, planned]
        exact ⟨.nil, rfl⟩
      | none =>
        rw [folded] at compiled
        simp only at compiled
        split at compiled
        · cases compiled
        · obtain ⟨codes, compiledArgs, rfl⟩ := Option.map_eq_some_iff.mp compiled
          exact operands codes compiledArgs folded
  | .boolExpr op args, code, compiled, only, complete => by cases only
  | .other ty, code, compiled, _, _ => by cases compiled

theorem framesArgs_agree (documented : ∀ f g, FrameAgrees procs f g → fns f = fns g) :
    ∀ (es : List CallExpr) (codes : List FmgrCode), compileArgs cat (CallExpr.toPgExprs es) = some codes →
      CallExpr.allCallsOnly es = true → (∀ c ∈ CallExpr.callsAll es, c.Complete procs) →
      LogsAgree procs (List.map (·.toOption)) (FmgrCode.framesArgs fns params codes)
        (CallExpr.framesArgs fns cat params foreign (CallExpr.planAll cat procs es))
  | [], codes, compiled, _, _ => by
    cases compiled
    exact ⟨.nil, rfl⟩
  | e :: es, codes, compiled, only, complete => by
    obtain ⟨code, rest, first, others, rfl⟩ := compileArgs_cons compiled
    obtain ⟨onlyFirst, onlyRest⟩ := Bool.and_eq_true_iff.mp only
    have head := frames_agree documented e code first onlyFirst
      fun c there => complete c (List.mem_append_left _ there)
    have tail := framesArgs_agree documented es rest others onlyRest
      fun c there => complete c (List.mem_append_right _ there)
    rw [FmgrCode.framesArgs, CallExpr.planAll, CallExpr.framesArgs]
    refine head.bind fun d d' same => tail.bind fun ds ds' rest => ⟨.nil, ?_⟩
    simp only [Except.map, List.map_cons, same, rest]

end

end Evaluation

/-- `jsonb_set` has four arguments, and `true` is the default of the last. `concat` is
declared over `any`, and not strict. -/
def someProcs : Fid → Proc
  | .int4pl => ⟨[.int4, .int4], []⟩
  | .int4abs => ⟨[.int4], []⟩
  | .other 3305 => ⟨[.other 3802, .other 1009, .other 3802, .bool], [(.bool, ⟨1, false⟩)]⟩
  | .other 3058 => ⟨[anyOid], []⟩
  | _ => ⟨[], []⟩

def someCatalog : Catalog := ⟨fun f => f ≠ .other 3058, fun _ => false, id⟩

/-- `abs(x + 1)`. -/
def absOfSum : CallExpr :=
  .call false .int4abs .int4 false 0 [.call true .int4pl .int4 false 0 [.param .int4 0, .const .int4 false 1]]

/-- `jsonb_set(j, p, v)`, without the last argument. -/
def jsonbSetShort : CallExpr :=
  .call false (.other 3305) (.other 3802) false 0 [.param (.other 3802) 0, .param (.other 1009) 1, .param (.other 3802) 2]

/-- `concat(a, b)`. -/
def concatTwo : CallExpr := .call false (.other 3058) (.other 25) false 100 [.param (.other 25) 0, .param .int4 1]

end Uplpgsql
