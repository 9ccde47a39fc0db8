import Uplpgsql.Expr.Nulls
import Uplpgsql.Expr.Fmgr
import Uplpgsql.Arrays.Native
import Uplpgsql.Lib.Iteration

/-!
# Variables declared NOT NULL

`exec_assign_value` refuses a NULL for a variable declared NOT NULL. The
assignments that `uplpgsql_try_compile_assign` compiles have stores of their
own, one for each way to compute the value, and none of them looks at the
declaration.
-/

namespace Uplpgsql

open Lib.Iteration Lib.Words

/-! ### Variables -/

structure VarDecl where
  refname : String
  typoid : TypeOid
  typbyval : Bool
  typisarray : Bool
  notnull : Bool
  hasDefault : Bool
  /-- The parser wants a default for NOT NULL. -/
  default_of_notnull : notnull = true → hasDefault = true

/-- The variables of a function, those whose arrays are native, and the arrays that
Datums point to. -/
structure VarEnv where
  decl : Nat → VarDecl
  natives : Nat → Option IntSize
  deref : BitVec 64 → ArrayDatum

structure VarWorld where
  vars : Nat → NullableDatum
  mirrors : Nat → Mirror
  /-- The variables of blocks that have been entered. -/
  initialised : Nat → Bool

def errNullNotAllowed (decl : VarDecl) : ErrorData :=
  ⟨errcodeNullValueNotAllowed,
    "null value cannot be assigned to variable \"" ++ decl.refname ++ "\" declared NOT NULL"⟩

section World

variable (env : VarEnv)

/-- The array of a variable. -/
def VarEnv.arrayOf (d : NullableDatum) : ArrayDatum := if d.isnull then .null else env.deref d.value

/-- What compiled expressions read. -/
def VarWorld.cells (w : VarWorld) (dno : Nat) : Cell :=
  if (env.decl dno).typisarray then .array (env.arrayOf (w.vars dno)) (w.mirrors dno)
  else .scalar (w.vars dno)

def VarWorld.setVar (w : VarWorld) (dno : Nat) (d : NullableDatum) : VarWorld :=
  { w with vars := fun k => if k = dno then d else w.vars k }

/-- `uplpgsql_emit_refresh_native_array`, after a whole Datum was stored. -/
def VarWorld.refresh (w : VarWorld) (dno : Nat) : VarWorld :=
  if (env.natives dno).isSome then
    { w with mirrors := fun k =>
        if k = dno then nativeArrayFromDatum false (env.arrayOf (w.vars dno)) else w.mirrors k }
  else w

end World

/-! ### Compiled assignments -/

/-- A computation of compiled code. -/
abbrev Fetch (α : Type) := VarWorld → Native ErrorData α

/-- The ways `uplpgsql_try_compile_assign` computes and stores a value. A test is
left out where nothing can be NULL. -/
inductive AssignCode where
  | tier1 (anyNull : Option (Fetch Bool)) (value : Fetch (BitVec 64))
  | tier2ByVal (value : Fetch NullableDatum)
  /-- `RT_COPY_ASSIGN_VAR_DATUM`; the form that ends an allocation scope stores the
  same. Whole arrays are copied here. -/
  | tier2ByRef (value : Fetch NullableDatum)
  /-- `x := a[i]` from a native array, and from another. -/
  | nativeGet (array : Nat) (idxIsnull : Option (Fetch Bool)) (idx : Fetch (BitVec 32))
  | arrayGet (array : Nat) (idxIsnull : Option (Fetch Bool)) (idx : Fetch (BitVec 32))

/-- A branch on a NULL test: `none` on the NULL edge. -/
def unlessNull {α : Type} (test : Option (Fetch Bool)) (value : Fetch α) (w : VarWorld) :
    Native ErrorData (Option α) :=
  match test with
  | none => do .ok (some (← value w))
  | some test => do if ← test w then .ok none else .ok (some (← value w))

/-- The bounds of a native array, as the read tests them. -/
def Mirror.outOfRange (m : Mirror) (i : BitVec 32) : Bool :=
  m.len.slt 0 || i.slt m.lb || (m.lb + m.len - 1).slt i

def Mirror.flagged (m : Mirror) (i : BitVec 32) : Bool :=
  (m.nulls.bind (·[(i - m.lb).toInt.toNat]?)).getD false

section Compiled

variable (env : VarEnv)

/-- The value as the variable gets it. The read of a native array does not look at
the flag of the element. -/
def AssignCode.stored (w : VarWorld) : AssignCode → Native ErrorData NullableDatum
  | .tier1 anyNull value => do .ok (storeVar (← unlessNull anyNull value w))
  | .tier2ByVal value => value w
  | .tier2ByRef value => do
    let d ← value w
    -- `datumCopy`, or `assign_simple_var(…, (Datum) 0, true, false)`.
    .ok (if d.isnull then .null else d)
  | .nativeGet array idxIsnull idx => do
    match ← unlessNull idxIsnull idx w with
    | none => .ok .null
    | some i =>
      if (w.mirrors array).outOfRange i then .ok .null
      else do .ok ⟨← emitNativeElem (w.mirrors array) i, false⟩
  | .arrayGet array idxIsnull idx => do
    match ← unlessNull idxIsnull idx w with
    | none => .ok .null
    | some i => .ok (arrayGetElement i (env.arrayOf (w.vars array)))

/-- The element that a native array is asked for is NULL. -/
def AssignCode.flagSet (w : VarWorld) : AssignCode → Bool
  | .nativeGet array idxIsnull idx =>
    match unlessNull idxIsnull idx w with
    | .ok (some i) => !(w.mirrors array).outOfRange i && (w.mirrors array).flagged i
    | _ => false
  | _ => false

/-- The value that is assigned is NULL. -/
def AssignCode.ValueNull (w : VarWorld) (code : AssignCode) : Prop :=
  ∃ d, code.stored env w = .ok d ∧ (d.isnull = true ∨ code.flagSet w = true)

/-- The assignment. -/
def AssignCode.exec (dno : Nat) (w : VarWorld) (code : AssignCode) : Native ErrorData Unit × VarWorld :=
  match code.stored env w with
  | .ok d => (.ok (), (w.setVar dno d).refresh env dno)
  | .raise edata => (.raise edata, w)
  | .undefined => (.undefined, w)

end Compiled

/-! ### Compiling an assignment -/

section Compile

variable (env : VarEnv) (cat : Catalog)
  (fns : Fid → Nat → List NullableDatum → Except ErrorData NullableDatum)

def Code.fetch {t : IrType} (c : Code t) : Fetch t.Val := fun w => c.run (w.cells env)

def FmgrCode.fetch (c : FmgrCode) : Fetch NullableDatum := fun w =>
  match (c.run fns w.vars).2 with
  | .ok d => .ok d
  | .error edata => .raise edata

/-- The assignment of a value to a scalar or a whole array, integers in Tier 1;
`none` goes to the interpreter. -/
def compileAssign (dno : Nat) (e : PgExpr) : Except Unhandled (Option AssignCode) := do
  match ← tryCompileAssign env.natives (env.decl dno).typoid e with
  | some code => .ok (some (.tier1 (code.anyNull.map (Code.fetch env)) (code.value.fetch env)))
  | none =>
    match tier2Compile cat e with
    | some code =>
      if (env.decl dno).typbyval then .ok (some (.tier2ByVal (code.fetch fns)))
      else .ok (some (.tier2ByRef (code.fetch fns)))
    | none =>
      match e with
      | .subscriptingRef _ (.param true array _) [idx] [] false =>
        if classifyExpr idx = .int4 then do
          let idxIsnull := (← tier1ExprAnyNull env.natives idx).map (Code.fetch env)
          let value := (← compileSubscript env.natives idx).fetch env
          if (env.natives array).isSome then .ok (some (.nativeGet array idxIsnull value))
          else .ok (some (.arrayGet array idxIsnull value))
        else .ok none
      | _ => .ok none

end Compile

/-! ### Runs -/

/-- The statements that assign variables. The interpreter's go through
`exec_assign_value`, also those of INTO and of a block's defaults. -/
inductive VarStmt where
  | compiled (dno : Nat) (code : AssignCode)
  | interpreted (dno : Nat) (value : VarWorld → Except ErrorData NullableDatum)
  /-- A variable of a block that is entered. -/
  | declare (dno : Nat) (value : VarWorld → Except ErrorData NullableDatum)
  /-- `assign_simple_var` of a FOR loop. -/
  | loopVar (dno : Nat) (v : BitVec 32)
  /-- An element of an array: the variable gets another array. -/
  | setElement (dno : Nat) (d : BitVec 64)

section Runs

variable (env : VarEnv)

/-- `exec_assign_value` for a scalar variable, of a value that is already cast. -/
def execAssignValue (dno : Nat) (d : NullableDatum) (w : VarWorld) : Native ErrorData Unit × VarWorld :=
  if d.isnull = true ∧ (env.decl dno).notnull = true then (.raise (errNullNotAllowed (env.decl dno)), w)
  else (.ok (), w.setVar dno (if d.isnull then .null else d))

/-- The interpreter evaluates and assigns. -/
def execAssignExpr (dno : Nat) (value : VarWorld → Except ErrorData NullableDatum) (w : VarWorld) :
    Native ErrorData Unit × VarWorld :=
  match value w with
  | .ok d => execAssignValue env dno d w
  | .error edata => (.raise edata, w)

def VarWorld.initialise (w : VarWorld) (dno : Nat) : VarWorld :=
  { w with initialised := fun k => k = dno || w.initialised k }

/-- The default of a variable, or NULL. -/
def execInitVar (dno : Nat) (value : VarWorld → Except ErrorData NullableDatum) (w : VarWorld) :
    Native ErrorData Unit × VarWorld :=
  if (env.decl dno).hasDefault then
    match execAssignExpr env dno value w with
    | (.ok (), w') => (.ok (), w'.initialise dno)
    | failed => failed
  else (.ok (), (w.setVar dno .null).initialise dno)

def VarStmt.exec (w : VarWorld) : VarStmt → Native ErrorData Unit × VarWorld
  | .compiled dno code => code.exec env dno w
  | .interpreted dno value => execAssignExpr env dno value w
  | .declare dno value => execInitVar env dno value w
  | .loopVar dno v => (.ok (), w.setVar dno ⟨v.signExtend 64, false⟩)
  | .setElement dno d => (.ok (), w.setVar dno ⟨d, false⟩)

/-- A statement after the one before it; an error that is caught leaves its world. -/
def VarWorld.next (w : VarWorld) (stmt : VarStmt) : VarWorld := (stmt.exec env w).2

/-- No variable declared NOT NULL is NULL once it is initialised. -/
def VarWorld.NotNull (w : VarWorld) : Prop :=
  ∀ dno, (env.decl dno).notnull = true → w.initialised dno = true → (w.vars dno).isnull = false

/-- A NULL for a variable declared NOT NULL is refused, and nothing is changed. -/
def VarStmt.Refuses (w : VarWorld) : VarStmt → Prop
  | .compiled dno code => (env.decl dno).notnull = true → code.ValueNull env w →
      code.exec env dno w = (.raise (errNullNotAllowed (env.decl dno)), w)
  | _ => True

/-- No NULL for a variable declared NOT NULL. -/
def VarStmt.HasValue (w : VarWorld) : VarStmt → Prop
  | .compiled dno code => (env.decl dno).notnull = true → ¬code.ValueNull env w
  | _ => True

end Runs

section Kept

variable {env : VarEnv} {w : VarWorld}

theorem VarWorld.NotNull.setVar (kept : w.NotNull env) {dno : Nat} {d : NullableDatum}
    (value : (env.decl dno).notnull = true → d.isnull = false) : (w.setVar dno d).NotNull env := by
  intro k declared initialised
  by_cases same : k = dno
  · subst same
    simpa [VarWorld.setVar] using value declared
  · simpa [VarWorld.setVar, same] using kept k declared initialised

theorem VarWorld.NotNull.refresh (kept : w.NotNull env) (dno : Nat) : (w.refresh env dno).NotNull env := by
  unfold VarWorld.refresh
  split
  · exact kept
  · exact kept

theorem execAssignExpr_kept (kept : w.NotNull env) (dno : Nat)
    (value : VarWorld → Except ErrorData NullableDatum) :
    (execAssignExpr env dno value w).2.NotNull env ∧
      ((execAssignExpr env dno value w).1 = .ok () → (env.decl dno).notnull = true →
        ((execAssignExpr env dno value w).2.vars dno).isnull = false) := by
  unfold execAssignExpr
  cases value w with
  | error edata => exact ⟨kept, nofun⟩
  | ok d =>
    dsimp only
    unfold execAssignValue
    split
    next => exact ⟨kept, nofun⟩
    next allowed =>
      have present : (env.decl dno).notnull = true → (if d.isnull then NullableDatum.null else d).isnull = false := by
        intro declared
        have notNull : d.isnull = false := by
          rw [← Bool.not_eq_true]
          exact fun null => allowed ⟨null, declared⟩
        rw [notNull]
        exact notNull
      refine ⟨kept.setVar present, fun _ declared => ?_⟩
      simpa [VarWorld.setVar] using present declared

theorem VarWorld.NotNull.initialise (kept : w.NotNull env) {dno : Nat}
    (value : (env.decl dno).notnull = true → (w.vars dno).isnull = false) :
    (w.initialise dno).NotNull env := by
  intro k declared initialised
  by_cases same : k = dno
  · subst same
    exact value declared
  · have before : w.initialised k = true := by simpa [VarWorld.initialise, same] using initialised
    exact kept k declared before

theorem execInitVar_kept (kept : w.NotNull env) (dno : Nat)
    (value : VarWorld → Except ErrorData NullableDatum) : (execInitVar env dno value w).2.NotNull env := by
  unfold execInitVar
  split
  next =>
    have assigned := execAssignExpr_kept kept dno value
    generalize execAssignExpr env dno value w = result at assigned
    obtain ⟨outcome, w'⟩ := result
    cases outcome with
    | ok => exact assigned.1.initialise (assigned.2 rfl)
    | raise edata => exact assigned.1
    | undefined => exact assigned.1
  next without =>
    -- A variable declared NOT NULL has a default.
    have nullable : (env.decl dno).notnull = true → False :=
      fun declared => without ((env.decl dno).default_of_notnull declared)
    exact (kept.setVar fun declared => (nullable declared).elim).initialise
      fun declared => (nullable declared).elim

theorem AssignCode.exec_kept (kept : w.NotNull env) {dno : Nat} {code : AssignCode}
    (value : (env.decl dno).notnull = true → ¬code.ValueNull env w) : (code.exec env dno w).2.NotNull env := by
  unfold AssignCode.exec
  cases result : code.stored env w with
  | raise edata => exact kept
  | undefined => exact kept
  | ok d =>
    refine VarWorld.NotNull.refresh (kept.setVar fun declared => ?_) dno
    rw [← Bool.not_eq_true]
    exact fun null => value declared ⟨d, result, .inl null⟩

/-- A statement keeps what is declared, unless it is a compiled assignment of NULL. -/
theorem VarStmt.next_kept (kept : w.NotNull env) {stmt : VarStmt} (value : stmt.HasValue env w) :
    (w.next env stmt).NotNull env := by
  cases stmt with
  | compiled dno code => exact code.exec_kept kept value
  | interpreted dno given => exact (execAssignExpr_kept kept dno given).1
  | declare dno given => exact execInitVar_kept kept dno given
  | loopVar dno v => exact kept.setVar fun _ => rfl
  | setElement dno d => exact kept.setVar fun _ => rfl

/-- A compiled assignment stores a NULL without an error. -/
theorem AssignCode.exec_of_valueNull {dno : Nat} {code : AssignCode} (null : code.ValueNull env w) :
    (code.exec env dno w).1 = .ok () := by
  obtain ⟨d, stored, -⟩ := null
  rw [AssignCode.exec, stored]

theorem VarStmt.refuses_iff (w : VarWorld) (stmt : VarStmt) : stmt.Refuses env w ↔ stmt.HasValue env w := by
  cases stmt with
  | compiled dno code =>
    constructor
    · intro refuses declared null
      have ok : (code.exec env dno w).1 = .ok () := AssignCode.exec_of_valueNull null
      rw [refuses declared null] at ok
      cases ok
    · intro value declared null
      exact absurd null (value declared)
  | interpreted | declare | loopVar | setElement => exact Iff.rfl

end Kept

/-- DECLARE y int; x int NOT NULL := 1. -/
def yAndX : VarEnv where
  decl dno :=
    if dno = 1 then ⟨"x", .int4, true, false, true, true, fun _ => rfl⟩
    else ⟨"y", .int4, true, false, false, false, nofun⟩
  natives _ := none
  deref _ := .null

/-- After the declarations, with the given value of y. -/
def yAndXStart (y : NullableDatum) : VarWorld where
  vars dno := if dno = 1 then ⟨1, false⟩ else y
  mirrors _ := .entry
  initialised _ := true

/-- x := y. -/
def xGetsY : AssignCode :=
  .tier1 (some (Code.fetch yAndX (.loadIsnull 0))) (Code.fetch yAndX (.sext (.truncInt (.loadDatum 0))))

end Uplpgsql
