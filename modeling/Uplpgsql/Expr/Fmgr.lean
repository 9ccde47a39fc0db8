import Uplpgsql.Expr.Tree
import Uplpgsql.Env
import Mathlib.Data.List.Basic

/-!
# Tier 2: calling built-in functions directly

An expression over variables and constants whose functions are all built in is
compiled to direct calls of the C functions. The function pointers are resolved
at compile time. Nothing asks whether the user may execute them; the executor
asks when it initialises an expression.
-/

namespace Uplpgsql

mutual

def canFmgrCompile : PgExpr → Bool
  | .const _ _ _ => true
  | .param external _ _ => external
  | .relabelType arg => canFmgrCompile arg
  | .opExpr opfuncid _ args =>
    !opfuncid.isInvalid && !opfuncid.isUserDefined && canFmgrCompileAll args
  | .funcExpr funcid _ args => !funcid.isInvalid && !funcid.isUserDefined && canFmgrCompileAll args
  | .boolExpr _ args => canFmgrCompileAll args
  | .subscriptingRef _ _ _ _ _ => false
  | .other => false

def canFmgrCompileAll : List PgExpr → Bool
  | [] => true
  | e :: es => canFmgrCompile e && canFmgrCompileAll es

end

/-- What the compiler looks up about functions. -/
structure Catalog where
  fnStrict : Fid → Bool
  /-- Whether an argument or the result has a polymorphic type. -/
  hasPoly : Fid → Bool
  /-- `numeric_float8` of a constant, evaluated at compile time. -/
  numericFloat8 : BitVec 64 → BitVec 64

/-- The emitted code. `call` has the resolved function pointer; its argument
slots are filled from left to right. -/
inductive FmgrCode where
  | const (d : NullableDatum)
  | load (dno : Nat)
  | not (arg : FmgrCode)
  | fold (isAnd : Bool) (args : List FmgrCode)
  | call (fnAddr : Fid) (fnStrict : Bool) (collation : Nat) (args : List FmgrCode)
  deriving Repr

/-- float8 of a numeric constant, which is folded at compile time. -/
def foldedNumeric : Fid → List PgExpr → Option NullableDatum
  | .float8Numeric, .const _ constisnull constvalue :: _ => some ⟨constvalue, constisnull⟩
  | _, _ => none

section Compile

variable (cat : Catalog)

mutual

/-- `none` sends the expression to Tier 3. -/
def compileExprFmgrFull : PgExpr → Option FmgrCode
  | .const _ constisnull constvalue =>
    some (.const ⟨if constisnull then 0 else constvalue, constisnull⟩)
  | .param _ dno _ => some (.load dno)
  | .relabelType arg => compileExprFmgrFull arg
  | .boolExpr .not [arg] => (compileExprFmgrFull arg).map .not
  | .boolExpr .not _ => none
  | .boolExpr .and args => (compileArgs args).map (.fold true)
  | .boolExpr .or args => (compileArgs args).map (.fold false)
  | .opExpr funcid collation args =>
    if cat.hasPoly funcid then none
    else (compileArgs args).map (.call funcid (cat.fnStrict funcid) collation)
  | .funcExpr funcid collation args =>
    match foldedNumeric funcid args with
    | some c => some (.const ⟨if c.isnull then 0 else cat.numericFloat8 c.value, c.isnull⟩)
    | none =>
      if cat.hasPoly funcid then none
      else (compileArgs args).map (.call funcid (cat.fnStrict funcid) collation)
  | .subscriptingRef _ _ _ _ _ => none
  | .other => none

def compileArgs : List PgExpr → Option (List FmgrCode)
  | [] => some []
  | e :: es =>
    match compileExprFmgrFull e, compileArgs es with
    | some code, some codes => some (code :: codes)
    | _, _ => none

end

/-- An assignment, a condition and the value of an array element all come here
the same way. -/
def tier2Compile (e : PgExpr) : Option FmgrCode :=
  if canFmgrCompile e then compileExprFmgrFull cat e else none

end Compile

/-! ### Running the code -/

/-- A boolean Datum is true if its lowest bit is set. -/
def datumBit (d : NullableDatum) : Bool := d.value.getLsbD 0

def boolDatum (b : Bool) : BitVec 64 := if b then 1 else 0

/-- AND and OR with SQL's three-valued logic: an input that is not NULL may decide
the result on its own. -/
def foldBool (isAnd : Bool) (ds : List NullableDatum) : NullableDatum :=
  let anyNull := ds.any (·.isnull)
  let decided := ds.any fun d => !d.isnull && (datumBit d != isAnd)
  let result := if isAnd then ds.all datumBit else ds.any datumBit
  ⟨boolDatum result, anyNull && !decided⟩

section Run

-- The C functions, which may raise, and the variables.
variable (fns : Fid → Nat → List NullableDatum → Except ErrorData NullableDatum)
  (params : Nat → NullableDatum)

mutual

/-- The functions that are called, in order, and the result. -/
def FmgrCode.run : FmgrCode → List Fid × Except ErrorData NullableDatum
  | .const d => ([], .ok d)
  | .load dno => ([], .ok (params dno))
  | .not arg =>
    match arg.run with
    | (calls, .ok d) => (calls, .ok ⟨boolDatum (!datumBit d), d.isnull⟩)
    | (calls, .error e) => (calls, .error e)
  | .fold isAnd args =>
    match FmgrCode.runArgs args with
    | (calls, .ok ds) => (calls, .ok (foldBool isAnd ds))
    | (calls, .error e) => (calls, .error e)
  | .call fnAddr fnStrict collation args =>
    match FmgrCode.runArgs args with
    | (calls, .ok ds) =>
      if fnStrict && ds.any (·.isnull) then (calls, .ok ⟨0, true⟩)
      else (calls ++ [fnAddr], fns fnAddr collation ds)
    | (calls, .error e) => (calls, .error e)

def FmgrCode.runArgs : List FmgrCode → List Fid × Except ErrorData (List NullableDatum)
  | [] => ([], .ok [])
  | code :: codes =>
    match code.run with
    | (calls, .error e) => (calls, .error e)
    | (calls, .ok d) =>
      match FmgrCode.runArgs codes with
      | (more, .ok ds) => (calls ++ more, .ok (d :: ds))
      | (more, .error e) => (calls ++ more, .error e)

end

end Run

/-! ### The functions of a tree -/

mutual

/-- The functions the code of a tree can call, arguments first. -/
def PgExpr.functions : PgExpr → List Fid
  | .relabelType arg => arg.functions
  | .boolExpr _ args => PgExpr.functionsAll args
  | .opExpr funcid _ args => PgExpr.functionsAll args ++ [funcid]
  | .funcExpr funcid _ args =>
    if (foldedNumeric funcid args).isSome then [] else PgExpr.functionsAll args ++ [funcid]
  | _ => []

def PgExpr.functionsAll : List PgExpr → List Fid
  | [] => []
  | e :: es => e.functions ++ PgExpr.functionsAll es

end

mutual

def PgExpr.hasNullConst : PgExpr → Bool
  | .const _ constisnull _ => constisnull
  | .relabelType arg => arg.hasNullConst
  | .boolExpr _ args | .opExpr _ _ args | .funcExpr _ _ args => PgExpr.anyHasNullConst args
  | _ => false

def PgExpr.anyHasNullConst : List PgExpr → Bool
  | [] => false
  | e :: es => e.hasNullConst || PgExpr.anyHasNullConst es

end

/-! ### Privileges -/

/-- An evaluation completes only if the user holds EXECUTE on every function it
calls, whatever the functions do and whatever the variables hold. -/
def PrivilegesEnforced (execute : Fid → Bool) (code : FmgrCode) : Prop :=
  ∀ fns params calls d, code.run fns params = (calls, .ok d) → ∀ f ∈ calls, execute f = true

theorem compileArgs_cons {cat : Catalog} {e : PgExpr} {es : List PgExpr} {codes : List FmgrCode}
    (compiled : compileArgs cat (e :: es) = some codes) :
    ∃ code rest, compileExprFmgrFull cat e = some code ∧ compileArgs cat es = some rest ∧
      codes = code :: rest := by
  simp only [compileArgs] at compiled
  split at compiled
  next code rest first others =>
    cases compiled
    exact ⟨code, rest, first, others, rfl⟩
  next => cases compiled

theorem foldedNumeric_notNull {funcid : Fid} {args : List PgExpr} {c : NullableDatum}
    (folded : foldedNumeric funcid args = some c) (noNull : PgExpr.anyHasNullConst args = false) :
    c.isnull = false := by
  unfold foldedNumeric at folded
  split at folded
  next =>
    cases folded
    simp only [PgExpr.anyHasNullConst, PgExpr.hasNullConst, Bool.or_eq_false_iff] at noNull
    exact noNull.1
  next => cases folded

section Calls

variable {cat : Catalog} (fns : Fid → Nat → List NullableDatum → Except ErrorData NullableDatum)
  (params : Nat → NullableDatum)

/-- Calls of the arguments are calls of the whole. -/
theorem run_call_subset {fnAddr : Fid} {fnStrict : Bool} {collation : Nat} {codes : List FmgrCode}
    {fs : List Fid} (args : (FmgrCode.runArgs fns params codes).1 ⊆ fs) :
    ((FmgrCode.call fnAddr fnStrict collation codes).run fns params).1 ⊆ fs ++ [fnAddr] := by
  simp only [FmgrCode.run]
  generalize FmgrCode.runArgs fns params codes = r at args ⊢
  obtain ⟨calls, result⟩ := r
  cases result with
  | error e => exact List.Subset.trans args (List.subset_append_left _ _)
  | ok ds =>
    dsimp only
    split
    · exact List.Subset.trans args (List.subset_append_left _ _)
    · exact List.append_subset.mpr ⟨List.Subset.trans args (List.subset_append_left _ _),
        List.subset_append_right _ _⟩

mutual

/-- Compiled code calls functions of the tree only. -/
theorem run_subset (e : PgExpr) (code : FmgrCode) (compiled : compileExprFmgrFull cat e = some code) :
    (code.run fns params).1 ⊆ e.functions := by
  match e with
  | .const _ _ _ | .param _ _ _ =>
    cases compiled
    exact List.nil_subset _
  | .relabelType arg =>
    simp only [compileExprFmgrFull] at compiled
    simp only [PgExpr.functions]
    exact run_subset arg code compiled
  | .boolExpr .not [arg] =>
    simp only [compileExprFmgrFull, Option.map_eq_some_iff] at compiled
    obtain ⟨inner, compiled, rfl⟩ := compiled
    have calls := run_subset arg inner compiled
    simp only [FmgrCode.run, PgExpr.functions, PgExpr.functionsAll, List.append_nil]
    split
    next eq => rwa [eq] at calls
    next eq => rwa [eq] at calls
  | .boolExpr .not [] | .boolExpr .not (_ :: _ :: _) => simp [compileExprFmgrFull] at compiled
  | .boolExpr .and args | .boolExpr .or args =>
    simp only [compileExprFmgrFull, Option.map_eq_some_iff] at compiled
    obtain ⟨codes, compiled, rfl⟩ := compiled
    have calls := runArgs_subset args codes compiled
    simp only [FmgrCode.run, PgExpr.functions]
    split
    next eq => rwa [eq] at calls
    next eq => rwa [eq] at calls
  | .opExpr funcid collation args =>
    simp only [compileExprFmgrFull] at compiled
    split at compiled
    · cases compiled
    · obtain ⟨codes, inner, rfl⟩ := Option.map_eq_some_iff.mp compiled
      simp only [PgExpr.functions]
      exact run_call_subset fns params (runArgs_subset args codes inner)
  | .funcExpr funcid collation args =>
    simp only [compileExprFmgrFull] at compiled
    simp only [PgExpr.functions]
    cases folded : foldedNumeric funcid args with
    | some c =>
      rw [folded] at compiled
      cases compiled
      exact List.nil_subset _
    | none =>
      rw [folded] at compiled
      dsimp only at compiled
      split at compiled
      · cases compiled
      · obtain ⟨codes, inner, rfl⟩ := Option.map_eq_some_iff.mp compiled
        exact run_call_subset fns params (runArgs_subset args codes inner)
  | .subscriptingRef _ _ _ _ _ | .other => simp [compileExprFmgrFull] at compiled

theorem runArgs_subset (es : List PgExpr) (codes : List FmgrCode)
    (compiled : compileArgs cat es = some codes) :
    (FmgrCode.runArgs fns params codes).1 ⊆ PgExpr.functionsAll es := by
  match es with
  | [] =>
    cases compiled
    exact List.nil_subset _
  | e :: es =>
    obtain ⟨code, rest, first, others, rfl⟩ := compileArgs_cons compiled
    have head := run_subset e code first
    have tail := runArgs_subset es rest others
    simp only [FmgrCode.runArgs, PgExpr.functionsAll]
    generalize code.run fns params = r at head ⊢
    generalize FmgrCode.runArgs fns params rest = r' at tail ⊢
    obtain ⟨calls, _ | d⟩ := r
    · exact List.Subset.trans head (List.subset_append_left _ _)
    · obtain ⟨more, _ | ds⟩ := r'
      all_goals exact List.append_subset.mpr ⟨List.Subset.trans head (List.subset_append_left _ _),
        List.Subset.trans tail (List.subset_append_right _ _)⟩

end

end Calls

/-! Without NULLs every function of the tree is called. -/

section NoNulls

variable {cat : Catalog} {fns : Fid → Nat → List NullableDatum → Except ErrorData NullableDatum}
  {params : Nat → NullableDatum}

/-- The functions always return something and the variables are all set. -/
structure Calm (fns : Fid → Nat → List NullableDatum → Except ErrorData NullableDatum)
    (params : Nat → NullableDatum) : Prop where
  total : ∀ fn collation ds, ∃ d, fns fn collation ds = .ok d ∧ d.isnull = false
  assigned : ∀ dno, (params dno).isnull = false

theorem foldBool_notNull (isAnd : Bool) {ds : List NullableDatum} (notNull : ds.any (·.isnull) = false) :
    (foldBool isAnd ds).isnull = false := by
  simp [foldBool, notNull]

/-- A call whose arguments are all there is made. -/
theorem run_call_total (calm : Calm fns params) {fnAddr : Fid} {fnStrict : Bool} {collation : Nat} {codes : List FmgrCode}
    {fs : List Fid} {ds : List NullableDatum}
    (args : FmgrCode.runArgs fns params codes = (fs, .ok ds)) (notNull : ds.any (·.isnull) = false) :
    ∃ d, (FmgrCode.call fnAddr fnStrict collation codes).run fns params = (fs ++ [fnAddr], .ok d) ∧
      d.isnull = false := by
  obtain ⟨d, result, dNotNull⟩ := calm.total fnAddr collation ds
  refine ⟨d, ?_, dNotNull⟩
  simp [FmgrCode.run, args, notNull, result]

mutual

theorem run_total (calm : Calm fns params) (e : PgExpr) (code : FmgrCode) (compiled : compileExprFmgrFull cat e = some code)
    (noNull : e.hasNullConst = false) :
    ∃ d, code.run fns params = (e.functions, .ok d) ∧ d.isnull = false := by
  match e with
  | .const _ constisnull constvalue =>
    cases compiled
    exact ⟨_, rfl, noNull⟩
  | .param _ dno _ =>
    cases compiled
    exact ⟨params dno, rfl, calm.assigned dno⟩
  | .relabelType arg =>
    simp only [compileExprFmgrFull] at compiled
    simp only [PgExpr.functions]
    exact run_total calm arg code compiled (by simpa [PgExpr.hasNullConst] using noNull)
  | .boolExpr .not [arg] =>
    simp only [compileExprFmgrFull, Option.map_eq_some_iff] at compiled
    obtain ⟨inner, compiled, rfl⟩ := compiled
    simp only [PgExpr.hasNullConst, PgExpr.anyHasNullConst, Bool.or_false] at noNull
    obtain ⟨d, run, notNull⟩ := run_total calm arg inner compiled noNull
    simp only [FmgrCode.run, run, PgExpr.functions, PgExpr.functionsAll, List.append_nil]
    exact ⟨_, rfl, notNull⟩
  | .boolExpr .not [] | .boolExpr .not (_ :: _ :: _) => simp [compileExprFmgrFull] at compiled
  | .boolExpr .and args | .boolExpr .or args =>
    simp only [compileExprFmgrFull, Option.map_eq_some_iff] at compiled
    obtain ⟨codes, compiled, rfl⟩ := compiled
    obtain ⟨ds, run, notNull⟩ :=
      runArgs_total calm args codes compiled (by simpa [PgExpr.hasNullConst] using noNull)
    simp only [FmgrCode.run, run, PgExpr.functions]
    exact ⟨_, rfl, foldBool_notNull _ notNull⟩
  | .opExpr funcid collation args =>
    simp only [compileExprFmgrFull] at compiled
    split at compiled
    · cases compiled
    · obtain ⟨codes, inner, rfl⟩ := Option.map_eq_some_iff.mp compiled
      obtain ⟨ds, run, notNull⟩ :=
        runArgs_total calm args codes inner (by simpa [PgExpr.hasNullConst] using noNull)
      simp only [PgExpr.functions]
      exact run_call_total calm run notNull
  | .funcExpr funcid collation args =>
    simp only [compileExprFmgrFull] at compiled
    simp only [PgExpr.functions]
    have inArgs : PgExpr.anyHasNullConst args = false := by simpa [PgExpr.hasNullConst] using noNull
    cases folded : foldedNumeric funcid args with
    | some c =>
      rw [folded] at compiled
      have notNull := foldedNumeric_notNull folded inArgs
      cases compiled
      exact ⟨_, rfl, notNull⟩
    | none =>
      rw [folded] at compiled
      dsimp only at compiled
      split at compiled
      · cases compiled
      · obtain ⟨codes, inner, rfl⟩ := Option.map_eq_some_iff.mp compiled
        obtain ⟨ds, run, notNull⟩ := runArgs_total calm args codes inner inArgs
        exact run_call_total calm run notNull
  | .subscriptingRef _ _ _ _ _ | .other => simp [compileExprFmgrFull] at compiled

theorem runArgs_total (calm : Calm fns params) (es : List PgExpr) (codes : List FmgrCode)
    (compiled : compileArgs cat es = some codes) (noNull : PgExpr.anyHasNullConst es = false) :
    ∃ ds, FmgrCode.runArgs fns params codes = (PgExpr.functionsAll es, .ok ds) ∧
      ds.any (·.isnull) = false := by
  match es with
  | [] =>
    cases compiled
    exact ⟨[], rfl, rfl⟩
  | e :: es =>
    obtain ⟨code, rest, first, others, rfl⟩ := compileArgs_cons compiled
    simp only [PgExpr.anyHasNullConst, Bool.or_eq_false_iff] at noNull
    obtain ⟨d, run, notNull⟩ := run_total calm e code first noNull.1
    obtain ⟨ds, runs, notNulls⟩ := runArgs_total calm es rest others noNull.2
    simp only [FmgrCode.runArgs, run, runs, PgExpr.functionsAll]
    exact ⟨d :: ds, rfl, by simp [notNull, notNulls]⟩

end

end NoNulls

/-- Tier 2 code enforces the privileges of a user who holds EXECUTE on every
function of the tree. In a tree without NULL constants it does so for no other
user. -/
theorem tier2_privileges {cat : Catalog} {e : PgExpr} {code : FmgrCode}
    (compiled : tier2Compile cat e = some code) (execute : Fid → Bool) :
    ((∀ f ∈ e.functions, execute f = true) → PrivilegesEnforced execute code) ∧
      (e.hasNullConst = false → PrivilegesEnforced execute code →
        ∀ f ∈ e.functions, execute f = true) := by
  unfold tier2Compile at compiled
  split at compiled
  next =>
    refine ⟨fun holds fns params calls d run f member => ?_, fun noNull enforced => ?_⟩
    · have subset := run_subset fns params e code compiled
      rw [run] at subset
      exact holds f (subset member)
    · -- Functions that always return something, on variables that are all set.
      have completes : ∃ d, code.run (fun _ _ _ => .ok ⟨0, false⟩) (fun _ => ⟨0, false⟩) =
          (e.functions, .ok d) ∧ d.isnull = false :=
        run_total ⟨fun _ _ _ => ⟨_, rfl, rfl⟩, fun _ => rfl⟩ e code compiled noNull
      obtain ⟨d, run, -⟩ := completes
      exact enforced _ _ _ d run
  next => cases compiled

/-- Every function is strict and none is polymorphic. -/
def Catalog.plain : Catalog := ⟨fun _ => true, fun _ => false, id⟩

/-- `pg_read_file` of a variable. Its EXECUTE privilege is revoked from PUBLIC. -/
def readFile : PgExpr := .funcExpr (.other 2624) 0 [.param true 0 (.other 25)]

theorem readFile_granted :
    PrivilegesEnforced (fun _ => true) (.call (.other 2624) true 0 [.load 0]) := by
  have compiled : tier2Compile .plain readFile = some (.call (.other 2624) true 0 [.load 0]) := rfl
  exact (tier2_privileges compiled _).1 fun _ _ => rfl

/-- It is called for a user without the privilege. -/
theorem readFile_not_enforced :
    ¬∀ (cat : Catalog) (e : PgExpr) (code : FmgrCode), tier2Compile cat e = some code →
      ∀ execute, PrivilegesEnforced execute code := by
  intro enforced
  have held := enforced .plain readFile (.call (.other 2624) true 0 [.load 0]) rfl
    (fun _ => false) (fun _ _ _ => .ok ⟨0, false⟩) (fun _ => ⟨0, false⟩) [.other 2624] ⟨0, false⟩ rfl
    (.other 2624) (by simp)
  cases held

end Uplpgsql
