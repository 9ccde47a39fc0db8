import Uplpgsql.Env
import Uplpgsql.Lib.Traced

/-!
# ASSERT

`uplpgsql_compile_assert` evaluates the condition in compiled code, whatever
`check_asserts` says, and on failure calls `uplpgsql_rt_exec_assert`, which hands
the whole statement to `exec_stmt_assert`. Evaluations are events of a trace, so
that their number can be compared.
-/

namespace Uplpgsql

variable {σ : Type}

inductive Evaluated where
  | cond
  | message
  deriving DecidableEq, Repr

/-- The two expressions of the statement. A condition and the text of a message
may be NULL, raise, and change the world. -/
structure AssertStmt (σ : Type) where
  cond : σ → Except ErrorData (Option Bool) × σ
  message : Option (σ → Except ErrorData (Option String) × σ)

abbrev Asserting (σ : Type) := Lib.Traced σ ErrorData Evaluated

def ereport (edata : ErrorData) : Asserting σ Unit := fun w => ⟨[], .error edata, w⟩

/-- Reading a setting is no evaluation. -/
def readSetting (setting : σ → Bool) : Asserting σ Bool := fun w => ⟨[], .ok (setting w), w⟩

def assertFailure (text : Option String) : ErrorData :=
  ⟨errcodeAssertFailure, text.getD "assertion failed"⟩

/-- The end of `exec_stmt_assert`: the message is evaluated and the error raised. -/
def AssertStmt.fail (stmt : AssertStmt σ) : Asserting σ Unit :=
  match stmt.message with
  | none => ereport (assertFailure none)
  | some message => do
    let text ← Lib.Traced.event .message message
    ereport (assertFailure text)

/-- `checkAsserts` is `uplpgsql_check_asserts`, a setting that may change at run
time. -/
def execStmtAssert (checkAsserts : σ → Bool) (stmt : AssertStmt σ) : Asserting σ Unit := do
  if ← readSetting checkAsserts then
    let value ← Lib.Traced.event .cond stmt.cond
    if isTrue value then pure () else stmt.fail
  else
    -- Nothing is done when asserts are not enabled.
    pure ()

/-- `uplpgsql_rt_eval_bool`: NULL counts as false. -/
def rtEvalBool (cond : σ → Except ErrorData (Option Bool) × σ) (w : σ) : Except ErrorData Bool × σ :=
  ((cond w).1.map isTrue, (cond w).2)

/-- The condition as `uplpgsql_try_compile_bool` inlines it, or else the call. -/
def AssertStmt.condCode (stmt : AssertStmt σ) (inlined : Option (σ → Except ErrorData Bool × σ)) :
    σ → Except ErrorData Bool × σ :=
  inlined.getD (rtEvalBool stmt.cond)

/-- One evaluation of a condition, and a branch on it. -/
def branchOn (code : σ → Except ErrorData Bool × σ) (failed : Asserting σ Unit) :
    Asserting σ Unit := do
  let cond ← Lib.Traced.event .cond code
  if cond then pure () else failed

/-- `assert.fail` calls the runtime and then runs into `assert.cont`. -/
def compileAssert (checkAsserts : σ → Bool) (stmt : AssertStmt σ)
    (inlined : Option (σ → Except ErrorData Bool × σ)) : Asserting σ Unit :=
  branchOn (stmt.condCode inlined) (execStmtAssert checkAsserts stmt)

variable {checkAsserts : σ → Bool} {stmt : AssertStmt σ}
  {inlined : Option (σ → Except ErrorData Bool × σ)} {w : σ}

/-! ### One evaluation -/

section Branch

variable {code : σ → Except ErrorData Bool × σ} {failed : Asserting σ Unit}

/-- Unless the condition fails, its evaluation is all that happens. -/
theorem branchOn_done (done : (code w).1 ≠ .ok false) :
    branchOn code failed w = ⟨[.cond], (code w).1.map fun _ => (), (code w).2⟩ := by
  unfold branchOn
  cases result : (code w).1 with
  | error edata =>
    exact Lib.Traced.bind_error result
  | ok cond =>
    cases cond with
    | false => exact absurd result done
    | true =>
      have evaluated : (Lib.Traced.event Evaluated.cond code w).result = .ok true := result
      exact Lib.Traced.bind_ok evaluated

theorem branchOn_failed (fails : (code w).1 = .ok false) :
    branchOn code failed w =
      ⟨.cond :: (failed (code w).2).trace, (failed (code w).2).result, (failed (code w).2).world⟩ := by
  unfold branchOn
  have evaluated : (Lib.Traced.event Evaluated.cond code w).result = .ok false := fails
  exact Lib.Traced.bind_ok evaluated

end Branch

/-! ### The interpreter -/

theorem execStmtAssert_disabled (disabled : checkAsserts w = false) :
    execStmtAssert checkAsserts stmt w = ⟨[], .ok (), w⟩ := by
  rw [execStmtAssert, Lib.Traced.bind_ok rfl, disabled]
  rfl

theorem execStmtAssert_enabled (enabled : checkAsserts w = true) :
    execStmtAssert checkAsserts stmt w = branchOn (rtEvalBool stmt.cond) stmt.fail w := by
  -- NULL and false take the same branch, so the evaluation may be read as one of a boolean.
  have evaluated : (Lib.Traced.event .cond stmt.cond >>= fun value =>
      if isTrue value then pure () else stmt.fail : Asserting σ Unit) w =
      branchOn (rtEvalBool stmt.cond) stmt.fail w := by
    unfold branchOn
    cases result : (stmt.cond w).1 with
    | error edata =>
      have error : (rtEvalBool stmt.cond w).1 = .error edata := by rw [rtEvalBool, result]; rfl
      rw [Lib.Traced.bind_error result, Lib.Traced.bind_error error]
      rfl
    | ok value =>
      have ok : (rtEvalBool stmt.cond w).1 = .ok (isTrue value) := by rw [rtEvalBool, result]; rfl
      rw [Lib.Traced.bind_ok result, Lib.Traced.bind_ok ok]
      rfl
  rw [← evaluated, execStmtAssert, Lib.Traced.bind_ok rfl]
  simp [readSetting, enabled]

/-! ### The compiled statement -/

/-- The condition fails, and asserts are enabled when it has. -/
def FailsEnabled (checkAsserts : σ → Bool) (code : σ → Except ErrorData Bool × σ) (w : σ) : Prop :=
  (code w).1 = .ok false ∧ checkAsserts (code w).2 = true

/-- The condition is NULL or false here and evaluating it changes nothing. -/
def FailsQuietly (cond : σ → Except ErrorData (Option Bool) × σ) (w : σ) : Prop :=
  rtEvalBool cond w = (.ok false, w)

/-- Two executions end with the same result in the same world. -/
def SameEnd {α : Type} (x y : Lib.Outcome σ ErrorData Evaluated α) : Prop :=
  x.result = y.result ∧ x.world = y.world

/-- Unless the condition fails with asserts enabled, evaluating it once is all
that happens: a failure with asserts disabled is swallowed. -/
theorem compileAssert_once (fine : ¬FailsEnabled checkAsserts (stmt.condCode inlined) w) :
    compileAssert checkAsserts stmt inlined w =
      ⟨[.cond], (stmt.condCode inlined w).1.map fun _ => (), (stmt.condCode inlined w).2⟩ := by
  rw [compileAssert]
  by_cases fails : (stmt.condCode inlined w).1 = .ok false
  · have disabled : checkAsserts (stmt.condCode inlined w).2 = false := by
      rw [← Bool.not_eq_true]
      exact fun enabled => fine ⟨fails, enabled⟩
    rw [branchOn_failed fails, execStmtAssert_disabled disabled, fails]
    rfl
  · exact branchOn_done fails

/-- A condition that fails and, evaluated again, fails without effect. -/
theorem compileAssert_fails (fails : FailsEnabled checkAsserts (stmt.condCode inlined) w)
    (again : FailsQuietly stmt.cond (stmt.condCode inlined w).2) :
    SameEnd (compileAssert checkAsserts stmt inlined w)
      (stmt.fail (stmt.condCode inlined w).2) := by
  obtain ⟨failed, enabled⟩ := fails
  have second : (rtEvalBool stmt.cond (stmt.condCode inlined w).2).1 = .ok false := by rw [again]
  have unchanged : (rtEvalBool stmt.cond (stmt.condCode inlined w).2).2 =
      (stmt.condCode inlined w).2 := by rw [again]
  rw [compileAssert, branchOn_failed failed, execStmtAssert_enabled enabled,
    branchOn_failed second, unchanged]
  exact ⟨rfl, rfl⟩

/-- With asserts enabled throughout, and for such conditions, the compiled
statement ends as the interpreter does. -/
theorem compileAssert_agrees (enabled : checkAsserts w = true)
    (same : stmt.condCode inlined w = rtEvalBool stmt.cond w)
    (again : (stmt.condCode inlined w).1 = .ok false →
      checkAsserts (stmt.condCode inlined w).2 = true ∧
        FailsQuietly stmt.cond (stmt.condCode inlined w).2) :
    SameEnd (compileAssert checkAsserts stmt inlined w) (execStmtAssert checkAsserts stmt w) := by
  rw [execStmtAssert_enabled enabled]
  by_cases fails : (stmt.condCode inlined w).1 = .ok false
  · obtain ⟨after, quiet⟩ := again fails
    rw [branchOn_failed (same ▸ fails), ← same]
    exact compileAssert_fails ⟨fails, after⟩ quiet
  · rw [compileAssert, branchOn_done fails, branchOn_done (same ▸ fails), same]
    exact ⟨rfl, rfl⟩

/-- The compiled ASSERT evaluates its condition first, also when asserts are
disabled. That is the only evaluation unless it fails with asserts enabled; then
the error of the statement is raised if the condition fails again without
effect, and for such conditions nothing differs from the interpreter. -/
theorem compiled_assert (checkAsserts : σ → Bool) (stmt : AssertStmt σ)
    (inlined : Option (σ → Except ErrorData Bool × σ)) (w : σ) :
    (¬FailsEnabled checkAsserts (stmt.condCode inlined) w →
      compileAssert checkAsserts stmt inlined w =
        ⟨[.cond], (stmt.condCode inlined w).1.map fun _ => (), (stmt.condCode inlined w).2⟩) ∧
    (FailsEnabled checkAsserts (stmt.condCode inlined) w →
      FailsQuietly stmt.cond (stmt.condCode inlined w).2 →
      SameEnd (compileAssert checkAsserts stmt inlined w)
        (stmt.fail (stmt.condCode inlined w).2)) ∧
    (checkAsserts w = true → stmt.condCode inlined w = rtEvalBool stmt.cond w →
      ((stmt.condCode inlined w).1 = .ok false →
        checkAsserts (stmt.condCode inlined w).2 = true ∧
          FailsQuietly stmt.cond (stmt.condCode inlined w).2) →
      SameEnd (compileAssert checkAsserts stmt inlined w)
        (execStmtAssert checkAsserts stmt w)) :=
  ⟨compileAssert_once, compileAssert_fails, compileAssert_agrees⟩

/-- The world of a counter and a setting. -/
structure Counter where
  checkAsserts : Bool
  count : Nat
  deriving DecidableEq

/-- ASSERT false, 'out of stock'. -/
def outOfStock : AssertStmt Counter :=
  ⟨fun w => (.ok (some false), w), some fun w => (.ok (some "out of stock"), w)⟩

theorem compiled_assert_outOfStock :
    SameEnd (compileAssert Counter.checkAsserts outOfStock none ⟨true, 0⟩)
      ⟨[], .error ⟨errcodeAssertFailure, "out of stock"⟩, ⟨true, 0⟩⟩ :=
  (compiled_assert Counter.checkAsserts outOfStock none ⟨true, 0⟩).2.1 ⟨rfl, rfl⟩ rfl

/-- ASSERT nextval('s') > 1: every evaluation advances the sequence. -/
def secondTime : AssertStmt Counter :=
  ⟨fun w => (.ok (some (decide (1 < w.count + 1))), { w with count := w.count + 1 }), none⟩

/-- With asserts disabled the condition is evaluated nevertheless. With asserts
enabled it is evaluated a second time after its failure, and as it then holds
the failure is forgotten. -/
theorem compiled_assert_secondTime :
    compileAssert Counter.checkAsserts secondTime none ⟨false, 1⟩ = ⟨[.cond], .ok (), ⟨false, 2⟩⟩ ∧
    execStmtAssert Counter.checkAsserts secondTime ⟨false, 1⟩ = ⟨[], .ok (), ⟨false, 1⟩⟩ ∧
    compileAssert Counter.checkAsserts secondTime none ⟨true, 0⟩ =
      ⟨[.cond, .cond], .ok (), ⟨true, 2⟩⟩ ∧
    execStmtAssert Counter.checkAsserts secondTime ⟨true, 0⟩ =
      ⟨[.cond], .error ⟨errcodeAssertFailure, "assertion failed"⟩, ⟨true, 1⟩⟩ :=
  ⟨rfl, rfl, rfl, rfl⟩

end Uplpgsql
