import Uplpgsql.Expr.Nulls

/-!
# Compiled expressions and the executor

The NULL test of a compiled expression, and from it when a compiled assignment
or condition has the outcome the executor has.
-/

namespace Uplpgsql

open Lib.Words

/-! ### The NULL test -/

section Tests

/-- Without a test nothing is NULL. -/
def testRun (cells : Nat → Cell) : Option (Code .i1) → Native ErrorData Bool
  | none => .ok false
  | some c => c.run cells

theorem testRun_orNull (cells : Nat → Cell) (acc v : Option (Code .i1)) :
    testRun cells (orNull acc v) = (do
      let l ← testRun cells acc
      let r ← testRun cells v
      .ok (l || r)) := by
  cases v with
  | none =>
    change testRun cells acc = (do let l ← testRun cells acc; .ok (l || false))
    cases testRun cells acc <;> simp
  | some c =>
    cases acc with
    | none =>
      change c.run cells = (do let r ← c.run cells; .ok r)
      cases c.run cells <;> rfl
    | some c' => rfl

theorem GuardedCode.run_eq {t : IrType} (c : GuardedCode t) (cells : Nat → Cell) :
    c.run cells = (do
      if ← testRun cells c.anyNull then .ok none else .ok (some (← c.value.run cells))) := by
  rw [GuardedCode.run]
  split
  next none => rw [none]; rfl
  next test some => rw [some]; rfl

variable {natives : Nat → Option IntSize} {cells : Nat → Cell} {test test' : Option (Code .i1)}
  {probe probe' : Native ArithError Unit} {isnull isnull' x : Bool}

/-- A test that computes the subscripts and then answers. -/
def Tests (cells : Nat → Cell) (test : Option (Code .i1)) (probe : Native ArithError Unit)
    (isnull : Bool) : Prop :=
  Native.Rel (· = ·) (fun err e => err = e.report) (testRun cells test)
    (probe >>= fun _ => .ok isnull)

/-- The right answer counts only if the left one is no and both are computed. -/
theorem Tests.or (left : Tests cells test probe isnull) (right : Tests cells test' probe' x)
    (same : probe = .ok () → probe' = .ok () → isnull = false → x = isnull') :
    Tests cells (orNull test test') (probe >>= fun _ => probe') (isnull || isnull') := by
  unfold Tests at *
  rw [testRun_orNull]
  generalize testRun cells test = l at left
  generalize testRun cells test' = r at right
  cases probe with
  | raise err =>
    cases left with
    | raise related => exact .raise related
  | undefined =>
    cases left with
    | undefined => exact .undefined
  | ok u =>
    cases left with
    | @ok answer _ related =>
      cases probe' with
      | raise err =>
        cases right with
        | raise related => exact .raise related
      | undefined =>
        cases right with
        | undefined => exact .undefined
      | ok u =>
        cases right with
        | ok value =>
          refine .ok ?_
          cases isnull with
          | true => rw [related, Bool.true_or, Bool.true_or]
          | false => rw [related, value, same rfl rfl rfl]

theorem Tests.none : Tests cells none (.ok ()) false := .ok rfl

theorem tests_param (dno : Nat) :
    Tests cells (some (.loadIsnull dno)) (.ok ()) (cells dno).isnull := .ok rfl

/-- Whether the element is NULL that the stored subscript names. -/
def rawIsnull (natives : Nat → Option IntSize) (cells : Nat → Cell) (dno : Nat) (idx : PgExpr) : Bool :=
  match mathEval natives cells idx with
  | .ok (.int i) => (arrayGetElement (BitVec.ofInt 32 i) (cells dno).arrayValue).isnull
  | _ => false

variable {dno : Nat} {idx : PgExpr}

/-- The test of a native element. -/
theorem nativeIsnull_tests {s : IntSize} (mem : Memory natives) (native : natives dno = some s)
    {i : Native ErrorData (BitVec 32)} (computes : Computes i (mathEval natives mem.cells idx)) :
    Native.Rel (· = ·) (fun err e => err = e.report)
      (i >>= emitNativeIsnull (mem.cells dno).mirror)
      ((mathEval natives mem.cells idx >>= probeFlag natives mem.cells dno) >>= fun _ =>
        .ok (rawIsnull natives mem.cells dno idx)) := by
  obtain ⟨a, m, cell, denotes⟩ := mem.mirrored native
  generalize eval : mathEval natives mem.cells idx = y at computes
  cases computes with
  | raise related => exact .raise related
  | undefined => exact .undefined
  | @ok v _ related =>
    subst related
    have loads : Native.Rel (· = ·) (fun err (e : ArithError) => err = e.report)
        (emitNativeArrayElemIsnull m (v - m.lb)) (emitNativeArrayElemIsnull m (v - m.lb)) := by
      unfold emitNativeArrayElemIsnull
      split
      · exact .ok rfl
      · exact loadAt_rel _ _ _
    simp only [Native.ok_bind, rawIsnull, eval, probeFlag, native, BitVec.ofInt_toInt, cell,
      Cell.mirror, Cell.arrayValue, denotes.isnull, Native.bind_assoc]
    exact loads.bind fun _ _ _ => .ok rfl

/-- The test of an element that `array_get_element` fetches. -/
theorem arrayElemIsnull_tests (foreign : natives dno = none) {i : Native ErrorData (BitVec 32)}
    (computes : Computes i (mathEval natives cells idx)) :
    Native.Rel (· = ·) (fun err e => err = e.report)
      (i >>= fun i => .ok (arrayGetElement i (cells dno).arrayValue).isnull)
      ((mathEval natives cells idx >>= probeFlag natives cells dno) >>= fun _ =>
        .ok (rawIsnull natives cells dno idx)) := by
  generalize eval : mathEval natives cells idx = y at computes
  cases computes with
  | raise related => exact .raise related
  | undefined => exact .undefined
  | @ok v _ related =>
    subst related
    simp only [Native.ok_bind, rawIsnull, eval, probeFlag, foreign, BitVec.ofInt_toInt]
    exact .ok rfl

theorem Cell.arrayValue_of_isnull {cell : Cell} (isnull : cell.isnull = true) :
    cell.arrayValue = .null := by
  cases cell with
  | scalar d => rfl
  | array a m => exact of_decide_eq_true isnull

/-- The stored subscript is the evaluated one if nothing in it is NULL. -/
theorem rawIsnull_eq {kind : SqlVal → Prop} (ty pty : TypeOid)
    (subscript : Evaluates natives cells kind idx)
    (probed : probeSubscripts natives cells idx = .ok ())
    (flagged : (mathEval natives cells idx >>= probeFlag natives cells dno) = .ok ())
    (notnull : hasNull cells idx = false) :
    rawIsnull natives cells dno idx = decide
      (strictEval cells (.subscriptingRef ty (.param true dno pty) [idx] [] false) = .ok none) := by
  have eval := subscript.plain probed notnull
  rw [strictEval, eval, rawIsnull]
  cases raw : mathEval natives cells idx with
  | raise err => rw [raw] at flagged; cases flagged
  | undefined => rw [raw] at flagged; cases flagged
  | ok v =>
    rw [raw] at flagged
    obtain ⟨i, rfl⟩ := probeFlag_int flagged
    by_cases isnull : (cells dno).isnull = true
    · rw [Cell.arrayValue_of_isnull isnull, if_pos isnull]
      rfl
    · rw [if_neg isnull]
      simp only [Native.ok_bind, fetchStrict, NullableDatum.read]
      split
      next elem => simp [elem]
      next elem => simp [elem]

theorem compileSubscript_eq (shape : IntShape natives .i32 idx) :
    ∃ c, compileSubscript natives idx = .ok c ∧
      ∀ cells, Computes (c.run cells) (mathEval natives cells idx) := by
  obtain ⟨_, compiled, c, rfl, computes⟩ := compileExprDatum_yields shape
  exact ⟨c, by simp [compileSubscript, compiled, bind, Except.bind], computes⟩

variable {e el er : PgExpr}

/-- The compiled test of an expression. -/
def AnyNullTests (natives : Nat → Option IntSize) (e : PgExpr) : Prop :=
  ∃ test, tier1ExprAnyNull natives e = .ok test ∧
    ∀ mem : Memory natives,
      Tests mem.cells test (probeSubscripts natives mem.cells e) (hasNull mem.cells e)

theorem AnyNullTests.one {fid : Fid} {coll : Nat} (operand : AnyNullTests natives e) :
    AnyNullTests natives (.opExpr fid coll [e]) ∧ AnyNullTests natives (.funcExpr fid coll [e]) := by
  obtain ⟨test, compiled, tests⟩ := operand
  have args : tier1AnyNullArgs natives none [e] = .ok (orNull none test) := by
    simp only [tier1AnyNullArgs, compiled, bind, Except.bind]
  have both (mem : Memory natives) := Tests.none.or (tests mem) fun _ _ _ => rfl
  constructor
  · refine ⟨_, by rw [tier1ExprAnyNull, args], fun mem => ?_⟩
    simpa [probeSubscripts, probeArgs, hasNull, anyHasNull] using both mem
  · refine ⟨_, by rw [tier1ExprAnyNull, args], fun mem => ?_⟩
    simpa [probeSubscripts, probeArgs, hasNull, anyHasNull] using both mem

theorem AnyNullTests.two {fid : Fid} {coll : Nat} (left : AnyNullTests natives el)
    (right : AnyNullTests natives er) : AnyNullTests natives (.opExpr fid coll [el, er]) := by
  obtain ⟨testl, compiledl, testsl⟩ := left
  obtain ⟨testr, compiledr, testsr⟩ := right
  refine ⟨orNull (orNull none testl) testr, ?_, fun mem => ?_⟩
  · simp only [tier1ExprAnyNull, tier1AnyNullArgs, compiledl, compiledr, bind, Except.bind]
  · have first := Tests.none.or (testsl mem) fun _ _ _ => rfl
    have both := first.or (testsr mem) fun _ _ _ => rfl
    simpa [probeSubscripts, probeArgs, hasNull, anyHasNull] using both

/-- The subscript is tested, then computed, and then the element is tested. -/
theorem AnyNullTests.elem {ty pty : TypeOid} (shape : IntShape natives .i32 idx)
    (subscript : AnyNullTests natives idx) :
    AnyNullTests natives (.subscriptingRef ty (.param true dno pty) [idx] [] false) := by
  obtain ⟨test, compiled, tests⟩ := subscript
  obtain ⟨c, compiledc, computes⟩ := compileSubscript_eq shape
  cases native : natives dno with
  | some s =>
    refine ⟨orNull test (some (.nativeIsnull dno c)), ?_, fun mem => ?_⟩
    · simp only [tier1ExprAnyNull, native, compiled, compiledc, bind, Except.bind]
    · have elem : Tests mem.cells (some (.nativeIsnull dno c)) _ _ :=
        nativeIsnull_tests mem native (computes mem.cells)
      rw [probeSubscripts, hasNull]
      exact (tests mem).or elem fun probed flagged notnull =>
        rawIsnull_eq ty pty (evaluates_int mem shape) probed flagged notnull
  | none =>
    refine ⟨orNull (orNull (some (.loadIsnull dno)) test) (some (.arrayElemIsnull dno c)), ?_,
      fun mem => ?_⟩
    · simp only [tier1ExprAnyNull, native, compiled, compiledc, bind, Except.bind, List.isEmpty_nil,
        if_true]
    · have elem : Tests mem.cells (some (.arrayElemIsnull dno c)) _ _ :=
        arrayElemIsnull_tests native (computes mem.cells)
      have first := (tests_param dno).or (tests mem) fun _ _ _ => rfl
      have both := first.or elem fun probed flagged notnull =>
        rawIsnull_eq ty pty (evaluates_int mem shape) probed flagged
          (Bool.or_eq_false_iff.mp notnull).2
      rw [probeSubscripts, hasNull]
      by_cases isnull : (mem.cells dno).isnull = true
      · have fetched : strictEval mem.cells
            (.subscriptingRef ty (.param true dno pty) [idx] [] false) = .ok none := by
          rw [strictEval, if_pos isnull]
        simpa [fetched] using both
      · simpa [isnull] using both

theorem anyNull_int {s : IntSize} (shape : IntShape natives s e) : AnyNullTests natives e := by
  induction shape with
  | const own => exact ⟨none, by rw [tier1ExprAnyNull], fun mem => Tests.none⟩
  | @param s dno ty own =>
    exact ⟨some (.loadIsnull dno), by rw [tier1ExprAnyNull], fun mem => tests_param dno⟩
  | binary _ _ _ left right => exact left.two right
  | negate _ _ operand => exact operand.one.1
  | abs _ _ operand => exact operand.one.2
  | relabel _ operand =>
    obtain ⟨test, compiled, tests⟩ := operand
    exact ⟨test, by rw [tier1ExprAnyNull, compiled], fun mem => by
      simpa only [probeSubscripts, hasNull] using tests mem⟩
  | elem _ _ shape subscript => exact subscript.elem shape

theorem anyNull_cond (shape : CondShape natives e) : AnyNullTests natives e := by
  induction shape with
  | const => exact ⟨none, by rw [tier1ExprAnyNull], fun mem => Tests.none⟩
  | @param dno =>
    exact ⟨some (.loadIsnull dno), by rw [tier1ExprAnyNull], fun mem => tests_param dno⟩
  | compare _ _ left right => exact (anyNull_int left).two (anyNull_int right)
  | equate _ _ _ left right => exact left.two right

end Tests

/-! ### Agreement -/

section Agreement

variable {natives : Nat → Option IntSize} {e : PgExpr}

/-- The same value, or an error with the same SQLSTATE. -/
def SameOutcome {α : Type} (values : α → Option SqlVal → Prop) (x : Native ErrorData α)
    (y : Native ArithError (Option SqlVal)) : Prop :=
  x ≠ .undefined ∧ Native.Rel values (fun err e => err.sqlerrcode = e.sqlstate) x y

theorem ArithError.sqlstate_inj {e e' : ArithError} (same : e.sqlstate = e'.sqlstate) : e = e' := by
  cases e <;> cases e' <;> first | rfl | exact absurd same (by decide)

/-- Whatever is made of the value at the end, the outcomes agree exactly if the
condition holds. -/
theorem guarded_same_iff {t : IrType} {α : Type} {c : GuardedCode t} {mem : Memory natives}
    {kind : SqlVal → Prop} {computed : t.Val → SqlVal → Prop} {final : Option t.Val → α}
    {values : α → Option SqlVal → Prop} (evaluates : Evaluates natives mem.cells kind e)
    (tests : Tests mem.cells c.anyNull (probeSubscripts natives mem.cells e) (hasNull mem.cells e))
    (computes : Native.Rel computed (fun err e => err = e.report) (c.value.run mem.cells)
      (mathEval natives mem.cells e))
    (onNull : values (final none) none) (onValue : ∀ x v, computed x v → values (final (some x)) (some v)) :
    SameOutcome values (c.run mem.cells >>= fun x => .ok (final x)) (strictEval mem.cells e) ↔
      Undisturbed natives mem.cells e := by
  rw [GuardedCode.run_eq]
  unfold Undisturbed
  unfold Tests at tests
  generalize testRun mem.cells c.anyNull = answer at tests
  -- The subscripts are looked at first, for the null test of their elements.
  cases probe : probeSubscripts natives mem.cells e with
  | undefined =>
    rw [probe] at tests
    cases tests with
    | undefined => exact ⟨fun same => absurd rfl same.1, fun bad => bad.elim⟩
  | raise err =>
    rw [probe] at tests
    cases tests with
    | raise related =>
      subst related
      -- They raise: the outcomes agree if the expression raises the same error.
      constructor
      · rintro ⟨-, same⟩
        generalize strictEval mem.cells e = y at same
        cases same with
        | raise related =>
          rw [ArithError.report_sqlstate] at related
          rw [ArithError.sqlstate_inj related]
      · intro same
        rw [same]
        exact ⟨nofun, .raise err.report_sqlstate⟩
  | ok u =>
    rw [probe] at tests
    cases tests with
    | @ok flag _ related =>
      subst related
      cases isnull : hasNull mem.cells e with
      -- Something is null, so nothing more is computed.
      | true =>
        have none := evaluates.null isnull
        have outcome := evaluates.outcome
        generalize strictEval mem.cells e = y at none outcome
        cases outcome with
        | value => exact absurd rfl (none _)
        | null => exact ⟨fun _ _ _ => nofun, fun _ => ⟨nofun, .ok onNull⟩⟩
        | raise err =>
          refine ⟨fun same => ?_, fun quiet => absurd rfl (quiet rfl err)⟩
          cases same.2
      -- Nothing is null, and the value is computed as the mathematics says.
      | false =>
        have outcome := evaluates.outcome
        rw [evaluates.plain probe isnull] at outcome ⊢
        refine ⟨fun _ => nofun, fun _ => ?_⟩
        generalize mathEval natives mem.cells e = y at computes outcome
        simp only [Native.ok_bind, Bool.false_eq_true, if_false]
        generalize c.value.run mem.cells = z at computes
        cases computes with
        | ok related => exact ⟨nofun, .ok (onValue _ _ related)⟩
        | raise related =>
          subst related
          exact ⟨nofun, .raise (ArithError.report_sqlstate _)⟩
        | undefined => cases outcome

/-- The Datum stored for an integer of the class reads as that integer. -/
theorem nativeToDatum_computes {s : IntSize} {target : TypeOid} (own : target.exprClass = s.cls)
    (shape : IntShape natives s e) :
    ∃ x c, compileExprDatum natives e = .ok x ∧ nativeToDatum x s.cls = .ok c ∧
      ∀ cells, Native.Rel (fun (d : BitVec 64) v => target.read d = v) (fun err e => err = e.report)
        (c.run cells) (mathEval natives cells e) := by
  obtain ⟨_, compiled, c, rfl, computes⟩ := compileExprDatum_yields shape
  cases s with
  | i32 =>
    refine ⟨_, .sext c, compiled, rfl, fun cells => (computes cells).map ?_⟩
    rintro v _ rfl
    have back := setWidth_signExtend (show IntSize.i32.bits ≤ 64 by decide) v
    exact (TypeOid.read_eq own _).trans (by rw [back])
  | i64 =>
    refine ⟨_, c, compiled, rfl, fun cells => ?_⟩
    have values : Computes (c.run cells) (mathEval natives cells e) := computes cells
    generalize c.run cells = x at values
    generalize mathEval natives cells e = y at values
    cases values with
    | ok related =>
      rw [related]
      refine .ok ((TypeOid.read_eq own _).trans ?_)
      exact congrArg (fun x : BitVec 64 => SqlVal.int x.toInt) (BitVec.setWidth_eq _)
    | raise related => exact .raise related
    | undefined => exact .undefined

end Agreement

/-! ### Where they differ -/

/-- Variable 0 is an array with one element, variable 1 is NULL. -/
def nullBesideArray : Memory fun dno => if dno = 0 then some .i32 else none where
  cells
    | 0 => .array (.flat 1 [some 7]) ⟨some [7], 1, 1, none⟩
    | _ => .scalar .null
  mirrored := by
    intro dno s native
    obtain rfl : dno = 0 := by
      by_contra other
      rw [if_neg other] at native
      cases native
    refine ⟨_, _, rfl, rfl, by decide, by decide, by decide, [7], rfl, by decide, nofun, ?_⟩
    intro k few
    obtain rfl : k = 0 := by
      simp only [List.length_cons, List.length_nil] at few
      omega
    rfl

/-- `a[10 / x]`. -/
def readAtQuotient : PgExpr :=
  .subscriptingRef .int4 (.param true 0 (.other 1007))
    [.opExpr .int4div 0 [.const .int4 false 10, .param true 1 .int4]] [] false

/-- `1 / 0 + x`. -/
def quotientPlusNull : PgExpr :=
  .opExpr .int4pl 0
    [.opExpr .int4div 0 [.const .int4 false 1, .const .int4 false 0], .param true 1 .int4]

/-- `a[1] + x`. -/
def elementPlusNull : PgExpr :=
  .opExpr .int4pl 0
    [.subscriptingRef .int4 (.param true 0 (.other 1007)) [.const .int4 false 1] [] false,
      .param true 1 .int4]

end Uplpgsql
