import Uplpgsql.Expr.Nulls

/-!
# Reading an element of a native array

`a[i]` is compiled twice: as a test whether it is NULL, and as a plain load that
runs where the test fails. The bounds in the test are right for every int4
subscript, also where lb + len wraps around. But the flag of the element is
loaded before the bounds are acted on.
-/

namespace Uplpgsql

open Lib.Words

/-! ### The subscript -/

section Subscript

variable (natives : Nat → Option IntSize) (mem : Nat → Cell)

/-- A subscript expression with the value `i`, and not NULL. -/
structure ScalarSubscript (idx : PgExpr) (i : BitVec 32) : Prop where
  computed : ∃ c : Code (.int .i32), compileExprDatum natives idx = .ok ⟨.int .i32, c⟩ ∧
    c.run mem = .ok i
  notnull : ∃ test, tier1ExprAnyNull natives idx = .ok test ∧
    ∀ t, test = some t → t.run mem = .ok false

variable {natives mem}

theorem ScalarSubscript.const (v : BitVec 64) :
    ScalarSubscript natives mem (.const .int4 false v) (v.setWidth 32) :=
  ⟨⟨.constInt (v.setWidth 32), rfl, rfl⟩, none, rfl, nofun⟩

theorem ScalarSubscript.param {ino : Nat} (notnull : (mem ino).isnull = false) :
    ScalarSubscript natives mem (.param true ino .int4) ((mem ino).value.setWidth 32) := by
  refine ⟨⟨.truncInt (.loadDatum ino), rfl, rfl⟩, some (.loadIsnull ino), rfl, ?_⟩
  rintro t ⟨⟩
  simp only [Code.run, notnull]

end Subscript

/-! ### The two halves of a read -/

section Read

variable {natives : Nat → Option IntSize} {mem : Nat → Cell} {s : IntSize} {dno : Nat} {idx : PgExpr}
  {i : BitVec 32}

/-- `a[idx]`, an element of a variable. -/
def elementRead (refrestype : TypeOid) (dno : Nat) (arraytype : TypeOid) (idx : PgExpr) : PgExpr :=
  .subscriptingRef refrestype (.param true dno arraytype) [idx] [] false

/-- Both halves of a read, as an assignment or a condition combines them. -/
def compileGuardedRead (natives : Nat → Option IntSize) (e : PgExpr) :
    Except Unhandled (Σ t : IrType, GuardedCode t) := do
  let anyNull ← tier1ExprAnyNull natives e
  let value ← compileExprDatum natives e
  .ok ⟨value.1, ⟨anyNull, value.2⟩⟩

/-- An element as native code holds it. -/
def NullableDatum.element (s : IntSize) (d : NullableDatum) : Option (BitVec s.bits) :=
  if d.isnull then none else some (d.value.setWidth s.bits)

/-- The NULL test comes to the bounds and the flag, the value to the load. -/
theorem compileGuardedRead_eq (native : natives dno = some s) (subscript : ScalarSubscript natives mem idx i)
    (refrestype arraytype : TypeOid) :
    ∃ guarded : GuardedCode (.int s),
      compileGuardedRead natives (elementRead refrestype dno arraytype idx) = .ok ⟨.int s, guarded⟩ ∧
        guarded.run mem = (do
          if ← emitNativeIsnull (mem dno).mirror i then .ok none
          else .ok (some ((← emitNativeElem (mem dno).mirror i).setWidth s.bits))) := by
  obtain ⟨⟨c, compiled, computed⟩, test, tested, notnull⟩ := subscript
  have code : compileSubscript natives idx = .ok c := by
    rw [compileSubscript, compiled]
    rfl
  refine ⟨⟨orNull test (some (.nativeIsnull dno c)), .nativeElem s dno c⟩, ?_, ?_⟩
  · simp only [compileGuardedRead, elementRead, tier1ExprAnyNull, native, tested, code, compileExprDatum,
      compiled, compileElem]
    rfl
  · cases test with
    | none =>
      simp only [orNull, GuardedCode.run, Code.run, computed, Native.bind_assoc]
      rfl
    | some t =>
      simp only [orNull, GuardedCode.run, Code.run, computed, notnull t rfl, Native.ok_bind,
        Native.bind_assoc, Bool.false_or]
      rfl

/-- The flag is inside its buffer, or there are no flags. -/
def Mirror.FlagInBuffer (m : Mirror) (i : BitVec 32) : Prop :=
  ∀ flags, m.nulls = some flags → 0 ≤ (i - m.lb).toInt ∧ (i - m.lb).toInt < flags.length

theorem loadAt_defined_iff {ε α : Type} {xs : List α} {idx0 : BitVec 32} :
    (loadAt (some xs) idx0 : Native ε α) ≠ .undefined ↔ 0 ≤ idx0.toInt ∧ idx0.toInt < xs.length := by
  by_cases negative : idx0.toInt < 0
  · simp only [loadAt, negative, if_true, ne_eq, not_true, false_iff]
    omega
  · simp only [loadAt, negative, if_false]
    cases here : xs[idx0.toInt.toNat]? with
    | none =>
      have past := List.getElem?_eq_none_iff.mp here
      simp only [ne_eq, not_true, false_iff]
      omega
    | some x =>
      obtain ⟨bound, -⟩ := List.getElem?_eq_some_iff.mp here
      simp only [ne_eq, reduceCtorEq, not_false_eq_true, true_iff]
      omega

theorem Mirror.flagInBuffer_iff {ε : Type} (m : Mirror) (i : BitVec 32) :
    (∃ flag, (emitNativeArrayElemIsnull m (i - m.lb) : Native ε Bool) = .ok flag) ↔ m.FlagInBuffer i := by
  unfold emitNativeArrayElemIsnull FlagInBuffer
  cases m.nulls with
  | none => simp
  | some flags =>
    simp only [reduceCtorEq, if_false, Option.some.injEq, forall_eq', ← loadAt_defined_iff (ε := ε)]
    have noError : ∀ err, (loadAt (some flags) (i - m.lb) : Native ε Bool) ≠ .raise err := by
      intro err
      unfold loadAt
      dsimp only
      split
      · nofun
      · split <;> nofun
    cases loaded : (loadAt (some flags) (i - m.lb) : Native ε Bool) with
    | ok flag => simp
    | raise err => exact absurd loaded (noError err)
    | undefined => simp

/-- Reading `a[i]` gives what `array_get_element` gives, NULL or the element, if
and only if the flag that is loaded for `i` is inside its buffer. -/
theorem native_element_read {a : ArrayDatum} {m : Mirror} (native : natives dno = some s)
    (cell : mem dno = .array a m) (denotes : m.Denotes a)
    (subscript : ScalarSubscript natives mem idx i) (refrestype arraytype : TypeOid) :
    ∃ guarded : GuardedCode (.int s),
      compileGuardedRead natives (elementRead refrestype dno arraytype idx) = .ok ⟨.int s, guarded⟩ ∧
        (guarded.run mem = .ok ((arrayGetElement i a).element s) ↔ m.FlagInBuffer i) := by
  obtain ⟨guarded, compiled, runs⟩ := compileGuardedRead_eq native subscript refrestype arraytype
  refine ⟨guarded, compiled, ?_⟩
  rw [runs, cell, ← m.flagInBuffer_iff (ε := ErrorData)]
  simp only [Cell.mirror, denotes.isnull, Native.bind_assoc]
  cases flag : (emitNativeArrayElemIsnull m (i - m.lb) : Native ErrorData Bool) with
  | undefined => simp
  | raise err => simp
  | ok b =>
    simp only [Native.ok_bind, NullableDatum.element]
    cases isnull : (arrayGetElement i a).isnull with
    | true => simp
    | false => simp [denotes.elem isnull]

end Read

/-! ### An array with a NULL -/

/-- `'{1,NULL}'` and its mirror. -/
def oneAndNull : Cell :=
  .array (.flat 1 [some 1, none]) ⟨some [1, 0], 2, 1, some [false, true]⟩

/-- An int4 array, variable 0. -/
def oneNative : Nat → Option IntSize := fun dno => if dno = 0 then some .i32 else none

theorem oneAndNull_denotes :
    (⟨some [1, 0], 2, 1, some [false, true]⟩ : Mirror).Denotes (.flat 1 [some 1, none]) := by
  refine ⟨rfl, by decide, rfl, by decide, [1, 0], rfl, by decide, ?_, by decide⟩
  rintro flags ⟨⟩
  decide

/-- The second element of `'{1,NULL}'` is read as NULL. -/
theorem native_element_read_null :
    ∃ guarded : GuardedCode (.int .i32),
      compileGuardedRead oneNative (elementRead .int4 0 (.other 1007) (.const .int4 false 2)) =
          .ok ⟨.int .i32, guarded⟩ ∧
        guarded.run (fun _ => oneAndNull) = .ok none := by
  have subscript : ScalarSubscript oneNative (fun _ => oneAndNull) (.const .int4 false 2) 2 := .const 2
  have native : oneNative 0 = some .i32 := rfl
  obtain ⟨guarded, compiled, agrees⟩ :=
    native_element_read native rfl oneAndNull_denotes subscript .int4 (.other 1007)
  refine ⟨guarded, compiled, agrees.mpr ?_⟩
  rintro flags ⟨⟩
  decide

/-- Past the end of `'{1,NULL}'` the flag is loaded from outside its buffer. -/
theorem native_element_read_outside :
    ¬∀ (natives : Nat → Option IntSize) (mem : Nat → Cell) (s : IntSize) (dno : Nat) (a : ArrayDatum)
      (m : Mirror) (idx : PgExpr) (i : BitVec 32) (refrestype arraytype : TypeOid)
      (guarded : GuardedCode (.int s)),
      natives dno = some s → mem dno = .array a m → m.Denotes a → ScalarSubscript natives mem idx i →
        compileGuardedRead natives (elementRead refrestype dno arraytype idx) = .ok ⟨.int s, guarded⟩ →
          guarded.run mem = .ok ((arrayGetElement i a).element s) := by
  intro always
  have read := always oneNative (fun _ => oneAndNull) .i32 0 _ _ (.const .int4 false 2147483647) _ .int4
    (.other 1007) _ rfl rfl oneAndNull_denotes (.const 2147483647) rfl
  cases read

end Uplpgsql
