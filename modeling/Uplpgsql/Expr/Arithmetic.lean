import Uplpgsql.Expr.Shapes

/-!
# Integer arithmetic

What integer expressions mean, over the integers: arguments first and from left
to right, each result checked against its type. The emitted code computes that.
-/

namespace Uplpgsql

open Lib.Words

/-! ### The mathematical meaning -/

inductive ArithError where
  | divisionByZero
  | outOfRange
  deriving DecidableEq, Repr

def ArithError.sqlstate : ArithError → Nat
  | .divisionByZero => errcodeDivisionByZero
  | .outOfRange => errcodeNumericValueOutOfRange

/-- As the helpers of the compiled code report it. -/
def ArithError.report : ArithError → ErrorData
  | .divisionByZero => rtDivZero
  | .outOfRange => rtIntOverflow

theorem ArithError.report_sqlstate (e : ArithError) : e.report.sqlerrcode = e.sqlstate := by
  cases e <;> rfl

inductive SqlVal where
  | int (n : Int)
  | bool (b : Bool)
  deriving DecidableEq, Repr

def fit (w : Nat) (n : Int) : Native ArithError SqlVal :=
  if Fits w n then .ok (.int n) else .raise .outOfRange

def intUnary (w : Nat) (f : Int → Int) : SqlVal → Native ArithError SqlVal
  | .int a => fit w (f a)
  | _ => .undefined

def intBinary (w : Nat) (f : Int → Int → Int) : SqlVal → SqlVal → Native ArithError SqlVal
  | .int a, .int b => fit w (f a b)
  | _, _ => .undefined

/-- Division and remainder truncate towards zero. -/
def intDivide (w : Nat) (f : Int → Int → Int) : SqlVal → SqlVal → Native ArithError SqlVal
  | .int a, .int b => if b = 0 then .raise .divisionByZero else fit w (f a b)
  | _, _ => .undefined

def intCompare (p : Int → Int → Bool) : SqlVal → SqlVal → Native ArithError SqlVal
  | .int a, .int b => .ok (.bool (p a b))
  | _, _ => .undefined

def boolCompare (p : Bool → Bool → Bool) : SqlVal → SqlVal → Native ArithError SqlVal
  | .bool a, .bool b => .ok (.bool (p a b))
  | _, _ => .undefined

/-- The functions of pg_proc. -/
def Fid.apply : Fid → List SqlVal → Native ArithError SqlVal
  | .int4pl, [a, b] => intBinary 32 (· + ·) a b
  | .int4mi, [a, b] => intBinary 32 (· - ·) a b
  | .int4mul, [a, b] => intBinary 32 (· * ·) a b
  | .int4div, [a, b] => intDivide 32 Int.tdiv a b
  | .int4mod, [a, b] => intDivide 32 Int.tmod a b
  | .int4um, [a] => intUnary 32 (-·) a
  | .int4abs, [a] => intUnary 32 (fun n => n.natAbs) a
  | .int8pl, [a, b] | .int84pl, [a, b] | .int48pl, [a, b] => intBinary 64 (· + ·) a b
  | .int8mi, [a, b] | .int84mi, [a, b] | .int48mi, [a, b] => intBinary 64 (· - ·) a b
  | .int8mul, [a, b] | .int84mul, [a, b] | .int48mul, [a, b] => intBinary 64 (· * ·) a b
  | .int8div, [a, b] | .int84div, [a, b] | .int48div, [a, b] => intDivide 64 Int.tdiv a b
  | .int8mod, [a, b] => intDivide 64 Int.tmod a b
  | .int8um, [a] => intUnary 64 (-·) a
  | .int8abs, [a] => intUnary 64 (fun n => n.natAbs) a
  | .int4eq, [a, b] | .int8eq, [a, b] | .int84eq, [a, b] | .int48eq, [a, b] =>
    intCompare (fun a b => a = b) a b
  | .int4ne, [a, b] | .int8ne, [a, b] | .int84ne, [a, b] | .int48ne, [a, b] =>
    intCompare (fun a b => a ≠ b) a b
  | .int4lt, [a, b] | .int8lt, [a, b] | .int84lt, [a, b] | .int48lt, [a, b] =>
    intCompare (fun a b => a < b) a b
  | .int4le, [a, b] | .int8le, [a, b] | .int84le, [a, b] | .int48le, [a, b] =>
    intCompare (fun a b => a ≤ b) a b
  | .int4gt, [a, b] | .int8gt, [a, b] | .int84gt, [a, b] | .int48gt, [a, b] =>
    intCompare (fun a b => b < a) a b
  | .int4ge, [a, b] | .int8ge, [a, b] | .int84ge, [a, b] | .int48ge, [a, b] =>
    intCompare (fun a b => b ≤ a) a b
  | .booleq, [a, b] => boolCompare (· == ·) a b
  | .boolne, [a, b] => boolCompare (· != ·) a b
  | _, _ => .undefined

/-- A Datum read at a type. -/
def TypeOid.read : TypeOid → BitVec 64 → SqlVal
  | .int4, d => .int (d.setWidth 32).toInt
  | .bool, d => .bool (d.getLsbD 0)
  | _, d => .int d.toInt

section Eval

variable (natives : Nat → Option IntSize) (mem : Nat → Cell)

/-- An element as it is stored, NULL or not. -/
def rawElem (dno : Nat) (idx : BitVec 32) : Native ArithError (BitVec 64) :=
  match natives dno with
  | some _ => emitNativeElem (mem dno).mirror idx
  | none => .ok (arrayGetElement idx (mem dno).arrayValue).value

def readElem (ty : TypeOid) (dno : Nat) : SqlVal → Native ArithError SqlVal
  | .int i => do .ok (ty.read (← rawElem natives mem dno (BitVec.ofInt 32 i)))
  | _ => .undefined

mutual

/-- The value, with every variable at the Datum it holds. -/
def mathEval : PgExpr → Native ArithError SqlVal
  | .const ty _ v => .ok (ty.read v)
  | .param _ dno ty => .ok (ty.read (mem dno).value)
  | .opExpr fid _ args => do fid.apply (← mathArgs args)
  | .funcExpr fid _ args => do fid.apply (← mathArgs args)
  | .relabelType arg => mathEval arg
  | .subscriptingRef ty (.param _ dno _) [idx] _ _ => do readElem natives mem ty dno (← mathEval idx)
  | _ => .undefined

def mathArgs : List PgExpr → Native ArithError (List SqlVal)
  | [] => .ok []
  | e :: es => do
    let v ← mathEval e
    let vs ← mathArgs es
    .ok (v :: vs)

end

end Eval

/-! ### Emitters -/

/-- Native code computes an integer expression. -/
abbrev Computes {w : Nat} : Native ErrorData (BitVec w) → Native ArithError SqlVal → Prop :=
  Native.Rel (fun v n => n = .int v.toInt) fun err e => err = e.report

/-- Native code computes a condition. -/
abbrev ComputesBool : Native ErrorData Bool → Native ArithError SqlVal → Prop :=
  Native.Rel (fun b v => v = .bool b) fun err e => err = e.report

section Emitters

variable {w : Nat}

/-- A result that fits is computed, one that does not is reported. -/
theorem computes_fit {overflow : Bool} {x : BitVec w} {n : Int} (reported : overflow = true ↔ ¬Fits w n)
    (exact : Fits w n → x.toInt = n) :
    Computes (if overflow then .raise rtIntOverflow else .ok x) (fit w n) := by
  by_cases fits : Fits w n
  · have fine : overflow = false := by
      rw [← Bool.not_eq_true, reported]
      exact not_not_intro fits
    rw [fit, if_pos fits, fine]
    exact .ok (by rw [exact fits])
  · rw [fit, if_neg fits, reported.mpr fits]
    exact .raise rfl

def ArithOp.math : ArithOp → Int → Int → Int
  | .sadd => (· + ·)
  | .ssub => (· - ·)
  | .smul => (· * ·)

theorem arithChecked_computes (op : ArithOp) (x y : BitVec w) :
    Computes (emitIntArithChecked op x y) (fit w (op.math x.toInt y.toInt)) := by
  cases op with
  | sadd =>
    exact computes_fit (saddOverflow_iff x y) toInt_add_of_fits
  | ssub =>
    exact computes_fit (ssubOverflow_iff x y) toInt_sub_of_fits
  | smul =>
    refine computes_fit (smulOverflow_iff x y) fun fits => ?_
    exact BitVec.toInt_mul_of_not_smulOverflow fun exceeds => (smulOverflow_iff x y).mp exceeds fits

theorem divide_computes (pos : 0 < w) (x y : BitVec w) :
    Computes (emitIntDivmod true (BitVec.intMin w) x y)
      (intDivide w Int.tdiv (.int x.toInt) (.int y.toInt)) := by
  by_cases zero : y = 0
  · subst zero
    simpa [emitIntDivmod, intDivide] using .raise rfl
  · have nonzero : ¬y.toInt = 0 := fun eq => zero (BitVec.eq_of_toInt_eq (by simpa using eq))
    simp only [emitIntDivmod, intDivide, if_neg zero, if_neg nonzero, if_true]
    by_cases least : x = BitVec.intMin w ∧ y = -1
    · rw [if_pos least, fit, if_neg fun fits => (fits_tdiv_iff pos x y).mp fits least]
      exact .raise rfl
    · have defined : ¬(y = 0 ∨ x = BitVec.intMin w ∧ y = -1) := fun bad => bad.elim zero least
      rw [if_neg least, sdiv, if_neg defined, fit, if_pos ((fits_tdiv_iff pos x y).mpr least)]
      exact .ok (by rw [toInt_sdiv_of_defined least])

/-- Taking the remainder never divides by -1. -/
theorem remainder_computes (large : 1 < w) (minVal x y : BitVec w) :
    Computes (emitIntDivmod false minVal x y)
      (intDivide w Int.tmod (.int x.toInt) (.int y.toInt)) := by
  by_cases zero : y = 0
  · subst zero
    simpa [emitIntDivmod, intDivide] using .raise rfl
  · have nonzero : ¬y.toInt = 0 := fun eq => zero (BitVec.eq_of_toInt_eq (by simpa using eq))
    simp only [emitIntDivmod, intDivide, if_neg zero, if_neg nonzero, Bool.false_eq_true, if_false]
    have fits : Fits w (x.toInt.tmod y.toInt) := by
      rw [← BitVec.toInt_srem]
      exact toInt_fits _
    rw [fit, if_pos fits]
    by_cases minus : y = -1
    · have one : (1 : BitVec w).toInt = 1 := BitVec.toInt_one large
      have least : (-1 : BitVec w).toInt = -1 := toInt_neg_one (Nat.lt_of_succ_lt large)
      have defined : ¬((1 : BitVec w) = 0 ∨ x = BitVec.intMin w ∧ (1 : BitVec w) = -1) := by
        rw [← BitVec.toInt_inj, ← BitVec.toInt_inj (x := 1) (y := -1), one, least]
        simp
      rw [if_pos minus, srem, if_neg defined, minus, least, Int.tmod_neg, Int.tmod_one]
      exact .ok (by simp)
    · have defined : ¬(y = 0 ∨ x = BitVec.intMin w ∧ y = -1) := fun bad =>
        bad.elim zero fun both => minus both.2
      rw [if_neg minus, srem, if_neg defined]
      exact .ok (by rw [if_neg minus, BitVec.toInt_srem])

theorem negate_computes (pos : 0 < w) (x : BitVec w) :
    Computes (emitIntNegate (BitVec.intMin w) x) (fit w (-x.toInt)) := by
  have reported : decide (x = BitVec.intMin w) = true ↔ ¬Fits w (-x.toInt) := by
    rw [fits_neg_iff pos, decide_eq_true_eq, not_not]
  simpa [emitIntNegate] using computes_fit reported fun fits =>
    toInt_neg_of_ne_intMin pos ((fits_neg_iff pos x).mp fits)

theorem abs_computes (pos : 0 < w) (x : BitVec w) :
    Computes (emitIntAbs (BitVec.intMin w) x) (fit w x.toInt.natAbs) := by
  have reported : decide (x = BitVec.intMin w) = true ↔ ¬Fits w x.toInt.natAbs := by
    rw [fits_natAbs_iff pos, decide_eq_true_eq, not_not]
  have computed (fits : Fits w x.toInt.natAbs) :
      (if (0 : BitVec w).sle x then x else -x).toInt = x.toInt.natAbs := by
    have ne := (fits_natAbs_iff pos x).mp fits
    split
    next nonneg =>
      have : 0 ≤ x.toInt := by simpa using BitVec.sle_iff_toInt_le.mp nonneg
      omega
    next neg =>
      have : ¬0 ≤ x.toInt := fun nonneg => neg (BitVec.sle_iff_toInt_le.mpr (by simpa using nonneg))
      rw [toInt_neg_of_ne_intMin pos ne]
      omega
  simpa [emitIntAbs] using computes_fit reported computed

def IntPredicate.math : IntPredicate → Int → Int → Bool
  | .eq => fun a b => a = b
  | .ne => fun a b => a ≠ b
  | .slt => fun a b => a < b
  | .sle => fun a b => a ≤ b
  | .sgt => fun a b => b < a
  | .sge => fun a b => b ≤ a

theorem IntPredicate.holds_eq (pred : IntPredicate) (x y : BitVec w) :
    pred.holds x y = pred.math x.toInt y.toInt := by
  cases pred with
  | eq => simp [holds, math, BitVec.toInt_inj, beq_eq_decide]
  | ne => simp [holds, math, BitVec.toInt_inj, bne, beq_eq_decide]
  | slt => rfl
  | sle => rfl
  | sgt => rfl
  | sge => rfl

end Emitters

/-! ### The compiler computes the meaning -/

section Trees

variable (natives : Nat → Option IntSize)

/-- A function of the memory. -/
abbrev Meaning := (Nat → Cell) → Native ArithError SqlVal

/-- Code of the given size that computes `m`. -/
def Yields (s : IntSize) (x : AnyCode) (m : Meaning) : Prop :=
  ∃ c : Code (.int s), x = ⟨.int s, c⟩ ∧ ∀ mem, Computes (c.run mem) (m mem)

def Meaning.two (f : SqlVal → SqlVal → Native ArithError SqlVal) (l r : Meaning) : Meaning :=
  fun mem => do f (← l mem) (← r mem)

variable {s : IntSize} {x y : AnyCode} {l r : Meaning}

theorem IntSize.one_lt_bits (s : IntSize) : 1 < s.bits := by
  cases s <;> decide

theorem Yields.asInt (yields : Yields s x l) :
    ∃ c : Code (.int s), x.asInt s = .ok c ∧ ∀ mem, Computes (c.run mem) (l mem) := by
  obtain ⟨c, rfl, meets⟩ := yields
  cases s with
  | i32 => exact ⟨c, rfl, meets⟩
  | i64 => exact ⟨c, rfl, meets⟩

/-- Widening keeps the integer. -/
theorem Yields.widen (yields : Yields s x l) : Yields .i64 (x.widen s.cls) l := by
  obtain ⟨c, rfl, meets⟩ := yields
  cases s with
  | i32 =>
    refine ⟨.sext c, rfl, fun mem => (meets mem).map ?_⟩
    rintro v _ rfl
    exact congrArg SqlVal.int (BitVec.toInt_signExtend_of_le (show 32 ≤ 64 by decide)).symm
  | i64 => exact ⟨c, rfl, meets⟩

theorem arithCode_yields (op : ArithOp) (left : Yields s x l) (right : Yields s y r) :
    ∃ z, arithCode s op x y = .ok z ∧ Yields s z (.two (intBinary s.bits op.math) l r) := by
  obtain ⟨cl, eql, meetsl⟩ := left.asInt
  obtain ⟨cr, eqr, meetsr⟩ := right.asInt
  refine ⟨⟨.int s, .arithChecked op cl cr⟩, by simp [arithCode, eql, eqr, bind, Except.bind], _, rfl,
    fun mem => (meetsl mem).bind ?_⟩
  rintro v _ rfl
  refine (meetsr mem).bind ?_
  rintro u _ rfl
  exact arithChecked_computes op v u

theorem divideCode_yields {least : BitVec s.bits} (isLeast : least = BitVec.intMin s.bits)
    (left : Yields s x l) (right : Yields s y r) :
    ∃ z, divmodCode s true least x y = .ok z ∧ Yields s z (.two (intDivide s.bits Int.tdiv) l r) := by
  obtain ⟨cl, eql, meetsl⟩ := left.asInt
  obtain ⟨cr, eqr, meetsr⟩ := right.asInt
  subst isLeast
  refine ⟨⟨.int s, .divmod true (BitVec.intMin s.bits) cl cr⟩, by simp [divmodCode, eql, eqr, bind, Except.bind], _, rfl,
    fun mem => (meetsl mem).bind ?_⟩
  rintro v _ rfl
  refine (meetsr mem).bind ?_
  rintro u _ rfl
  exact divide_computes (Nat.lt_of_succ_lt s.one_lt_bits) v u

theorem remainderCode_yields (least : BitVec s.bits) (left : Yields s x l) (right : Yields s y r) :
    ∃ z, divmodCode s false least x y = .ok z ∧ Yields s z (.two (intDivide s.bits Int.tmod) l r) := by
  obtain ⟨cl, eql, meetsl⟩ := left.asInt
  obtain ⟨cr, eqr, meetsr⟩ := right.asInt
  refine ⟨⟨.int s, .divmod false least cl cr⟩, by simp [divmodCode, eql, eqr, bind, Except.bind], _, rfl,
    fun mem => (meetsl mem).bind ?_⟩
  rintro v _ rfl
  refine (meetsr mem).bind ?_
  rintro u _ rfl
  exact remainder_computes s.one_lt_bits least v u

theorem int32Min_least : int32Min = BitVec.intMin IntSize.i32.bits := by
  change int32Min = BitVec.intMin 32
  decide

theorem int64Min_least : int64Min = BitVec.intMin IntSize.i64.bits := by
  change int64Min = BitVec.intMin 64
  decide

theorem compileBinary_yields {fid : Fid} {sl sr res : IntSize} (sizes : fid.sizes = some (sl, sr, res))
    (left : Yields sl x l) (right : Yields sr y r) :
    ∃ z, compileBinary fid sl.cls sr.cls x y = .ok z ∧
      Yields res z (.two (fun a b => fid.apply [a, b]) l r) := by
  cases fid <;> simp only [Fid.sizes, reduceCtorEq, Option.some.injEq, Prod.mk.injEq] at sizes <;>
    obtain ⟨rfl, rfl, rfl⟩ := sizes
  case int4pl => exact arithCode_yields .sadd left right
  case int4mi => exact arithCode_yields .ssub left right
  case int4mul => exact arithCode_yields .smul left right
  case int4div => exact divideCode_yields int32Min_least left right
  case int4mod => exact remainderCode_yields 0 left right
  case int8pl => exact arithCode_yields .sadd left right
  case int8mi => exact arithCode_yields .ssub left right
  case int8mul => exact arithCode_yields .smul left right
  case int8div => exact divideCode_yields int64Min_least left right
  case int8mod => exact remainderCode_yields 0 left right
  case int84pl => exact arithCode_yields .sadd left.widen right.widen
  case int84mi => exact arithCode_yields .ssub left.widen right.widen
  case int84mul => exact arithCode_yields .smul left.widen right.widen
  case int84div => exact divideCode_yields int64Min_least left.widen right.widen
  case int48pl => exact arithCode_yields .sadd left.widen right.widen
  case int48mi => exact arithCode_yields .ssub left.widen right.widen
  case int48mul => exact arithCode_yields .smul left.widen right.widen
  case int48div => exact divideCode_yields int64Min_least left.widen right.widen

def Meaning.one (f : SqlVal → Native ArithError SqlVal) (l : Meaning) : Meaning :=
  fun mem => do f (← l mem)

theorem negateCode_yields {least : BitVec s.bits} (isLeast : least = BitVec.intMin s.bits)
    (arg : Yields s x l) :
    ∃ c, x.asInt s = .ok c ∧
      Yields s ⟨.int s, .negate least c⟩ (.one (intUnary s.bits (-·)) l) := by
  obtain ⟨c, eq, meets⟩ := arg.asInt
  subst isLeast
  refine ⟨c, eq, _, rfl, fun mem => (meets mem).bind ?_⟩
  rintro v _ rfl
  exact negate_computes (Nat.lt_of_succ_lt s.one_lt_bits) v

theorem absCode_yields {least : BitVec s.bits} (isLeast : least = BitVec.intMin s.bits)
    (arg : Yields s x l) :
    ∃ c, x.asInt s = .ok c ∧
      Yields s ⟨.int s, .abs least c⟩ (.one (intUnary s.bits fun n => n.natAbs) l) := by
  obtain ⟨c, eq, meets⟩ := arg.asInt
  subst isLeast
  refine ⟨c, eq, _, rfl, fun mem => (meets mem).bind ?_⟩
  rintro v _ rfl
  exact abs_computes (Nat.lt_of_succ_lt s.one_lt_bits) v

theorem compileUnary_yields {fid : Fid} (negates : fid = .int4um ∧ s = .i32 ∨ fid = .int8um ∧ s = .i64)
    (arg : Yields s x l) :
    ∃ z, compileUnary fid x = .ok z ∧ Yields s z (.one (fun a => fid.apply [a]) l) := by
  rcases negates with ⟨rfl, rfl⟩ | ⟨rfl, rfl⟩
  · obtain ⟨c, eq, yields⟩ := negateCode_yields int32Min_least arg
    exact ⟨_, by simp only [compileUnary, eq, bind, Except.bind], yields⟩
  · obtain ⟨c, eq, yields⟩ := negateCode_yields int64Min_least arg
    exact ⟨_, by simp only [compileUnary, eq, bind, Except.bind], yields⟩

theorem compileAbs_yields {fid : Fid} (absolute : fid = .int4abs ∧ s = .i32 ∨ fid = .int8abs ∧ s = .i64)
    (arg : Yields s x l) :
    ∃ z, compileAbs fid x = .ok z ∧ Yields s z (.one (fun a => fid.apply [a]) l) := by
  rcases absolute with ⟨rfl, rfl⟩ | ⟨rfl, rfl⟩
  · obtain ⟨c, eq, yields⟩ := absCode_yields int32Min_least arg
    exact ⟨_, by simp only [compileAbs, eq, bind, Except.bind], yields⟩
  · obtain ⟨c, eq, yields⟩ := absCode_yields int64Min_least arg
    exact ⟨_, by simp only [compileAbs, eq, bind, Except.bind], yields⟩

theorem mathEval_one (fid : Fid) (mem : Nat → Cell) (arg : PgExpr) :
    (do fid.apply (← mathArgs natives mem [arg])) =
      Meaning.one (fun a => fid.apply [a]) (fun mem => mathEval natives mem arg) mem := by
  simp only [mathArgs, Meaning.one]
  cases mathEval natives mem arg <;> rfl

theorem mathEval_two (fid : Fid) (mem : Nat → Cell) (el er : PgExpr) :
    (do fid.apply (← mathArgs natives mem [el, er])) =
      Meaning.two (fun a b => fid.apply [a, b]) (fun mem => mathEval natives mem el)
        (fun mem => mathEval natives mem er) mem := by
  simp only [mathArgs, Meaning.two]
  cases mathEval natives mem el with
  | ok a => cases mathEval natives mem er <;> rfl
  | raise e => rfl
  | undefined => rfl

/-! Leaves. -/

theorem TypeOid.read_eq {ty : TypeOid} (cls : ty.exprClass = s.cls) (d : BitVec 64) :
    ty.read d = .int (d.setWidth s.bits).toInt := by
  cases s with
  | i32 =>
    cases ty <;> first | rfl | cases cls
  | i64 =>
    cases ty with
    | int8 =>
      change SqlVal.int d.toInt = SqlVal.int (d.setWidth 64).toInt
      rw [BitVec.setWidth_eq]
    | _ => cases cls

/-- A load means the same wherever errors are named. -/
theorem loadAt_rel {ε δ α : Type} (errors : ε → δ → Prop) (buffer : Option (List α))
    (idx0 : BitVec 32) : Native.Rel (· = ·) errors (loadAt buffer idx0) (loadAt buffer idx0) := by
  unfold loadAt
  split
  · exact .undefined
  · split
    · exact .undefined
    · split
      · exact .undefined
      · exact .ok rfl

/-- The element a subscript names. -/
theorem elem_computes {w : Nat} {ty : TypeOid} {dno : Nat} {mem : Nat → Cell}
    {idx : Native ErrorData (BitVec 32)} {i : Native ArithError SqlVal} (subscript : Computes idx i)
    {f : BitVec 32 → Native ErrorData (BitVec w)}
    (reads : ∀ v, Computes (f v) (do .ok (ty.read (← rawElem natives mem dno v)))) :
    Computes (idx >>= f) (i >>= readElem natives mem ty dno) := by
  refine subscript.bind ?_
  rintro v _ rfl
  rw [readElem, BitVec.ofInt_toInt]
  exact reads v

theorem compileElem_yields {ty : TypeOid} {dno : Nat} {idx : Code (.int .i32)}
    (cls : ty.exprClass = s.cls) (typed : ∀ t, natives dno = some t → t = s)
    (subscript : ∀ mem, Computes (idx.run mem) (l mem)) :
    ∃ z, compileElem natives ty dno idx = .ok z ∧
      Yields s z fun mem => l mem >>= readElem natives mem ty dno := by
  unfold compileElem
  split
  next t native =>
    obtain rfl := typed t native
    refine ⟨_, rfl, _, rfl, fun mem => elem_computes natives (subscript mem) fun v => ?_⟩
    simp only [rawElem, native]
    refine (loadAt_rel _ _ _).bind ?_
    rintro d _ rfl
    exact .ok (TypeOid.read_eq cls d)
  next foreign =>
    have reads (mem : Nat → Cell) (v : BitVec 32) :
        rawElem natives mem dno v = .ok (arrayGetElement v (mem dno).arrayValue).value := by
      rw [rawElem, foreign]
    cases s with
    | i32 =>
      rw [cls]
      refine ⟨_, rfl, _, rfl, fun mem => ?_⟩
      simp only [Code.run, Native.bind_assoc]
      refine elem_computes natives (subscript mem) fun v => ?_
      rw [reads]
      exact .ok (TypeOid.read_eq (s := .i32) cls _)
    | i64 =>
      rw [cls]
      refine ⟨_, rfl, _, rfl, fun mem => elem_computes natives (subscript mem) fun v => ?_⟩
      rw [reads]
      exact .ok (TypeOid.read_eq (s := .i64) cls _)

variable {natives}

/-- The code of an integer expression. -/
theorem compileExprDatum_yields {e : PgExpr} (shape : IntShape natives s e) :
    ∃ x, compileExprDatum natives e = .ok x ∧ Yields s x fun mem => mathEval natives mem e := by
  induction shape with
  | @const s ty v own =>
    have leaf : IntShape natives s (.const ty false v) := .const own
    have cls := leaf.classify
    rw [compileExprDatum, cls]
    cases s with
    | i32 => exact ⟨_, rfl, _, rfl, fun mem => .ok (TypeOid.read_eq (s := .i32) own v)⟩
    | i64 => exact ⟨_, rfl, _, rfl, fun mem => .ok (TypeOid.read_eq (s := .i64) own v)⟩
  | @param s dno ty own =>
    have leaf : IntShape natives s (.param true dno ty) := .param own
    have cls := leaf.classify
    rw [compileExprDatum, cls]
    cases s with
    | i32 => exact ⟨_, rfl, _, rfl, fun mem => .ok (TypeOid.read_eq (s := .i32) own _)⟩
    | i64 => exact ⟨_, rfl, _, rfl, fun mem => .ok (TypeOid.read_eq (s := .i64) own _)⟩
  | binary sizes left right ihl ihr =>
    obtain ⟨x, eqx, yieldsx⟩ := ihl
    obtain ⟨y, eqy, yieldsy⟩ := ihr
    obtain ⟨z, eqz, yields⟩ := compileBinary_yields sizes yieldsx yieldsy
    refine ⟨z, ?_, ?_⟩
    · simp only [compileExprDatum, eqx, eqy, bind, Except.bind, left.classify, right.classify, eqz]
    · simpa only [mathEval, mathEval_two] using yields
  | negate negates operand ih =>
    obtain ⟨x, eqx, yieldsx⟩ := ih
    obtain ⟨z, eqz, yields⟩ := compileUnary_yields negates yieldsx
    refine ⟨z, ?_, ?_⟩
    · simp only [compileExprDatum, eqx, bind, Except.bind, eqz]
    · simpa only [mathEval, mathEval_one] using yields
  | abs absolute operand ih =>
    obtain ⟨x, eqx, yieldsx⟩ := ih
    obtain ⟨z, eqz, yields⟩ := compileAbs_yields absolute yieldsx
    refine ⟨z, ?_, ?_⟩
    · simp only [compileExprDatum, eqx, bind, Except.bind, eqz]
    · simpa only [mathEval, mathEval_one] using yields
  | relabel operand ih =>
    obtain ⟨x, eqx, yields⟩ := ih
    exact ⟨x, by rw [compileExprDatum, eqx], by simpa only [mathEval] using yields⟩
  | elem own typed subscript ih =>
    obtain ⟨x, eqx, c, rfl, meets⟩ := ih
    obtain ⟨z, eqz, yields⟩ := compileElem_yields natives own typed meets
    refine ⟨z, ?_, ?_⟩
    · simp only [compileExprDatum, eqx, bind, Except.bind, AnyCode.asInt, eqz]
    · simpa only [mathEval] using yields

/-! Conditions. -/

/-- Code that computes the condition `m`. -/
def YieldsBool (c : Code .i1) (m : Meaning) : Prop := ∀ mem, ComputesBool (c.run mem) (m mem)

theorem compileCmp_yields (pred : IntPredicate) (left : Yields s x l) (right : Yields s y r) :
    ∃ c, compileCmp pred x y = .ok c ∧ YieldsBool c (.two (intCompare pred.math) l r) := by
  obtain ⟨cl, rfl, meetsl⟩ := left
  obtain ⟨cr, rfl, meetsr⟩ := right
  have compares : YieldsBool (.icmp pred cl cr) (.two (intCompare pred.math) l r) := by
    intro mem
    refine (meetsl mem).bind ?_
    rintro v _ rfl
    refine (meetsr mem).bind ?_
    rintro u _ rfl
    exact .ok (by rw [pred.holds_eq])
  cases s with
  | i32 => exact ⟨_, rfl, compares⟩
  | i64 => exact ⟨_, rfl, compares⟩

theorem icmpBool_yields (isEq : Bool) {p : Bool → Bool → Bool} (same : ∀ a b, p a b = ((a == b) == isEq))
    {cl cr : Code .i1} (left : YieldsBool cl l) (right : YieldsBool cr r) :
    YieldsBool (.icmpBool isEq cl cr) (.two (boolCompare p) l r) := by
  intro mem
  refine (left mem).bind ?_
  rintro a _ rfl
  refine (right mem).bind ?_
  rintro b _ rfl
  exact .ok (by rw [same])

theorem apply_compare {fid : Fid} {pred : IntPredicate} {cross : Bool}
    (compares : fid.intPredicate = some (pred, cross)) (a b : SqlVal) :
    fid.apply [a, b] = intCompare pred.math a b := by
  cases fid <;> simp only [Fid.intPredicate, reduceCtorEq, Option.some.injEq, Prod.mk.injEq] at compares
  all_goals
    obtain ⟨rfl, rfl⟩ := compares
    rfl

/-- The code of a condition. -/
theorem compileExprBool_yields {e : PgExpr} (shape : CondShape natives e) :
    ∃ c, compileExprBool natives e = .ok c ∧ YieldsBool c fun mem => mathEval natives mem e := by
  induction shape with
  | const datum =>
    refine ⟨_, by rw [compileExprBool], fun mem => .ok ?_⟩
    rcases datum with rfl | rfl <;> rfl
  | @param dno =>
    refine ⟨_, by rw [compileExprBool], fun mem => ?_⟩
    change ComputesBool (.ok ((mem dno).value.getLsbD 0)) (.ok (.bool ((mem dno).value.getLsbD 0)))
    exact .ok rfl
  | @compare sl sr fid coll el er pred cross compares same left right =>
    obtain ⟨x, eqx, yieldsx⟩ := compileExprDatum_yields left
    obtain ⟨y, eqy, yieldsy⟩ := compileExprDatum_yields right
    have other : ¬(fid = .booleq ∨ fid = .boolne) := by
      rintro (rfl | rfl) <;> cases compares
    simp only [mathEval, mathEval_two, apply_compare compares]
    simp only [compileExprBool, if_neg other, compares, eqx, eqy, bind, Except.bind, left.classify,
      right.classify]
    cases cross with
    | true => exact compileCmp_yields pred yieldsx.widen yieldsy.widen
    | false =>
      obtain rfl := same rfl
      exact compileCmp_yields pred yieldsx yieldsy
  | equate bools left right ihl ihr =>
    obtain ⟨x, eqx, yieldsx⟩ := ihl
    obtain ⟨y, eqy, yieldsy⟩ := ihr
    simp only [mathEval, mathEval_two]
    rcases bools with rfl | rfl
    · refine ⟨.icmpBool true x y, ?_, icmpBool_yields true (fun a b => ?_) yieldsx yieldsy⟩
      · simp [compileExprBool, eqx, eqy, bind, Except.bind]
      · simp
    · refine ⟨.icmpBool false x y, ?_, icmpBool_yields false (fun a b => ?_) yieldsx yieldsy⟩
      · simp [compileExprBool, eqx, eqy, bind, Except.bind]
      · simp [bne]

/-! ### Scalars only -/

mutual

/-- No array is read. -/
def scalarOnly : PgExpr → Bool
  | .opExpr _ _ args => scalarsOnly args
  | .funcExpr _ _ args => scalarsOnly args
  | .relabelType arg => scalarOnly arg
  | .subscriptingRef _ _ _ _ _ => false
  | _ => true

def scalarsOnly : List PgExpr → Bool
  | [] => true
  | e :: es => scalarOnly e && scalarsOnly es

end

/-- A value of the kind, or an error. -/
inductive Settled (kind : SqlVal → Prop) : Native ArithError SqlVal → Prop where
  | ok {v : SqlVal} (is : kind v) : Settled kind (.ok v)
  | raise (e : ArithError) : Settled kind (.raise e)

def SqlVal.IsInt (v : SqlVal) : Prop := ∃ n, v = .int n

def SqlVal.IsBool (v : SqlVal) : Prop := ∃ b, v = .bool b

theorem Settled.bind {kind kind' : SqlVal → Prop} {m : Native ArithError SqlVal}
    {f : SqlVal → Native ArithError SqlVal} (settled : Settled kind m)
    (next : ∀ v, kind v → Settled kind' (f v)) : Settled kind' (m >>= f) := by
  cases settled with
  | ok is => exact next _ is
  | raise e => exact .raise e

theorem Settled.defined {ε α : Type} {kind : SqlVal → Prop} {values : α → SqlVal → Prop}
    {errors : ε → ArithError → Prop} {x : Native ε α} {m : Native ArithError SqlVal}
    (settled : Settled kind m) (rel : Native.Rel values errors x m) : x ≠ .undefined := by
  cases rel with
  | ok => nofun
  | raise => nofun
  | undefined => cases settled

theorem fit_settled (w : Nat) (n : Int) : Settled SqlVal.IsInt (fit w n) := by
  unfold fit
  split
  · exact .ok ⟨n, rfl⟩
  · exact .raise _

theorem intDivide_settled (w : Nat) (f : Int → Int → Int) (a b : Int) :
    Settled SqlVal.IsInt (intDivide w f (.int a) (.int b)) := by
  by_cases zero : b = 0
  · simpa [intDivide, zero] using .raise _
  · simpa [intDivide, zero] using fit_settled w _

theorem apply_binary_settled {fid : Fid} {sl sr res : IntSize} (sizes : fid.sizes = some (sl, sr, res))
    (a b : Int) : Settled SqlVal.IsInt (fid.apply [.int a, .int b]) := by
  cases fid <;> simp only [Fid.sizes, reduceCtorEq] at sizes
  all_goals
    first
    | exact fit_settled _ _
    | exact intDivide_settled _ _ _ _

theorem apply_negate_settled {fid : Fid} (negates : fid = .int4um ∧ s = .i32 ∨ fid = .int8um ∧ s = .i64)
    (a : Int) : Settled SqlVal.IsInt (fid.apply [.int a]) := by
  rcases negates with ⟨rfl, -⟩ | ⟨rfl, -⟩
  · exact fit_settled 32 (-a)
  · exact fit_settled 64 (-a)

theorem apply_abs_settled {fid : Fid} (absolute : fid = .int4abs ∧ s = .i32 ∨ fid = .int8abs ∧ s = .i64)
    (a : Int) : Settled SqlVal.IsInt (fid.apply [.int a]) := by
  rcases absolute with ⟨rfl, -⟩ | ⟨rfl, -⟩
  · exact fit_settled 32 a.natAbs
  · exact fit_settled 64 a.natAbs

/-- Without arrays an expression has a value or an error. -/
theorem mathEval_settled {e : PgExpr} (shape : IntShape natives s e) (scalars : scalarOnly e = true)
    (mem : Nat → Cell) : Settled SqlVal.IsInt (mathEval natives mem e) := by
  induction shape with
  | const own => exact .ok ⟨_, TypeOid.read_eq own _⟩
  | param own => exact .ok ⟨_, TypeOid.read_eq own _⟩
  | binary sizes left right ihl ihr =>
    simp only [scalarOnly, scalarsOnly, Bool.and_eq_true] at scalars
    simp only [mathEval, mathEval_two, Meaning.two]
    refine (ihl scalars.1).bind ?_
    rintro _ ⟨a, rfl⟩
    refine (ihr scalars.2.1).bind ?_
    rintro _ ⟨b, rfl⟩
    exact apply_binary_settled sizes a b
  | negate negates operand ih =>
    simp only [scalarOnly, scalarsOnly, Bool.and_eq_true] at scalars
    simp only [mathEval, mathEval_one, Meaning.one]
    refine (ih scalars.1).bind ?_
    rintro _ ⟨a, rfl⟩
    exact apply_negate_settled negates a
  | abs absolute operand ih =>
    simp only [scalarOnly, scalarsOnly, Bool.and_eq_true] at scalars
    simp only [mathEval, mathEval_one, Meaning.one]
    refine (ih scalars.1).bind ?_
    rintro _ ⟨a, rfl⟩
    exact apply_abs_settled absolute a
  | relabel operand ih =>
    rw [mathEval]
    exact ih scalars
  | elem own typed subscript ih => cases scalars

theorem mathEval_settled_bool {e : PgExpr} (shape : CondShape natives e) (scalars : scalarOnly e = true)
    (mem : Nat → Cell) : Settled SqlVal.IsBool (mathEval natives mem e) := by
  induction shape with
  | const => exact .ok ⟨_, rfl⟩
  | param => exact .ok ⟨_, rfl⟩
  | compare compares same left right =>
    simp only [scalarOnly, scalarsOnly, Bool.and_eq_true] at scalars
    simp only [mathEval, mathEval_two, Meaning.two, apply_compare compares]
    refine (mathEval_settled left scalars.1 mem).bind ?_
    rintro _ ⟨a, rfl⟩
    refine (mathEval_settled right scalars.2.1 mem).bind ?_
    rintro _ ⟨b, rfl⟩
    exact .ok ⟨_, rfl⟩
  | equate bools left right ihl ihr =>
    simp only [scalarOnly, scalarsOnly, Bool.and_eq_true] at scalars
    simp only [mathEval, mathEval_two, Meaning.two]
    refine (ihl scalars.1).bind ?_
    rintro _ ⟨a, rfl⟩
    refine (ihr scalars.2.1).bind ?_
    rintro _ ⟨b, rfl⟩
    rcases bools with rfl | rfl
    · exact .ok ⟨_, rfl⟩
    · exact .ok ⟨_, rfl⟩

/-- Integer expressions over constants and variables, and comparisons of them, are
compiled to code that computes their value or raises the error of their first
node that fails, and that never runs into undefined behaviour. -/
theorem tier1_arithmetic (natives : Nat → Option IntSize) (e : PgExpr) (tree : intTree natives e = true)
    (scalars : scalarOnly e = true) :
    (∀ s : IntSize, classifyExpr e = s.cls →
      ∃ c : Code (.int s), compileExprDatum natives e = .ok ⟨.int s, c⟩ ∧
        ∀ mem, Computes (c.run mem) (mathEval natives mem e) ∧ c.run mem ≠ .undefined) ∧
    (classifyExpr e = .bool →
      ∃ c : Code .i1, compileExprBool natives e = .ok c ∧
        ∀ mem, ComputesBool (c.run mem) (mathEval natives mem e) ∧ c.run mem ≠ .undefined) := by
  constructor
  · intro s cls
    have shape := intShape_of_classify e tree cls
    obtain ⟨_, compiled, c, rfl, meets⟩ := compileExprDatum_yields shape
    exact ⟨c, compiled, fun mem => ⟨meets mem, (mathEval_settled shape scalars mem).defined (meets mem)⟩⟩
  · intro cls
    have shape := condShape_of_classify e tree cls
    obtain ⟨c, compiled, meets⟩ := compileExprBool_yields shape
    exact ⟨c, compiled, fun mem =>
      ⟨meets mem, (mathEval_settled_bool shape scalars mem).defined (meets mem)⟩⟩

end Trees

/-- The least int4 and -1. -/
def leastAndMinusOne : Nat → Cell
  | 0 => .scalar ⟨0x80000000, false⟩
  | _ => .scalar ⟨0xFFFFFFFF, false⟩

def overVariables (fid : Fid) : PgExpr := .opExpr fid 0 [.param true 0 .int4, .param true 1 .int4]

theorem tier1_arithmetic_least :
    (∃ c : Code (.int .i32),
      compileExprDatum (fun _ => none) (overVariables .int4mod) = .ok ⟨.int .i32, c⟩ ∧
        Computes (c.run leastAndMinusOne) (.ok (.int 0))) ∧
    (∃ c : Code (.int .i32),
      compileExprDatum (fun _ => none) (overVariables .int4div) = .ok ⟨.int .i32, c⟩ ∧
        Computes (c.run leastAndMinusOne) (.raise .outOfRange)) ∧
    ∃ c : Code .i1,
      compileExprBool (fun _ => none) (overVariables .int4lt) = .ok c ∧
        ComputesBool (c.run leastAndMinusOne) (.ok (.bool true)) := by
  refine ⟨?_, ?_, ?_⟩
  · obtain ⟨c, compiled, run⟩ :=
      (tier1_arithmetic (fun _ => none) (overVariables .int4mod) (by decide) (by decide)).1 .i32
        (by decide)
    exact ⟨c, compiled, (run leastAndMinusOne).1⟩
  · obtain ⟨c, compiled, run⟩ :=
      (tier1_arithmetic (fun _ => none) (overVariables .int4div) (by decide) (by decide)).1 .i32
        (by decide)
    exact ⟨c, compiled, (run leastAndMinusOne).1⟩
  · obtain ⟨c, compiled, run⟩ :=
      (tier1_arithmetic (fun _ => none) (overVariables .int4lt) (by decide) (by decide)).2 (by decide)
    exact ⟨c, compiled, (run leastAndMinusOne).1⟩

end Uplpgsql
