import Uplpgsql.Expr.Arithmetic

/-!
# NULLs in native expressions

Tier 1 decides once, up front, whether an expression is NULL, and computes it
only if it is not. To decide, it computes every subscript on the Datums it
finds, also those of NULL variables and out of range. The executor evaluates
arguments first and never looks at a NULL's Datum.
-/

namespace Uplpgsql

open Lib.Words

/-! ### The executor -/

/-- A Datum that may be NULL, read at a type. -/
def NullableDatum.read (ty : TypeOid) (d : NullableDatum) : Option SqlVal :=
  if d.isnull then none else some (ty.read d.value)

/-- Every function is strict. -/
def Fid.applyStrict (fid : Fid) (args : List (Option SqlVal)) : Native ArithError (Option SqlVal) :=
  match args.allSome with
  | some vs => do .ok (some (← fid.apply vs))
  | none => .ok none

section Strict

variable (mem : Nat → Cell)

/-- A NULL subscript fetches NULL. -/
def fetchStrict (ty : TypeOid) (dno : Nat) : Option SqlVal → Native ArithError (Option SqlVal)
  | some (.int i) => .ok ((arrayGetElement (BitVec.ofInt 32 i) (mem dno).arrayValue).read ty)
  | some _ => .undefined
  | none => .ok none

mutual

/-- The executor's value, `none` for NULL. The subscript of a NULL array is not
evaluated. -/
def strictEval : PgExpr → Native ArithError (Option SqlVal)
  | .const ty isnull v => .ok (if isnull then none else some (ty.read v))
  | .param _ dno ty => .ok (if (mem dno).isnull then none else some (ty.read (mem dno).value))
  | .opExpr fid _ args => do fid.applyStrict (← strictArgs args)
  | .funcExpr fid _ args => do fid.applyStrict (← strictArgs args)
  | .relabelType arg => strictEval arg
  | .subscriptingRef ty (.param _ dno _) [idx] _ _ =>
    if (mem dno).isnull then .ok none else do fetchStrict mem ty dno (← strictEval idx)
  | _ => .undefined

def strictArgs : List PgExpr → Native ArithError (List (Option SqlVal))
  | [] => .ok []
  | e :: es => do
    let v ← strictEval e
    let vs ← strictArgs es
    .ok (v :: vs)

end

end Strict

section Equations

attribute [local simp] strictEval strictArgs

end Equations

/-! ### The compiled assignment and condition -/

/-- A value behind a NULL test; no test where nothing can be NULL. -/
structure GuardedCode (t : IrType) where
  anyNull : Option (Code .i1)
  value : Code t

namespace GuardedCode

variable {t : IrType} (c : GuardedCode t) (mem : Nat → Cell)

/-- The value is computed only on the branch where it is not NULL. -/
def run : Native ErrorData (Option t.Val) :=
  match c.anyNull with
  | none => do .ok (some (← c.value.run mem))
  | some test => do
    if ← test.run mem then .ok none else .ok (some (← c.value.run mem))

end GuardedCode

/-- What `uplpgsql_emit_store_var_datum` and `uplpgsql_emit_store_var_null` leave
in the variable. -/
def storeVar : Option (BitVec 64) → NullableDatum
  | some d => ⟨d, false⟩
  | none => .null

def nativeToDatum : AnyCode → ExprTypeClass → Except Unhandled (Code (.int .i64))
  | ⟨.int .i32, c⟩, .int4 => .ok (.sext c)
  | ⟨.int .i64, c⟩, .int8 => .ok c
  | _, _ => .error .illTyped

def TypeOid.oidToTypeClass : TypeOid → ExprTypeClass
  | .int4 => .int4
  | .int8 => .int8
  | .float8 => .float8
  | _ => .unknown

section Compile

variable (natives : Nat → Option IntSize)

/-- Tier 1 of `uplpgsql_try_compile_assign`; `none` where Tier 1 declines. -/
def tryCompileAssign (target : TypeOid) (e : PgExpr) :
    Except Unhandled (Option (GuardedCode (.int .i64))) :=
  if classifyExpr e ≠ .unknown ∧ classifyExpr e = target.oidToTypeClass then do
    let anyNull ← tier1ExprAnyNull natives e
    let result ← compileExprDatum natives e
    .ok (some ⟨anyNull, ← nativeToDatum result (classifyExpr e)⟩)
  else .ok none

/-- Tier 1 of `uplpgsql_try_compile_bool`. -/
def tryCompileBool (e : PgExpr) : Except Unhandled (Option (GuardedCode .i1)) :=
  if classifyExpr e = .bool then do
    let anyNull ← tier1ExprAnyNull natives e
    .ok (some ⟨anyNull, ← compileExprBool natives e⟩)
  else .ok none

end Compile

/-- The variable after the assignment. -/
def GuardedCode.assign (c : GuardedCode (.int .i64)) (mem : Nat → Cell) :
    Native ErrorData NullableDatum := do
  .ok (storeVar (← c.run mem))

/-- The condition: NULL is not true. -/
def GuardedCode.test (c : GuardedCode .i1) (mem : Nat → Cell) : Native ErrorData Bool := do
  .ok ((← c.run mem).getD false)

/-- Cells whose native arrays have the mirrors of their values. -/
structure Memory (natives : Nat → Option IntSize) where
  cells : Nat → Cell
  mirrored : ∀ {dno : Nat} {s : IntSize}, natives dno = some s →
    ∃ a m, cells dno = .array a m ∧ m.Denotes a

/-! ### When they agree -/

section Condition

variable (natives : Nat → Option IntSize) (mem : Nat → Cell)

/-- The flag of an element is loaded without a look at the bounds. -/
def probeFlag (dno : Nat) : SqlVal → Native ArithError Unit
  | .int i =>
    match natives dno with
    | some _ => do
      let _ ← emitNativeArrayElemIsnull (mem dno).mirror (BitVec.ofInt 32 i - (mem dno).mirror.lb)
      .ok ()
    | none => .ok ()
  | _ => .undefined

mutual

/-- Every subscript, the inner ones first, on the Datums its variables hold. -/
def probeSubscripts : PgExpr → Native ArithError Unit
  | .opExpr _ _ args => probeArgs args
  | .funcExpr _ _ args => probeArgs args
  | .relabelType arg => probeSubscripts arg
  | .subscriptingRef _ (.param _ dno _) [idx] _ _ => do
    probeSubscripts idx
    probeFlag natives mem dno (← mathEval natives mem idx)
  | _ => .ok ()

def probeArgs : List PgExpr → Native ArithError Unit
  | [] => .ok ()
  | e :: es => do
    probeSubscripts e
    probeArgs es

end

mutual

/-- Some variable is NULL, or some array has no element or a NULL where it is
read. -/
def hasNull : PgExpr → Bool
  | .const _ isnull _ => isnull
  | .param _ dno _ => (mem dno).isnull
  | .opExpr _ _ args => anyHasNull args
  | .funcExpr _ _ args => anyHasNull args
  | .relabelType arg => hasNull arg
  | .subscriptingRef ty (.param external dno pty) [idx] lower assign =>
    hasNull idx ||
      strictEval mem (.subscriptingRef ty (.param external dno pty) [idx] lower assign) = .ok none
  | _ => false

def anyHasNull : List PgExpr → Bool
  | [] => false
  | e :: es => hasNull e || anyHasNull es

end

section Equations

attribute [local simp] probeSubscripts probeArgs hasNull anyHasNull

end Equations

/-- The first subscript that fails on the Datums at hand, if there is one, fails
with the error of the evaluation; and no NULL hides an error. -/
def Undisturbed (e : PgExpr) : Prop :=
  match probeSubscripts natives mem e with
  | .ok () => hasNull mem e = true → ∀ err, strictEval mem e ≠ .raise err
  | .raise err => strictEval mem e = .raise err
  | .undefined => False

end Condition

/-! ### Elements -/

section Elements

variable {ε : Type} {m : Mirror} {a : ArrayDatum} {lb i : BitVec 32} {elems : List (Option (BitVec 64))}

/-- The subscripts a flat array has elements for. -/
def Within (lb : BitVec 32) (elems : List (Option (BitVec 64))) (i : BitVec 32) : Prop :=
  lb.toInt ≤ i.toInt ∧ i.toInt < lb.toInt + elems.length

theorem arrayGetElement_within (within : Within lb elems i) :
    arrayGetElement i (.flat lb elems) =
      .ofOption (elems[(i.toInt - lb.toInt).toNat]?.join) := by
  have bounds := within
  unfold Within at bounds
  rw [arrayGetElement, if_neg (by omega)]

theorem arrayGetElement_outside (outside : ¬Within lb elems i) :
    arrayGetElement i (.flat lb elems) = .null := by
  unfold Within at outside
  rw [arrayGetElement, if_pos (by omega)]

/-- The upper bound may be the greatest int4, but is never past it. -/
theorem Mirror.Denotes.last (denotes : m.Denotes (.flat lb elems)) :
    (m.lb + m.len - 1).toInt = lb.toInt + elems.length - 1 := by
  obtain ⟨rfl, pos, len, fits, -⟩ := denotes
  have range := toInt_fits m.lb
  have wide := toInt_fits m.len
  have one : (1 : BitVec 32).toInt = 1 := rfl
  simp only [Fits] at range wide
  have before : (m.len - 1).toInt = elems.length - 1 := by
    rw [toInt_sub_of_fits, len, one]
    simp only [Fits, len, one]
    omega
  have swap : m.lb + m.len - 1 = m.lb + (m.len - 1) := by
    rw [BitVec.sub_eq_add_neg, BitVec.sub_eq_add_neg, BitVec.add_assoc]
  rw [swap, toInt_add_of_fits, before]
  · omega
  · simp only [Fits, before]
    omega

theorem Mirror.Denotes.inRange_iff (denotes : m.Denotes (.flat lb elems)) :
    (m.len.slt 0 || i.slt m.lb || (m.lb + m.len - 1).slt i) = false ↔ Within lb elems i := by
  have last := denotes.last
  obtain ⟨rfl, pos, len, -⟩ := denotes
  have zero : (0 : BitVec 32).toInt = 0 := rfl
  simp only [BitVec.slt, Bool.or_eq_false_iff, decide_eq_false_iff_not, len, last, zero, Within]
  omega

theorem Within.idx0 (within : Within lb elems i) (len : (elems.length : Int) < 2 ^ 31) :
    (i - lb).toInt = i.toInt - lb.toInt := by
  apply toInt_sub_of_fits
  unfold Within at within
  simp only [Fits]
  omega

theorem loadAt_of_getElem {α : Type} {xs : List α} {x : α} {idx0 : BitVec 32} (nonneg : 0 ≤ idx0.toInt)
    (here : xs[idx0.toInt.toNat]? = some x) : (loadAt (some xs) idx0 : Native ε α) = .ok x := by
  rw [loadAt, if_neg (by omega), here]

/-- An element in range is in the buffers. -/
theorem Mirror.Denotes.load (denotes : m.Denotes (.flat lb elems)) (within : Within lb elems i) :
    ∃ (flag : Bool) (d : BitVec 64),
      (emitNativeArrayElemIsnull m (i - m.lb) : Native ε Bool) = .ok flag ∧
      (emitNativeElem m i : Native ε (BitVec 64)) = .ok d ∧
      arrayGetElement i (.flat lb elems) = .ofOption (if flag = true then none else some d) := by
  obtain ⟨rfl, pos, len, -, buf, data, long, flags, denoted⟩ := denotes
  have wide := toInt_fits m.len
  simp only [Fits, len] at wide
  have idx0 := within.idx0 (by omega)
  rw [arrayGetElement_within within]
  unfold Within at within
  have bound : (i.toInt - m.lb.toInt).toNat < elems.length := by omega
  obtain ⟨d, here⟩ : ∃ d, buf[(i.toInt - m.lb.toInt).toNat]? = some d :=
    ⟨_, List.getElem?_eq_getElem (Nat.lt_of_lt_of_le bound long)⟩
  have loaded : (emitNativeElem m i : Native ε (BitVec 64)) = .ok d := by
    rw [emitNativeElem, data]
    refine loadAt_of_getElem (by omega) ?_
    rw [idx0]
    exact here
  rw [denoted _ bound, here]
  cases nulls : m.nulls with
  | none =>
    refine ⟨false, d, by rw [emitNativeArrayElemIsnull, if_pos nulls], loaded, ?_⟩
    simp
  | some fs =>
    obtain ⟨flag, there⟩ : ∃ flag, fs[(i.toInt - m.lb.toInt).toNat]? = some flag :=
      ⟨_, List.getElem?_eq_getElem (Nat.lt_of_lt_of_le bound (flags fs nulls))⟩
    refine ⟨flag, d, ?_, loaded, ?_⟩
    · rw [emitNativeArrayElemIsnull, nulls, if_neg (by rintro ⟨⟩)]
      refine loadAt_of_getElem (by omega) ?_
      rw [idx0]
      exact there
    · simp only [Option.bind_some, there, Option.getD_some, Option.map_some]
      split <;> rfl

/-- The NULL test of an element, apart from its load, is right. -/
theorem Mirror.Denotes.isnull (denotes : m.Denotes a) :
    (emitNativeIsnull m i : Native ε Bool) =
      emitNativeArrayElemIsnull m (i - m.lb) >>= fun _ => .ok (arrayGetElement i a).isnull := by
  have always (flagless : m.nulls = none) (isnull : (arrayGetElement i a).isnull = true)
      (oob : (m.len.slt 0 || i.slt m.lb || (m.lb + m.len - 1).slt i) = true) :
      (emitNativeIsnull m i : Native ε Bool) =
        emitNativeArrayElemIsnull m (i - m.lb) >>= fun _ => .ok (arrayGetElement i a).isnull := by
    rw [emitNativeIsnull, oob, isnull]
    simp [emitNativeArrayElemIsnull, flagless]
  have emptyRange (len : m.len = 0) (lb : m.lb = 1) :
      (m.len.slt 0 || i.slt m.lb || (m.lb + m.len - 1).slt i) = true := by
    rw [len, lb]
    have one : (1 : BitVec 32).toInt = 1 := rfl
    have zero : (1 + 0 - 1 : BitVec 32).toInt = 0 := rfl
    simp only [BitVec.slt, Bool.or_eq_true, decide_eq_true_eq, one, zero]
    omega
  cases a with
  | null => exact always denotes.2.2 rfl (emptyRange denotes.1 denotes.2.1)
  | empty => exact always denotes.2.2 rfl (emptyRange denotes.1 denotes.2.1)
  | multi dims elems =>
    refine always denotes.2 rfl ?_
    rw [denotes.1]
    rfl
  | flat lb elems =>
    by_cases within : Within lb elems i
    · obtain ⟨flag, d, flagged, -, elem⟩ := denotes.load within
      rw [emitNativeIsnull, flagged, elem, denotes.inRange_iff.mpr within]
      cases flag <;> rfl
    · rw [emitNativeIsnull, arrayGetElement_outside within,
        Bool.of_not_eq_false fun inRange => within (denotes.inRange_iff.mp inRange)]
      rfl

/-- An element that is not NULL is loaded. -/
theorem Mirror.Denotes.elem (denotes : m.Denotes a) (notnull : (arrayGetElement i a).isnull = false) :
    (emitNativeElem m i : Native ε (BitVec 64)) = .ok (arrayGetElement i a).value := by
  cases a with
  | flat lb elems =>
    by_cases within : Within lb elems i
    · obtain ⟨flag, d, -, loaded, elem⟩ := denotes.load (ε := ε) within
      rw [elem] at notnull ⊢
      cases flag with
      | false => exact loaded
      | true => cases notnull
    · rw [arrayGetElement_outside within] at notnull
      cases notnull
  | _ => cases notnull

end Elements

/-! ### The two evaluations -/

section Evaluations

def strictOne (f : SqlVal → Native ArithError SqlVal) :
    Option SqlVal → Native ArithError (Option SqlVal)
  | some a => do .ok (some (← f a))
  | none => .ok none

def strictTwo (f : SqlVal → SqlVal → Native ArithError SqlVal) :
    Option SqlVal → Option SqlVal → Native ArithError (Option SqlVal)
  | some a, some b => do .ok (some (← f a b))
  | _, _ => .ok none

theorem strictArgs_one (mem : Nat → Cell) (fid : Fid) (arg : PgExpr) :
    (do fid.applyStrict (← strictArgs mem [arg])) =
      strictEval mem arg >>= strictOne fun a => fid.apply [a] := by
  simp only [strictArgs, Native.bind_assoc, Native.ok_bind]
  congr 1
  funext a
  cases a <;> rfl

theorem strictArgs_two (mem : Nat → Cell) (fid : Fid) (el er : PgExpr) :
    (do fid.applyStrict (← strictArgs mem [el, er])) =
      strictEval mem el >>= fun a =>
        strictEval mem er >>= fun b => strictTwo (fun a b => fid.apply [a, b]) a b := by
  simp only [strictArgs, Native.bind_assoc, Native.ok_bind]
  congr 1
  funext a
  congr 1
  funext b
  cases a <;> cases b <;> rfl

/-- A value of the kind, NULL, or an error. -/
inductive StrictOutcome (kind : SqlVal → Prop) : Native ArithError (Option SqlVal) → Prop where
  | value {v : SqlVal} (is : kind v) : StrictOutcome kind (.ok (some v))
  | null : StrictOutcome kind (.ok none)
  | raise (err : ArithError) : StrictOutcome kind (.raise err)

variable {kind kind' kindl kindr : SqlVal → Prop} {m l r : Native ArithError (Option SqlVal)}

theorem StrictOutcome.bind {f : Option SqlVal → Native ArithError (Option SqlVal)} (outcome : StrictOutcome kind m)
    (onValue : ∀ v, kind v → StrictOutcome kind' (f (some v))) (onNull : StrictOutcome kind' (f none)) :
    StrictOutcome kind' (m >>= f) := by
  cases outcome with
  | value is => exact onValue _ is
  | null => exact onNull
  | raise err => exact .raise err

theorem Settled.outcome {x : Native ArithError SqlVal} (settled : Settled kind x) :
    StrictOutcome kind (x >>= fun v => .ok (some v)) := by
  cases settled with
  | ok is => exact .value is
  | raise err => exact .raise err

/-- There is no value: NULL or an error. -/
def NoValue (m : Native ArithError (Option SqlVal)) : Prop := ∀ v, m ≠ .ok (some v)

theorem NoValue.bind_one (none : NoValue m) (f : SqlVal → Native ArithError SqlVal) :
    NoValue (m >>= strictOne f) := by
  intro v
  cases m with
  | ok o =>
    cases o with
    | some a => exact absurd rfl (none a)
    | none => nofun
  | raise err => nofun
  | undefined => nofun

theorem NoValue.bind_two (none : NoValue l ∨ NoValue r) (f : SqlVal → SqlVal → Native ArithError SqlVal) :
    NoValue (l >>= fun a => r >>= fun b => strictTwo f a b) := by
  intro v
  cases l with
  | ok a =>
    cases r with
    | ok b =>
      cases a with
      | some a =>
        cases b with
        | some b => exact none.elim (fun left => absurd rfl (left a)) fun right => absurd rfl (right b)
        | none => nofun
      | none => nofun
    | raise err => nofun
    | undefined => nofun
  | raise err => nofun
  | undefined => nofun

variable (natives : Nat → Option IntSize) (mem : Nat → Cell)

/-- The executor's evaluation, beside the computation on stored Datums. -/
structure Evaluates (kind : SqlVal → Prop) (e : PgExpr) : Prop where
  outcome : StrictOutcome kind (strictEval mem e)
  null : hasNull mem e = true → NoValue (strictEval mem e)
  plain : probeSubscripts natives mem e = .ok () → hasNull mem e = false →
    strictEval mem e = mathEval natives mem e >>= fun v => .ok (some v)

variable {natives mem} {e el er : PgExpr}

theorem probed_left {x : Native ArithError Unit} {f : Unit → Native ArithError Unit}
    (probed : (x >>= f) = .ok ()) : x = .ok () ∧ f () = .ok () := by
  cases x with
  | ok u => exact ⟨rfl, probed⟩
  | raise err => cases probed
  | undefined => cases probed

/-- A strict function of one argument. -/
theorem Evaluates.one {arg : PgExpr} {f : SqlVal → Native ArithError SqlVal}
    (operand : Evaluates natives mem kind arg) (result : ∀ a, kind a → Settled kind' (f a))
    (strict : strictEval mem e = strictEval mem arg >>= strictOne f)
    (math : mathEval natives mem e = mathEval natives mem arg >>= f)
    (nulls : hasNull mem e = hasNull mem arg)
    (probe : probeSubscripts natives mem e = probeSubscripts natives mem arg >>= fun _ => .ok ()) :
    Evaluates natives mem kind' e := by
  refine ⟨?_, ?_, ?_⟩
  · rw [strict]
    exact operand.outcome.bind (fun a is => (result a is).outcome) .null
  · rw [strict, nulls]
    exact fun isnull => (operand.null isnull).bind_one f
  · intro probed notnull
    rw [probe] at probed
    rw [nulls] at notnull
    rw [strict, math, operand.plain (probed_left probed).1 notnull, Native.bind_assoc, Native.bind_assoc]
    rfl

theorem Evaluates.opExpr_one {fid : Fid} {coll : Nat} (operand : Evaluates natives mem kind e)
    (result : ∀ a, kind a → Settled kind' (fid.apply [a])) :
    Evaluates natives mem kind' (.opExpr fid coll [e]) := by
  apply operand.one result
  · rw [strictEval, strictArgs_one]
  · rw [mathEval, mathEval_one, Meaning.one]
  · simp [hasNull, anyHasNull]
  · rw [probeSubscripts, probeArgs, probeArgs]

theorem Evaluates.funcExpr_one {fid : Fid} {coll : Nat} (operand : Evaluates natives mem kind e)
    (result : ∀ a, kind a → Settled kind' (fid.apply [a])) :
    Evaluates natives mem kind' (.funcExpr fid coll [e]) := by
  apply operand.one result
  · rw [strictEval, strictArgs_one]
  · rw [mathEval, mathEval_one, Meaning.one]
  · simp [hasNull, anyHasNull]
  · rw [probeSubscripts, probeArgs, probeArgs]

theorem Evaluates.opExpr_two {fid : Fid} {coll : Nat} (left : Evaluates natives mem kindl el)
    (right : Evaluates natives mem kindr er)
    (result : ∀ a b, kindl a → kindr b → Settled kind (fid.apply [a, b])) :
    Evaluates natives mem kind (.opExpr fid coll [el, er]) := by
  refine ⟨?_, ?_, ?_⟩
  · rw [strictEval, strictArgs_two]
    refine left.outcome.bind (fun a isl => ?_) ?_
    · exact right.outcome.bind (fun b isr => (result a b isl isr).outcome) .null
    · exact right.outcome.bind (fun b isr => .null) .null
  · intro isnull
    rw [strictEval, strictArgs_two]
    simp only [hasNull, anyHasNull, Bool.or_false, Bool.or_eq_true] at isnull
    exact NoValue.bind_two (isnull.imp left.null right.null) _
  · intro probed notnull
    simp only [hasNull, anyHasNull, Bool.or_false, Bool.or_eq_false_iff] at notnull
    rw [probeSubscripts, probeArgs, probeArgs] at probed
    obtain ⟨probedl, rest⟩ := probed_left probed
    obtain ⟨probedr, -⟩ := probed_left rest
    rw [strictEval, strictArgs_two, left.plain probedl notnull.1, right.plain probedr notnull.2,
      mathEval, mathEval_two, Meaning.two]
    simp only [Native.bind_assoc, Native.ok_bind, strictTwo]

/-- NULL, or an element of the type. -/
theorem fetchStrict_outcome {ty : TypeOid} {s : IntSize} (cls : ty.exprClass = s.cls) (dno : Nat)
    (i : Int) : StrictOutcome SqlVal.IsInt (fetchStrict mem ty dno (some (.int i))) := by
  rw [fetchStrict, NullableDatum.read]
  split
  · exact .null
  · exact .value ⟨_, TypeOid.read_eq cls _⟩

theorem probeFlag_int {dno : Nat} {v : SqlVal} (probed : probeFlag natives mem dno v = .ok ()) :
    ∃ i, v = .int i := by
  cases v with
  | int i => exact ⟨i, rfl⟩
  | bool b => cases probed

/-- An element that is not NULL is read as it is stored. -/
theorem Memory.rawElem (mem : Memory natives) {dno : Nat} {i : BitVec 32}
    (notnull : (arrayGetElement i (mem.cells dno).arrayValue).isnull = false) :
    Uplpgsql.rawElem natives mem.cells dno i =
      .ok (arrayGetElement i (mem.cells dno).arrayValue).value := by
  rw [Uplpgsql.rawElem]
  split
  next s native =>
    obtain ⟨a, m, cell, denotes⟩ := mem.mirrored native
    rw [cell] at notnull ⊢
    exact denotes.elem notnull
  next => rfl

theorem Evaluates.elem {mem : Memory natives} {s : IntSize} {ty pty : TypeOid} {dno : Nat} {idx : PgExpr}
    (cls : ty.exprClass = s.cls) (subscript : Evaluates natives mem.cells SqlVal.IsInt idx) :
    Evaluates natives mem.cells SqlVal.IsInt
      (.subscriptingRef ty (.param true dno pty) [idx] [] false) := by
  refine ⟨?_, ?_, ?_⟩
  · rw [strictEval]
    split
    · exact .null
    · refine subscript.outcome.bind ?_ .null
      rintro _ ⟨i, rfl⟩
      exact fetchStrict_outcome cls dno i
  -- The array or the subscript is null.
  · intro isnull v
    simp only [hasNull, Bool.or_eq_true, decide_eq_true_eq] at isnull
    rcases isnull with isnull | isnull
    · rw [strictEval]
      split
      · nofun
      · have none := subscript.null isnull
        cases eval : strictEval mem.cells idx with
        | ok o =>
          cases o with
          | some a => exact absurd eval (none a)
          | none => nofun
        | raise err => nofun
        | undefined => nofun
    · rw [isnull]
      nofun
  -- Neither is, and an element that is not null is in the buffer.
  · intro probed notnull
    simp only [hasNull, Bool.or_eq_false_iff, decide_eq_false_iff_not] at notnull
    obtain ⟨notnull, some⟩ := notnull
    rw [probeSubscripts] at probed
    obtain ⟨probedIdx, rest⟩ := probed_left probed
    cases raw : mathEval natives mem.cells idx with
    | raise err => rw [raw] at rest; cases rest
    | undefined => rw [raw] at rest; cases rest
    | ok v =>
      rw [raw] at rest
      obtain ⟨i, rfl⟩ := probeFlag_int rest
      have eval := subscript.plain probedIdx notnull
      rw [raw] at eval
      rw [strictEval] at some ⊢
      split at some
      next => exact absurd rfl some
      next isnull =>
        rw [eval] at some ⊢
        have elem : (arrayGetElement (BitVec.ofInt 32 i) (mem.cells dno).arrayValue).isnull = false := by
          rw [← Bool.not_eq_true]
          intro null
          exact some (by simp [fetchStrict, NullableDatum.read, null])
        simp only [if_neg isnull, mathEval, raw, Native.ok_bind, readElem, mem.rawElem elem,
          fetchStrict, NullableDatum.read, elem, Bool.false_eq_true, if_false]

theorem Evaluates.param {ty : TypeOid} {dno : Nat} (is : ∀ d, kind (ty.read d)) :
    Evaluates natives mem kind (.param true dno ty) := by
  refine ⟨?_, ?_, ?_⟩
  · rw [strictEval]
    split
    · exact .null
    · exact .value (is _)
  · intro isnull v
    rw [hasNull] at isnull
    rw [strictEval, if_pos isnull]
    nofun
  · intro _ notnull
    rw [hasNull] at notnull
    rw [strictEval, notnull]
    rfl

theorem evaluates_int {s : IntSize} (mem : Memory natives) (shape : IntShape natives s e) :
    Evaluates natives mem.cells SqlVal.IsInt e := by
  induction shape with
  | const own =>
    exact ⟨.value ⟨_, TypeOid.read_eq own _⟩, nofun, fun _ _ => rfl⟩
  | param own => exact .param fun d => ⟨_, TypeOid.read_eq own d⟩
  | binary sizes _ _ left right =>
    refine left.opExpr_two right ?_
    rintro _ _ ⟨a, rfl⟩ ⟨b, rfl⟩
    exact apply_binary_settled sizes a b
  | negate negates _ operand =>
    refine operand.opExpr_one ?_
    rintro _ ⟨a, rfl⟩
    exact apply_negate_settled negates a
  | abs absolute _ operand =>
    refine operand.funcExpr_one ?_
    rintro _ ⟨a, rfl⟩
    exact apply_abs_settled absolute a
  | relabel _ operand =>
    refine ⟨?_, ?_, ?_⟩
    · simpa only [strictEval] using operand.outcome
    · simpa only [strictEval, hasNull] using operand.null
    · simpa only [strictEval, hasNull, probeSubscripts, mathEval] using operand.plain
  | elem own _ _ subscript => exact subscript.elem own

theorem apply_equate_settled {fid : Fid} (bools : fid = .booleq ∨ fid = .boolne) (a b : Bool) :
    Settled SqlVal.IsBool (fid.apply [.bool a, .bool b]) := by
  rcases bools with rfl | rfl
  · exact .ok ⟨_, rfl⟩
  · exact .ok ⟨_, rfl⟩

theorem evaluates_cond (mem : Memory natives) (shape : CondShape natives e) :
    Evaluates natives mem.cells SqlVal.IsBool e := by
  induction shape with
  | const => exact ⟨.value ⟨_, rfl⟩, nofun, fun _ _ => rfl⟩
  | param => exact .param fun d => ⟨_, rfl⟩
  | compare compares _ left right =>
    refine (evaluates_int mem left).opExpr_two (evaluates_int mem right) ?_
    rintro _ _ ⟨a, rfl⟩ ⟨b, rfl⟩
    rw [apply_compare compares]
    exact .ok ⟨_, rfl⟩
  | equate bools _ _ left right =>
    refine left.opExpr_two right ?_
    rintro _ _ ⟨a, rfl⟩ ⟨b, rfl⟩
    exact apply_equate_settled bools a b

end Evaluations

end Uplpgsql
