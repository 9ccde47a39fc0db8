import Uplpgsql.Arrays.Mirror
import Uplpgsql.Env

/-!
# Tier 1: native integer code

Expressions over integers whose operators are all strict are compiled to LLVM
instructions. `Code` is the emitted code, with the LLVM type of its value;
where an emitter adds blocks, one constructor stands for all of them and `run`
says what they do in order. The float8 operators of Tier 1 are left out.
-/

namespace Uplpgsql

open Lib.Words

/-! ### Classification -/

inductive ExprTypeClass where
  | int4
  | int8
  | float8
  | bool
  | unknown
  deriving DecidableEq, Repr

def TypeOid.exprClass : TypeOid → ExprTypeClass
  | .int4 => .int4
  | .int8 => .int8
  | .float8 => .float8
  | .bool => .bool
  | .other _ => .unknown

/-- What the classifier asks of an operator's arguments. -/
inductive OpRule where
  /-- All of them have the class of the result. -/
  | all (result : ExprTypeClass)
  | two (left right result : ExprTypeClass)
  deriving DecidableEq, Repr

def Fid.opRule : Fid → Option OpRule
  | .int4pl | .int4mi | .int4mul | .int4div | .int4mod | .int4um => some (.all .int4)
  | .int8pl | .int8mi | .int8mul | .int8div | .int8mod | .int8um => some (.all .int8)
  | .int4eq | .int4ne | .int4lt | .int4le | .int4gt | .int4ge => some (.two .int4 .int4 .bool)
  | .int8eq | .int8ne | .int8lt | .int8le | .int8gt | .int8ge => some (.two .int8 .int8 .bool)
  | .booleq | .boolne => some (.two .bool .bool .bool)
  | .int84eq | .int84ne | .int84lt | .int84le | .int84gt | .int84ge => some (.two .int8 .int4 .bool)
  | .int48eq | .int48ne | .int48lt | .int48le | .int48gt | .int48ge => some (.two .int4 .int8 .bool)
  | .int84pl | .int84mi | .int84mul | .int84div => some (.two .int8 .int4 .int8)
  | .int48pl | .int48mi | .int48mul | .int48div => some (.two .int4 .int8 .int8)
  | .int4abs | .int8abs | .float8Numeric | .other _ => none

def PgExpr.isConst : PgExpr → Bool
  | .const _ _ _ => true
  | _ => false

/-- The functions of one argument, by its class. -/
def classifyFunc (fid : Fid) (isConst : Bool) (arg : ExprTypeClass) : ExprTypeClass :=
  match fid with
  | .int4abs => if arg = .int4 then .int4 else .unknown
  | .int8abs => if arg = .int8 then .int8 else .unknown
  | .float8Numeric => if isConst then .float8 else .unknown
  | _ => .unknown

mutual

def classifyExpr : PgExpr → ExprTypeClass
  | .const consttype constisnull _ => if constisnull then .unknown else consttype.exprClass
  | .param external _ paramtype => if external then paramtype.exprClass else .unknown
  | .opExpr fid _ args =>
    match fid.opRule with
    | some (.all result) => if classifiesAll result args then result else .unknown
    | some (.two left right result) =>
      match args with
      | [l, r] => if classifyExpr l = left ∧ classifyExpr r = right then result else .unknown
      | _ => .unknown
    | none => .unknown
  | .funcExpr fid _ [arg] => classifyFunc fid arg.isConst (classifyExpr arg)
  | .funcExpr _ _ _ => .unknown
  | .relabelType arg => classifyExpr arg
  | .boolExpr _ _ => .unknown
  | .subscriptingRef refrestype (.param true _ _) [idx] [] false =>
    if classifyExpr idx = .int4 then refrestype.exprClass else .unknown
  | .subscriptingRef _ _ _ _ _ => .unknown
  | .other => .unknown

def classifiesAll (result : ExprTypeClass) : List PgExpr → Bool
  | [] => true
  | e :: es => classifyExpr e = result && classifiesAll result es

end

/-! ### Emitted code -/

inductive IntSize where
  | i32
  | i64
  deriving DecidableEq, Repr

def IntSize.bits : IntSize → Nat
  | .i32 => 32
  | .i64 => 64

inductive IrType where
  | i1
  | int (size : IntSize)
  deriving DecidableEq, Repr

@[reducible] def IrType.Val : IrType → Type
  | .i1 => Bool
  | .int size => BitVec size.bits

/-- The `with.overflow` intrinsics. -/
inductive ArithOp where
  | sadd
  | ssub
  | smul
  deriving DecidableEq, Repr

inductive IntPredicate where
  | eq
  | ne
  | slt
  | sle
  | sgt
  | sge
  deriving DecidableEq, Repr

inductive Code : IrType → Type where
  | constInt {s : IntSize} (v : BitVec s.bits) : Code (.int s)
  | constBool (b : Bool) : Code .i1
  | loadDatum (dno : Nat) : Code (.int .i64)
  | loadIsnull (dno : Nat) : Code .i1
  | truncInt (arg : Code (.int .i64)) : Code (.int .i32)
  | truncBool (arg : Code (.int .i64)) : Code .i1
  | sext (arg : Code (.int .i32)) : Code (.int .i64)
  /-- `emit_int_arith_checked`. -/
  | arithChecked {s : IntSize} (op : ArithOp) (lhs rhs : Code (.int s)) : Code (.int s)
  /-- `emit_int_divmod`. -/
  | divmod {s : IntSize} (isDiv : Bool) (minVal : BitVec s.bits) (lhs rhs : Code (.int s)) :
      Code (.int s)
  | negate {s : IntSize} (minVal : BitVec s.bits) (arg : Code (.int s)) : Code (.int s)
  | abs {s : IntSize} (minVal : BitVec s.bits) (arg : Code (.int s)) : Code (.int s)
  | icmp {s : IntSize} (pred : IntPredicate) (lhs rhs : Code (.int s)) : Code .i1
  | icmpBool (isEq : Bool) (lhs rhs : Code .i1) : Code .i1
  | not (arg : Code .i1) : Code .i1
  | and (lhs rhs : Code .i1) : Code .i1
  | or (lhs rhs : Code .i1) : Code .i1
  /-- A native array's element, with no check. -/
  | nativeElem (s : IntSize) (dno : Nat) (idx : Code (.int .i32)) : Code (.int s)
  /-- Whether the subscript is out of range or the element NULL. -/
  | nativeIsnull (dno : Nat) (idx : Code (.int .i32)) : Code .i1
  /-- `RT_ARRAY_GET_ELEMENT`: its result, and its NULL output. -/
  | arrayElem (dno : Nat) (idx : Code (.int .i32)) : Code (.int .i64)
  | arrayElemIsnull (dno : Nat) (idx : Code (.int .i32)) : Code .i1

/-! ### What the code does -/

def errcodeNumericValueOutOfRange : Nat := makeSqlstate '2' '2' '0' '0' '3'
def errcodeDivisionByZero : Nat := makeSqlstate '2' '2' '0' '1' '2'

def rtIntOverflow : ErrorData := ⟨errcodeNumericValueOutOfRange, "integer out of range"⟩
def rtDivZero : ErrorData := ⟨errcodeDivisionByZero, "division by zero"⟩

section Emit

variable {w : Nat}

def emitIntArithChecked (op : ArithOp) (lhs rhs : BitVec w) : Native ErrorData (BitVec w) :=
  match op with
  | .sadd => if lhs.saddOverflow rhs then .raise rtIntOverflow else .ok (lhs + rhs)
  | .ssub => if lhs.ssubOverflow rhs then .raise rtIntOverflow else .ok (lhs - rhs)
  | .smul => if lhs.smulOverflow rhs then .raise rtIntOverflow else .ok (lhs * rhs)

/-- The remainder is taken by a divisor that is never -1. -/
def emitIntDivmod (isDiv : Bool) (minVal lhs rhs : BitVec w) : Native ErrorData (BitVec w) :=
  if rhs = 0 then .raise rtDivZero
  else if isDiv then
    if lhs = minVal ∧ rhs = -1 then .raise rtIntOverflow else sdiv lhs rhs
  else do
    let rem ← srem lhs (if rhs = -1 then 1 else rhs)
    .ok (if rhs = -1 then 0 else rem)

def emitIntNegate (minVal arg : BitVec w) : Native ErrorData (BitVec w) :=
  if arg = minVal then .raise rtIntOverflow else .ok (-arg)

def emitIntAbs (minVal arg : BitVec w) : Native ErrorData (BitVec w) :=
  if arg = minVal then .raise rtIntOverflow
  else .ok (if (0 : BitVec w).sle arg then arg else -arg)

def IntPredicate.holds (pred : IntPredicate) (lhs rhs : BitVec w) : Bool :=
  match pred with
  | .eq => lhs == rhs
  | .ne => lhs != rhs
  | .slt => lhs.slt rhs
  | .sle => lhs.sle rhs
  | .sgt => rhs.slt lhs
  | .sge => rhs.sle lhs

end Emit

/-- The memory an expression reads: scalars, and arrays with their mirrors. -/
inductive Cell where
  | scalar (d : NullableDatum)
  | array (a : ArrayDatum) (mirror : Mirror)
  deriving DecidableEq, Repr

def Mirror.entry : Mirror := ⟨none, 0, 1, none⟩

namespace Cell

def value : Cell → BitVec 64
  | .scalar d => d.value
  | .array _ _ => 0

def isnull : Cell → Bool
  | .scalar d => d.isnull
  | .array a _ => a = .null

def arrayValue : Cell → ArrayDatum
  | .scalar _ => .null
  | .array a _ => a

def mirror : Cell → Mirror
  | .scalar _ => .entry
  | .array _ m => m

end Cell

/-- The flag of a native array's element; the flags are loaded if there are any. -/
def emitNativeArrayElemIsnull {ε : Type} (m : Mirror) (idx0 : BitVec 32) : Native ε Bool :=
  if m.nulls = none then .ok false else loadAt m.nulls idx0

/-- The test for a native element read in `tier1_expr_any_null`: length, lower
bound, upper bound, flag. -/
def emitNativeIsnull {ε : Type} (m : Mirror) (idx : BitVec 32) : Native ε Bool := do
  let oob := m.len.slt 0 || idx.slt m.lb || (m.lb + m.len - 1).slt idx
  let elemNull ← emitNativeArrayElemIsnull m (idx - m.lb)
  .ok (oob || elemNull)

def emitNativeElem {ε : Type} (m : Mirror) (idx : BitVec 32) : Native ε (BitVec 64) :=
  loadAt m.data (idx - m.lb)

namespace Code

variable (mem : Nat → Cell)

def run : {t : IrType} → Code t → Native ErrorData t.Val
  | _, .constInt v => .ok v
  | _, .constBool b => .ok b
  | _, .loadDatum dno => .ok (mem dno).value
  | _, .loadIsnull dno => .ok (mem dno).isnull
  | _, .truncInt arg => do .ok ((← run arg).setWidth 32)
  | _, .truncBool arg => do .ok ((← run arg).getLsbD 0)
  | _, .sext arg => do .ok ((← run arg).signExtend 64)
  | _, .arithChecked op lhs rhs => do emitIntArithChecked op (← run lhs) (← run rhs)
  | _, .divmod isDiv minVal lhs rhs => do emitIntDivmod isDiv minVal (← run lhs) (← run rhs)
  | _, .negate minVal arg => do emitIntNegate minVal (← run arg)
  | _, .abs minVal arg => do emitIntAbs minVal (← run arg)
  | _, .icmp pred lhs rhs => do .ok (pred.holds (← run lhs) (← run rhs))
  | _, .icmpBool isEq lhs rhs => do .ok (((← run lhs) == (← run rhs)) == isEq)
  | _, .not arg => do .ok !(← run arg)
  | _, .and lhs rhs => do
    let l ← run lhs
    let r ← run rhs
    .ok (l && r)
  | _, .or lhs rhs => do
    let l ← run lhs
    let r ← run rhs
    .ok (l || r)
  | _, .nativeElem s dno idx => do .ok ((← emitNativeElem (mem dno).mirror (← run idx)).setWidth s.bits)
  | _, .nativeIsnull dno idx => do emitNativeIsnull (mem dno).mirror (← run idx)
  | _, .arrayElem dno idx => do .ok (arrayGetElement (← run idx) (mem dno).arrayValue).value
  | _, .arrayElemIsnull dno idx => do .ok (arrayGetElement (← run idx) (mem dno).arrayValue).isnull

end Code

/-! ### The compiler -/

/-- `elog(ERROR)` at compile time, which gives the function back to the
interpreter. -/
inductive Unhandled where
  | const
  | param
  | opExpr (fid : Fid)
  | funcExpr (fid : Fid)
  | nodeType
  | boolExpr
  /-- Operands that LLVM would not accept. -/
  | illTyped
  deriving DecidableEq, Repr

abbrev AnyCode := Σ t : IrType, Code t

def int32Min : BitVec 32 := 0x80000000
def int64Min : BitVec 64 := 0x8000000000000000

namespace AnyCode

def asInt (x : AnyCode) (s : IntSize) : Except Unhandled (Code (.int s)) :=
  match x, s with
  | ⟨.int .i32, c⟩, .i32 => .ok c
  | ⟨.int .i64, c⟩, .i64 => .ok c
  | _, _ => .error .illTyped

/-- An operand classified as int4 is widened. -/
def widen (cls : ExprTypeClass) (x : AnyCode) : AnyCode :=
  match cls, x with
  | .int4, ⟨.int .i32, c⟩ => ⟨.int .i64, .sext c⟩
  | _, x => x

end AnyCode

def arithCode (s : IntSize) (op : ArithOp) (lhs rhs : AnyCode) : Except Unhandled AnyCode := do
  .ok ⟨.int s, .arithChecked op (← lhs.asInt s) (← rhs.asInt s)⟩

def divmodCode (s : IntSize) (isDiv : Bool) (minVal : BitVec s.bits) (lhs rhs : AnyCode) :
    Except Unhandled AnyCode := do
  .ok ⟨.int s, .divmod isDiv minVal (← lhs.asInt s) (← rhs.asInt s)⟩

/-- The binary operators of `uplpgsql_compile_expr_datum`. -/
def compileBinary (fid : Fid) (ltype rtype : ExprTypeClass) (lhs rhs : AnyCode) :
    Except Unhandled AnyCode :=
  match fid with
  | .int4pl => arithCode .i32 .sadd lhs rhs
  | .int4mi => arithCode .i32 .ssub lhs rhs
  | .int4mul => arithCode .i32 .smul lhs rhs
  | .int4div => divmodCode .i32 true int32Min lhs rhs
  | .int4mod => divmodCode .i32 false 0 lhs rhs
  | .int8pl => arithCode .i64 .sadd lhs rhs
  | .int8mi => arithCode .i64 .ssub lhs rhs
  | .int8mul => arithCode .i64 .smul lhs rhs
  | .int8div => divmodCode .i64 true int64Min lhs rhs
  | .int8mod => divmodCode .i64 false 0 lhs rhs
  | .int84pl | .int48pl => arithCode .i64 .sadd (lhs.widen ltype) (rhs.widen rtype)
  | .int84mi | .int48mi => arithCode .i64 .ssub (lhs.widen ltype) (rhs.widen rtype)
  | .int84mul | .int48mul => arithCode .i64 .smul (lhs.widen ltype) (rhs.widen rtype)
  | .int84div | .int48div => divmodCode .i64 true int64Min (lhs.widen ltype) (rhs.widen rtype)
  | _ => .error (.opExpr fid)

def compileUnary (fid : Fid) (arg : AnyCode) : Except Unhandled AnyCode :=
  match fid with
  | .int4um => do .ok ⟨.int .i32, .negate int32Min (← arg.asInt .i32)⟩
  | .int8um => do .ok ⟨.int .i64, .negate int64Min (← arg.asInt .i64)⟩
  | _ => .error (.opExpr fid)

def compileAbs (fid : Fid) (arg : AnyCode) : Except Unhandled AnyCode :=
  match fid with
  | .int4abs => do .ok ⟨.int .i32, .abs int32Min (← arg.asInt .i32)⟩
  | .int8abs => do .ok ⟨.int .i64, .abs int64Min (← arg.asInt .i64)⟩
  | _ => .error (.funcExpr fid)

/-- The comparisons, and whether they are between the two integer types. -/
def Fid.intPredicate : Fid → Option (IntPredicate × Bool)
  | .int4eq | .int8eq => some (.eq, false)
  | .int4ne | .int8ne => some (.ne, false)
  | .int4lt | .int8lt => some (.slt, false)
  | .int4le | .int8le => some (.sle, false)
  | .int4gt | .int8gt => some (.sgt, false)
  | .int4ge | .int8ge => some (.sge, false)
  | .int84eq | .int48eq => some (.eq, true)
  | .int84ne | .int48ne => some (.ne, true)
  | .int84lt | .int48lt => some (.slt, true)
  | .int84gt | .int48gt => some (.sgt, true)
  | .int84le | .int48le => some (.sle, true)
  | .int84ge | .int48ge => some (.sge, true)
  | _ => none

def compileCmp (pred : IntPredicate) (lhs rhs : AnyCode) : Except Unhandled (Code .i1) :=
  match lhs, rhs with
  | ⟨.int .i32, l⟩, ⟨.int .i32, r⟩ => .ok (.icmp pred l r)
  | ⟨.int .i64, l⟩, ⟨.int .i64, r⟩ => .ok (.icmp pred l r)
  | _, _ => .error .illTyped

section Compile

-- The native arrays of the function, by number, with the size of their elements.
variable (natives : Nat → Option IntSize)

/-- The element read of `uplpgsql_compile_expr_datum`. -/
def compileElem (refrestype : TypeOid) (dno : Nat) (idx : Code (.int .i32)) :
    Except Unhandled AnyCode :=
  match natives dno with
  | some s => .ok ⟨.int s, .nativeElem s dno idx⟩
  | none =>
    match refrestype.exprClass with
    | .int4 => .ok ⟨.int .i32, .truncInt (.arrayElem dno idx)⟩
    | .int8 => .ok ⟨.int .i64, .arrayElem dno idx⟩
    | .float8 => .error .illTyped
    | _ => .ok ⟨.i1, .truncBool (.arrayElem dno idx)⟩

def compileExprDatum : PgExpr → Except Unhandled AnyCode
  | .const consttype constisnull constvalue =>
    match classifyExpr (.const consttype constisnull constvalue) with
    | .int4 => .ok ⟨.int .i32, .constInt (constvalue.setWidth 32)⟩
    | .int8 => .ok ⟨.int .i64, .constInt constvalue⟩
    | _ => .error .const
  | .param external dno paramtype =>
    match classifyExpr (.param external dno paramtype) with
    | .int4 => .ok ⟨.int .i32, .truncInt (.loadDatum dno)⟩
    | .int8 => .ok ⟨.int .i64, .loadDatum dno⟩
    | _ => .error .param
  | .opExpr fid _ [l, r] => do
    let lhs ← compileExprDatum l
    let rhs ← compileExprDatum r
    compileBinary fid (classifyExpr l) (classifyExpr r) lhs rhs
  | .opExpr fid _ [arg] => do compileUnary fid (← compileExprDatum arg)
  | .opExpr fid _ _ => .error (.opExpr fid)
  | .funcExpr fid _ (arg :: _) => do compileAbs fid (← compileExprDatum arg)
  | .funcExpr fid _ [] => .error (.funcExpr fid)
  | .relabelType arg => compileExprDatum arg
  | .subscriptingRef refrestype (.param _ dno _) (idx :: _) _ _ => do
    compileElem natives refrestype dno (← (← compileExprDatum idx).asInt .i32)
  | .subscriptingRef _ _ _ _ _ => .error .nodeType
  | .boolExpr _ _ => .error .nodeType
  | .other => .error .nodeType

mutual

def compileExprBool : PgExpr → Except Unhandled (Code .i1)
  | .const _ _ constvalue => .ok (.constBool (constvalue != 0))
  | .param _ dno _ => .ok (.truncBool (.loadDatum dno))
  | .opExpr fid _ (l :: r :: _) =>
    if fid = .booleq ∨ fid = .boolne then do
      .ok (.icmpBool (fid = .booleq) (← compileExprBool l) (← compileExprBool r))
    else
      match fid.intPredicate with
      | some (pred, cross) => do
        let lhs ← compileExprDatum natives l
        let rhs ← compileExprDatum natives r
        if cross then compileCmp pred (lhs.widen (classifyExpr l)) (rhs.widen (classifyExpr r))
        else compileCmp pred lhs rhs
      | none => .error (.opExpr fid)
  | .opExpr fid _ _ => .error (.opExpr fid)
  | .boolExpr .not (arg :: _) => do .ok (.not (← compileExprBool arg))
  | .boolExpr .not [] => .error .boolExpr
  | .boolExpr .and args => compileBoolArgs .and (.constBool true) args
  | .boolExpr .or args => compileBoolArgs .or (.constBool false) args
  | .funcExpr _ _ _ => .error .nodeType
  | .relabelType _ => .error .nodeType
  | .subscriptingRef _ _ _ _ _ => .error .nodeType
  | .other => .error .nodeType

def compileBoolArgs (fold : Code .i1 → Code .i1 → Code .i1) (result : Code .i1) :
    List PgExpr → Except Unhandled (Code .i1)
  | [] => .ok result
  | e :: es => do compileBoolArgs fold (fold result (← compileExprBool e)) es

end

/-- `acc = (acc == NULL) ? v : or(acc, v)`. -/
def orNull (acc v : Option (Code .i1)) : Option (Code .i1) :=
  match acc, v with
  | acc, none => acc
  | none, some v => some v
  | some acc, some v => some (.or acc v)

/-- The subscript as the NULL test computes it. -/
def compileSubscript (idx : PgExpr) : Except Unhandled (Code (.int .i32)) := do
  match ← compileExprDatum natives idx with
  | ⟨.int .i64, c⟩ => .ok (.truncInt c)
  | ⟨.int .i32, c⟩ => .ok c
  | _ => .error .illTyped

mutual

/-- `none` where nothing in the expression can be NULL. -/
def tier1ExprAnyNull : PgExpr → Except Unhandled (Option (Code .i1))
  | .const _ _ _ => .ok none
  | .param _ dno _ => .ok (some (.loadIsnull dno))
  | .relabelType arg => tier1ExprAnyNull arg
  | .opExpr _ _ args => tier1AnyNullArgs none args
  | .funcExpr _ _ args => tier1AnyNullArgs none args
  | .subscriptingRef _ (.param _ dno _) [idx] lower _ =>
    match natives dno with
    | some _ => do
      let acc ← tier1ExprAnyNull idx
      .ok (orNull acc (some (.nativeIsnull dno (← compileSubscript natives idx))))
    | none => do
      let v ← tier1ExprAnyNull idx
      let acc := orNull (some (.loadIsnull dno)) v
      if lower.isEmpty then
        .ok (orNull acc (some (.arrayElemIsnull dno (← compileSubscript natives idx))))
      else .ok acc
  | .subscriptingRef _ refexpr upper _ _ => do tier1AnyNullArgs (← tier1ExprAnyNull refexpr) upper
  | .boolExpr _ _ => .ok (some (.constBool true))
  | .other => .ok (some (.constBool true))

def tier1AnyNullArgs (acc : Option (Code .i1)) : List PgExpr → Except Unhandled (Option (Code .i1))
  | [] => .ok acc
  | e :: es => do tier1AnyNullArgs (orNull acc (← tier1ExprAnyNull e)) es

end

end Compile

end Uplpgsql
