import Uplpgsql.Arrays.Packed
import Uplpgsql.Expr.Nulls

/-!
# The whole of Tier 1

The classifier and the generators with the float8 functions. The integers' code
is `Code`; a double is never part of it.
-/

namespace Uplpgsql.Tier1

/-! ### The float8 functions -/

/-- The functions over float8 that Tier 1 knows by their `F_...`. -/
inductive FloatFid where
  | float8pl | float8mi | float8mul | float8div | float8um
  | float8eq | float8ne | float8lt | float8le | float8gt | float8ge
  | float8abs
  | dsqrt | sqrtFloat8 | ceilFloat8 | ceilingFloat8 | floorFloat8 | dexp | expFloat8 | dlog1
  | lnFloat8 | sin | cos
  | dpow | powFloat8Float8 | powerFloat8Float8
  | float8Int4 | float8Int2 | float8Int8 | float8Float4
  deriving DecidableEq, Repr

def floatFid : Fid → Option FloatFid
  | .other 218 => some .float8pl
  | .other 219 => some .float8mi
  | .other 216 => some .float8mul
  | .other 217 => some .float8div
  | .other 220 => some .float8um
  | .other 293 => some .float8eq
  | .other 294 => some .float8ne
  | .other 295 => some .float8lt
  | .other 296 => some .float8le
  | .other 297 => some .float8gt
  | .other 298 => some .float8ge
  | .other 221 => some .float8abs
  | .other 230 => some .dsqrt
  | .other 1344 => some .sqrtFloat8
  | .other 2308 => some .ceilFloat8
  | .other 2320 => some .ceilingFloat8
  | .other 2309 => some .floorFloat8
  | .other 233 => some .dexp
  | .other 1347 => some .expFloat8
  | .other 234 => some .dlog1
  | .other 1341 => some .lnFloat8
  | .other 1604 => some .sin
  | .other 1605 => some .cos
  | .other 232 => some .dpow
  | .other 1346 => some .powFloat8Float8
  | .other 1368 => some .powerFloat8Float8
  | .other 316 => some .float8Int4
  | .other 235 => some .float8Int2
  | .other 482 => some .float8Int8
  | .other 311 => some .float8Float4
  | _ => none

namespace FloatFid

def opRule : FloatFid → Option OpRule
  | .float8pl | .float8mi | .float8mul | .float8div | .float8um => some (.all .float8)
  | .float8eq | .float8ne | .float8lt | .float8le | .float8gt | .float8ge =>
    some (.two .float8 .float8 .bool)
  | _ => none

/-- A function of one argument, by the argument's class. The cast from float4
asks nothing of it. -/
def classifyFunc (f : FloatFid) (arg : ExprTypeClass) : ExprTypeClass :=
  match f with
  | .float8abs | .dsqrt | .sqrtFloat8 | .ceilFloat8 | .ceilingFloat8 | .floorFloat8 | .dexp
  | .expFloat8 | .dlog1 | .lnFloat8 | .sin | .cos => if arg = .float8 then .float8 else .unknown
  | .float8Int4 | .float8Int2 => if arg = .int4 then .float8 else .unknown
  | .float8Int8 => if arg = .int8 then .float8 else .unknown
  | .float8Float4 => .float8
  | _ => .unknown

def isPow : FloatFid → Bool
  | .dpow | .powFloat8Float8 | .powerFloat8Float8 => true
  | _ => false

end FloatFid

/-! ### Classification -/

def opRule (fid : Fid) : Option OpRule :=
  match floatFid fid with
  | some f => f.opRule
  | none => fid.opRule

def classifyFunc (fid : Fid) (isConst : Bool) (arg : ExprTypeClass) : ExprTypeClass :=
  match floatFid fid with
  | some f => f.classifyFunc arg
  | none => Uplpgsql.classifyFunc fid isConst arg

def isPow (fid : Fid) : Bool := (floatFid fid).any FloatFid.isPow

mutual

def classifyExpr : PgExpr → ExprTypeClass
  | .const consttype constisnull _ => if constisnull then .unknown else consttype.exprClass
  | .param external _ paramtype => if external then paramtype.exprClass else .unknown
  | .opExpr fid _ args =>
    match opRule fid with
    | some (.all result) => if classifiesAll result args then result else .unknown
    | some (.two left right result) =>
      match args with
      | [l, r] => if classifyExpr l = left ∧ classifyExpr r = right then result else .unknown
      | _ => .unknown
    | none => .unknown
  | .funcExpr fid _ [l, r] =>
    if isPow fid ∧ classifyExpr l = .float8 ∧ classifyExpr r = .float8 then .float8 else .unknown
  | .funcExpr fid _ [arg] => classifyFunc fid arg.isConst (classifyExpr arg)
  | .funcExpr _ _ _ => .unknown
  | .relabelType arg => classifyExpr arg
  | .boolExpr _ _ => .unknown
  | .subscriptingRef refrestype (.param true _ _) [idx] [] false =>
    if classifyExpr idx = .int4 then refrestype.exprClass else .unknown
  | .subscriptingRef _ _ _ _ _ => .unknown
  | .other => .unknown

def classifiesAll (result : ExprTypeClass) : List PgExpr → Bool
  | [] => true
  | e :: es => classifyExpr e = result && classifiesAll result es

end

/-! ### Emitted code -/

/-- `llvm.sqrt` and the others of one argument. -/
inductive MathIntrinsic where
  | sqrt
  | ceil
  | floor
  | exp
  | log
  | sin
  | cos
  deriving DecidableEq, Repr

/-- `emit_float_cmp` by its funcid. -/
inductive FloatPredicate where
  | eq
  | ne
  | lt
  | le
  | gt
  | ge
  deriving DecidableEq, Repr

/-- Code whose value is a double. -/
inductive FloatCode where
  | constReal (bits : BitVec 64)
  /-- `F_FLOAT8_NUMERIC`, called by the compiler. -/
  | constNumeric (numeric : BitVec 64)
  | bitcast (arg : Code (.int .i64))
  /-- `emit_float_addsub`. -/
  | addsub (isAdd : Bool) (lhs rhs : FloatCode)
  | mul (lhs rhs : FloatCode)
  | div (lhs rhs : FloatCode)
  | neg (arg : FloatCode)
  | abs (arg : FloatCode)
  | math (id : MathIntrinsic) (arg : FloatCode)
  | pow (lhs rhs : FloatCode)
  | sitofp {s : IntSize} (arg : Code (.int s))
  | nativeElem (dno : Nat) (idx : Code (.int .i32))

/-- Code of a condition, whose value is an i1. -/
inductive CondCode where
  | ir (code : Code .i1)
  | fcmp (pred : FloatPredicate) (lhs rhs : FloatCode)
  | icmpBool (isEq : Bool) (lhs rhs : CondCode)
  | not (arg : CondCode)
  | and (lhs rhs : CondCode)
  | or (lhs rhs : CondCode)

inductive LlvmType where
  | i1
  | i32
  | i64
  | double
  deriving DecidableEq, Repr

/-- What `uplpgsql_compile_expr_datum` returns. -/
inductive Value where
  | ir (code : AnyCode)
  | double (code : FloatCode)

def Value.type : Value → LlvmType
  | .ir ⟨.i1, _⟩ => .i1
  | .ir ⟨.int .i32, _⟩ => .i32
  | .ir ⟨.int .i64, _⟩ => .i64
  | .double _ => .double

/-- The type `tier1_compile_value_guarded` gives a value of a class. -/
def valueType : ExprTypeClass → LlvmType
  | .float8 => .double
  | .int8 => .i64
  | .bool => .i1
  | _ => .i32

/-- How a generator ends without code. -/
inductive Failure where
  | elog (error : Unhandled)
  /-- "cannot convert type class to Datum" -/
  | toDatum (cls : ExprTypeClass)
  /-- The cast from numeric called by the compiler on a null pointer. -/
  | nullNumeric
  deriving DecidableEq, Repr

abbrev Gen (α : Type) := Except Failure α

def illTyped {α : Type} : Gen α := .error (.elog .illTyped)

/-- What the integers' emitters do. -/
def emitted {α : Type} : Except Unhandled α → Gen α
  | .ok a => .ok a
  | .error u => .error (.elog u)

def Value.asDouble : Value → Gen FloatCode
  | .double c => .ok c
  | .ir _ => illTyped

def Value.asInt (s : IntSize) : Value → Gen (Code (.int s))
  | .ir x => emitted (x.asInt s)
  | .double _ => illTyped

/-! ### The generators -/

namespace FloatFid

def compileBinary (f : FloatFid) (fid : Fid) (lhs rhs : Value) : Gen Value :=
  match f with
  | .float8pl => do .ok (.double (.addsub true (← lhs.asDouble) (← rhs.asDouble)))
  | .float8mi => do .ok (.double (.addsub false (← lhs.asDouble) (← rhs.asDouble)))
  | .float8mul => do .ok (.double (.mul (← lhs.asDouble) (← rhs.asDouble)))
  | .float8div => do .ok (.double (.div (← lhs.asDouble) (← rhs.asDouble)))
  | _ => .error (.elog (.opExpr fid))

def compileUnary (f : FloatFid) (fid : Fid) (arg : Value) : Gen Value :=
  match f with
  | .float8um => do .ok (.double (.neg (← arg.asDouble)))
  | _ => .error (.elog (.opExpr fid))

def mathIntrinsic : FloatFid → Option MathIntrinsic
  | .dsqrt | .sqrtFloat8 => some .sqrt
  | .ceilFloat8 | .ceilingFloat8 => some .ceil
  | .floorFloat8 => some .floor
  | .dexp | .expFloat8 => some .exp
  | .dlog1 | .lnFloat8 => some .log
  | .sin => some .sin
  | .cos => some .cos
  | _ => none

def compileFunc (f : FloatFid) (fid : Fid) (arg : Value) : Gen Value :=
  match f.mathIntrinsic with
  | some id => do .ok (.double (.math id (← arg.asDouble)))
  | none =>
    match f with
    | .float8abs => do .ok (.double (.abs (← arg.asDouble)))
    | .float8Int4 | .float8Int2 => do .ok (.double (.sitofp (← arg.asInt .i32)))
    | .float8Int8 => do .ok (.double (.sitofp (← arg.asInt .i64)))
    -- an fpext to double wants a float, and no generator makes one
    | .float8Float4 => illTyped
    | _ => .error (.elog (.funcExpr fid))

def predicate : FloatFid → Option FloatPredicate
  | .float8eq => some .eq
  | .float8ne => some .ne
  | .float8lt => some .lt
  | .float8le => some .le
  | .float8gt => some .gt
  | .float8ge => some .ge
  | _ => none

end FloatFid

def compileBinary (fid : Fid) (ltype rtype : ExprTypeClass) (lhs rhs : Value) : Gen Value :=
  match floatFid fid with
  | some f => f.compileBinary fid lhs rhs
  | none =>
    match lhs, rhs with
    | .ir l, .ir r => do .ok (.ir (← emitted (Uplpgsql.compileBinary fid ltype rtype l r)))
    | _, _ => if fid.sizes.isSome then illTyped else .error (.elog (.opExpr fid))

def compileUnary (fid : Fid) (arg : Value) : Gen Value :=
  match floatFid fid with
  | some f => f.compileUnary fid arg
  | none =>
    match arg with
    | .ir x => do .ok (.ir (← emitted (Uplpgsql.compileUnary fid x)))
    | .double _ =>
      if fid = .int4um ∨ fid = .int8um then illTyped else .error (.elog (.opExpr fid))

def compileFunc (fid : Fid) (arg : Value) : Gen Value :=
  match floatFid fid with
  | some f => f.compileFunc fid arg
  | none =>
    match arg with
    | .ir x => do .ok (.ir (← emitted (compileAbs fid x)))
    | .double _ =>
      if fid = .int4abs ∨ fid = .int8abs then illTyped else .error (.elog (.funcExpr fid))

/-- The cast of a numeric constant. The classifier lets nothing but a constant
through, and does not ask whether it is NULL. -/
def compileNumeric : PgExpr → Gen Value
  | .const _ constisnull constvalue =>
    if constisnull then .error .nullNumeric else .ok (.double (.constNumeric constvalue))
  | _ => .error (.elog .nodeType)

def compileCmp (pred : IntPredicate) (lhs rhs : AnyCode) : Gen CondCode := do
  .ok (.ir (← emitted (Uplpgsql.compileCmp pred lhs rhs)))

section Generators

-- The native arrays of the function, by number, with the type of their elements.
variable (natives : Nat → Option ElemType)

def compileElem (refrestype : TypeOid) (dno : Nat) (idx : Code (.int .i32)) : Value :=
  match natives dno with
  | some .int4 => .ir ⟨.int .i32, .nativeElem .i32 dno idx⟩
  | some .int8 => .ir ⟨.int .i64, .nativeElem .i64 dno idx⟩
  | some .float8 => .double (.nativeElem dno idx)
  | none =>
    match refrestype.exprClass with
    | .int4 => .ir ⟨.int .i32, .truncInt (.arrayElem dno idx)⟩
    | .int8 => .ir ⟨.int .i64, .arrayElem dno idx⟩
    | .float8 => .double (.bitcast (.arrayElem dno idx))
    | _ => .ir ⟨.i1, .truncBool (.arrayElem dno idx)⟩

def compileExprDatum : PgExpr → Gen Value
  | .const consttype constisnull constvalue =>
    match classifyExpr (.const consttype constisnull constvalue) with
    | .int4 => .ok (.ir ⟨.int .i32, .constInt (constvalue.setWidth 32)⟩)
    | .int8 => .ok (.ir ⟨.int .i64, .constInt constvalue⟩)
    | .float8 => .ok (.double (.constReal constvalue))
    | _ => .error (.elog .const)
  | .param external dno paramtype =>
    match classifyExpr (.param external dno paramtype) with
    | .int4 => .ok (.ir ⟨.int .i32, .truncInt (.loadDatum dno)⟩)
    | .int8 => .ok (.ir ⟨.int .i64, .loadDatum dno⟩)
    | .float8 => .ok (.double (.bitcast (.loadDatum dno)))
    | _ => .error (.elog .param)
  | .opExpr fid _ [l, r] => do
    let lhs ← compileExprDatum l
    let rhs ← compileExprDatum r
    compileBinary fid (classifyExpr l) (classifyExpr r) lhs rhs
  | .opExpr fid _ [arg] => do compileUnary fid (← compileExprDatum arg)
  | .opExpr fid _ _ => .error (.elog (.opExpr fid))
  | .funcExpr fid _ (l :: r :: _) =>
    if fid = .float8Numeric then compileNumeric l
    else if isPow fid then do
      let lhs ← compileExprDatum l
      let rhs ← compileExprDatum r
      .ok (.double (.pow (← lhs.asDouble) (← rhs.asDouble)))
    else do compileFunc fid (← compileExprDatum l)
  | .funcExpr fid _ [arg] =>
    if fid = .float8Numeric then compileNumeric arg
    else do compileFunc fid (← compileExprDatum arg)
  | .funcExpr fid _ [] => .error (.elog (.funcExpr fid))
  | .relabelType arg => compileExprDatum arg
  | .subscriptingRef refrestype (.param _ dno _) (idx :: _) _ _ => do
    .ok (compileElem natives refrestype dno (← (← compileExprDatum idx).asInt .i32))
  | .subscriptingRef _ _ _ _ _ => .error (.elog .nodeType)
  | .boolExpr _ _ => .error (.elog .nodeType)
  | .other => .error (.elog .nodeType)

/-- An integer comparison, its int4 operands widened if it is between two types. -/
def compileIntCmp (pred : IntPredicate) (cross : Bool) (ltype rtype : ExprTypeClass) :
    Value → Value → Gen CondCode
  | .ir l, .ir r =>
    if cross then compileCmp pred (l.widen ltype) (r.widen rtype) else compileCmp pred l r
  | _, _ => illTyped

mutual

def compileExprBool : PgExpr → Gen CondCode
  | .const _ _ constvalue => .ok (.ir (.constBool (constvalue != 0)))
  | .param _ dno _ => .ok (.ir (.truncBool (.loadDatum dno)))
  | .opExpr fid _ (l :: r :: _) =>
    match (floatFid fid).bind FloatFid.predicate with
    | some pred => do
      let lhs ← compileExprDatum natives l
      let rhs ← compileExprDatum natives r
      .ok (.fcmp pred (← lhs.asDouble) (← rhs.asDouble))
    | none =>
      if fid = .booleq ∨ fid = .boolne then do
        .ok (.icmpBool (fid = .booleq) (← compileExprBool l) (← compileExprBool r))
      else
        match fid.intPredicate with
        | some (pred, cross) => do
          let lhs ← compileExprDatum natives l
          let rhs ← compileExprDatum natives r
          compileIntCmp pred cross (classifyExpr l) (classifyExpr r) lhs rhs
        | none => .error (.elog (.opExpr fid))
  | .opExpr fid _ _ => .error (.elog (.opExpr fid))
  | .boolExpr .not (arg :: _) => do .ok (.not (← compileExprBool arg))
  | .boolExpr .not [] => .error (.elog .boolExpr)
  | .boolExpr .and args => compileBoolArgs .and (.ir (.constBool true)) args
  | .boolExpr .or args => compileBoolArgs .or (.ir (.constBool false)) args
  | .funcExpr _ _ _ => .error (.elog .nodeType)
  | .relabelType _ => .error (.elog .nodeType)
  | .subscriptingRef _ _ _ _ _ => .error (.elog .nodeType)
  | .other => .error (.elog .nodeType)

def compileBoolArgs (fold : CondCode → CondCode → CondCode) (result : CondCode) :
    List PgExpr → Gen CondCode
  | [] => .ok result
  | e :: es => do compileBoolArgs fold (fold result (← compileExprBool e)) es

end

/-- The subscript as the NULL test computes it. -/
def compileSubscript (idx : PgExpr) : Gen (Code (.int .i32)) := do
  match ← compileExprDatum natives idx with
  | .ir ⟨.int .i64, c⟩ => .ok (.truncInt c)
  | .ir ⟨.int .i32, c⟩ => .ok c
  | _ => illTyped

mutual

/-- `none` where nothing in the expression can be NULL. -/
def tier1ExprAnyNull : PgExpr → Gen (Option (Code .i1))
  | .const _ _ _ => .ok none
  | .param _ dno _ => .ok (some (.loadIsnull dno))
  | .relabelType arg => tier1ExprAnyNull arg
  | .opExpr _ _ args => tier1AnyNullArgs none args
  | .funcExpr _ _ args => tier1AnyNullArgs none args
  | .subscriptingRef _ (.param _ dno _) [idx] lower _ =>
    match natives dno with
    | some _ => do
      let acc ← tier1ExprAnyNull idx
      .ok (orNull acc (some (.nativeIsnull dno (← compileSubscript natives idx))))
    | none => do
      let v ← tier1ExprAnyNull idx
      let acc := orNull (some (.loadIsnull dno)) v
      if lower.isEmpty then
        .ok (orNull acc (some (.arrayElemIsnull dno (← compileSubscript natives idx))))
      else .ok acc
  | .subscriptingRef _ refexpr upper _ _ => do tier1AnyNullArgs (← tier1ExprAnyNull refexpr) upper
  | .boolExpr _ _ => .ok (some (.constBool true))
  | .other => .ok (some (.constBool true))

def tier1AnyNullArgs (acc : Option (Code .i1)) : List PgExpr → Gen (Option (Code .i1))
  | [] => .ok acc
  | e :: es => do tier1AnyNullArgs (orNull acc (← tier1ExprAnyNull e)) es

end

/-- The value of a phi, which has the type of its class. -/
def tier1CompileValueGuarded (e : PgExpr) (cls : ExprTypeClass) : Gen Value := do
  match ← tier1ExprAnyNull natives e with
  | none => compileExprDatum natives e
  | some _ =>
    let computed ← compileExprDatum natives e
    if computed.type = valueType cls then .ok computed else illTyped

/-- A value as it is stored in a variable. -/
inductive DatumCode where
  | ir (code : Code (.int .i64))
  | bitcast (code : FloatCode)

def nativeToDatum (v : Value) : ExprTypeClass → Gen DatumCode
  | .int4 => do .ok (.ir (.sext (← v.asInt .i32)))
  | .int8 => do .ok (.ir (← v.asInt .i64))
  | .float8 => do .ok (.bitcast (← v.asDouble))
  | cls => .error (.toDatum cls)

end Generators

end Uplpgsql.Tier1
