import Mathlib.Data.Nat.Notation

/-!
# Expression trees

The analysed expressions the compiler walks, as far as `upl_compile_expr.c`
looks at them. Functions are named by their OID in pg_proc; those the compiler
knows have names of their own.
-/

namespace Uplpgsql

/-- Types by their OID. -/
inductive TypeOid where
  | int4
  | int8
  | float8
  | bool
  | other (oid : Nat)
  deriving DecidableEq, Repr

/-- `F_...` of `utils/fmgroids.h`, less the float8 functions of Tier 1. -/
inductive Fid where
  | int4pl | int4mi | int4mul | int4div | int4mod | int4um
  | int8pl | int8mi | int8mul | int8div | int8mod | int8um
  | int84pl | int84mi | int84mul | int84div
  | int48pl | int48mi | int48mul | int48div
  | int4eq | int4ne | int4lt | int4le | int4gt | int4ge
  | int8eq | int8ne | int8lt | int8le | int8gt | int8ge
  | int84eq | int84ne | int84lt | int84le | int84gt | int84ge
  | int48eq | int48ne | int48lt | int48le | int48gt | int48ge
  | booleq | boolne
  | int4abs | int8abs
  | float8Numeric
  | other (oid : Nat)
  deriving DecidableEq, Repr

/-- `FirstNormalObjectId`: OIDs from here on belong to user objects. -/
def firstNormalObjectId : Nat := 16384

/-- The functions with a name are built in. -/
def Fid.isUserDefined : Fid → Bool
  | .other oid => firstNormalObjectId ≤ oid
  | _ => false

/-- `InvalidOid`. -/
def Fid.isInvalid : Fid → Bool
  | .other oid => oid == 0
  | _ => false

inductive BoolExprType where
  | and
  | or
  | not
  deriving DecidableEq, Repr

inductive PgExpr where
  | const (consttype : TypeOid) (constisnull : Bool) (constvalue : BitVec 64)
  /-- `dno` is `paramid - 1`, the number of the variable. -/
  | param (external : Bool) (dno : Nat) (paramtype : TypeOid)
  | opExpr (opfuncid : Fid) (inputcollid : Nat) (args : List PgExpr)
  | funcExpr (funcid : Fid) (inputcollid : Nat) (args : List PgExpr)
  | relabelType (arg : PgExpr)
  | boolExpr (boolop : BoolExprType) (args : List PgExpr)
  /-- A subscripted read, or an assignment if `refassgnexpr` is there. -/
  | subscriptingRef (refrestype : TypeOid) (refexpr : PgExpr) (refupperindexpr : List PgExpr)
      (reflowerindexpr : List PgExpr) (refassgnexpr : Bool)
  | other
  deriving Repr

/-- A Datum that may be NULL, as `NullableDatum` holds it. What a NULL has for a
value is not defined by SQL, but the compiled code looks at it. -/
structure NullableDatum where
  value : BitVec 64
  isnull : Bool
  deriving DecidableEq, Repr

end Uplpgsql
