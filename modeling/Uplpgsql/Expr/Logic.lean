import Uplpgsql.Expr.Fmgr
import Uplpgsql.Lib.Kleene

/-!
# NULLs in Tier 2

Every value travels with its NULL flag, and the Datum of a NULL is whatever it
is. The compiled code folds the Datums of AND and OR bit by bit, those of NULLs
too. SQL knows a value or NULL, and nothing behind a NULL.
-/

namespace Uplpgsql

open Lib

/-! ### SQL values -/

namespace NullableDatum

/-- What SQL sees. -/
def toOption (d : NullableDatum) : Option (BitVec 64) := if d.isnull then none else some d.value

theorem toOption_isNone (d : NullableDatum) : d.toOption.isNone = d.isnull := by
  cases isnull : d.isnull <;> simp [toOption, isnull]

end NullableDatum

/-- `DatumGetBool`. -/
def truth (v : Option (BitVec 64)) : Option Bool := v.map (· != 0)

/-- `BoolGetDatum`. -/
def ofTruth (t : Option Bool) : Option (BitVec 64) := t.map boolDatum

/-- NULL, false or true: what a boolean can be. -/
def IsTruth (v : Option (BitVec 64)) : Prop := ∀ d, v = some d → d = 0 ∨ d = 1

theorem isTruth_ofTruth (t : Option Bool) : IsTruth (ofTruth t) := by
  intro d here
  cases t with
  | none => cases here
  | some b => cases b <;> cases here <;> decide

/-! ### Types -/

/-- The functions and variables of type boolean. -/
structure BoolTypes where
  fn : Fid → Bool
  var : Nat → Bool

section Types

variable (types : BoolTypes)

def PgExpr.isBoolean : PgExpr → Bool
  | .const consttype constisnull constvalue =>
    consttype = .bool && (constisnull || constvalue = 0 || constvalue = 1)
  | .param _ dno _ => types.var dno
  | .relabelType arg => arg.isBoolean
  | .boolExpr _ _ => true
  | .opExpr funcid _ _ | .funcExpr funcid _ _ => types.fn funcid
  | .subscriptingRef _ _ _ _ _ | .other => false

mutual

/-- What parse analysis ensures: AND, OR and NOT have boolean operands, NOT has
one, and the cast of a numeric to float8 has one argument. -/
def PgExpr.wellTyped : PgExpr → Bool
  | .relabelType arg => arg.wellTyped
  | .boolExpr boolop args =>
    (boolop != .not || args.length = 1) && args.all (·.isBoolean types) && PgExpr.wellTypedAll args
  | .opExpr _ _ args => PgExpr.wellTypedAll args
  | .funcExpr funcid _ args =>
    (funcid != .float8Numeric || args.length = 1) && PgExpr.wellTypedAll args
  | _ => true

def PgExpr.wellTypedAll : List PgExpr → Bool
  | [] => true
  | e :: es => e.wellTyped && PgExpr.wellTypedAll es

end

end Types

/-! ### SQL's evaluation -/

section Sql

-- What the functions compute, and the variables.
variable (cat : Catalog) (sql : Fid → Nat → List (Option (BitVec 64)) → Option (BitVec 64))
  (vars : Nat → Option (BitVec 64))

/-- A strict function of a NULL is NULL. -/
def sqlSkips (funcid : Fid) (vs : List (Option (BitVec 64))) : Bool :=
  cat.fnStrict funcid && vs.any (·.isNone)

def sqlCall (funcid : Fid) (collation : Nat) (vs : List (Option (BitVec 64))) : Option (BitVec 64) :=
  if sqlSkips cat funcid vs then none else sql funcid collation vs

def sqlNot : List (Option (BitVec 64)) → Option (BitVec 64)
  | [v] => ofTruth (Kleene.not (truth v))
  | _ => none

mutual

def sqlEval : PgExpr → Option (BitVec 64)
  | .const _ constisnull constvalue => if constisnull then none else some constvalue
  | .param _ dno _ => vars dno
  | .relabelType arg => sqlEval arg
  | .boolExpr .not args => sqlNot (sqlArgs args)
  | .boolExpr .and args => ofTruth (Kleene.fold true ((sqlArgs args).map truth))
  | .boolExpr .or args => ofTruth (Kleene.fold false ((sqlArgs args).map truth))
  | .opExpr funcid collation args => sqlCall cat sql funcid collation (sqlArgs args)
  | .funcExpr funcid collation args => sqlCall cat sql funcid collation (sqlArgs args)
  | .subscriptingRef _ _ _ _ _ | .other => none

def sqlArgs : List PgExpr → List (Option (BitVec 64))
  | [] => []
  | e :: es => sqlEval e :: sqlArgs es

end

mutual

/-- The functions that are called, arguments first: not a strict one of a NULL,
and not the cast of a numeric constant. -/
def sqlCalls : PgExpr → List Fid
  | .relabelType arg => sqlCalls arg
  | .boolExpr _ args => sqlCallsAll args
  | .opExpr funcid _ args =>
    sqlCallsAll args ++ if sqlSkips cat funcid (sqlArgs cat sql vars args) then [] else [funcid]
  | .funcExpr funcid _ args =>
    if (foldedNumeric funcid args).isSome then []
    else sqlCallsAll args ++ if sqlSkips cat funcid (sqlArgs cat sql vars args) then [] else [funcid]
  | _ => []

def sqlCallsAll : List PgExpr → List Fid
  | [] => []
  | e :: es => sqlCalls e ++ sqlCallsAll es

end

end Sql

/-! ### Folding bits -/

/-- An operand of AND or OR, by its lowest bit. -/
def NullableDatum.bit (d : NullableDatum) : Option Bool := if d.isnull then none else some (datumBit d)

/-- A boolean is 0 or 1, so its lowest bit says it all. -/
theorem bit_eq_truth {d : NullableDatum} (boolean : IsTruth d.toOption) : d.bit = truth d.toOption := by
  obtain ⟨v, isnull⟩ := d
  cases isnull with
  | true => rfl
  | false => rcases boolean v rfl with rfl | rfl <;> rfl

theorem mem_bits_decisive (isAnd : Bool) (ds : List NullableDatum) :
    some (!isAnd) ∈ ds.map (·.bit) ↔ (ds.any fun d => !d.isnull && (datumBit d != isAnd)) = true := by
  rw [List.mem_map, List.any_eq_true]
  refine exists_congr fun d => and_congr_right fun _ => ?_
  cases isnull : d.isnull <;> cases bit : datumBit d <;> cases isAnd <;>
    simp [NullableDatum.bit, isnull, bit]

theorem mem_bits_unknown (ds : List NullableDatum) :
    none ∈ ds.map (·.bit) ↔ ds.any (·.isnull) = true := by
  rw [List.mem_map, List.any_eq_true]
  refine exists_congr fun d => and_congr_right fun _ => ?_
  cases isnull : d.isnull <;> simp [NullableDatum.bit, isnull]

/-- The bits of NULLs do no harm: where they matter, the result is NULL. -/
theorem foldBool_toOption (isAnd : Bool) (ds : List NullableDatum) :
    (foldBool isAnd ds).toOption = ofTruth (Kleene.fold isAnd (ds.map (·.bit))) := by
  rw [Kleene.fold_eq]
  by_cases decided : some (!isAnd) ∈ ds.map (·.bit)
  · rw [if_pos decided]
    have known := (mem_bits_decisive isAnd ds).mp decided
    obtain ⟨d, member, bit⟩ := List.mem_map.mp decided
    have decides : datumBit d = !isAnd := by
      unfold NullableDatum.bit at bit
      split at bit
      · cases bit
      · exact Option.some.inj bit
    simp only [foldBool, known, Bool.not_true, Bool.and_false, NullableDatum.toOption,
      Bool.false_eq_true, if_false, ofTruth, Option.map_some]
    cases isAnd with
    | true =>
      have somewhere : ds.all datumBit = false := by
        rw [List.all_eq_false]
        exact ⟨d, member, by simp [decides]⟩
      simp [somewhere]
    | false =>
      have somewhere : ds.any datumBit = true := List.any_eq_true.mpr ⟨d, member, decides⟩
      simp [somewhere]
  · rw [if_neg decided]
    have undecided : (ds.any fun d => !d.isnull && (datumBit d != isAnd)) = false :=
      Bool.eq_false_iff.mpr fun known => decided ((mem_bits_decisive isAnd ds).mpr known)
    by_cases unknown : none ∈ ds.map (·.bit)
    · have anyNull := (mem_bits_unknown ds).mp unknown
      simp [foldBool, anyNull, undecided, unknown, NullableDatum.toOption, ofTruth]
    · have noNull : ds.any (·.isnull) = false :=
        Bool.eq_false_iff.mpr fun anyNull => unknown ((mem_bits_unknown ds).mpr anyNull)
      have agree : ∀ d ∈ ds, datumBit d = isAnd := by
        intro d member
        have here := List.any_eq_false.mp undecided d member
        have set := List.any_eq_false.mp noNull d member
        simp only [Bool.not_eq_true] at set
        simpa [set] using here
      have result : (if isAnd then ds.all datumBit else ds.any datumBit) = isAnd := by
        cases isAnd with
        | true => exact List.all_eq_true.mpr agree
        | false =>
          rw [if_neg (by decide), List.any_eq_false]
          intro d member
          simp [agree d member]
      simp only [foldBool, noNull, unknown, if_false, Bool.false_and, NullableDatum.toOption,
        Bool.false_eq_true, ofTruth, Option.map_some, result]

theorem foldBool_eq_sql {isAnd : Bool} {ds : List NullableDatum}
    (boolean : ∀ d ∈ ds, IsTruth d.toOption) :
    (foldBool isAnd ds).toOption =
      ofTruth (Kleene.fold isAnd ((ds.map (·.toOption)).map truth)) := by
  rw [foldBool_toOption, List.map_map]
  congr 2
  exact List.map_congr_left fun d member => bit_eq_truth (boolean d member)

theorem not_eq_sql {d : NullableDatum} (boolean : IsTruth d.toOption) :
    (⟨boolDatum (!datumBit d), d.isnull⟩ : NullableDatum).toOption =
      ofTruth (Kleene.not (truth d.toOption)) := by
  rw [← bit_eq_truth boolean]
  cases isnull : d.isnull <;> simp [NullableDatum.toOption, NullableDatum.bit, isnull, Kleene.not, ofTruth]

/-! ### The compiled code -/

/-- The functions return, see nothing behind a NULL, and have the results SQL
gives them; the variables hold values of their types. -/
structure Conforming (types : BoolTypes) (cat : Catalog)
    (fns : Fid → Nat → List NullableDatum → Except ErrorData NullableDatum)
    (sql : Fid → Nat → List (Option (BitVec 64)) → Option (BitVec 64))
    (params : Nat → NullableDatum) : Prop where
  returns : ∀ funcid collation ds, ∃ d, fns funcid collation ds = .ok d ∧
    d.toOption = sql funcid collation (ds.map (·.toOption))
  booleanFn : ∀ funcid, types.fn funcid = true → ∀ collation vs, IsTruth (sql funcid collation vs)
  booleanVar : ∀ dno, types.var dno = true → IsTruth (params dno).toOption
  /-- The cast of a numeric to float8 is strict, and done at compile time as it
  would be at run time. -/
  numericStrict : cat.fnStrict .float8Numeric = true
  numeric : ∀ collation v, sql .float8Numeric collation [some v] = some (cat.numericFloat8 v)

section Compiled

variable {types : BoolTypes} {cat : Catalog}
  {fns : Fid → Nat → List NullableDatum → Except ErrorData NullableDatum}
  {sql : Fid → Nat → List (Option (BitVec 64)) → Option (BitVec 64)} {params : Nat → NullableDatum}

theorem sqlEval_isTruth (conforming : Conforming types cat fns sql params) {e : PgExpr}
    (boolean : e.isBoolean types = true) :
    IsTruth (sqlEval cat sql (fun dno => (params dno).toOption) e) := by
  have call (funcid : Fid) (collation : Nat) (vs : List (Option (BitVec 64)))
      (isBool : types.fn funcid = true) : IsTruth (sqlCall cat sql funcid collation vs) := by
    unfold sqlCall
    split
    · nofun
    · exact conforming.booleanFn funcid isBool collation vs
  match e with
  | .const consttype constisnull constvalue =>
    intro d here
    simp only [sqlEval] at here
    simp only [PgExpr.isBoolean, Bool.and_eq_true, Bool.or_eq_true, decide_eq_true_eq] at boolean
    split at here
    · cases here
    · cases here
      simpa [*] using boolean.2
  | .param _ dno _ => exact conforming.booleanVar dno boolean
  | .relabelType arg =>
    simp only [sqlEval]
    exact sqlEval_isTruth conforming boolean
  | .boolExpr .not args =>
    simp only [sqlEval]
    unfold sqlNot
    split
    · exact isTruth_ofTruth _
    · nofun
  | .boolExpr .and args | .boolExpr .or args =>
    simp only [sqlEval]
    exact isTruth_ofTruth _
  | .opExpr funcid collation args | .funcExpr funcid collation args =>
    simp only [sqlEval]
    exact call funcid collation _ boolean
  | .subscriptingRef _ _ _ _ _ | .other => cases boolean

theorem sqlArgs_isTruth (conforming : Conforming types cat fns sql params) {es : List PgExpr}
    (boolean : es.all (·.isBoolean types) = true) :
    ∀ v ∈ sqlArgs cat sql (fun dno => (params dno).toOption) es, IsTruth v := by
  induction es with
  | nil => simp [sqlArgs]
  | cons e es ih =>
    simp only [List.all_cons, Bool.and_eq_true] at boolean
    simp only [sqlArgs, List.mem_cons, forall_eq_or_imp]
    exact ⟨sqlEval_isTruth conforming boolean.1, ih boolean.2⟩

theorem any_isnull_eq (ds : List NullableDatum) :
    ds.any (·.isnull) = (ds.map (·.toOption)).any (·.isNone) := by
  rw [List.any_map]
  congr 1
  funext d
  exact d.toOption_isNone.symm

/-- A call whose arguments are right. -/
theorem run_call_sql (conforming : Conforming types cat fns sql params) {funcid : Fid} {collation : Nat}
    {codes : List FmgrCode} {fs : List Fid} {ds : List NullableDatum} {vs : List (Option (BitVec 64))}
    (args : FmgrCode.runArgs fns params codes = (fs, .ok ds)) (values : ds.map (·.toOption) = vs) :
    ∃ d, (FmgrCode.call funcid (cat.fnStrict funcid) collation codes).run fns params =
        (fs ++ if sqlSkips cat funcid vs then [] else [funcid], .ok d) ∧
      d.toOption = sqlCall cat sql funcid collation vs := by
  have strict : (cat.fnStrict funcid && ds.any (·.isnull)) = sqlSkips cat funcid vs := by
    rw [sqlSkips, any_isnull_eq, values]
  cases skips : sqlSkips cat funcid vs with
  | true => exact ⟨⟨0, true⟩, by simp [FmgrCode.run, args, strict, skips], by simp [sqlCall, skips]; rfl⟩
  | false =>
    obtain ⟨d, called, value⟩ := conforming.returns funcid collation ds
    refine ⟨d, by simp [FmgrCode.run, args, strict, skips, called], ?_⟩
    rw [value, values, sqlCall, skips]
    rfl

theorem foldedNumeric_sql (conforming : Conforming types cat fns sql params) {funcid : Fid} {collation : Nat}
    {args : List PgExpr} {c : NullableDatum} (folded : foldedNumeric funcid args = some c)
    (one : funcid ≠ .float8Numeric ∨ args.length = 1) :
    (⟨if c.isnull then 0 else cat.numericFloat8 c.value, c.isnull⟩ : NullableDatum).toOption =
      sqlCall cat sql funcid collation (sqlArgs cat sql (fun dno => (params dno).toOption) args) := by
  unfold foldedNumeric at folded
  split at folded
  next ty constisnull constvalue rest =>
    cases folded
    have alone : rest = [] := by simpa using one
    subst alone
    cases constisnull with
    | true => simp [NullableDatum.toOption, sqlCall, sqlArgs, sqlEval, sqlSkips, conforming.numericStrict]
    | false =>
      simp [NullableDatum.toOption, sqlCall, sqlArgs, sqlEval, sqlSkips, conforming.numericStrict,
        conforming.numeric]
  next => cases folded

mutual

/-- Compiled code calls what SQL calls and has SQL's value. -/
theorem run_sql (conforming : Conforming types cat fns sql params) (e : PgExpr) (code : FmgrCode)
    (compiled : compileExprFmgrFull cat e = some code) (typed : e.wellTyped types = true) :
    ∃ d, code.run fns params =
        (sqlCalls cat sql (fun dno => (params dno).toOption) e, .ok d) ∧
      d.toOption = sqlEval cat sql (fun dno => (params dno).toOption) e := by
  match e with
  | .const _ constisnull constvalue =>
    cases compiled
    refine ⟨_, rfl, ?_⟩
    cases constisnull <;> rfl
  | .param _ dno _ =>
    cases compiled
    exact ⟨params dno, rfl, rfl⟩
  | .relabelType arg =>
    simp only [compileExprFmgrFull] at compiled
    simp only [sqlCalls, sqlEval]
    exact run_sql conforming arg code compiled (by simpa [PgExpr.wellTyped] using typed)
  | .boolExpr .not [arg] =>
    simp only [compileExprFmgrFull, Option.map_eq_some_iff] at compiled
    obtain ⟨inner, compiled, rfl⟩ := compiled
    simp only [PgExpr.wellTyped, PgExpr.wellTypedAll, Bool.and_eq_true, List.all_cons, List.all_nil,
      Bool.and_true] at typed
    obtain ⟨d, run, value⟩ := run_sql conforming arg inner compiled typed.2
    -- The operand is 0 or 1, so that its lowest bit decides.
    have boolean := sqlEval_isTruth conforming typed.1.2
    rw [← value] at boolean
    refine ⟨⟨boolDatum (!datumBit d), d.isnull⟩, ?_, ?_⟩
    · simp [FmgrCode.run, run, sqlCalls, sqlCallsAll]
    · rw [not_eq_sql boolean, value]
      simp only [sqlEval, sqlArgs, sqlNot]
  | .boolExpr .not [] | .boolExpr .not (_ :: _ :: _) => simp [compileExprFmgrFull] at compiled
  | .boolExpr .and args | .boolExpr .or args =>
    simp only [compileExprFmgrFull, Option.map_eq_some_iff] at compiled
    obtain ⟨codes, compiled, rfl⟩ := compiled
    simp only [PgExpr.wellTyped, Bool.and_eq_true] at typed
    obtain ⟨ds, run, values⟩ := runArgs_sql conforming args codes compiled typed.2
    have boolean := sqlArgs_isTruth conforming typed.1.2
    rw [← values] at boolean
    simp only [FmgrCode.run, run, sqlCalls, sqlEval, ← values]
    exact ⟨_, rfl, foldBool_eq_sql (by simpa using boolean)⟩
  | .opExpr funcid collation args =>
    simp only [compileExprFmgrFull] at compiled
    split at compiled
    · cases compiled
    · obtain ⟨codes, inner, rfl⟩ := Option.map_eq_some_iff.mp compiled
      simp only [PgExpr.wellTyped] at typed
      obtain ⟨ds, run, values⟩ := runArgs_sql conforming args codes inner typed
      simp only [sqlCalls, sqlEval]
      exact run_call_sql conforming run values
  | .funcExpr funcid collation args =>
    simp only [compileExprFmgrFull] at compiled
    simp only [PgExpr.wellTyped, Bool.and_eq_true, Bool.or_eq_true, bne_iff_ne, decide_eq_true_eq] at typed
    simp only [sqlCalls, sqlEval]
    -- A cast of a numeric constant is folded while compiling.
    cases folded : foldedNumeric funcid args with
    | some c =>
      rw [folded] at compiled
      cases compiled
      exact ⟨_, rfl, foldedNumeric_sql conforming folded typed.1⟩
    | none =>
      rw [folded] at compiled
      dsimp only at compiled
      split at compiled
      · cases compiled
      · obtain ⟨codes, inner, rfl⟩ := Option.map_eq_some_iff.mp compiled
        obtain ⟨ds, run, values⟩ := runArgs_sql conforming args codes inner typed.2
        exact run_call_sql conforming run values
  | .subscriptingRef _ _ _ _ _ | .other => simp [compileExprFmgrFull] at compiled

theorem runArgs_sql (conforming : Conforming types cat fns sql params) (es : List PgExpr)
    (codes : List FmgrCode) (compiled : compileArgs cat es = some codes)
    (typed : PgExpr.wellTypedAll types es = true) :
    ∃ ds, FmgrCode.runArgs fns params codes =
        (sqlCallsAll cat sql (fun dno => (params dno).toOption) es, .ok ds) ∧
      ds.map (·.toOption) = sqlArgs cat sql (fun dno => (params dno).toOption) es := by
  match es with
  | [] =>
    cases compiled
    exact ⟨[], rfl, rfl⟩
  | e :: es =>
    obtain ⟨code, rest, first, others, rfl⟩ := compileArgs_cons compiled
    simp only [PgExpr.wellTypedAll, Bool.and_eq_true] at typed
    obtain ⟨d, run, value⟩ := run_sql conforming e code first typed.1
    obtain ⟨ds, runs, values⟩ := runArgs_sql conforming es rest others typed.2
    refine ⟨d :: ds, by simp only [FmgrCode.runArgs, run, runs, sqlCallsAll], ?_⟩
    simp only [List.map_cons, value, values, sqlArgs]

end

/-- Tier 2 of `uplpgsql_try_compile_bool`: the Datum's lowest bit, and not NULL. -/
def fmgrCondition (d : NullableDatum) : Bool := datumBit d && !d.isnull

theorem fmgrCondition_iff {d : NullableDatum} (boolean : IsTruth d.toOption) :
    fmgrCondition d = true ↔ truth d.toOption = some true := by
  rw [← bit_eq_truth boolean]
  cases isnull : d.isnull <;> simp [fmgrCondition, NullableDatum.bit, isnull]

end Compiled

/-- `NOT b AND i = 3`. -/
def notAndEquals : PgExpr :=
  .boolExpr .and [.boolExpr .not [.param true 0 .bool],
    .opExpr .int4eq 0 [.param true 1 .int4, .const .int4 false 3]]

/-- `int4eq`, and no more. -/
def int4eqOnly : Fid → Nat → List (Option (BitVec 64)) → Option (BitVec 64)
  | .int4eq, _, [some a, some b] => some (boolDatum (a.setWidth 32 == b.setWidth 32))
  | .float8Numeric, _, [some v] => some v
  | _, _, _ => none

end Uplpgsql
