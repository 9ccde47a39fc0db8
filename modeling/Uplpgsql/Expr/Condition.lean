import Uplpgsql.Expr.Evaluation
import Uplpgsql.Expr.Nulls
import Mathlib.Tactic.FinCases
import Mathlib.Tactic.IntervalCases

/-!
# Conditions that are not boolean

The condition of an IF may have any type. `exec_eval_boolean` casts its value to
boolean, most types through their text form. A compiled condition is the lowest
bit of the Datum, whatever its type.
-/

namespace Uplpgsql

open Lib Traced

/-! ### Text input of booleans -/

/-- `isspace`. -/
def isSpace (c : Char) : Bool := c.toNat = 32 || (9 ≤ c.toNat && c.toNat ≤ 13)

def trimSpace (s : List Char) : List Char :=
  ((s.dropWhile isSpace).reverse.dropWhile isSpace).reverse

/-- `parse_bool_with_len`: a word or the beginning of one, in any case. -/
def parseBoolWithLen (value : List Char) : Option Bool :=
  let word := value.map Char.toLower
  match word with
  | 't' :: _ => if word.isPrefixOf ['t', 'r', 'u', 'e'] then some true else none
  | 'f' :: _ => if word.isPrefixOf ['f', 'a', 'l', 's', 'e'] then some false else none
  | 'y' :: _ => if word.isPrefixOf ['y', 'e', 's'] then some true else none
  | 'n' :: _ => if word.isPrefixOf ['n', 'o'] then some false else none
  | 'o' :: _ =>
    if 2 ≤ word.length ∧ word.isPrefixOf ['o', 'n'] then some true
    else if 2 ≤ word.length ∧ word.isPrefixOf ['o', 'f', 'f'] then some false
    else none
  | ['1'] => some true
  | ['0'] => some false
  | _ => none

def errcodeInvalidTextRepresentation : Nat := makeSqlstate '2' '2' 'P' '0' '2'

def boolin (s : List Char) : Except ErrorData Bool :=
  match parseBoolWithLen (trimSpace s) with
  | some b => .ok b
  | none =>
    .error ⟨errcodeInvalidTextRepresentation,
      "invalid input syntax for type boolean: \"" ++ String.ofList s ++ "\""⟩

/-- `int4out` and `int8out`. -/
def decimal (n : Int) : List Char :=
  if n < 0 then '-' :: Nat.toDigits 10 n.natAbs else Nat.toDigits 10 n.natAbs

/-! ### Casts -/

inductive CastPath where
  /-- The same Datum: boolean, and domains over it. -/
  | relabel
  | viaIo
  /-- A cast function that may be used in assignments. -/
  | function
  deriving DecidableEq, Repr

/-- What the catalogs say about types other than boolean and the integers. -/
structure CastCatalog where
  path : Nat → CastPath
  output : TypeOid → BitVec 64 → List Char
  apply : Nat → Option (BitVec 64) → Except ErrorData (Option (BitVec 64))

namespace CastCatalog

variable (casts : CastCatalog)

/-- No cast from a number to boolean may be used in assignments. -/
def pathOf : TypeOid → CastPath
  | .bool => .relabel
  | .int4 | .int8 | .float8 => .viaIo
  | .other oid => casts.path oid

def outputOf : TypeOid → BitVec 64 → List Char
  | .int4, d => decimal (d.setWidth 32).toInt
  | .int8, d => decimal d.toInt
  | ty, d => casts.output ty d

def applyOf : TypeOid → Option (BitVec 64) → Except ErrorData (Option (BitVec 64))
  | .other oid, v => casts.apply oid v
  | _, v => .ok v

/-- `exec_cast_value` to boolean. -/
def execCastValue (ty : TypeOid) (v : Option (BitVec 64)) : Except ErrorData (Option (BitVec 64)) :=
  match casts.pathOf ty with
  | .relabel => .ok v
  | .viaIo =>
    match v with
    | none => .ok none
    | some d => (boolin (casts.outputOf ty d)).map fun b => some (boolDatum b)
  | .function => casts.applyOf ty v

/-- `exec_eval_boolean`, as its callers use it: NULL is not true. -/
def execEvalBoolean (ty : TypeOid) (d : NullableDatum) : Except ErrorData Bool :=
  (casts.execCastValue ty d.toOption).map fun v => truth v == some true

end CastCatalog

/-- Tier 2 of `uplpgsql_try_compile_bool`. -/
def FmgrCode.condition {σ : Type} (code : FmgrCode) (fns : Functions σ) (params : Nat → NullableDatum) :
    Eval σ Bool := do
  let d ← code.eval fns params []
  pure (fmgrCondition d)

/-! ### Integers as text -/

theorem digit_cases {c : Char} (digit : c.isDigit = true) :
    c ∈ ['0', '1', '2', '3', '4', '5', '6', '7', '8', '9'] := by
  simp only [Char.isDigit, Bool.and_eq_true, decide_eq_true_eq] at digit
  have low : 48 ≤ c.toNat := digit.1
  have high : c.toNat ≤ 57 := digit.2
  have back : c = Char.ofNat c.toNat := (Char.ofNat_toNat c).symm
  generalize c.toNat = n at low high back
  subst back
  interval_cases n <;> decide

theorem trimSpace_eq {s : List Char} (solid : ∀ c ∈ s, isSpace c = false) : trimSpace s = s := by
  have keep (t : List Char) (inside : ∀ c ∈ t, isSpace c = false) : t.dropWhile isSpace = t := by
    cases t with
    | nil => rfl
    | cons c t => simp [inside c (by simp)]
  rw [trimSpace, keep s solid, keep s.reverse (by simpa using solid), List.reverse_reverse]

theorem digits_solid (n : Nat) : ∀ c ∈ Nat.toDigits 10 n, isSpace c = false := by
  have solid : ∀ c ∈ ['0', '1', '2', '3', '4', '5', '6', '7', '8', '9'], isSpace c = false := by simp [isSpace]
  intro c member
  exact solid c (digit_cases (Nat.isDigit_of_mem_toDigits (by decide) (by decide) member))

/-- Two characters of which the first is a digit are no boolean. -/
theorem parseBool_digits {c c' : Char} {cs : List Char} (digit : c.isDigit = true) :
    parseBoolWithLen (c :: c' :: cs) = none := by
  have which := digit_cases digit
  fin_cases which <;> rfl

theorem parseBool_toDigits (n : Nat) :
    parseBoolWithLen (Nat.toDigits 10 n) = if n = 0 then some false else if n = 1 then some true else none := by
  by_cases small : n < 10
  · rw [Nat.toDigits_of_lt_base small]
    interval_cases n <;> rfl
  · have long := Nat.toDigits_of_base_le (by decide : 1 < 10) (by omega : 10 ≤ n)
    obtain ⟨c, cs, digits⟩ := List.exists_cons_of_ne_nil (Nat.toDigits_ne_nil (n := n / 10) (b := 10))
    have first : c ∈ Nat.toDigits 10 (n / 10) := by simp [digits]
    have digit : c.isDigit = true := Nat.isDigit_of_mem_toDigits (by decide) (by decide) first
    rw [long, digits, if_neg (by omega), if_neg (by omega)]
    cases cs with
    | nil => exact parseBool_digits digit
    | cons c' cs => exact parseBool_digits digit

/-- Only 0 and 1 are booleans. -/
theorem boolin_decimal (n : Int) (b : Bool) :
    boolin (decimal n) = .ok b ↔ n = 0 ∧ b = false ∨ n = 1 ∧ b = true := by
  have parsed : parseBoolWithLen (trimSpace (decimal n)) =
      if n = 0 then some false else if n = 1 then some true else none := by
    unfold decimal
    split
    next negative =>
      rw [trimSpace_eq (by simpa [isSpace] using digits_solid n.natAbs), if_neg (by omega), if_neg (by omega)]
      rfl
    next =>
      rw [trimSpace_eq (digits_solid _), parseBool_toDigits]
      have zero : n.natAbs = 0 ↔ n = 0 := by omega
      have one : n.natAbs = 1 ↔ n = 1 := by omega
      simp only [zero, one]
  rw [boolin, parsed]
  split_ifs with zero one
  · simp [zero, eq_comm]
  · simp [one, eq_comm]
  · simp [zero, one]

/-! ### When the lowest bit says it all -/

/-- The integer behind a Datum, for the two integer types. -/
def TypeOid.integer : TypeOid → BitVec 64 → Option Int
  | .int4, d => some (d.setWidth 32).toInt
  | .int8, d => some d.toInt
  | _, _ => none

/-- NULL, a boolean, 0 or 1, or a value whose cast happens to be its lowest bit. -/
def CoercesAsBit (casts : CastCatalog) (ty : TypeOid) (d : NullableDatum) : Prop :=
  match casts.pathOf ty with
  | .relabel => True
  | .viaIo =>
    d.isnull = true ∨
      match ty.integer d.value with
      | some n => n = 0 ∨ n = 1
      | none => boolin (casts.outputOf ty d.value) = .ok (datumBit d)
  | .function => ∃ v, casts.applyOf ty d.toOption = .ok v ∧ (truth v = some true ↔ fmgrCondition d = true)

theorem getLsbD_of_integer {ty : TypeOid} {d : BitVec 64} {n : Int} (integer : ty.integer d = some n)
    (small : n = 0 ∨ n = 1) : d.getLsbD 0 = decide (n = 1) := by
  have low : d.getLsbD 0 = decide (d.toNat % 2 = 1) := by simp [BitVec.getLsbD, Nat.testBit_zero]
  have parity : (n = 1 ↔ d.toNat % 2 = 1) := by
    cases ty with
    | int4 =>
      simp only [TypeOid.integer, Option.some.injEq] at integer
      have value := BitVec.toInt_eq_toNat_cond (d.setWidth 32)
      rw [integer, BitVec.toNat_setWidth] at value
      split at value <;> omega
    | int8 =>
      simp only [TypeOid.integer, Option.some.injEq] at integer
      have value := BitVec.toInt_eq_toNat_cond d
      rw [integer] at value
      split at value <;> omega
    | float8 => cases integer
    | bool => cases integer
    | other => cases integer
  rw [low, decide_eq_decide, parity]

theorem outputOf_integer {casts : CastCatalog} {ty : TypeOid} {d : BitVec 64} {n : Int}
    (integer : ty.integer d = some n) : casts.outputOf ty d = decimal n := by
  cases ty with
  | int4 =>
    cases integer
    rfl
  | int8 =>
    cases integer
    rfl
  | float8 => cases integer
  | bool => cases integer
  | other => cases integer

/-- Integers are read as booleans only if they are 0 or 1. -/
theorem viaIo_iff {casts : CastCatalog} {ty : TypeOid} {d : NullableDatum} :
    boolin (casts.outputOf ty d.value) = .ok (datumBit d) ↔
      match ty.integer d.value with
      | some n => n = 0 ∨ n = 1
      | none => boolin (casts.outputOf ty d.value) = .ok (datumBit d) := by
  cases integer : ty.integer d.value with
  | none => exact Iff.rfl
  | some n =>
    simp only [outputOf_integer integer, boolin_decimal]
    constructor
    · rintro (⟨zero, -⟩ | ⟨one, -⟩)
      · exact .inl zero
      · exact .inr one
    · intro small
      have bit : datumBit d = decide (n = 1) := getLsbD_of_integer integer small
      rcases small with rfl | rfl
      · exact .inl ⟨rfl, by simpa using bit⟩
      · exact .inr ⟨rfl, by simpa using bit⟩

theorem execEvalBoolean_iff {casts : CastCatalog} {ty : TypeOid} {d : NullableDatum}
    (boolean : casts.pathOf ty = .relabel → IsTruth d.toOption) :
    casts.execEvalBoolean ty d = .ok (fmgrCondition d) ↔ CoercesAsBit casts ty d := by
  unfold CastCatalog.execEvalBoolean CastCatalog.execCastValue CoercesAsBit
  cases path : casts.pathOf ty with
  | relabel =>
    have condition := fmgrCondition_iff (boolean path)
    simp only [iff_true]
    refine congrArg Except.ok (Bool.eq_iff_iff.mpr ?_)
    rw [condition, beq_iff_eq]
  | viaIo =>
    rw [← viaIo_iff]
    cases isnull : d.isnull with
    | true => simp [NullableDatum.toOption, isnull, Except.map, fmgrCondition, truth]
    | false =>
      simp only [NullableDatum.toOption, isnull, Bool.false_eq_true, if_false, false_or, fmgrCondition,
        Bool.not_false, Bool.and_true]
      cases boolin (casts.outputOf ty d.value) with
      | error err => simp [Except.map]
      | ok b => cases b <;> simp [Except.map, truth, boolDatum]
  | function =>
    cases casts.applyOf ty d.toOption with
    | error err => simp [Except.map]
    | ok v =>
      simp only [Except.map, Except.ok.injEq, exists_eq_left']
      rw [Bool.eq_iff_iff, beq_iff_eq]

/-- A compiled condition is what `exec_eval_boolean` makes of the value, taken
where it is true and raising where the cast raises, if and only if the cast to
boolean is the lowest bit of the Datum. A native condition is boolean, and always
is. -/
theorem condition_coercion {σ : Type} {fns : Functions σ} {params : Nat → NullableDatum} {code : FmgrCode}
    {w : σ} {d : NullableDatum} (casts : CastCatalog) (ty : TypeOid)
    (value : (code.eval fns params [] w).result = .ok d)
    (boolean : casts.pathOf ty = .relabel → IsTruth d.toOption) :
    ((code.condition fns params w).result = casts.execEvalBoolean ty d ↔ CoercesAsBit casts ty d) ∧
      ∀ (native : GuardedCode .i1) (mem : Nat → Cell) (v : Option Bool), native.run mem = .ok v →
        ∃ taken, native.test mem = .ok taken ∧
          casts.execEvalBoolean .bool (storeVar (ofTruth v)) = .ok taken := by
  constructor
  · rw [FmgrCode.condition, bind_ok value, ← execEvalBoolean_iff boolean]
    exact eq_comm
  · intro native mem v run
    refine ⟨v.getD false, by simp [GuardedCode.test, run], ?_⟩
    rcases v with _ | _ | _ <;> rfl

/-- Text has its own text form; no other type is looked at. -/
def textCasts (content : List Char) : CastCatalog := ⟨fun _ => .viaIo, fun _ _ => content, fun _ v => .ok v⟩

theorem textCasts_int4 {P : Prop} (content : List Char) (path : (textCasts content).pathOf .int4 = .relabel) :
    P := by
  cases path

/-- The condition `i` with i = 1 is taken. -/
theorem condition_coercion_one :
    ((FmgrCode.load 0).condition (fun _ _ _ w => (.ok ⟨0, true⟩, w)) (fun _ => ⟨1, false⟩) ()).result =
      .ok true := by
  have value : ((FmgrCode.load 0).eval (fun _ _ _ w => (.ok ⟨0, true⟩, w)) (fun _ => ⟨1, false⟩) []
      ()).result = .ok ⟨1, false⟩ := rfl
  have coerced := (condition_coercion (textCasts []) .int4 value (textCasts_int4 [])).1.mpr (.inr (.inr rfl))
  exact coerced.trans ((execEvalBoolean_iff (textCasts_int4 [])).mpr (.inr (.inr rfl)))

/-- The condition `i` with i = 2 is not taken where the cast raises, and the
condition 'true' is not taken where the cast is true. -/
theorem condition_of_integer_two :
    ¬(∀ (casts : CastCatalog) (ty : TypeOid) (code : FmgrCode) (fns : Functions Unit)
      (params : Nat → NullableDatum) (d : NullableDatum), (code.eval fns params [] ()).result = .ok d →
        (casts.pathOf ty = .relabel → IsTruth d.toOption) →
          (code.condition fns params ()).result = casts.execEvalBoolean ty d) ∧
      (textCasts ['t', 'r', 'u', 'e']).execEvalBoolean (.other 25) ⟨0x5581f0, false⟩ = .ok true ∧
      ((FmgrCode.const ⟨0x5581f0, false⟩).condition (fun _ _ _ w => (.ok ⟨0, true⟩, w)) (fun _ => ⟨0, true⟩)
        ()).result = .ok false := by
  refine ⟨fun always => ?_, by decide, rfl⟩
  have same := always (textCasts []) .int4 (.load 0) (fun _ _ _ w => (.ok ⟨0, true⟩, w)) (fun _ => ⟨2, false⟩)
    ⟨2, false⟩ rfl (textCasts_int4 [])
  have notTwo : ¬CoercesAsBit (textCasts []) .int4 ⟨2, false⟩ := by
    rintro (null | small)
    · cases null
    · have two : (2 : Int) = 0 ∨ (2 : Int) = 1 := small
      omega
  exact notTwo ((execEvalBoolean_iff (textCasts_int4 [])).mp same.symm)

end Uplpgsql
