import Uplpgsql.Arrays.Writes
import Uplpgsql.Arrays.Reads
import Uplpgsql.Expr.NullTest

/-!
# Accesses to flat memory

Every load and store that compiled code makes in the buffers of its native arrays.
The NULL test of an expression probes the flag of every element that is read, and
loads the elements that are subscripts of others, before it acts on any bound. The
size and the value of `array_fill` are not tested at all.
-/

namespace Uplpgsql

open Lib.Words

/-! ### The NULL test and the value -/

section Expressions

variable (natives : Nat → Option IntSize) (cells : Nat → Cell)

/-- Whether the element with this subscript is NULL. -/
def testElem (dno : Nat) : SqlVal → Native ArithError Bool
  | .int i =>
    match natives dno with
    | some _ => emitNativeIsnull (cells dno).mirror (BitVec.ofInt 32 i)
    | none => .ok (arrayGetElement (BitVec.ofInt 32 i) (cells dno).arrayValue).isnull
  | _ => .undefined

/-- An array that is not native is tested itself. -/
def baseNull (dno : Nat) : Bool := (natives dno).isNone && (cells dno).isnull

mutual

/-- The answer of `tier1_expr_any_null` at run time. -/
def nullTest : PgExpr → Native ArithError Bool
  | .const _ _ _ => .ok false
  | .param _ dno _ => .ok (cells dno).isnull
  | .relabelType arg => nullTest arg
  | .opExpr _ _ args => nullTests args
  | .funcExpr _ _ args => nullTests args
  | .subscriptingRef _ (.param _ dno _) [idx] _ _ => do
    let l ← nullTest idx
    let r ← testElem natives cells dno (← mathEval natives cells idx)
    .ok (baseNull natives cells dno || l || r)
  | _ => .ok true

def nullTests : List PgExpr → Native ArithError Bool
  | [] => .ok false
  | e :: es => do
    let l ← nullTest e
    let r ← nullTests es
    .ok (l || r)

end

/-- The load of an element. -/
def loadElem (dno : Nat) : SqlVal → Native ArithError Unit
  | .int i => do
    let _ ← rawElem natives cells dno (BitVec.ofInt 32 i)
    .ok ()
  | _ => .undefined

mutual

/-- What the value of an expression loads. The arithmetic around it, of whatever
type, is left out: it can only stop earlier. -/
def valueLoads : PgExpr → Native ArithError Unit
  | .relabelType arg => valueLoads arg
  | .opExpr _ _ args => valuesLoads args
  | .funcExpr _ _ args => valuesLoads args
  | .subscriptingRef _ (.param _ dno _) [idx] _ _ => do
    loadElem natives cells dno (← mathEval natives cells idx)
  | _ => .ok ()

def valuesLoads : List PgExpr → Native ArithError Unit
  | [] => .ok ()
  | e :: es => do
    valueLoads e
    valuesLoads es

end

/-- The value behind its test. -/
def guardedLoads (e : PgExpr) : Native ArithError Bool := do
  if ← nullTest natives cells e then .ok true
  else do
    valueLoads natives cells e
    .ok false

/-- The expressions of Tier 1, for which only subscripts matter. -/
inductive ReadShape : PgExpr → Prop where
  | const {ty : TypeOid} {isnull : Bool} {v : BitVec 64} : ReadShape (.const ty isnull v)
  | param {external : Bool} {dno : Nat} {ty : TypeOid} : ReadShape (.param external dno ty)
  | relabel {arg : PgExpr} (operand : ReadShape arg) : ReadShape (.relabelType arg)
  | op {fid : Fid} {coll : Nat} {args : List PgExpr} (operands : ∀ e ∈ args, ReadShape e) :
      ReadShape (.opExpr fid coll args)
  | func {fid : Fid} {coll : Nat} {args : List PgExpr} (operands : ∀ e ∈ args, ReadShape e) :
      ReadShape (.funcExpr fid coll args)
  | elem {ty pty : TypeOid} {dno : Nat} {idx : PgExpr} (subscript : IntShape natives .i32 idx)
      (reads : ReadShape idx) : ReadShape (.subscriptingRef ty (.param true dno pty) [idx] [] false)

end Expressions

section Shapes

variable {natives : Nat → Option IntSize}

theorem IntShape.readShape {s : IntSize} {e : PgExpr} (shape : IntShape natives s e) : ReadShape natives e := by
  induction shape with
  | const => exact .const
  | param => exact .param
  | binary _ _ _ left right =>
    apply ReadShape.op
    simpa using ⟨left, right⟩
  | negate _ _ operand =>
    apply ReadShape.op
    simpa using operand
  | abs _ _ operand =>
    apply ReadShape.func
    simpa using operand
  | relabel _ operand => exact .relabel operand
  | elem _ _ subscript reads => exact .elem subscript reads

theorem CondShape.readShape {e : PgExpr} (shape : CondShape natives e) : ReadShape natives e := by
  induction shape with
  | const => exact .const
  | param => exact .param
  | compare _ _ left right =>
    apply ReadShape.op
    simpa using ⟨left.readShape, right.readShape⟩
  | equate _ _ _ left right =>
    apply ReadShape.op
    simpa using ⟨left, right⟩

end Shapes

/-! ### Inside the buffers -/

section Inside

/-- The element is inside its buffer. -/
def Mirror.ElemInBuffer (m : Mirror) (i : BitVec 32) : Prop :=
  ∃ buf, m.data = some buf ∧ 0 ≤ (i - m.lb).toInt ∧ (i - m.lb).toInt < buf.length

theorem Mirror.elemInBuffer_iff {ε : Type} (m : Mirror) (i : BitVec 32) :
    (emitNativeElem m i : Native ε (BitVec 64)) ≠ .undefined ↔ m.ElemInBuffer i := by
  unfold emitNativeElem ElemInBuffer
  cases m.data with
  | none => simp [loadAt]
  | some buf => simp [loadAt_defined_iff]

theorem Mirror.flagProbed_iff {ε : Type} (m : Mirror) (i : BitVec 32) :
    (emitNativeIsnull m i : Native ε Bool) ≠ .undefined ↔ m.FlagInBuffer i := by
  unfold emitNativeIsnull emitNativeArrayElemIsnull FlagInBuffer
  rw [Native.bind_defined_iff]
  cases m.nulls with
  | none => simp
  | some flags => simp [loadAt_defined_iff]

variable (natives : Nat → Option IntSize) (cells : Nat → Cell)

/-- A condition on the mirror of a native array, for a subscript that has a value. -/
def AtElement (inBuffer : Mirror → BitVec 32 → Prop) (dno : Nat) (idx : PgExpr) : Prop :=
  natives dno ≠ none → ∀ i, mathEval natives cells idx = .ok (.int i) →
    inBuffer (cells dno).mirror (BitVec.ofInt 32 i)

mutual

/-- Every element that is loaded to compute an integer expression is inside its
buffer. -/
def ElemsInside : PgExpr → Prop
  | .relabelType arg => ElemsInside arg
  | .opExpr _ _ args => ElemsInsideArgs args
  | .funcExpr _ _ args => ElemsInsideArgs args
  | .subscriptingRef _ (.param _ dno _) [idx] _ _ =>
    ElemsInside idx ∧ AtElement natives cells Mirror.ElemInBuffer dno idx
  | _ => True

/-- An argument that raises is the last one. -/
def ElemsInsideArgs : List PgExpr → Prop
  | [] => True
  | e :: es => ElemsInside e ∧ ∀ v, mathEval natives cells e = .ok v → ElemsInsideArgs es

end

mutual

/-- Every element that is loaded for a value is inside its buffer. -/
def LoadsInside : PgExpr → Prop
  | .relabelType arg => LoadsInside arg
  | .opExpr _ _ args => LoadsInsideArgs args
  | .funcExpr _ _ args => LoadsInsideArgs args
  | .subscriptingRef _ (.param _ dno _) [idx] _ _ =>
    ElemsInside natives cells idx ∧ AtElement natives cells Mirror.ElemInBuffer dno idx
  | _ => True

def LoadsInsideArgs : List PgExpr → Prop
  | [] => True
  | e :: es => LoadsInside e ∧ ∀ u, valueLoads natives cells e = .ok u → LoadsInsideArgs es

end

mutual

/-- Every flag that the NULL test probes, and every element that it loads to get a
subscript, is inside its buffer. -/
def ProbesInside : PgExpr → Prop
  | .relabelType arg => ProbesInside arg
  | .opExpr _ _ args => ProbesInsideArgs args
  | .funcExpr _ _ args => ProbesInsideArgs args
  | .subscriptingRef _ (.param _ dno _) [idx] _ _ =>
    ProbesInside idx ∧ ∀ isnull, nullTest natives cells idx = .ok isnull →
      ElemsInside natives cells idx ∧ AtElement natives cells Mirror.FlagInBuffer dno idx
  | _ => True

def ProbesInsideArgs : List PgExpr → Prop
  | [] => True
  | e :: es => ProbesInside e ∧ ∀ isnull, nullTest natives cells e = .ok isnull → ProbesInsideArgs es

end

variable {natives cells} {e idx : PgExpr} {dno : Nat}

/-- All values are of the kind. -/
def ValuesAre (kind : SqlVal → Prop) (x : Native ArithError SqlVal) : Prop := ∀ v, x = .ok v → kind v

theorem ValuesAre.bind {kind kind' : SqlVal → Prop} {x : Native ArithError SqlVal}
    {f : SqlVal → Native ArithError SqlVal} (values : ValuesAre kind x) (next : ∀ v, kind v → ValuesAre kind' (f v)) :
    ValuesAre kind' (x >>= f) := by
  cases x with
  | ok a => exact next a (values a rfl)
  | raise err => nofun
  | undefined => nofun

theorem Settled.valuesAre {kind : SqlVal → Prop} {x : Native ArithError SqlVal} (settled : Settled kind x) :
    ValuesAre kind x := by
  cases settled with
  | ok is =>
    rintro _ ⟨⟩
    exact is
  | raise err => nofun

theorem Settled.ne_undefined {kind : SqlVal → Prop} {x : Native ArithError SqlVal} (settled : Settled kind x) :
    x ≠ .undefined := by
  cases settled <;> nofun

theorem mathEval_isInt {s : IntSize} (shape : IntShape natives s e) :
    ValuesAre SqlVal.IsInt (mathEval natives cells e) := by
  induction shape with
  | const own => exact (Settled.ok ⟨_, TypeOid.read_eq own _⟩).valuesAre
  | param own => exact (Settled.ok ⟨_, TypeOid.read_eq own _⟩).valuesAre
  | binary sizes _ _ left right =>
    rw [mathEval, mathEval_two, Meaning.two]
    refine left.bind ?_
    rintro _ ⟨a, rfl⟩
    refine right.bind ?_
    rintro _ ⟨b, rfl⟩
    exact (apply_binary_settled sizes a b).valuesAre
  | negate negates _ operand =>
    rw [mathEval, mathEval_one, Meaning.one]
    refine operand.bind ?_
    rintro _ ⟨a, rfl⟩
    exact (apply_negate_settled negates a).valuesAre
  | abs absolute _ operand =>
    rw [mathEval, mathEval_one, Meaning.one]
    refine operand.bind ?_
    rintro _ ⟨a, rfl⟩
    exact (apply_abs_settled absolute a).valuesAre
  | relabel _ operand =>
    rw [mathEval]
    exact operand
  | @elem s ty pty dno idx own _ _ subscript =>
    rw [mathEval]
    refine subscript.bind ?_
    rintro _ ⟨i, rfl⟩ v read
    rw [readElem] at read
    cases raw : rawElem natives cells dno (BitVec.ofInt 32 i) with
    | ok d =>
      rw [raw] at read
      cases read
      exact ⟨_, TypeOid.read_eq own _⟩
    | raise err =>
      rw [raw] at read
      cases read
    | undefined =>
      rw [raw] at read
      cases read

/-- The accesses at one element, after its subscript. -/
theorem at_element_iff {α : Type} {access : SqlVal → Native ArithError α} {inBuffer : Mirror → BitVec 32 → Prop}
    (shape : IntShape natives .i32 idx)
    (foreign : natives dno = none → ∀ i, access (.int i) ≠ .undefined)
    (native : natives dno ≠ none → ∀ i, access (.int i) ≠ .undefined ↔
      inBuffer (cells dno).mirror (BitVec.ofInt 32 i)) :
    (∀ v, mathEval natives cells idx = .ok v → access v ≠ .undefined) ↔
      AtElement natives cells inBuffer dno idx := by
  unfold AtElement
  constructor
  · intro defined isNative i eval
    exact (native isNative i).mp (defined _ eval)
  · intro inside v eval
    obtain ⟨i, rfl⟩ := mathEval_isInt shape v eval
    by_cases isNative : natives dno = none
    · exact foreign isNative i
    · exact (native isNative i).mpr (inside isNative i eval)

theorem rawElem_foreign (foreign : natives dno = none) (i : BitVec 32) :
    rawElem natives cells dno i ≠ .undefined := by
  rw [rawElem, foreign]
  rintro ⟨⟩

theorem rawElem_native (native : natives dno ≠ none) (i : BitVec 32) :
    rawElem natives cells dno i ≠ .undefined ↔ (cells dno).mirror.ElemInBuffer i := by
  obtain ⟨s, native⟩ := Option.ne_none_iff_exists'.mp native
  rw [rawElem, native]
  exact Mirror.elemInBuffer_iff _ i

theorem readElem_defined_iff (shape : IntShape natives .i32 idx) (ty : TypeOid) :
    (∀ v, mathEval natives cells idx = .ok v → readElem natives cells ty dno v ≠ .undefined) ↔
      AtElement natives cells Mirror.ElemInBuffer dno idx := by
  have step (i : Int) : readElem natives cells ty dno (.int i) ≠ .undefined ↔
      rawElem natives cells dno (BitVec.ofInt 32 i) ≠ .undefined := by
    rw [readElem, Native.bind_defined_iff]
    simp
  exact at_element_iff shape (fun foreign i => (step i).mpr (rawElem_foreign foreign _))
    fun native i => (step i).trans (rawElem_native native _)

theorem loadElem_defined_iff (shape : IntShape natives .i32 idx) :
    (∀ v, mathEval natives cells idx = .ok v → loadElem natives cells dno v ≠ .undefined) ↔
      AtElement natives cells Mirror.ElemInBuffer dno idx := by
  have step (i : Int) : loadElem natives cells dno (.int i) ≠ .undefined ↔
      rawElem natives cells dno (BitVec.ofInt 32 i) ≠ .undefined := by
    rw [loadElem, Native.bind_defined_iff]
    simp
  exact at_element_iff shape (fun foreign i => (step i).mpr (rawElem_foreign foreign _))
    fun native i => (step i).trans (rawElem_native native _)

theorem testElem_defined_iff (shape : IntShape natives .i32 idx) :
    (∀ v, mathEval natives cells idx = .ok v → testElem natives cells dno v ≠ .undefined) ↔
      AtElement natives cells Mirror.FlagInBuffer dno idx := by
  refine at_element_iff shape (fun foreign i => ?_) fun native i => ?_
  · rw [testElem, foreign]
    nofun
  · obtain ⟨s, native⟩ := Option.ne_none_iff_exists'.mp native
    rw [testElem, native]
    exact Mirror.flagProbed_iff _ _

/-- An integer expression is computed without a load outside a buffer. -/
theorem mathEval_defined_iff {s : IntSize} (shape : IntShape natives s e) :
    mathEval natives cells e ≠ .undefined ↔ ElemsInside natives cells e := by
  induction shape with
  | const => simp [mathEval, ElemsInside]
  | param => simp [mathEval, ElemsInside]
  | @binary sl sr s fid coll el er sizes shapel shaper left right =>
    have applied : ∀ a, mathEval natives cells el = .ok a → ∀ b, mathEval natives cells er = .ok b →
        fid.apply [a, b] ≠ .undefined := by
      intro a evall b evalr
      obtain ⟨m, rfl⟩ := mathEval_isInt shapel a evall
      obtain ⟨n, rfl⟩ := mathEval_isInt shaper b evalr
      exact (apply_binary_settled sizes m n).ne_undefined
    rw [mathEval, mathEval_two, Meaning.two, Native.bind_defined_iff, left]
    simp only [ElemsInside, ElemsInsideArgs, implies_true, and_true]
    refine and_congr_right fun _ => forall₂_congr fun a evall => ?_
    rw [Native.bind_defined_iff, right]
    exact ⟨fun inside => inside.1, fun inside => ⟨inside, applied a evall⟩⟩
  | @negate s fid coll arg negates shape operand =>
    rw [mathEval, mathEval_one, Meaning.one, Native.bind_defined_iff, operand]
    simp only [ElemsInside, ElemsInsideArgs, implies_true, and_true, and_iff_left_iff_imp]
    rintro - a eval
    obtain ⟨m, rfl⟩ := mathEval_isInt shape a eval
    exact (apply_negate_settled negates m).ne_undefined
  | @abs s fid coll arg absolute shape operand =>
    rw [mathEval, mathEval_one, Meaning.one, Native.bind_defined_iff, operand]
    simp only [ElemsInside, ElemsInsideArgs, implies_true, and_true, and_iff_left_iff_imp]
    rintro - a eval
    obtain ⟨m, rfl⟩ := mathEval_isInt shape a eval
    exact (apply_abs_settled absolute m).ne_undefined
  | relabel _ operand =>
    rw [mathEval, ElemsInside]
    exact operand
  | @elem s ty pty dno idx own typed shape subscript =>
    rw [mathEval, Native.bind_defined_iff, subscript, readElem_defined_iff shape, ElemsInside]

/-- The value of an expression is computed without a load outside a buffer. -/
theorem valueLoads_defined_iff (shape : ReadShape natives e) :
    valueLoads natives cells e ≠ .undefined ↔ LoadsInside natives cells e := by
  have args (es : List PgExpr) (each : ∀ e ∈ es, valueLoads natives cells e ≠ .undefined ↔
      LoadsInside natives cells e) : valuesLoads natives cells es ≠ .undefined ↔ LoadsInsideArgs natives cells es := by
    induction es with
    | nil => simp [valuesLoads, LoadsInsideArgs]
    | cons e es ih =>
      rw [valuesLoads, Native.bind_defined_iff, each e (by simp), ih fun e' there => each e' (by simp [there])]
      rfl
  induction shape with
  | const => simp [valueLoads, LoadsInside]
  | param => simp [valueLoads, LoadsInside]
  | relabel _ operand =>
    rw [valueLoads, LoadsInside]
    exact operand
  | op _ operands =>
    rw [valueLoads, LoadsInside]
    exact args _ operands
  | func _ operands =>
    rw [valueLoads, LoadsInside]
    exact args _ operands
  | elem shape _ _ =>
    rw [valueLoads, Native.bind_defined_iff, mathEval_defined_iff shape, loadElem_defined_iff shape, LoadsInside]

/-- The NULL test probes and loads nothing outside a buffer. -/
theorem nullTest_defined_iff (shape : ReadShape natives e) :
    nullTest natives cells e ≠ .undefined ↔ ProbesInside natives cells e := by
  have args (es : List PgExpr) (each : ∀ e ∈ es, nullTest natives cells e ≠ .undefined ↔
      ProbesInside natives cells e) : nullTests natives cells es ≠ .undefined ↔ ProbesInsideArgs natives cells es := by
    induction es with
    | nil => simp [nullTests, ProbesInsideArgs]
    | cons e es ih =>
      rw [nullTests, Native.bind_defined_iff, each e (by simp), ProbesInsideArgs]
      refine and_congr_right fun _ => forall₂_congr fun isnull _ => ?_
      rw [Native.bind_defined_iff, ih fun e' there => each e' (by simp [there])]
      simp
  induction shape with
  | const => simp [nullTest, ProbesInside]
  | param => simp [nullTest, ProbesInside]
  | relabel _ operand =>
    rw [nullTest, ProbesInside]
    exact operand
  | op _ operands =>
    rw [nullTest, ProbesInside]
    exact args _ operands
  | func _ operands =>
    rw [nullTest, ProbesInside]
    exact args _ operands
  | elem shape _ subscript =>
    rw [nullTest, Native.bind_defined_iff, ProbesInside]
    refine and_congr subscript (forall₂_congr fun isnull _ => ?_)
    rw [Native.bind_defined_iff, mathEval_defined_iff shape, ← testElem_defined_iff shape]
    refine and_congr_right fun _ => forall₂_congr fun v _ => ?_
    rw [Native.bind_defined_iff]
    simp

end Inside

/-! ### A value that is not NULL -/

section Guarded

/-- All elements are in the buffer, and only the mirrors with elements have a lower
bound of their own. -/
structure Mirror.Sound (m : Mirror) : Prop where
  data : m.len.toInt ≤ (m.data.getD []).length
  lb : m.len = 0 → m.lb = 1

/-- The bounds hold of no subscript but those with an element, also where lb + len
wraps around. -/
theorem inBounds_range {len lb i : BitVec 32} (first : len = 0 → lb = 1) (nonneg : 0 ≤ len.toInt)
    (low : lb.toInt ≤ i.toInt) (high : i.toInt ≤ (lb + len - 1).toInt) :
    0 ≤ (i - lb).toInt ∧ (i - lb).toInt < len.toInt := by
  have wide := toInt_fits lb
  have wide' := toInt_fits len
  have one : (1 : BitVec 32).toInt = 1 := rfl
  simp only [Fits] at wide wide'
  by_cases none : len = 0
  · obtain rfl := first none
    subst none
    have zero : (1 + 0 - 1 : BitVec 32).toInt = 0 := rfl
    rw [zero] at high
    omega
  · have positive : 0 < len.toInt := by
      have different : len.toInt ≠ 0 := fun zero => none (BitVec.toInt_inj.mp zero)
      omega
    have before : (len - 1).toInt = len.toInt - 1 := by
      rw [toInt_sub_of_fits, one]
      simp only [Fits, one]
      omega
    have swap : lb + len - 1 = lb + (len - 1) := by
      rw [BitVec.sub_eq_add_neg, BitVec.sub_eq_add_neg, BitVec.add_assoc]
    rw [swap, BitVec.toInt_add, before, Int.bmod] at high
    have last : i.toInt ≤ lb.toInt + (len.toInt - 1) := by
      split at high <;> omega
    have idx0 : (i - lb).toInt = i.toInt - lb.toInt := by
      apply toInt_sub_of_fits
      simp only [Fits]
      omega
    omega

theorem Mirror.Sound.elemInBuffer {ε : Type} {m : Mirror} {i : BitVec 32} (sound : m.Sound)
    (notnull : (emitNativeIsnull m i : Native ε Bool) = .ok false) : m.ElemInBuffer i := by
  have zero : (0 : BitVec 32).toInt = 0 := rfl
  have inRange : (m.len.slt 0 || i.slt m.lb || (m.lb + m.len - 1).slt i) = false := by
    unfold emitNativeIsnull at notnull
    cases flag : (emitNativeArrayElemIsnull m (i - m.lb) : Native ε Bool) with
    | ok f =>
      rw [flag] at notnull
      have both := Native.ok.inj notnull
      exact (Bool.or_eq_false_iff.mp both).1
    | raise err =>
      rw [flag] at notnull
      cases notnull
    | undefined =>
      rw [flag] at notnull
      cases notnull
  simp only [BitVec.slt, Bool.or_eq_false_iff, decide_eq_false_iff_not, zero] at inRange
  obtain ⟨nonneg, below⟩ := inBounds_range sound.lb (i := i) (by omega) (by omega) (by omega)
  have data := sound.data
  cases there : m.data with
  | none =>
    simp only [there, Option.getD_none, List.length_nil] at data
    omega
  | some buf =>
    simp only [there, Option.getD_some] at data
    exact ⟨buf, there, nonneg, by omega⟩

variable {natives : Nat → Option IntSize} {cells : Nat → Cell} {e : PgExpr}

theorem bind_eq_ok {ε α β : Type} {x : Native ε α} {f : α → Native ε β} {b : β} (done : (x >>= f) = .ok b) :
    ∃ a, x = .ok a ∧ f a = .ok b := by
  cases x with
  | ok a => exact ⟨a, rfl, done⟩
  | raise err => cases done
  | undefined => cases done

/-- A value that is tested first loads nothing outside a buffer. -/
theorem valueLoads_of_notnull (sound : ∀ dno, natives dno ≠ none → (cells dno).mirror.Sound)
    (shape : ReadShape natives e) (notnull : nullTest natives cells e = .ok false) :
    valueLoads natives cells e ≠ .undefined := by
  have args (es : List PgExpr) (each : ∀ e ∈ es, nullTest natives cells e = .ok false →
      valueLoads natives cells e ≠ .undefined) (none : nullTests natives cells es = .ok false) :
      valuesLoads natives cells es ≠ .undefined := by
    induction es with
    | nil => simp [valuesLoads]
    | cons e es ih =>
      rw [nullTests] at none
      obtain ⟨l, first, none⟩ := bind_eq_ok none
      obtain ⟨r, rest, none⟩ := bind_eq_ok none
      obtain ⟨rfl, rfl⟩ := Bool.or_eq_false_iff.mp (Native.ok.inj none)
      rw [valuesLoads, Native.bind_defined_iff]
      exact ⟨each e (by simp) first, fun _ _ => ih (fun e' there => each e' (by simp [there])) rest⟩
  induction shape with
  | const => simp [valueLoads]
  | param => simp [valueLoads]
  | relabel _ operand =>
    rw [valueLoads]
    exact operand notnull
  | op _ operands =>
    rw [valueLoads]
    exact args _ operands notnull
  | func _ operands =>
    rw [valueLoads]
    exact args _ operands notnull
  | @elem ty pty dno idx shape _ _ =>
    rw [nullTest] at notnull
    obtain ⟨l, -, notnull⟩ := bind_eq_ok notnull
    obtain ⟨v, eval, notnull⟩ := bind_eq_ok notnull
    obtain ⟨r, tested, notnull⟩ := bind_eq_ok notnull
    obtain ⟨-, rfl⟩ := Bool.or_eq_false_iff.mp (Native.ok.inj notnull)
    rw [valueLoads, eval, Native.ok_bind]
    refine (loadElem_defined_iff shape).mpr (fun native i eval' => ?_) v eval
    rw [eval] at eval'
    cases eval'
    obtain ⟨s, size⟩ := Option.ne_none_iff_exists'.mp native
    rw [testElem, size] at tested
    exact (sound dno native).elemInBuffer tested

/-- The value of an integer expression loads what is loaded without the arithmetic,
or stops before. -/
theorem mathEval_loads {s : IntSize} (shape : IntShape natives s e) :
    (mathEval natives cells e = .undefined → valueLoads natives cells e = .undefined) ∧
      ∀ v, mathEval natives cells e = .ok v → valueLoads natives cells e = .ok () := by
  -- One element: both read the same place, and the arithmetic is not involved.
  have raw (dno : Nat) (ty : TypeOid) (v : SqlVal) :
      (readElem natives cells ty dno v = .undefined → loadElem natives cells dno v = .undefined) ∧
        ∀ u, readElem natives cells ty dno v = .ok u → loadElem natives cells dno v = .ok () := by
    cases v with
    | bool b => exact ⟨fun _ => rfl, by rintro _ ⟨⟩⟩
    | int i =>
      rw [readElem, loadElem]
      cases rawElem natives cells dno (BitVec.ofInt 32 i) with
      | ok d => exact ⟨by rintro ⟨⟩, fun _ _ => rfl⟩
      | raise err => exact ⟨by rintro ⟨⟩, by rintro _ ⟨⟩⟩
      | undefined => exact ⟨fun _ => rfl, by rintro _ ⟨⟩⟩
  induction shape with
  | const => simp [mathEval, valueLoads]
  | param => simp [mathEval, valueLoads]
  -- An operand that raises stops the value; the loads go on without it.
  | @binary sl sr s fid coll el er sizes shapel shaper left right =>
    rw [mathEval, mathEval_two, Meaning.two, valueLoads, valuesLoads, valuesLoads, valuesLoads]
    cases evall : mathEval natives cells el with
    | raise err => exact ⟨by rintro ⟨⟩, by rintro _ ⟨⟩⟩
    | undefined => simp [left.1 evall]
    | ok a =>
      simp only [left.2 a evall, Native.ok_bind]
      cases evalr : mathEval natives cells er with
      | raise err => exact ⟨by rintro ⟨⟩, by rintro _ ⟨⟩⟩
      | undefined => simp [right.1 evalr]
      | ok b =>
        obtain ⟨m, rfl⟩ := mathEval_isInt shapel a evall
        obtain ⟨n, rfl⟩ := mathEval_isInt shaper b evalr
        simp only [right.2 _ evalr, Native.ok_bind]
        exact ⟨fun undefined => absurd undefined (apply_binary_settled sizes m n).ne_undefined, fun _ _ => trivial⟩
  | @negate s fid coll arg negates shape operand =>
    rw [mathEval, mathEval_one, Meaning.one, valueLoads, valuesLoads, valuesLoads]
    cases eval : mathEval natives cells arg with
    | raise err => exact ⟨by rintro ⟨⟩, by rintro _ ⟨⟩⟩
    | undefined => simp [operand.1 eval]
    | ok a =>
      obtain ⟨m, rfl⟩ := mathEval_isInt shape a eval
      simp only [operand.2 _ eval, Native.ok_bind]
      exact ⟨fun undefined => absurd undefined (apply_negate_settled negates m).ne_undefined, fun _ _ => trivial⟩
  | @abs s fid coll arg absolute shape operand =>
    rw [mathEval, mathEval_one, Meaning.one, valueLoads, valuesLoads, valuesLoads]
    cases eval : mathEval natives cells arg with
    | raise err => exact ⟨by rintro ⟨⟩, by rintro _ ⟨⟩⟩
    | undefined => simp [operand.1 eval]
    | ok a =>
      obtain ⟨m, rfl⟩ := mathEval_isInt shape a eval
      simp only [operand.2 _ eval, Native.ok_bind]
      exact ⟨fun undefined => absurd undefined (apply_abs_settled absolute m).ne_undefined, fun _ _ => trivial⟩
  | relabel _ operand =>
    rw [mathEval, valueLoads]
    exact operand
  | @elem s ty pty dno idx own typed shape subscript =>
    rw [mathEval, valueLoads]
    cases mathEval natives cells idx with
    | ok v => exact raw dno ty v
    | raise err => exact ⟨by rintro ⟨⟩, by rintro _ ⟨⟩⟩
    | undefined => exact ⟨fun _ => rfl, by rintro _ ⟨⟩⟩

theorem mathEval_of_notnull (sound : ∀ dno, natives dno ≠ none → (cells dno).mirror.Sound) {s : IntSize}
    (shape : IntShape natives s e) (notnull : nullTest natives cells e = .ok false) :
    mathEval natives cells e ≠ .undefined := by
  intro undefined
  exact valueLoads_of_notnull sound shape.readShape notnull ((mathEval_loads shape).1 undefined)

end Guarded

/-! ### Compiled code -/

section Compiled

variable {natives : Nat → Option IntSize} {e : PgExpr}

/-- The same answer, and the error as it is reported. -/
abbrev SameTest : Native ErrorData Bool → Native ArithError Bool → Prop :=
  Native.Rel (· = ·) fun err e => err = e.report

theorem emitNativeIsnull_same (m : Mirror) (i : BitVec 32) :
    SameTest (emitNativeIsnull m i) (emitNativeIsnull m i) := by
  unfold emitNativeIsnull emitNativeArrayElemIsnull
  have loads : SameTest (if m.nulls = none then .ok false else loadAt m.nulls (i - m.lb))
      (if m.nulls = none then .ok false else loadAt m.nulls (i - m.lb)) := by
    split
    · exact .ok rfl
    · exact loadAt_rel _ _ _
  refine loads.bind ?_
  rintro flag _ rfl
  exact .ok rfl

/-- Two tests, one after the other. -/
theorem SameTest.or {x x' : Native ErrorData Bool} {y y' : Native ArithError Bool} (left : SameTest x y)
    (right : SameTest x' y') : SameTest (do let l ← x; let r ← x'; .ok (l || r))
      (do let l ← y; let r ← y'; .ok (l || r)) := by
  refine left.bind ?_
  rintro l _ rfl
  refine right.bind ?_
  rintro r _ rfl
  exact .ok rfl

theorem testElem_same (dno : Nat) {idx : PgExpr} {cells : Nat → Cell} {i : Native ErrorData (BitVec 32)}
    (computes : Computes i (mathEval natives cells idx)) :
    (natives dno ≠ none → SameTest (i >>= emitNativeIsnull (cells dno).mirror)
      (mathEval natives cells idx >>= testElem natives cells dno)) ∧
    (natives dno = none → SameTest (i >>= fun i => .ok (arrayGetElement i (cells dno).arrayValue).isnull)
      (mathEval natives cells idx >>= testElem natives cells dno)) := by
  constructor
  · intro native
    obtain ⟨s, native⟩ := Option.ne_none_iff_exists'.mp native
    refine computes.bind ?_
    rintro i _ rfl
    simp only [testElem, native, BitVec.ofInt_toInt]
    exact emitNativeIsnull_same _ i
  · intro foreign
    refine computes.bind ?_
    rintro i _ rfl
    simp only [testElem, foreign, BitVec.ofInt_toInt]
    exact .ok rfl

/-- What `tier1_expr_any_null` emits gives this answer. -/
theorem nullTest_compiled (shape : ReadShape natives e) :
    ∃ test, tier1ExprAnyNull natives e = .ok test ∧
      ∀ cells, SameTest (testRun cells test) (nullTest natives cells e) := by
  -- Over a list the test so far is carried along, and each argument adds its own.
  have args (es : List PgExpr) (each : ∀ e ∈ es, ∃ test, tier1ExprAnyNull natives e = .ok test ∧
      ∀ cells, SameTest (testRun cells test) (nullTest natives cells e)) (acc : Option (Code .i1)) :
      ∃ test, tier1AnyNullArgs natives acc es = .ok test ∧ ∀ cells y, SameTest (testRun cells acc) y →
        SameTest (testRun cells test) (do let l ← y; let r ← nullTests natives cells es; .ok (l || r)) := by
    induction es generalizing acc with
    | nil =>
      refine ⟨acc, by rw [tier1AnyNullArgs], fun cells y same => ?_⟩
      have unchanged : (do let l ← y; let r ← nullTests natives cells []; .ok (l || r)) = y := by
        cases y <;> simp [nullTests]
      rw [unchanged]
      exact same
    | cons e es ih =>
      obtain ⟨test, compiled, same⟩ := each e (by simp)
      obtain ⟨all, compiledAll, sameAll⟩ := ih (fun e' there => each e' (by simp [there])) (orNull acc test)
      refine ⟨all, by simp only [tier1AnyNullArgs, compiled, bind, Except.bind, compiledAll], fun cells y first => ?_⟩
      have both : SameTest (testRun cells (orNull acc test))
          (do let l ← y; let r ← nullTest natives cells e; .ok (l || r)) := by
        rw [testRun_orNull]
        exact first.or (same cells)
      have whole := sameAll cells _ both
      simp only [nullTests, Native.bind_assoc, Native.ok_bind, Bool.or_assoc] at whole ⊢
      exact whole
  -- Which starts from no test.
  have operands (es : List PgExpr) (each : ∀ e ∈ es, ∃ test, tier1ExprAnyNull natives e = .ok test ∧
      ∀ cells, SameTest (testRun cells test) (nullTest natives cells e)) :
      ∃ test, tier1AnyNullArgs natives none es = .ok test ∧
        ∀ cells, SameTest (testRun cells test) (nullTests natives cells es) := by
    obtain ⟨test, compiled, same⟩ := args es each none
    refine ⟨test, compiled, fun cells => ?_⟩
    have whole := same cells (.ok false) (.ok rfl)
    rw [Native.ok_bind] at whole
    have unchanged : (nullTests natives cells es >>= fun r => .ok (false || r)) = nullTests natives cells es := by
      cases nullTests natives cells es <;> rfl
    rw [unchanged] at whole
    exact whole
  induction shape with
  | const => exact ⟨none, by rw [tier1ExprAnyNull], fun cells => .ok rfl⟩
  | @param external dno ty => exact ⟨some (.loadIsnull dno), by rw [tier1ExprAnyNull], fun cells => .ok rfl⟩
  | relabel _ operand =>
    obtain ⟨test, compiled, same⟩ := operand
    exact ⟨test, by rw [tier1ExprAnyNull, compiled], fun cells => by rw [nullTest]; exact same cells⟩
  | op _ each =>
    obtain ⟨test, compiled, same⟩ := operands _ each
    exact ⟨test, by rw [tier1ExprAnyNull, compiled], fun cells => by rw [nullTest]; exact same cells⟩
  | func _ each =>
    obtain ⟨test, compiled, same⟩ := operands _ each
    exact ⟨test, by rw [tier1ExprAnyNull, compiled], fun cells => by rw [nullTest]; exact same cells⟩
  | @elem ty pty dno idx shape _ subscript =>
    obtain ⟨test, compiled, same⟩ := subscript
    obtain ⟨c, compiledc, computes⟩ := compileSubscript_eq shape
    have tested (cells : Nat → Cell) := testElem_same dno (computes cells)
    cases native : natives dno with
    -- A native array is not null itself; another one is asked first.
    | some s =>
      refine ⟨orNull test (some (.nativeIsnull dno c)), ?_, fun cells => ?_⟩
      · simp only [tier1ExprAnyNull, native, compiled, compiledc, bind, Except.bind]
      · have both := (same cells).or ((tested cells).1 (by simp [native]))
        rw [testRun_orNull]
        simp only [nullTest, baseNull, native, Option.isNone_some, Bool.false_and, Bool.false_or, Native.bind_assoc]
          at both ⊢
        exact both
    | none =>
      refine ⟨orNull (orNull (some (.loadIsnull dno)) test) (some (.arrayElemIsnull dno c)), ?_, fun cells => ?_⟩
      · simp only [tier1ExprAnyNull, native, compiled, compiledc, bind, Except.bind, List.isEmpty_nil, if_true]
      · have base : SameTest (testRun cells (some (.loadIsnull dno))) (.ok (cells dno).isnull) := .ok rfl
        have both := (base.or (same cells)).or ((tested cells).2 native)
        rw [testRun_orNull, testRun_orNull]
        simp only [nullTest, baseNull, native, Option.isNone_none, Bool.true_and, Native.bind_assoc,
          Native.ok_bind] at both ⊢
        exact both

/-- A compiled assignment of an integer accesses nothing but what `guardedLoads`
does. -/
theorem assign_defined {s : IntSize} {target : TypeOid} {c : GuardedCode (.int .i64)} {cells : Nat → Cell}
    (tree : intTree natives e = true) (cls : classifyExpr e = s.cls)
    (compiled : tryCompileAssign natives target e = .ok (some c))
    (defined : guardedLoads natives cells e ≠ .undefined) : c.run cells ≠ .undefined := by
  have shape := intShape_of_classify e tree cls
  obtain ⟨test, compiledTest, same⟩ := nullTest_compiled shape.readShape
  have class_ : target.oidToTypeClass = s.cls := by
    unfold tryCompileAssign at compiled
    split at compiled
    next agrees => rw [← agrees.2, cls]
    next => cases compiled
  have own : target.exprClass = s.cls := by
    cases target <;> cases s <;> first | rfl | cases class_
  obtain ⟨x, value, compiledValue, converted, computes⟩ := nativeToDatum_computes own shape
  have code : c = ⟨test, value⟩ := by
    have known : classifyExpr e ≠ .unknown := by
      rw [cls]
      exact s.unknown_ne_cls.symm
    rw [tryCompileAssign, if_pos ⟨known, by rw [cls, class_]⟩] at compiled
    simp only [compiledTest, compiledValue, cls, converted, bind, Except.bind] at compiled
    cases compiled
    rfl
  subst code
  rw [GuardedCode.run_eq]
  unfold guardedLoads at defined
  rw [Native.bind_defined_iff] at defined ⊢
  refine ⟨fun undefined => defined.1 (((same cells).undefined_iff).mp undefined), fun answer tested => ?_⟩
  have agrees := same cells
  rw [tested] at agrees
  generalize answered : nullTest natives cells e = y at agrees
  cases agrees with
  | ok related =>
    subst related
    cases answer with
    | true => rintro ⟨⟩
    | false =>
      have loads := (Native.bind_defined_iff.mp (defined.2 false answered)).1
      simp only [Bool.false_eq_true, if_false, ne_eq]
      rw [← ne_eq, Native.bind_defined_iff]
      refine ⟨fun undefined => loads ?_, by rintro _ _ ⟨⟩⟩
      exact (mathEval_loads shape).1 ((computes cells).undefined_iff.mp undefined)

end Compiled

/-! ### Writes and fills -/

section Operations

variable {s : NativeArray}

/-- What holds of a native array throughout. -/
structure NativeArray.Sound (s : NativeArray) : Prop where
  alloc : s.Allocated
  lb : s.len = 0 → s.lb = 1
  var : s.var.Valid

theorem NativeArray.Sound.mirror (sound : s.Sound) : s.toMirror.Sound := by
  have len := sound.alloc.len
  have data := sound.alloc.data
  exact ⟨by omega, sound.lb⟩

theorem NativeArray.init_sound {var : ArrayDatum} (valid : var.Valid) : (NativeArray.init var).Sound :=
  ⟨⟨by simp [NativeArray.init], by simp [NativeArray.init], nofun⟩, fun _ => rfl, valid⟩

theorem NativeArray.Sound.holds (sound : s.Sound) (nonneg : 0 ≤ s.len.toInt) : ∃ elems, s.Holds elems := by
  have len := sound.alloc.len
  have data := sound.alloc.data
  refine ⟨(List.range s.len.toInt.toNat).map s.elem, ?_, ?_, ?_, ?_⟩
  · rw [List.length_map, List.length_range]
    omega
  · rw [List.length_map, List.length_range]
    omega
  · intro flags nulls
    have long := sound.alloc.flags flags nulls
    rw [List.length_map, List.length_range]
    omega
  · intro k inside
    rw [List.length_map, List.length_range] at inside
    simp [inside]

theorem NativeArray.refresh_sound (valid : s.var.Valid) (bitmap : Bool) : (s.refresh bitmap).Sound := by
  have denoting := NativeArray.refresh_denoting valid bitmap
  refine ⟨denoting.alloc, fun none => ?_, denoting.var⟩
  have mirror := denoting.mirror
  cases var : s.var with
  | null =>
    rw [var] at mirror
    exact mirror.2.1
  | empty =>
    rw [var] at mirror
    exact mirror.2.1
  | multi dims elems =>
    rw [var] at mirror
    rw [mirror.1] at none
    exact absurd none (by decide)
  | flat lb elems =>
    rw [var] at mirror
    obtain ⟨-, nonempty, -, holds⟩ := Mirror.denotes_flat_iff.mp mirror
    have len := holds.len
    rw [none] at len
    change (0 : Int) = _ at len
    omega

/-- Marshalling reads no more than there is. -/
theorem NativeArray.Sound.toDatum (sound : s.Sound) :
    s.toDatum ≠ .undefined ∧ ∀ a, s.toDatum = .ok a → a.Valid := by
  by_cases short : s.len.toInt ≤ 0
  · rw [NativeArray.toDatum_short short]
    refine ⟨nofun, ?_⟩
    rintro _ ⟨⟩
    exact sound.var
  · obtain ⟨elems, holds⟩ := sound.holds (by omega)
    have len := holds.len
    have data := holds.data
    have zero : (0 : BitVec 32).toInt = 0 := rfl
    have positive : ¬s.len.sle 0 = true := by
      simp only [BitVec.sle, decide_eq_true_eq, zero]
      omega
    unfold NativeArray.toDatum
    cases there : s.data with
    | none =>
      simp only [there, Option.getD_none, List.length_nil] at data
      omega
    | some buf =>
      simp only [if_neg positive, holds.elements there, Native.ok_bind]
      cases built : constructMdArray s.lb elems with
      | error err => exact ⟨nofun, nofun⟩
      | ok a =>
        obtain ⟨rfl, small, bound⟩ := constructMdArray_flat built
        refine ⟨nofun, ?_⟩
        rintro _ ⟨⟩
        exact ⟨by omega, small, bound⟩

theorem NativeArray.Sound.slowWrite (sound : s.Sound) (i : BitVec 32) (v : Option (BitVec 64)) (bitmap : Bool) :
    (s.slowWrite i v bitmap).1 ≠ .undefined ∧ (s.slowWrite i v bitmap).2.Sound := by
  obtain ⟨defined, valid⟩ := sound.toDatum
  unfold NativeArray.slowWrite
  cases synced : s.toDatum with
  | undefined => exact absurd synced defined
  | raise err => exact ⟨nofun, sound⟩
  | ok var =>
    simp only
    cases wrote : arraySetElement i v var with
    | error err => exact ⟨nofun, ⟨sound.alloc.len, sound.alloc.data, sound.alloc.flags⟩, sound.lb, valid var synced⟩
    | ok var' =>
      have valid' := (arraySetElement_valid (valid var synced) wrote).2
      exact ⟨nofun, NativeArray.refresh_sound (s := { s with var := var' }) valid' bitmap⟩

theorem NativeArray.Sound.store (sound : s.Sound) {i : BitVec 32} (inRange : s.inRange i = true) (v : BitVec 64) :
    (s.settle (s.storeElem (i - s.lb) v)).1 ≠ .undefined ∧ (s.settle (s.storeElem (i - s.lb) v)).2.Sound := by
  have zero : (0 : BitVec 32).toInt = 0 := rfl
  simp only [NativeArray.inRange, BitVec.sle, Bool.and_eq_true, decide_eq_true_eq, zero] at inRange
  obtain ⟨nonneg, below⟩ := inBounds_range sound.lb inRange.1.1 inRange.1.2 inRange.2
  have enough := sound.alloc.len
  have stored : s.storeElem (i - s.lb) v = .ok (s.stored (i - s.lb).toInt.toNat v) :=
    NativeArray.storeElem_eq sound.alloc (by omega) (by omega)
  rw [stored]
  exact ⟨by rintro ⟨⟩, sound.alloc.stored _ v, sound.lb, sound.var⟩

theorem NativeArray.Sound.append (sound : s.Sound) {i : BitVec 32} (isAppend : s.isAppend i = true) (v : BitVec 64) :
    (s.settle (s.append v)).1 ≠ .undefined ∧ (s.settle (s.append v)).2.Sound := by
  have zero : (0 : BitVec 32).toInt = 0 := rfl
  simp only [NativeArray.isAppend, BitVec.sle, Bool.and_eq_true, decide_eq_true_eq, zero] at isAppend
  obtain ⟨elems, holds⟩ := sound.holds isAppend.1
  rcases NativeArray.append_cases (v := v) sound.alloc holds with
    ⟨raises, -⟩ | ⟨s', appended, -, sameVar, alloc', holds', -⟩
  · rw [raises]
    exact ⟨by rintro ⟨⟩, sound⟩
  · rw [appended]
    refine ⟨by rintro ⟨⟩, alloc', fun none => ?_, sameVar ▸ sound.var⟩
    have len := holds'.len
    change s'.len = 0 at none
    rw [none, List.length_append, List.length_singleton] at len
    change (0 : Int) = _ at len
    omega

/-- No write accesses anything outside the buffers. -/
theorem NativeArray.Sound.writeElement (sound : s.Sound) (w : Write) :
    (writeElement s w).1 ≠ .undefined ∧ (writeElement s w).2.Sound := by
  unfold Uplpgsql.writeElement
  cases w.subscript with
  | none => exact ⟨nofun, sound⟩
  | some i =>
    cases w.value with
    | none => exact sound.slowWrite i none w.bitmap
    | some v =>
      simp only
      by_cases inRange : s.inRange i = true
      · rw [if_pos inRange]
        exact sound.store inRange v
      · rw [if_neg inRange]
        by_cases isAppend : s.isAppend i = true
        · rw [if_pos isAppend]
          exact sound.append isAppend v
        · rw [if_neg isAppend]
          exact sound.slowWrite i (some v) w.bitmap

/-- Where an element is, as the loop computes it. -/
theorem fillOffset_eq {elemSize : Nat} (size : elemSize = 4 ∨ elemSize = 8) {n idx : BitVec 32}
    (small : n.toInt * elemSize ≤ maxAllocSize) (nonneg : 0 ≤ idx.toInt) (below : idx.toInt < n.toInt) :
    (idx * BitVec.ofNat 32 elemSize).toInt / elemSize = idx.toInt := by
  unfold maxAllocSize at small
  have width : (BitVec.ofNat 32 elemSize).toInt = elemSize := by
    rcases size with rfl | rfl <;> rfl
  have product : (idx * BitVec.ofNat 32 elemSize).toInt = idx.toInt * elemSize := by
    rw [toInt_mul_of_fits, width]
    simp only [Fits, width]
    rcases size with rfl | rfl <;> omega
  rw [product]
  rcases size with rfl | rfl <;> omega

/-- The loop stores at every index from `idx` on, below `n`, which is how long the
buffer is. -/
theorem fillLoop_eq {elemSize : Nat} (size : elemSize = 4 ∨ elemSize = 8) {n : BitVec 32} (v : BitVec 64)
    (small : n.toInt * elemSize ≤ maxAllocSize) (fuel : Nat) (idx : BitVec 32) (data : List (BitVec 64))
    (nonneg : 0 ≤ idx.toInt) (before : idx.toInt ≤ n.toInt) (enough : n.toInt < idx.toInt + fuel)
    (length : (data.length : Int) = n.toInt) :
    fillLoop elemSize n v fuel idx data =
      .ok (data.take idx.toInt.toNat ++ List.replicate (data.length - idx.toInt.toNat) v) := by
  induction fuel generalizing idx data with
  | zero => omega
  | succ fuel ih =>
    rw [fillLoop]
    simp only [BitVec.slt, decide_eq_true_eq]
    by_cases below : idx.toInt < n.toInt
    · have wide := toInt_fits n
      have one : (1 : BitVec 32).toInt = 1 := rfl
      have next : (idx + 1).toInt = idx.toInt + 1 := by
        rw [toInt_add_of_fits, one]
        simp only [Fits, one] at *
        omega
      have stored : (storeAt (some data) ((idx * BitVec.ofNat 32 elemSize).toInt / elemSize) v :
          Native ArrayError _) = .ok (data.set idx.toInt.toNat v) := by
        rw [fillOffset_eq size small nonneg below]
        exact storeAt_inside (by omega) (by omega)
      have inside : idx.toInt.toNat < data.length := by omega
      have after : (idx + 1).toInt.toNat = idx.toInt.toNat + 1 := by omega
      have room : data.length - idx.toInt.toNat = data.length - (idx.toInt.toNat + 1) + 1 := by omega
      -- The element stored now is the first of those that the rest of the loop does not touch.
      have upTo : (data.set idx.toInt.toNat v).take (idx.toInt.toNat + 1) =
          data.take idx.toInt.toNat ++ [v] := by
        rw [List.take_succ_eq_append_getElem (by rw [List.length_set]; exact inside),
          List.take_set_of_le (Nat.le_refl _), List.getElem_set_self]
      rw [if_pos below, stored, Native.ok_bind, ih (idx + 1) (data.set idx.toInt.toNat v) (by omega)
        (by omega) (by omega) (by rw [List.length_set]; exact length), after, List.length_set, upTo, room,
        List.replicate_succ, List.append_assoc]
      rfl
    · have done : data.length ≤ idx.toInt.toNat := by omega
      rw [if_neg below, List.take_of_length_le done, Nat.sub_eq_zero_of_le done, List.replicate_zero,
        List.append_nil]

/-- `array_fill` with a size that can be allocated. -/
theorem arrayFill_eq {elemSize : Nat} (size : elemSize = 4 ∨ elemSize = 8) {n : BitVec 32}
    (nonneg : 0 ≤ n.toInt) (small : n.toInt * elemSize ≤ maxAllocSize) (v : BitVec 64) :
    arrayFill elemSize s n v = (.ok (), { s with
      len := n, lb := 1, nulls := none, data := some (List.replicate n.toInt.toNat v), cap := n,
      isHeap := !decide (n.toInt * elemSize ≤ nativeArrayStackThreshold) }) := by
  have positive : 0 ≤ n.toInt * elemSize := by
    rcases size with rfl | rfl <;> omega
  have filled := fillLoop_eq size v small (n.toInt.toNat + 1) 0
    (List.replicate n.toInt.toNat 0) (by decide) nonneg (by change _ < (0 : Int) + _; omega)
    (by rw [List.length_replicate]; omega)
  have whole : (List.replicate n.toInt.toNat (0 : BitVec 64)).take (0 : BitVec 32).toInt.toNat ++
      List.replicate ((List.replicate n.toInt.toNat (0 : BitVec 64)).length - (0 : BitVec 32).toInt.toNat) v =
      List.replicate n.toInt.toNat v := by
    rw [List.length_replicate]
    rfl
  rw [whole] at filled
  unfold arrayFill
  simp only [filled]
  rw [if_neg (by omega), if_neg (by omega)]

theorem NativeArray.Sound.arrayFill (sound : s.Sound) {elemSize : Nat} (size : elemSize = 4 ∨ elemSize = 8)
    {n : BitVec 32} (nonneg : 0 ≤ n.toInt) (small : n.toInt * elemSize ≤ maxAllocSize) (v : BitVec 64) :
    (arrayFill elemSize s n v).1 ≠ .undefined ∧ (arrayFill elemSize s n v).2.Sound := by
  rw [arrayFill_eq size nonneg small v]
  refine ⟨nofun, ⟨Int.le_refl _, ?_, nofun⟩, fun _ => rfl, sound.var⟩
  simp only [Option.getD_some, List.length_replicate]
  omega

end Operations

/-! ### Statements -/

/-- A value to store: an expression of Tier 1 and what its arithmetic makes of the
elements, or whatever a function call of Tier 2 returns. -/
structure Operand where
  expr : PgExpr
  result : Except ErrorData (Option (BitVec 64))

/-- What a function does with its variables, as far as its native arrays are
concerned. -/
inductive ArrayStmt where
  /-- A value or condition behind its NULL test. -/
  | evaluate (e : PgExpr)
  /-- `x := a[idx]`, where Tier 1 does not take the whole expression. -/
  | fetch (dno : Nat) (idx : PgExpr)
  /-- `a[idx] := value`. -/
  | write (dno : Nat) (idx : PgExpr) (value : Operand) (bitmap : Bool)
  /-- `a := array_fill(value, ARRAY[size])`. -/
  | fill (dno : Nat) (size : PgExpr) (value : Operand)
  /-- The interpreter assigns an array, which is then loaded. -/
  | reload (dno : Nat) (a : ArrayDatum) (bitmap : Bool)
  /-- Another variable changes. -/
  | store (dno : Nat) (c : Cell)

structure ArrayWorld where
  arrays : Nat → NativeArray
  others : Nat → Cell

section Statements

variable (natives : Nat → Option IntSize)

def ArrayWorld.cells (w : ArrayWorld) (dno : Nat) : Cell :=
  match natives dno with
  | some _ => .array (w.arrays dno).var (w.arrays dno).toMirror
  | none => w.others dno

def ArrayWorld.setArray (w : ArrayWorld) (dno : Nat) (s : NativeArray) : ArrayWorld :=
  { w with arrays := fun d => if d = dno then s else w.arrays d }

/-- The size of an element in bytes. -/
def elemSizeOf (dno : Nat) : Nat :=
  match natives dno with
  | some s => s.bits / 8
  | none => 0

variable (cells : Nat → Cell)

/-- An integer, on the Datums at hand. -/
def computeInt (idx : PgExpr) : Native ErrorData (BitVec 32) := do
  match ← (mathEval natives cells idx).mapError ArithError.report with
  | .int i => .ok (BitVec.ofInt 32 i)
  | _ => .undefined

/-- The test and the value of a subscript; what is done for a NULL differs. -/
def testedSubscript (onNull : Native ErrorData (Option (BitVec 32))) (idx : PgExpr) :
    Native ErrorData (Option (BitVec 32)) := do
  if ← (nullTest natives cells idx).mapError ArithError.report then onNull
  else do .ok (some (← computeInt natives cells idx))

/-- The result where the expression is not NULL. -/
def Operand.guarded (v : Operand) : Native ErrorData (Option (BitVec 64)) := do
  if ← (guardedLoads natives cells v.expr).mapError ArithError.report then .ok none
  else
    match v.result with
    | .ok d => .ok d
    | .error err => .raise err

/-- The result without a test. -/
def Operand.plain (v : Operand) : Native ErrorData (BitVec 64) := do
  (valueLoads natives cells v.expr).mapError ArithError.report
  match v.result with
  | .ok d => .ok (d.getD 0)
  | .error err => .raise err

/-- The bounds are tested before the load, the flag is not. -/
def fetchElement (m : Mirror) : Option (BitVec 32) → Native ErrorData Unit
  | none => .ok ()
  | some i =>
    if m.len.slt 0 || i.slt m.lb || (m.lb + m.len - 1).slt i then .ok ()
    else do
      let _ ← emitNativeElem m i
      .ok ()

def writeOperands (idx : PgExpr) (v : Operand) : Native ErrorData (Option (BitVec 32) × Option (BitVec 64)) := do
  let i ← testedSubscript natives cells (.raise ArrayError.nullSubscript.report) idx
  let d ← v.guarded natives cells
  .ok (i, d)

def fillOperands (size : PgExpr) (v : Operand) : Native ErrorData (BitVec 32 × BitVec 64) := do
  let n ← computeInt natives cells size
  let d ← v.plain natives cells
  .ok (n, d)

/-- An array operation on its operands. -/
def onArray {α : Type} (w : ArrayWorld) (dno : Nat) (operands : Native ErrorData α)
    (operation : α → Native ArrayError Unit × NativeArray) : Native ErrorData Unit × ArrayWorld :=
  match operands with
  | .ok x => ((operation x).1.mapError ArrayError.report, w.setArray dno (operation x).2)
  | .raise err => (.raise err, w)
  | .undefined => (.undefined, w)

def ArrayWorld.exec (w : ArrayWorld) : ArrayStmt → Native ErrorData Unit × ArrayWorld
  | .evaluate e =>
    (do
      let _ ← (guardedLoads natives (w.cells natives) e).mapError ArithError.report
      .ok (), w)
  | .fetch dno idx =>
    (testedSubscript natives (w.cells natives) (.ok none) idx >>= fetchElement (w.arrays dno).toMirror, w)
  | .write dno idx v bitmap =>
    onArray w dno (writeOperands natives (w.cells natives) idx v) fun x =>
      writeElement (w.arrays dno) ⟨x.1, x.2, bitmap⟩
  | .fill dno size v =>
    onArray w dno (fillOperands natives (w.cells natives) size v) fun x =>
      arrayFill (elemSizeOf natives dno) (w.arrays dno) x.1 x.2
  | .reload dno a bitmap => (.ok (), w.setArray dno (({ w.arrays dno with var := a } : NativeArray).refresh bitmap))
  | .store dno c => (.ok (), { w with others := fun d => if d = dno then c else w.others d })

/-- Compiled code goes on after an error that is caught. -/
def ArrayWorld.execAll (w : ArrayWorld) : List ArrayStmt → List (Native ErrorData Unit) × ArrayWorld
  | [] => ([], w)
  | stmt :: stmts =>
    let rest := (w.exec natives stmt).2.execAll stmts
    ((w.exec natives stmt).1 :: rest.1, rest.2)

/-- The statements that are compiled like this. -/
def ArrayStmt.Compiled : ArrayStmt → Prop
  | .evaluate e => ReadShape natives e
  | .fetch dno idx => natives dno ≠ none ∧ IntShape natives .i32 idx
  | .write dno idx v _ => natives dno ≠ none ∧ IntShape natives .i32 idx ∧ ReadShape natives v.expr
  | .fill dno size v => natives dno ≠ none ∧ IntShape natives .i32 size ∧ ReadShape natives v.expr
  | .reload dno a _ => natives dno ≠ none ∧ a.Valid
  | .store _ _ => True

/-- The NULL tests stay inside the buffers, and so do the loads for the operands of
`array_fill`; and an array is filled with no less than 0 elements and no more than
can be allocated. -/
def ArrayStmt.Inside : ArrayStmt → Prop
  | .evaluate e => ProbesInside natives cells e
  | .fetch _ idx => ProbesInside natives cells idx
  | .write _ idx v _ =>
    ProbesInside natives cells idx ∧ (nullTest natives cells idx = .ok false →
      ∀ i, mathEval natives cells idx = .ok i → ProbesInside natives cells v.expr)
  | .fill dno size v =>
    ElemsInside natives cells size ∧ ∀ n, computeInt natives cells size = .ok n →
      LoadsInside natives cells v.expr ∧ 0 ≤ n.toInt ∧ n.toInt * elemSizeOf natives dno ≤ maxAllocSize
  | _ => True

def ArrayWorld.AllInside (w : ArrayWorld) : List ArrayStmt → Prop
  | [] => True
  | stmt :: stmts => stmt.Inside natives (w.cells natives) ∧ (w.exec natives stmt).2.AllInside stmts

/-- The function entry. -/
def ArrayWorld.entry (vars : Nat → ArrayDatum) (others : Nat → Cell) : ArrayWorld :=
  ⟨fun dno => .init (vars dno), others⟩

def ArrayWorld.Sound (w : ArrayWorld) : Prop := ∀ dno, natives dno ≠ none → (w.arrays dno).Sound

end Statements

section Run

variable {natives : Nat → Option IntSize} {w : ArrayWorld} {idx : PgExpr}

theorem ArrayWorld.Sound.mirrors (sound : w.Sound natives) (dno : Nat) (native : natives dno ≠ none) :
    (w.cells natives dno).mirror.Sound := by
  obtain ⟨s, size⟩ := Option.ne_none_iff_exists'.mp native
  rw [ArrayWorld.cells, size]
  exact (sound dno native).mirror

theorem ArrayWorld.Sound.set (sound : w.Sound natives) (dno : Nat) {s : NativeArray} (array : s.Sound) :
    (w.setArray dno s).Sound natives := by
  intro d native
  unfold ArrayWorld.setArray
  by_cases same : d = dno
  · simpa [same] using array
  · simpa [same] using sound d native

theorem computeInt_defined_iff {cells : Nat → Cell} (shape : IntShape natives .i32 idx) :
    computeInt natives cells idx ≠ .undefined ↔ mathEval natives cells idx ≠ .undefined := by
  unfold computeInt
  cases eval : mathEval natives cells idx with
  | raise err => simp [Native.mapError]
  | undefined => simp [Native.mapError]
  | ok v =>
    obtain ⟨i, rfl⟩ := mathEval_isInt shape v eval
    simp [Native.mapError]

theorem guardedLoads_defined (sound : w.Sound natives) {e : PgExpr} (shape : ReadShape natives e)
    (inside : ProbesInside natives (w.cells natives) e) :
    guardedLoads natives (w.cells natives) e ≠ .undefined := by
  unfold guardedLoads
  rw [Native.bind_defined_iff]
  refine ⟨(nullTest_defined_iff shape).mpr inside, fun answer tested => ?_⟩
  cases answer with
  | true => nofun
  | false =>
    have loads := valueLoads_of_notnull sound.mirrors shape tested
    simp only [Bool.false_eq_true, if_false]
    rw [Native.bind_defined_iff]
    exact ⟨loads, fun _ _ => nofun⟩

theorem mapError_eq_ok {ε δ α : Type} {f : ε → δ} {x : Native ε α} {a : α} (done : x.mapError f = .ok a) : x = .ok a := by
  cases x with
  | ok b =>
    cases done
    rfl
  | raise err => cases done
  | undefined => cases done

theorem testedSubscript_defined (sound : w.Sound natives) (shape : IntShape natives .i32 idx)
    (inside : ProbesInside natives (w.cells natives) idx) {onNull : Native ErrorData (Option (BitVec 32))}
    (null : onNull ≠ .undefined) : testedSubscript natives (w.cells natives) onNull idx ≠ .undefined := by
  unfold testedSubscript
  rw [Native.bind_defined_iff]
  refine ⟨?_, fun answer tested => ?_⟩
  · rw [ne_eq, Native.mapError_eq_undefined_iff]
    exact (nullTest_defined_iff shape.readShape).mpr inside
  · cases answer with
    | true => exact null
    | false =>
      have notnull : nullTest natives (w.cells natives) idx = .ok false := mapError_eq_ok tested
      simp only [Bool.false_eq_true, if_false]
      rw [Native.bind_defined_iff]
      exact ⟨(computeInt_defined_iff shape).mpr (mathEval_of_notnull sound.mirrors shape notnull), fun _ _ => nofun⟩

/-- Only a subscript that is not NULL comes out of a test that raises. -/
theorem testedSubscript_ok {cells : Nat → Cell} {err : ErrorData} {i : Option (BitVec 32)}
    (done : testedSubscript natives cells (.raise err) idx = .ok i) :
    nullTest natives cells idx = .ok false ∧ ∃ v, mathEval natives cells idx = .ok v := by
  unfold testedSubscript at done
  obtain ⟨answer, tested, done⟩ := bind_eq_ok done
  cases answer with
  | true => cases done
  | false =>
    simp only [Bool.false_eq_true, if_false] at done
    obtain ⟨j, computed, -⟩ := bind_eq_ok done
    unfold computeInt at computed
    obtain ⟨v, eval, -⟩ := bind_eq_ok computed
    exact ⟨mapError_eq_ok tested, v, mapError_eq_ok eval⟩

theorem Operand.guarded_defined (sound : w.Sound natives) {v : Operand} (shape : ReadShape natives v.expr)
    (inside : ProbesInside natives (w.cells natives) v.expr) :
    v.guarded natives (w.cells natives) ≠ .undefined := by
  unfold Operand.guarded
  rw [Native.bind_defined_iff]
  refine ⟨?_, fun answer _ => ?_⟩
  · rw [ne_eq, Native.mapError_eq_undefined_iff]
    exact guardedLoads_defined sound shape inside
  · cases answer with
    | true => nofun
    | false =>
      simp only [Bool.false_eq_true, if_false]
      cases v.result <;> nofun

theorem fetchElement_defined {m : Mirror} (sound : m.Sound) (i : Option (BitVec 32)) :
    fetchElement m i ≠ .undefined := by
  cases i with
  | none => nofun
  | some i =>
    rw [fetchElement]
    split
    · nofun
    next inRange =>
      rw [Native.bind_defined_iff]
      refine ⟨(Mirror.elemInBuffer_iff m i).mpr ?_, fun _ _ => nofun⟩
      -- As if the flag had been tested and found clear.
      have clear : (emitNativeIsnull { m with nulls := none } i : Native ErrorData Bool) = .ok false := by
        simpa [emitNativeIsnull, emitNativeArrayElemIsnull] using inRange
      exact Mirror.Sound.elemInBuffer (m := { m with nulls := none }) ⟨sound.data, sound.lb⟩ clear

theorem onArray_sound {α : Type} (sound : w.Sound natives) {dno : Nat} {operands : Native ErrorData α}
    {operation : α → Native ArrayError Unit × NativeArray} (defined : operands ≠ .undefined)
    (safe : ∀ x, operands = .ok x → (operation x).1 ≠ .undefined ∧ (operation x).2.Sound) :
    (onArray w dno operands operation).1 ≠ .undefined ∧ (onArray w dno operands operation).2.Sound natives := by
  cases operands with
  | undefined => exact absurd rfl defined
  | raise err => exact ⟨nofun, sound⟩
  | ok x =>
    obtain ⟨first, second⟩ := safe x rfl
    refine ⟨?_, sound.set dno second⟩
    simpa [onArray] using first

theorem elemSizeOf_cases {dno : Nat} (native : natives dno ≠ none) :
    elemSizeOf natives dno = 4 ∨ elemSizeOf natives dno = 8 := by
  obtain ⟨s, size⟩ := Option.ne_none_iff_exists'.mp native
  rw [elemSizeOf, size]
  cases s
  · exact .inl rfl
  · exact .inr rfl

/-- A statement inside the buffers keeps the arrays sound. -/
theorem ArrayWorld.Sound.step (sound : w.Sound natives) {stmt : ArrayStmt} (compiled : stmt.Compiled natives)
    (inside : stmt.Inside natives (w.cells natives)) :
    (w.exec natives stmt).1 ≠ .undefined ∧ (w.exec natives stmt).2.Sound natives := by
  cases stmt with
  | evaluate e =>
    refine ⟨?_, sound⟩
    rw [ArrayWorld.exec, Native.bind_defined_iff]
    refine ⟨?_, fun _ _ => nofun⟩
    rw [ne_eq, Native.mapError_eq_undefined_iff]
    exact guardedLoads_defined sound compiled inside
  | fetch dno idx =>
    refine ⟨?_, sound⟩
    rw [ArrayWorld.exec, Native.bind_defined_iff]
    exact ⟨testedSubscript_defined sound compiled.2 inside nofun,
      fun i _ => fetchElement_defined (sound dno compiled.1).mirror i⟩
  | write dno idx v bitmap =>
    obtain ⟨native, shape, shapev⟩ := compiled
    obtain ⟨inside, insidev⟩ := inside
    -- The value is computed only for a subscript that is not null.
    refine onArray_sound sound ?_ fun x _ => (sound dno native).writeElement _
    unfold writeOperands
    rw [Native.bind_defined_iff]
    refine ⟨testedSubscript_defined sound shape inside nofun, fun i tested => ?_⟩
    obtain ⟨notnull, u, eval⟩ := testedSubscript_ok tested
    rw [Native.bind_defined_iff]
    exact ⟨Operand.guarded_defined sound shapev (insidev notnull u eval), fun _ _ => nofun⟩
  | fill dno size v =>
    obtain ⟨native, shape, shapev⟩ := compiled
    obtain ⟨inside, fits⟩ := inside
    have computed := (computeInt_defined_iff shape).mpr ((mathEval_defined_iff shape).mpr inside)
    -- A fill has no null test: the size is computed first, then the value.
    refine onArray_sound sound ?_ fun x done => ?_
    · unfold fillOperands
      rw [Native.bind_defined_iff]
      refine ⟨computed, fun n eval => ?_⟩
      rw [Native.bind_defined_iff]
      refine ⟨?_, fun _ _ => nofun⟩
      unfold Operand.plain
      rw [Native.bind_defined_iff]
      refine ⟨?_, fun _ _ => by cases v.result <;> nofun⟩
      rw [ne_eq, Native.mapError_eq_undefined_iff]
      exact (valueLoads_defined_iff shapev).mpr (fits n eval).1
    · unfold fillOperands at done
      obtain ⟨n, eval, done⟩ := bind_eq_ok done
      obtain ⟨d, -, done⟩ := bind_eq_ok done
      cases done
      obtain ⟨-, nonneg, small⟩ := fits n eval
      exact (sound dno native).arrayFill (elemSizeOf_cases native) nonneg small d
  | reload dno a bitmap =>
    refine ⟨nofun, sound.set dno (NativeArray.refresh_sound ?_ bitmap)⟩
    exact compiled.2
  | store dno c => exact ⟨nofun, sound⟩

theorem ArrayWorld.Sound.run {stmts : List ArrayStmt} (sound : w.Sound natives)
    (compiled : ∀ stmt ∈ stmts, stmt.Compiled natives) (inside : w.AllInside natives stmts) :
    (∀ outcome ∈ (w.execAll natives stmts).1, outcome ≠ .undefined) ∧
      (w.execAll natives stmts).2.Sound natives := by
  induction stmts generalizing w with
  | nil => exact ⟨nofun, sound⟩
  | cons stmt stmts ih =>
    obtain ⟨first, rest⟩ := inside
    obtain ⟨defined, sound'⟩ := sound.step (compiled stmt (by simp)) first
    obtain ⟨outcomes, final⟩ := ih sound' (fun other there => compiled other (by simp [there])) rest
    refine ⟨fun outcome there => ?_, final⟩
    rcases List.mem_cons.mp there with rfl | there
    · exact defined
    · exact outcomes outcome there

end Run

/-- Every access of a compiled function to the buffers of its native arrays is
inside them, in every run in which the NULL tests and the operands of `array_fill`
stay inside and every array is filled with no less than 0 elements and no more than
can be allocated. Element reads behind their tests, stores, appends and the fill
loop need nothing else. -/
theorem flat_buffer_safety {natives : Nat → Option IntSize} {vars : Nat → ArrayDatum} {others : Nat → Cell}
    {stmts : List ArrayStmt} (valid : ∀ dno, (vars dno).Valid)
    (compiled : ∀ stmt ∈ stmts, stmt.Compiled natives)
    (inside : (ArrayWorld.entry vars others).AllInside natives stmts) :
    ∀ outcome ∈ ((ArrayWorld.entry vars others).execAll natives stmts).1, outcome ≠ .undefined := by
  have sound : (ArrayWorld.entry vars others).Sound natives := fun dno _ => NativeArray.init_sound (valid dno)
  exact (sound.run compiled inside).1

/-- Variables 0 and 1 are arrays of int4. -/
def twoArrays (dno : Nat) : Option IntSize := if dno < 2 then some .i32 else none

def int4Const (v : BitVec 64) : PgExpr := .const .int4 false v

/-- An element of an array of int4. -/
def elementOf (dno : Nat) (idx : PgExpr) : PgExpr := elementRead .int4 dno (.other 1007) idx

def noArrays : ArrayWorld := .entry (fun _ => .null) fun _ => .scalar .null

/-- `a := array_fill(2, ARRAY[3]); a[4] := 1`, and then `a[a[1]]` is read. -/
def fillAppendRead : List ArrayStmt :=
  [.fill 0 (int4Const 3) ⟨int4Const 2, .ok (some 2)⟩, .write 0 (int4Const 4) ⟨int4Const 1, .ok (some 1)⟩ false,
    .evaluate (elementOf 0 (elementOf 0 (int4Const 1)))]

theorem flat_buffer_safety_nested :
    Native.undefined ∉ (noArrays.execAll twoArrays fillAppendRead).1 := by
  have const (v : BitVec 64) : IntShape twoArrays .i32 (int4Const v) := .const rfl
  have element (v : BitVec 64) : IntShape twoArrays .i32 (elementOf 0 (int4Const v)) :=
    .elem rfl (by rintro t ⟨⟩; rfl) (const v)
  have safe : ∀ outcome ∈ (noArrays.execAll twoArrays fillAppendRead).1, outcome ≠ .undefined := by
    refine flat_buffer_safety (fun _ => trivial) ?_ ⟨⟨trivial, ?_⟩, ⟨trivial, fun _ _ _ => trivial⟩, ?_, trivial⟩
    · intro stmt there
      simp only [fillAppendRead, List.mem_cons, List.not_mem_nil, or_false] at there
      rcases there with rfl | rfl | rfl
      · exact ⟨by decide, const 3, .const⟩
      · exact ⟨by decide, const 4, .const⟩
      · exact .elem (element 1) (element 1).readShape
    · rintro n ⟨⟩
      exact ⟨trivial, by decide, by decide⟩
    · refine ⟨⟨trivial, fun _ _ => ⟨trivial, fun _ _ _ => nofun⟩⟩, fun _ _ => ⟨⟨trivial, ?_⟩, fun _ _ _ => nofun⟩⟩
      rintro - i ⟨⟩
      exact ⟨_, rfl, by decide, by decide⟩
  exact fun reached => safe _ reached rfl

/-- `'[1:1]={NULL}'` has a flag, and that of `a[5]` is not inside. `a[b[7]]` loads
`b[7]`, which is not there. -/
theorem flat_buffer_safety_violated :
    (∃ stmts, (∀ stmt ∈ stmts, stmt.Compiled twoArrays) ∧
      .undefined ∈ (noArrays.execAll twoArrays stmts).1) ∧
      Native.undefined ∈ (noArrays.execAll twoArrays
        [.reload 0 (.flat 1 [none]) false, .evaluate (elementOf 0 (int4Const 5))]).1 ∧
      Native.undefined ∈ (noArrays.execAll twoArrays
        [.reload 1 (.flat 1 [some 1]) false, .evaluate (elementOf 0 (elementOf 1 (int4Const 7)))]).1 ∧
      Native.undefined ∈ (noArrays.execAll twoArrays
        [.fill 0 (int4Const 0xFFFFFFFF) ⟨int4Const 0, .ok (some 0)⟩]).1 ∧
      Native.undefined ∈ (noArrays.execAll twoArrays
        [.fill 0 (int4Const 300000000) ⟨int4Const 0, .ok (some 0)⟩, .evaluate (elementOf 0 (int4Const 5))]).1 := by
  have const (v : BitVec 64) : IntShape twoArrays .i32 (int4Const v) := .const rfl
  refine ⟨⟨[.reload 0 (.flat 1 [none]) false, .evaluate (elementOf 0 (int4Const 5))], ?_, ?_⟩, ?_, ?_, ?_, ?_⟩
  · intro stmt there
    simp only [List.mem_cons, List.not_mem_nil, or_false] at there
    rcases there with rfl | rfl
    · exact ⟨by decide, by decide, by decide, by decide⟩
    · exact .elem (const 5) .const
  · decide
  · decide
  · decide
  · decide
  · decide

end Uplpgsql
