import Mathlib.Logic.Function.Basic
import Uplpgsql.Errors.Sqlstate

/-!
# RAISE

A RAISE statement is checked when the function is parsed, and its message and its options
are put together when it is executed.

## Main results

`accepted_iff_formats`: the check at parse time accepts exactly the parameter lists with
which the message can be put together.

`raised_is_caught`: an error that was raised for a condition is caught by a handler for the
same condition.
-/

namespace Uplpgsql.Errors

/-! ### Conditions -/

/-- `exception_label_map`, with what is true of its labels and codes. -/
structure ExceptionLabelMap where
  entries : List (String × Nat)
  notSqlstate : ∀ e ∈ entries, Sqlstate.ofString e.1 = none
  notOthers : ∀ e ∈ entries, e.1 ≠ "others"
  notZero : ∀ e ∈ entries, e.2 ≠ 0

def errcodeSyntaxError : Nat := makeSqlstate '4' '2' '6' '0' '1'
def errcodeUndefinedObject : Nat := makeSqlstate '4' '2' '7' '0' '4'
def errcodeRaiseException : Nat := makeSqlstate 'P' '0' '0' '0' '1'
def errcodeInternalError : Nat := makeSqlstate 'X' 'X' '0' '0' '0'
def errcodeStackedDiagnosticsAccessedWithoutActiveHandler : Nat := makeSqlstate '0' 'Z' '0' '0' '2'

def unrecognizedCondition (condname : String) : ErrorData :=
  ⟨errcodeUndefinedObject, "unrecognized exception condition \"" ++ condname ++ "\""⟩

/-- `uplpgsql_recognize_err_condition`: the first entry of the name. -/
def recognizeErrCondition (map : ExceptionLabelMap) (condname : String) (allowSqlstate : Bool) :
    Except ErrorData Nat :=
  match (if allowSqlstate then Sqlstate.ofString condname else none) with
  | some s => .ok s.code
  | none =>
    match map.entries.lookup condname with
    | some code => .ok code
    | none => .error (unrecognizedCondition condname)

/-- `uplpgsql_parse_err_condition`: all entries of the name, the last one first. -/
def parseErrCondition (map : ExceptionLabelMap) (condname : String) : Except ErrorData (List Condition) :=
  if condname = "others" then .ok [.others]
  else
    match (map.entries.filter fun e => e.1 = condname).reverse with
    | [] => .error (unrecognizedCondition condname)
    | found => .ok (found.map fun e => .sqlstate e.2)

/-- A condition as it is written in RAISE and in WHEN. -/
inductive CondRef where
  | name (condname : String)
  | sqlstate (s : Sqlstate)
  deriving DecidableEq

/-- `proc_condition`; the name is never `sqlstate`, which starts the other form. -/
def CondRef.when (map : ExceptionLabelMap) : CondRef → Except ErrorData (List Condition)
  | .name condname => parseErrCondition map condname
  | .sqlstate s => .ok [.sqlstate s.code]

/-- The condition name that RAISE keeps, after it was checked. -/
def CondRef.raise (map : ExceptionLabelMap) : CondRef → Except ErrorData String
  | .name condname => (recognizeErrCondition map condname false).map fun _ => condname
  | .sqlstate s => .ok (String.ofList [s.c₁, s.c₂, s.c₃, s.c₄, s.c₅])

/-! ### The statement -/

inductive RaiseOptType where
  | errcode
  | message
  | detail
  | hint
  | column
  | constraint
  | datatype
  | table
  | schema
  deriving DecidableEq, Repr

/-- The name of the option in an error message. -/
def RaiseOptType.name : RaiseOptType → String
  | .errcode => "ERRCODE"
  | .message => "MESSAGE"
  | .detail => "DETAIL"
  | .hint => "HINT"
  | .column => "COLUMN"
  | .constraint => "CONSTRAINT"
  | .datatype => "DATATYPE"
  | .table => "TABLE"
  | .schema => "SCHEMA"

/-- `UPLpgSQL_stmt_raise`; of the levels only ERROR and those below it are told apart. -/
structure StmtRaise where
  isError : Bool
  condname : Option String
  message : Option (List Char)
  params : List Nat
  options : List (RaiseOptType × Nat)
  deriving DecidableEq, Repr

/-- The loop of `check_raise_parameters` -/
def expectedNparams : List Char → Nat
  | '%' :: '%' :: rest => expectedNparams rest
  | '%' :: rest => expectedNparams rest + 1
  | _ :: rest => expectedNparams rest
  | [] => 0

/-- `check_raise_parameters` -/
def checkRaiseParameters (stmt : StmtRaise) : Except ErrorData Unit :=
  match stmt.message with
  | none => .ok ()
  | some message =>
    if expectedNparams message < stmt.params.length then
      .error ⟨errcodeSyntaxError, "too many parameters specified for RAISE"⟩
    else if stmt.params.length < expectedNparams message then
      .error ⟨errcodeSyntaxError, "too few parameters specified for RAISE"⟩
    else .ok ()

/-! ### Execution -/

section Execution

variable {W : Type} (eval : Nat → W → Res W (Option String))

def unexpectedParams : ErrorData := ⟨errcodeInternalError, "unexpected RAISE parameter list length"⟩

/-- A value that was computed is put in front of what follows. -/
def Res.andThen {α β : Type} (r : Res W α) (next : α → W → Res W β) : Res W β :=
  match r with
  | .ok a w => next a w
  | .raise e w => .raise e w

theorem Res.andThen_assoc {α β γ : Type} (r : Res W α) (f : α → W → Res W β) (g : β → W → Res W γ) :
    Res.andThen (Res.andThen r f) g = Res.andThen r fun a w => Res.andThen (f a w) g := by
  cases r <;> rfl

/-- The message loop of `exec_stmt_raise` -/
def formatMessage : List Char → List Nat → W → Res W (List Char)
  | '%' :: '%' :: rest, params, w => Res.andThen (formatMessage rest params w) fun text => .ok ('%' :: text)
  | '%' :: _, [], w => .raise unexpectedParams w
  | '%' :: rest, param :: params, w =>
    Res.andThen (eval param w) fun value w => Res.andThen (formatMessage rest params w) fun text =>
      .ok ((value.getD "<NULL>").toList ++ text)
  | ch :: rest, params, w => Res.andThen (formatMessage rest params w) fun text => .ok (ch :: text)
  | [], [], w => .ok [] w
  | [], _ :: _, w => .raise unexpectedParams w

/-- The parameters one after the other. -/
def evalParams : List Nat → W → Res W (List (Option String))
  | [], w => .ok [] w
  | param :: params, w =>
    Res.andThen (eval param w) fun value w => Res.andThen (evalParams params w) fun values => .ok (value :: values)

/-- The text of the message for these values. -/
def fill : List Char → List (Option String) → List Char
  | '%' :: '%' :: rest, values => '%' :: fill rest values
  | '%' :: rest, value :: values => (value.getD "<NULL>").toList ++ fill rest values
  | ch :: rest, values => ch :: fill rest values
  | [], _ => []

theorem expectedNparams_plain {ch : Char} (plain : ch ≠ '%') (rest : List Char) :
    expectedNparams (ch :: rest) = expectedNparams rest := by
  rw [expectedNparams]
  · exact fun _ percent => absurd percent plain
  · exact plain

theorem fill_plain {ch : Char} (plain : ch ≠ '%') (rest : List Char) (values : List (Option String)) :
    fill (ch :: rest) values = ch :: fill rest values := by
  rw [fill]
  · exact fun _ percent => absurd percent plain
  · exact fun _ _ _ percent => absurd percent plain

/-- With as many parameters as it has placeholders, the message is what the values make of
it, and each parameter is evaluated once, from left to right. -/
theorem formatMessage_eq (message : List Char) (params : List Nat) (w : W)
    (count : expectedNparams message = params.length) :
    formatMessage eval message params w =
      Res.andThen (evalParams eval params w) fun values => .ok (fill message values) := by
  fun_induction formatMessage eval message params w with
  | case1 rest params w ih =>
    rw [ih (by simpa only [expectedNparams] using count), Res.andThen_assoc]
    simp only [Res.andThen, fill]
  | case2 rest w notTwice =>
    rw [expectedNparams] at count
    · cases count
    · exact notTwice
  | case3 rest param params w notTwice ih =>
    rw [expectedNparams] at count
    · rw [evalParams, Res.andThen_assoc]
      congr 1
      funext value w'
      rw [ih w' (Nat.succ.inj count), Res.andThen_assoc, Res.andThen_assoc]
      congr 1
      funext values w''
      simp only [Res.andThen]
      rw [fill]
      exact notTwice
    · exact notTwice
  | case4 ch rest params w _ noParams someParams ih =>
    have plain : ch ≠ '%' := by
      cases params with
      | nil => exact noParams rfl
      | cons param params => exact someParams param params rfl
    rw [expectedNparams_plain plain] at count
    rw [ih count, Res.andThen_assoc]
    simp only [Res.andThen, fill_plain plain]
  | case5 w => rfl
  | case6 param params w => cases count

theorem Res.andThen_ok {α β : Type} {r : Res W α} {next : α → W → Res W β} {b : β} {w : W}
    (eq : Res.andThen r next = .ok b w) : ∃ a w', r = .ok a w' ∧ next a w' = .ok b w := by
  cases r with
  | ok a w' => exact ⟨a, w', rfl, eq⟩
  | raise e w' => cases eq

/-- Nothing comes of a message with another number of placeholders. -/
theorem count_of_formatMessage {message : List Char} {params : List Nat} {w w' : W} {text : List Char}
    (eq : formatMessage eval message params w = .ok text w') : expectedNparams message = params.length := by
  fun_induction formatMessage eval message params w generalizing text w' with
  | case1 rest params w ih =>
    obtain ⟨text', w'', eq', -⟩ := Res.andThen_ok eq
    rw [expectedNparams]
    exact ih eq'
  | case2 rest w notTwice => cases eq
  | case3 rest param params w notTwice ih =>
    obtain ⟨value, w₁, -, eq'⟩ := Res.andThen_ok eq
    obtain ⟨text', w₂, eq'', -⟩ := Res.andThen_ok eq'
    rw [expectedNparams]
    · rw [ih w₁ eq'', List.length_cons]
    · exact notTwice
  | case4 ch rest params w _ noParams someParams ih =>
    have plain : ch ≠ '%' := by
      cases params with
      | nil => exact noParams rfl
      | cons param params => exact someParams param params rfl
    obtain ⟨text', w'', eq', -⟩ := Res.andThen_ok eq
    rw [expectedNparams_plain plain]
    exact ih eq'
  | case5 w => rfl
  | case6 param params w => cases eq

theorem evalParams_ok (params : List Nat) (w : W) :
    evalParams (fun _ w => Res.ok none w) params w = .ok (params.map fun _ => none) w := by
  induction params with
  | nil => rfl
  | cons param params ih =>
    rw [evalParams]
    simp only [Res.andThen, ih, List.map_cons]

end Execution

theorem checkRaiseParameters_ok {stmt : StmtRaise} {message : List Char} (has : stmt.message = some message) :
    checkRaiseParameters stmt = .ok () ↔ expectedNparams message = stmt.params.length := by
  rw [checkRaiseParameters, has]
  dsimp only
  constructor
  · intro accepted
    split at accepted
    · cases accepted
    · split at accepted
      · cases accepted
      · omega
  · intro count
    rw [if_neg (by omega), if_neg (by omega)]

/-- The check at parse time accepts a statement exactly if its message comes out whatever
the parameters are: each is evaluated once, in order, and none is missing or left over. -/
theorem accepted_iff_formats {stmt : StmtRaise} {message : List Char} (has : stmt.message = some message) :
    checkRaiseParameters stmt = .ok () ↔
      ∀ (W : Type) (eval : Nat → W → Res W (Option String)) (w : W),
        formatMessage eval message stmt.params w =
          Res.andThen (evalParams eval stmt.params w) fun values => .ok (fill message values) := by
  rw [checkRaiseParameters_ok has]
  constructor
  · exact fun count W eval w => formatMessage_eq eval message stmt.params w count
  · intro formats
    have plain := formats Unit (fun _ w => .ok none w) ()
    rw [evalParams_ok] at plain
    exact count_of_formatMessage _ plain

theorem accepted_iff_formats_percent :
    checkRaiseParameters ⟨true, none, some "%%% of %".toList, [1, 2], []⟩ = .ok () ↔
      ∀ (W : Type) (eval : Nat → W → Res W (Option String)) (w : W),
        formatMessage eval "%%% of %".toList [1, 2] w =
          Res.andThen (evalParams eval [1, 2] w) fun values => .ok (fill "%%% of %".toList values) :=
  accepted_iff_formats rfl

/-! ### The error that is raised -/

/-- What was said of the error so far. -/
structure Building where
  errCode : Nat
  condname : Option String
  texts : RaiseOptType → Option String

/-- What goes to `ereport`. -/
structure Report where
  sqlerrcode : Nat
  message : String
  texts : RaiseOptType → Option String

def Report.edata (r : Report) : ErrorData := ⟨r.sqlerrcode, r.message⟩

inductive Raised (W : Type) where
  | thrown (r : Report) (w : W)
  /-- below ERROR, execution goes on -/
  | reported (r : Report) (w : W)
  | failed (edata : ErrorData) (w : W)

section Statement

variable {W : Type} (map : ExceptionLabelMap) (eval : Nat → W → Res W (Option String))

/-- `SET_RAISE_OPTION_TEXT`, and the case of ERRCODE -/
def setOption (opt : RaiseOptType) (extval : String) (b : Building) : Except ErrorData Building :=
  let already : ErrorData := ⟨errcodeSyntaxError, "RAISE option already specified: " ++ opt.name⟩
  if opt = .errcode then
    if b.errCode ≠ 0 then .error already
    else (recognizeErrCondition map extval true).map fun code =>
      { b with errCode := code, condname := some extval }
  else if (b.texts opt).isSome then .error already
  else .ok { b with texts := Function.update b.texts opt (some extval) }

/-- The loop over the options in `exec_stmt_raise` -/
def setOptions : List (RaiseOptType × Nat) → Building → W → Res W Building
  | [], b, w => .ok b w
  | (opt, expr) :: options, b, w =>
    Res.andThen (eval expr w) fun value w =>
      match value with
      | none => .raise ⟨errcodeNullValueNotAllowed, "RAISE statement option cannot be null"⟩ w
      | some extval =>
        match setOption map opt extval b with
        | .ok b => setOptions options b w
        | .error e => .raise e w

/-- The defaults, if a code or a message was not specified. -/
def Building.report (b : Building) (isError : Bool) : Report :=
  let errCode := if b.errCode = 0 ∧ isError = true then errcodeRaiseException else b.errCode
  ⟨errCode, (b.texts .message).getD (b.condname.getD (unpackSqlState errCode)), b.texts⟩

/-- The condition name and the message, before the options. -/
def startBuilding (stmt : StmtRaise) (w : W) : Res W Building :=
  let named : Except ErrorData Nat :=
    match stmt.condname with
    | some condname => recognizeErrCondition map condname true
    | none => .ok 0
  match named with
  | .error e => .raise e w
  | .ok code =>
    match stmt.message with
    | none => .ok ⟨code, stmt.condname, fun _ => none⟩ w
    | some message => Res.andThen (formatMessage eval message stmt.params w) fun text => 
      .ok ⟨code, stmt.condname, Function.update (fun _ => none) .message (some (String.ofList text))⟩

/-- `exec_stmt_raise` -/
def execStmtRaise (curError : Option ErrorData) (stmt : StmtRaise) (w : W) : Raised W :=
  if stmt.condname = none ∧ stmt.message = none ∧ stmt.options = [] then
    match curError with
    | some edata => .failed edata w
    | none => .failed ⟨errcodeStackedDiagnosticsAccessedWithoutActiveHandler,
        "RAISE without parameters cannot be used outside an exception handler"⟩ w
  else
    match Res.andThen (startBuilding map eval stmt w) (setOptions map eval stmt.options) with
    | .raise e w => .failed e w
    | .ok b w => if stmt.isError then .thrown (b.report true) w else .reported (b.report false) w

variable {map eval}

/-- A code that is known stays; ERRCODE is then refused. -/
theorem setOption_errCode {opt : RaiseOptType} {extval : String} {b b' : Building} (known : b.errCode ≠ 0)
    (eq : setOption map opt extval b = .ok b') : b'.errCode = b.errCode := by
  unfold setOption at eq
  dsimp only at eq
  simp only [if_pos known] at eq
  split at eq
  · cases eq
  · split at eq
    · cases eq
    · cases eq
      rfl

theorem setOptions_errCode {options : List (RaiseOptType × Nat)} {b b' : Building} {w w' : W}
    (known : b.errCode ≠ 0) (eq : setOptions map eval options b w = .ok b' w') : b'.errCode = b.errCode := by
  induction options generalizing b w with
  | nil =>
    cases eq
    rfl
  | cons option options ih =>
    obtain ⟨value, w₁, -, eq'⟩ := Res.andThen_ok eq
    cases value with
    | none => cases eq'
    | some extval =>
      dsimp only at eq'
      cases set : setOption map option.1 extval b with
      | error e =>
        rw [set] at eq'
        cases eq'
      | ok b₁ =>
        rw [set] at eq'
        have same := setOption_errCode known set
        rw [ih (same ▸ known) eq', same]

theorem startBuilding_errCode {stmt : StmtRaise} {condname : String} {code : Nat} {b : Building} {w w' : W}
    (named : stmt.condname = some condname) (recognized : recognizeErrCondition map condname true = .ok code)
    (eq : startBuilding map eval stmt w = .ok b w') : b.errCode = code := by
  unfold startBuilding at eq
  simp only [named, recognized] at eq
  cases message : stmt.message with
  | none =>
    rw [message] at eq
    cases eq
    rfl
  | some text =>
    rw [message] at eq
    obtain ⟨text', w₁, -, eq'⟩ := Res.andThen_ok eq
    cases eq'
    rfl

end Statement

/-! ### Its handler -/

theorem mem_of_lookup {entries : List (String × Nat)} {condname : String} {code : Nat}
    (found : entries.lookup condname = some code) : (condname, code) ∈ entries := by
  induction entries with
  | nil => cases found
  | cons entry entries ih =>
    obtain ⟨label, value⟩ := entry
    rw [List.lookup_cons] at found
    split at found
    next same =>
      cases found
      rw [beq_iff_eq] at same
      rw [same]
      exact List.mem_cons_self
    next => exact List.mem_cons_of_mem _ (ih found)

theorem Sqlstate.ofString_ofList (s : Sqlstate) :
    Sqlstate.ofString (String.ofList [s.c₁, s.c₂, s.c₃, s.c₄, s.c₅]) = some s := by
  unfold ofString
  rw [String.toList_ofList]
  exact dif_pos ⟨s.valid₁, s.valid₂, s.valid₃, s.valid₄, s.valid₅⟩

theorem recognizeErrCondition_name {map : ExceptionLabelMap} {condname : String} {code : Nat}
    (eq : recognizeErrCondition map condname false = .ok code) : map.entries.lookup condname = some code := by
  change (match map.entries.lookup condname with
    | some code => Except.ok code
    | none => Except.error (unrecognizedCondition condname)) = .ok code at eq
  cases found : map.entries.lookup condname with
  | none =>
    rw [found] at eq
    cases eq
  | some code' =>
    rw [found] at eq
    cases eq
    rfl

/-- A label is no SQLSTATE, so it is looked up when it could be one, too. -/
theorem recognizeErrCondition_label {map : ExceptionLabelMap} {condname : String} {code : Nat}
    (found : map.entries.lookup condname = some code) : recognizeErrCondition map condname true = .ok code := by
  rw [recognizeErrCondition, if_pos rfl, map.notSqlstate _ (mem_of_lookup found), found]

theorem parseErrCondition_label {map : ExceptionLabelMap} {condname : String} {code : Nat}
    (found : map.entries.lookup condname = some code) :
    ∃ conds, parseErrCondition map condname = .ok conds ∧ Condition.sqlstate code ∈ conds := by
  have mem := mem_of_lookup found
  have listed : (condname, code) ∈ (map.entries.filter fun e => e.1 = condname).reverse := by
    rw [List.mem_reverse, List.mem_filter]
    exact ⟨mem, decide_eq_true rfl⟩
  unfold parseErrCondition
  rw [if_neg (map.notOthers _ mem)]
  generalize (map.entries.filter fun e => e.1 = condname).reverse = entries at listed
  cases entries with
  | nil => cases listed
  | cons entry entries => exact ⟨_, rfl, List.mem_map.mpr ⟨_, listed, rfl⟩⟩

/-- The code of a condition: what RAISE makes of the name that it kept, and what a handler
for the condition is made of. -/
theorem CondRef.code_of_raise {map : ExceptionLabelMap} {c : CondRef} {condname : String}
    (kept : c.raise map = .ok condname) :
    ∃ code conds, recognizeErrCondition map condname true = .ok code ∧ c.when map = .ok conds ∧
      Condition.sqlstate code ∈ conds ∧ (code = 0 → ∃ s, c = .sqlstate s ∧ s.code = 0) := by
  cases c with
  | sqlstate s =>
    cases kept
    refine ⟨s.code, [.sqlstate s.code], ?_, rfl, List.mem_singleton_self _, fun zero => ⟨s, rfl, zero⟩⟩
    rw [recognizeErrCondition, if_pos rfl, s.ofString_ofList]
  | name label =>
    rw [CondRef.raise] at kept
    cases recognized : recognizeErrCondition map label false with
    | error e =>
      rw [recognized] at kept
      cases kept
    | ok code =>
      rw [recognized] at kept
      cases kept
      have found := recognizeErrCondition_name recognized
      obtain ⟨conds, parsed, mem⟩ := parseErrCondition_label found
      exact ⟨code, conds, recognizeErrCondition_label found, parsed, mem,
        fun zero => absurd zero (map.notZero _ (mem_of_lookup found))⟩

/-- An error that RAISE throws for a condition, with whatever options, is caught by a
handler for that condition; only SQLSTATE '00000' is no condition to RAISE. -/
theorem raised_is_caught {W : Type} {map : ExceptionLabelMap} {c : CondRef} {condname : String} {stmt : StmtRaise}
    {curError : Option ErrorData} {eval : Nat → W → Res W (Option String)} {w w' : W} {r : Report}
    (kept : c.raise map = .ok condname) (named : stmt.condname = some condname)
    (nonzero : ∀ s, c = .sqlstate s → s.code ≠ 0)
    (raised : execStmtRaise map eval curError stmt w = .thrown r w') :
    ∃ conds, c.when map = .ok conds ∧ exceptionMatchesConditions r.edata conds = true := by
  obtain ⟨code, conds, recognized, when_, mem, zero⟩ := CondRef.code_of_raise kept
  have known : code ≠ 0 := fun isZero => (zero isZero).elim fun s both => nonzero s both.1 both.2
  refine ⟨conds, when_, List.any_eq_true.mpr ⟨_, mem, ?_⟩⟩
  unfold execStmtRaise at raised
  rw [if_neg (fun none => by rw [named] at none; cases none.1)] at raised
  cases built : Res.andThen (startBuilding map eval stmt w) (setOptions map eval stmt.options) with
  | raise e w₁ =>
    rw [built] at raised
    cases raised
  | ok b w₁ =>
    rw [built] at raised
    obtain ⟨start, w₂, started, set⟩ := Res.andThen_ok built
    have startCode : start.errCode = code := startBuilding_errCode named recognized started
    have sameCode := setOptions_errCode (startCode ▸ known) set
    dsimp only at raised
    have isError : stmt.isError = true := by
      by_contra below
      rw [if_neg below] at raised
      cases raised
    rw [if_pos isError] at raised
    cases raised
    have reported : (b.report true).edata.sqlerrcode = code := by
      rw [Building.report, if_neg (fun isZero => known (by rw [← startCode, ← sameCode, isZero.1]))]
      exact sameCode.trans startCode
    rw [Condition.matchesError, reported, beq_self_eq_true, Bool.true_or]

/-- A table with a single entry. -/
def divisionByZero : ExceptionLabelMap where
  entries := [("division_by_zero", makeSqlstate '2' '2' '0' '1' '2')]
  notSqlstate e mem := by
    cases List.mem_singleton.mp mem
    rfl
  notOthers e mem := by
    cases List.mem_singleton.mp mem
    simp
  notZero e mem := by
    cases List.mem_singleton.mp mem
    decide

theorem divisionByZero_lookup :
    divisionByZero.entries.lookup "division_by_zero" = some (makeSqlstate '2' '2' '0' '1' '2') := by
  simp [divisionByZero]

/-- RAISE division_by_zero -/
def raiseDivisionByZero : StmtRaise := ⟨true, some "division_by_zero", none, [], []⟩

theorem divisionByZero_raised :
    execStmtRaise divisionByZero (fun _ w => .ok none w) none raiseDivisionByZero () =
      .thrown ⟨makeSqlstate '2' '2' '0' '1' '2', "division_by_zero", fun _ => none⟩ () := by
  have known : makeSqlstate '2' '2' '0' '1' '2' ≠ 0 := by decide
  rw [execStmtRaise, raiseDivisionByZero, if_neg (by simp), startBuilding]
  simp only [recognizeErrCondition_label divisionByZero_lookup, Res.andThen, setOptions, Building.report, known,
    false_and, if_false, if_true, Option.getD_none, Option.getD_some]

theorem raised_is_caught_divisionByZero :
    ∃ conds, CondRef.when divisionByZero (.name "division_by_zero") = .ok conds ∧
      exceptionMatchesConditions ⟨makeSqlstate '2' '2' '0' '1' '2', "division_by_zero"⟩ conds = true := by
  have kept : CondRef.raise divisionByZero (.name "division_by_zero") = .ok "division_by_zero" := by
    simp [CondRef.raise, recognizeErrCondition, divisionByZero_lookup, Except.map]
  have named : raiseDivisionByZero.condname = some "division_by_zero" := by rw [raiseDivisionByZero]
  have other (s : Sqlstate) (same : CondRef.name "division_by_zero" = .sqlstate s) : s.code ≠ 0 := by cases same
  have caught := raised_is_caught kept named other divisionByZero_raised
  rwa [Report.edata] at caught

end Uplpgsql.Errors
