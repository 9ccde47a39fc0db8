import Uplpgsql.ControlFlow

/-!
# The integer FOR loop

`upl_emit_fori` against `exec_stmt_fori`, for bodies that stay in the loop. What
both are for is said here in one expression: evaluate the bounds, refuse NULL
and steps below one, then run the body once for each value of an arithmetic
progression that ends at the bound or before the end of `int32`. The
interpreter does so always; the compiled loop never looks at the sign of its
step.
-/

namespace Uplpgsql

open Lib.Iteration

variable {W : Type}

/-! ### The values of the loop variable -/

/-- How far it is from `lo` to `hi` in the direction of the loop. -/
def foriDistance (reverse : Bool) (lo hi : BitVec 32) : Int :=
  if reverse then lo.toInt - hi.toInt else hi.toInt - lo.toInt

def foriCount (reverse : Bool) (lo hi step : BitVec 32) : Nat :=
  if foriDistance reverse lo hi < 0 then 0
  else (foriDistance reverse lo hi / step.toInt).toNat + 1

/-- The `k`-th value, as an integer: nothing wraps around. -/
def foriValue (reverse : Bool) (lo step : BitVec 32) (k : Nat) : Int :=
  if reverse then lo.toInt - k * step.toInt else lo.toInt + k * step.toInt

/-- From `lo` by `step` up to and including `hi`. -/
def foriSequence (reverse : Bool) (lo hi step : BitVec 32) : List Int :=
  (List.range (foriCount reverse lo hi step)).map (foriValue reverse lo step)

section Sequence

variable {reverse : Bool} {lo hi step : BitVec 32}

theorem pastEnd_iff : pastEnd reverse lo hi = true ↔ foriDistance reverse lo hi < 0 := by
  cases reverse <;> simp only [pastEnd, foriDistance, decide_eq_true_eq, if_true, if_false,
    Bool.false_eq_true] <;> omega

theorem foriSequence_past (past : pastEnd reverse lo hi = true) :
    foriSequence reverse lo hi step = [] := by
  have none : foriCount reverse lo hi step = 0 := if_pos (pastEnd_iff.mp past)
  rw [foriSequence, none]
  rfl

/-- Where the step does not overflow the next value is the sum. -/
theorem nextValue_toInt (positive : 1 ≤ step.toInt) (fits : stepOverflows reverse lo step = false) :
    (nextValue reverse lo step).toInt = foriValue reverse lo step 1 := by
  have low := BitVec.le_toInt lo
  have high := BitVec.toInt_lt (x := lo)
  have stepHigh := BitVec.toInt_lt (x := step)
  cases reverse with
  | true =>
    simp only [stepOverflows, if_true, decide_eq_false_iff_not] at fits
    simp only [nextValue, foriValue, if_true, BitVec.toInt_sub, Int.bmod_def]
    omega
  | false =>
    simp only [stepOverflows, Bool.false_eq_true, if_false, decide_eq_false_iff_not] at fits
    simp only [nextValue, foriValue, Bool.false_eq_true, if_false, BitVec.toInt_add, Int.bmod_def]
    omega

/-- A step that overflows would also pass the bound, which is an `int32`. -/
theorem foriDistance_lt (overflows : stepOverflows reverse lo step = true) :
    foriDistance reverse lo hi < step.toInt := by
  have low := BitVec.le_toInt hi
  have high := BitVec.toInt_lt (x := hi)
  cases reverse with
  | true =>
    simp only [stepOverflows, if_true, decide_eq_true_eq] at overflows
    simp only [foriDistance, if_true]
    omega
  | false =>
    simp only [stepOverflows, Bool.false_eq_true, if_false, decide_eq_true_eq] at overflows
    simp only [foriDistance, Bool.false_eq_true, if_false]
    omega

theorem foriCount_last (here : 0 ≤ foriDistance reverse lo hi)
    (last : foriDistance reverse lo hi < step.toInt) : foriCount reverse lo hi step = 1 := by
  rw [foriCount, if_neg (by omega), Int.ediv_eq_zero_of_lt here last]
  rfl

theorem foriDistance_next (hi : BitVec 32) (positive : 1 ≤ step.toInt)
    (fits : stepOverflows reverse lo step = false) :
    foriDistance reverse (nextValue reverse lo step) hi =
      foriDistance reverse lo hi - step.toInt := by
  have next := nextValue_toInt positive fits
  cases reverse <;>
    simp only [foriDistance, foriValue, if_true, if_false, Bool.false_eq_true] at next ⊢ <;> omega

theorem foriCount_next (positive : 1 ≤ step.toInt) (fits : stepOverflows reverse lo step = false)
    (here : 0 ≤ foriDistance reverse lo hi) :
    foriCount reverse lo hi step = foriCount reverse (nextValue reverse lo step) hi step + 1 := by
  have next := foriDistance_next hi positive fits
  by_cases last : foriDistance reverse lo hi < step.toInt
  · have none : foriCount reverse (nextValue reverse lo step) hi step = 0 :=
      if_pos (by omega)
    rw [foriCount_last here last, none]
  · -- One step further on, the quotient is one less.
    have quotient : foriDistance reverse lo hi / step.toInt =
        (foriDistance reverse lo hi - step.toInt) / step.toInt + 1 := by
      have split : foriDistance reverse lo hi =
          (foriDistance reverse lo hi - step.toInt) + 1 * step.toInt := by omega
      rw [split, Int.add_mul_ediv_right _ _ (by omega), ← split]
    have nonneg : 0 ≤ (foriDistance reverse lo hi - step.toInt) / step.toInt :=
      Int.ediv_nonneg (by omega) (by omega)
    rw [foriCount, foriCount, next, if_neg (by omega), if_neg (by omega), quotient]
    omega

theorem foriValue_next (positive : 1 ≤ step.toInt) (fits : stepOverflows reverse lo step = false)
    (k : Nat) :
    foriValue reverse lo step (k + 1) = foriValue reverse (nextValue reverse lo step) step k := by
  have next := nextValue_toInt positive fits
  have split : ((k + 1 : Nat) : Int) * step.toInt = k * step.toInt + step.toInt := by
    rw [Nat.cast_add, Nat.cast_one, Int.add_mul, Int.one_mul]
  cases reverse <;>
    simp only [foriValue, if_true, if_false, Bool.false_eq_true] at next ⊢ <;> omega

theorem foriValue_zero : foriValue reverse lo step 0 = lo.toInt := by
  cases reverse <;> simp [foriValue]

/-- What is left of the sequence after a round, whichever of its tests ends it. -/
theorem foriSequence_step (positive : 1 ≤ step.toInt) (here : pastEnd reverse lo hi = false) :
    foriSequence reverse lo hi step = lo.toInt ::
      if stepOverflows reverse lo step then []
      else foriSequence reverse (nextValue reverse lo step) hi step := by
  have ahead : 0 ≤ foriDistance reverse lo hi := by
    have notPast : ¬foriDistance reverse lo hi < 0 := fun past => by
      rw [pastEnd_iff.mpr past] at here
      cases here
    omega
  cases overflows : stepOverflows reverse lo step with
  | true =>
    have one := foriCount_last ahead (foriDistance_lt overflows)
    rw [foriSequence, one]
    simp [foriValue_zero]
  | false =>
    rw [foriSequence, foriCount_next positive overflows ahead, List.range_succ_eq_map]
    simp only [List.map_cons, List.map_map, foriValue_zero, Bool.false_eq_true, if_false,
      foriSequence, List.cons.injEq, true_and]
    exact List.map_congr_left fun k _ => foriValue_next positive overflows k

/-- Every value lies between the bounds, so that the sequence never leaves
`int32`. -/
theorem foriSequence_between (positive : 1 ≤ step.toInt) {v : Int}
    (mem : v ∈ foriSequence reverse lo hi step) :
    min lo.toInt hi.toInt ≤ v ∧ v ≤ max lo.toInt hi.toInt := by
  obtain ⟨k, inRange, rfl⟩ := List.mem_map.mp mem
  have bounded := List.mem_range.mp inRange
  rw [foriCount] at bounded
  split at bounded
  next => exact absurd bounded (Nat.not_lt_zero k)
  next ahead =>
    have atMost : (k : Int) * step.toInt ≤ foriDistance reverse lo hi := by
      have nonneg : 0 ≤ foriDistance reverse lo hi / step.toInt :=
        Int.ediv_nonneg (by omega) (by omega)
      have quotient : (k : Int) ≤ foriDistance reverse lo hi / step.toInt := by omega
      exact (Int.le_ediv_iff_mul_le (by omega)).mp quotient
    have nonneg : 0 ≤ (k : Int) * step.toInt := Int.mul_nonneg (by omega) (by omega)
    cases reverse <;>
      simp only [foriDistance, foriValue, if_true, if_false, Bool.false_eq_true] at atMost ⊢ <;>
      omega

end Sequence

/-! ### What the loop is for -/

/-- How the loop ends: in order, or by an error with the world it was raised in. -/
inductive ForiEnd (W : Type) where
  | finished (w : W)
  | raised (sqlerrcode : Nat) (w : W)
  deriving DecidableEq

def Out.foriEnd : Out W → Option (ForiEnd W)
  | .next s => some (.finished s.w)
  | .raise edata s => some (.raised edata.sqlerrcode s.w)
  | _ => none

def ExecOut.foriEnd : ExecOut W → Option (ForiEnd W)
  | .done .ok w => some (.finished w)
  | .err edata w => some (.raised edata.sqlerrcode w)
  | _ => none

/-- The lower and the upper bound and the step; `none` when one of them is NULL. -/
abbrev ForBounds := Option (BitVec 32 × BitVec 32 × BitVec 32)

/-- Evaluates the bounds in order, as far as the first that is NULL. -/
def Env.evalBounds (env : Env W) (lower upper : Nat) (step : Option Nat) (w : W) :
    Res W ForBounds :=
  match env.evalInt lower w with
  | .raise edata w => .raise edata w
  | .ok none w => .ok none w
  | .ok (some lo) w =>
    match env.evalInt upper w with
    | .raise edata w => .raise edata w
    | .ok none w => .ok none w
    | .ok (some hi) w =>
      match step with
      -- Without BY the step is one.
      | none => .ok (some (lo, hi, 1)) w
      | some expr =>
        match env.evalInt expr w with
        | .raise edata w => .raise edata w
        | .ok none w => .ok none w
        | .ok (some by') w => .ok (some (lo, hi, by')) w

/-- The bounds are there and the step is zero or negative. -/
def badStep : Res W ForBounds → Bool
  | .ok (some (_, _, by')) _ => decide (by'.toInt ≤ 0)
  | _ => false

/-- One assignment of the loop variable and one run of the body for each value. -/
def eachValue (bind : BitVec 32 → W → W) (act : W → W) (values : List Int) (w : W) : W :=
  values.foldl (fun w v => act (bind (BitVec.ofInt 32 v) w)) w

/-- How an integer FOR loop ends whose body does `act`: every error is raised
before the first iteration. -/
def specifiedEnd (env : Env W) (bind : BitVec 32 → W → W) (act : W → W) (reverse : Bool) :
    Res W ForBounds → ForiEnd W
  | .raise edata w => .raised edata.sqlerrcode w
  | .ok none w => .raised errcodeNullValueNotAllowed w
  | .ok (some (lo, hi, by')) w =>
    if by'.toInt ≤ 0 then .raised errcodeInvalidParameterValue w
    else
      let values := foriSequence reverse lo hi by'
      .finished (env.setFound (!values.isEmpty) (eachValue bind act values w))

/-- A body that ends without leaving the loop, and does `act` in both executions:
it may run off its end or CONTINUE. -/
structure StaysInLoop (label : Option Nat) (run : Run W) (exec : Exec W) (act : W → W) : Prop where
  compiled : ∀ (exited : RunState W → Out W) (rctx : RunCtx) (s : RunState W), ∃ s',
    leaveBody exited (run (rctx.pushLoop label true) s) = .inl s' ∧ s'.w = act s.w
  interpreted : ∀ w, afterBody label (exec w) = .inl (act w)

/-! ### One round -/

section Rounds

variable {env : Env W} {label : Option Nat} {var : Nat} {hi by' : BitVec 32} {reverse : Bool}
  {run : Run W} {exec : Exec W} {rctx : RunCtx} {bind : BitVec 32 → W → W} {act : W → W}

/-- Between rounds: the values from here on lead to the final world. -/
structure ForiLeft (bind : BitVec 32 → W → W) (act : W → W) (reverse : Bool) (hi by' : BitVec 32)
    (final : W) (looped : Bool) (w : W) (value : BitVec 32) (found : Bool) : Prop where
  world : eachValue bind act (foriSequence reverse value hi by') w = final
  found : (found || !(foriSequence reverse value hi by').isEmpty) = looped

namespace ForiLeft

variable {final w : W} {looped found : Bool} {value : BitVec 32}
  (left : ForiLeft bind act reverse hi by' final looped w value found)
include left

theorem past (past : pastEnd reverse value hi = true) : w = final ∧ found = looped := by
  have world := left.world
  have flag := left.found
  rw [foriSequence_past past] at world flag
  exact ⟨world, by simpa using flag⟩

theorem last (positive : 1 ≤ by'.toInt) (here : pastEnd reverse value hi = false)
    (overflows : stepOverflows reverse value by' = true) :
    act (bind value w) = final ∧ true = looped := by
  have world := left.world
  have flag := left.found
  rw [foriSequence_step positive here, if_pos overflows] at world flag
  simp only [eachValue, List.foldl_cons, List.foldl_nil, BitVec.ofInt_toInt] at world
  exact ⟨world, by simpa using flag⟩

theorem more (positive : 1 ≤ by'.toInt) (here : pastEnd reverse value hi = false)
    (fits : stepOverflows reverse value by' = false) :
    ForiLeft bind act reverse hi by' final looped (act (bind value w))
      (nextValue reverse value by') true := by
  have world := left.world
  have flag := left.found
  rw [foriSequence_step positive here, fits] at world flag
  simp only [eachValue, List.foldl_cons, BitVec.ofInt_toInt] at world
  exact ⟨world, by simpa using flag⟩

end ForiLeft

/-- The number of rounds still to come. -/
def roundsLeft (reverse : Bool) (hi by' value : BitVec 32) : Nat :=
  (foriSequence reverse value hi by').length

theorem roundsLeft_next (positive : 1 ≤ by'.toInt) {value : BitVec 32}
    (here : pastEnd reverse value hi = false) (fits : stepOverflows reverse value by' = false) :
    roundsLeft reverse hi by' (nextValue reverse value by') < roundsLeft reverse hi by' value := by
  rw [roundsLeft, roundsLeft, foriSequence_step positive here, fits]
  exact Nat.lt_succ_self _

variable (assigns : ∀ v w, env.assignInt var v w = .ok () (bind v w))
  (stays : StaysInLoop label run exec act)
include assigns stays

theorem runForiRound_eq (rctx : RunCtx) (by' : BitVec 32) (r : ForiRun W)
    (here : pastEnd reverse r.value hi = false) :
    ∃ s, s.w = act (bind r.value r.s.w) ∧
      runForiRound env label var hi by' reverse run rctx r =
        if wraps reverse r.value by' then .inr (.next (s.map (env.setFound true)))
        else .inl ⟨s, nextValue reverse r.value by', true⟩ := by
  obtain ⟨s, stayed, world⟩ := stays.compiled (fun s => .next (s.map (env.setFound true))) rctx
    (r.s.set (bind r.value r.s.w))
  refine ⟨s, world, ?_⟩
  rw [runForiRound, doneTest_eq, here, assigns]
  simp only [stayed, Bool.false_eq_true, if_false]

theorem foriRound_eq (r : ForiState W) (here : pastEnd reverse r.value hi = false) :
    foriRound env label var hi by' reverse exec r =
      if stepOverflows reverse r.value by' then
        .inr (.done .ok (env.setFound true (act (bind r.value r.w))))
      else .inl ⟨act (bind r.value r.w), nextValue reverse r.value by', true⟩ := by
  rw [foriRound, here, assigns]
  simp only [stays.interpreted, Bool.false_eq_true, if_false]

theorem runFori_loop (positive : 1 ≤ by'.toInt) (fuel : Nat) (r : ForiRun W) {final : W}
    {looped : Bool} (left : ForiLeft bind act reverse hi by' final looped r.s.w r.value r.found)
    (enough : roundsLeft reverse hi by' r.value < fuel) :
    (loopN (runForiRound env label var hi by' reverse run rctx) (fun r => .spent r.s) fuel
      r).foriEnd = some (.finished (env.setFound looped final)) := by
  refine loopN_total
    (fun r => ForiLeft bind act reverse hi by' final looped r.s.w r.value r.found)
    (fun out => Out.foriEnd out = some (.finished (env.setFound looped final)))
    (fun r => roundsLeft reverse hi by' r.value) (fun r left => ?_) fuel r left enough
  cases here : pastEnd reverse r.value hi with
  | true =>
    obtain ⟨world, found⟩ := left.past here
    rw [runForiRound, doneTest_eq, here, if_pos rfl, ← world, ← found]
    rfl
  | false =>
    obtain ⟨s, world, round⟩ := runForiRound_eq assigns stays rctx by' r here
    rw [round, wraps_eq reverse r.value by' positive]
    cases overflows : stepOverflows reverse r.value by' with
    | true =>
      obtain ⟨ended, found⟩ := left.last positive here overflows
      rw [if_pos rfl, ← ended, ← found, ← world]
      rfl
    | false =>
      have next := left.more positive here overflows
      rw [← world] at next
      exact ⟨next, roundsLeft_next positive here overflows⟩

theorem execFori_loop (positive : 1 ≤ by'.toInt) (fuel : Nat) (r : ForiState W) {final : W}
    {looped : Bool} (left : ForiLeft bind act reverse hi by' final looped r.w r.value r.found)
    (enough : roundsLeft reverse hi by' r.value < fuel) :
    (loopN (foriRound env label var hi by' reverse exec) (fun r => .spent r.w) fuel r).foriEnd =
      some (.finished (env.setFound looped final)) := by
  refine loopN_total
    (fun r => ForiLeft bind act reverse hi by' final looped r.w r.value r.found)
    (fun x => ExecOut.foriEnd x = some (.finished (env.setFound looped final)))
    (fun r => roundsLeft reverse hi by' r.value) (fun r left => ?_) fuel r left enough
  cases here : pastEnd reverse r.value hi with
  | true =>
    obtain ⟨world, found⟩ := left.past here
    rw [foriRound, here, if_pos rfl, ← world, ← found]
    rfl
  | false =>
    rw [foriRound_eq assigns stays r here]
    cases overflows : stepOverflows reverse r.value by' with
    | true =>
      obtain ⟨ended, found⟩ := left.last positive here overflows
      rw [if_pos rfl, ← ended, ← found]
      rfl
    | false => exact ⟨left.more positive here overflows, roundsLeft_next positive here overflows⟩

/-- Whatever the step is, the compiled loop raises nothing of its own. -/
theorem runFori_loop_raises_not (fuel : Nat) (r : ForiRun W) (edata : ErrorData) (s : RunState W) :
    loopN (runForiRound env label var hi by' reverse run rctx) (fun r => .spent r.s) fuel r ≠
      .raise edata s := by
  refine loopN_invariant (fun _ => True) (fun out => out ≠ Out.raise edata s)
    (fun r _ => ?_) (fun r _ => ?_) fuel r trivial
  · intro raised
    cases raised
  cases here : pastEnd reverse r.value hi with
  | true =>
    rw [runForiRound, doneTest_eq, here, if_pos rfl]
    intro raised
    cases raised
  | false =>
    obtain ⟨s', -, round⟩ := runForiRound_eq assigns stays rctx by' r here
    rw [round]
    cases wraps reverse r.value by' with
    | true =>
      intro raised
      cases raised
    | false => trivial

end Rounds

/-! ### The bounds -/

section Bounds

variable (env : Env W) (fuel : Nat) (label : Option Nat) (var lower upper : Nat)
  (step : Option Nat) (reverse : Bool)

/-- The compiled loop after its bounds: a NULL raises, a step is taken as it is. -/
def runFromBounds (loop : BitVec 32 → BitVec 32 → BitVec 32 → RunState W → Out W) (notes : Notes) :
    Res W ForBounds → Out W
  | .raise edata w => .raise edata ⟨w, notes⟩
  | .ok none w => .raise rtEvalIntNull ⟨w, notes⟩
  | .ok (some (lo, hi, by')) w => loop lo hi by' ⟨w, notes⟩

theorem runFori_fromBounds (run : Run W) (rctx : RunCtx) (s : RunState W) : ∃ notes,
    runFori env fuel label var lower upper step reverse run rctx s =
      runFromBounds (fun lo hi by' s =>
        loopN (runForiRound env label var hi by' reverse run rctx) (fun r => .spent r.s) fuel
          ⟨s, lo, false⟩) notes (env.evalBounds lower upper step s.w) := by
  unfold runFori runBound Res.run Env.evalBounds
  cases env.evalInt lower s.w with
  | raise edata w => exact ⟨_, rfl⟩
  | ok lo w =>
    cases lo with
    | none => exact ⟨_, rfl⟩
    | some lo =>
      dsimp only [RunState.set]
      cases env.evalInt upper w with
      | raise edata w => exact ⟨_, rfl⟩
      | ok hi w =>
        cases hi with
        | none => exact ⟨_, rfl⟩
        | some hi =>
          cases step with
          | none => exact ⟨_, rfl⟩
          | some expr =>
            dsimp only [runStep, runBound, Res.run]
            cases env.evalInt expr w with
            | raise edata w => exact ⟨_, rfl⟩
            | ok by' w => cases by' <;> exact ⟨_, rfl⟩

/-- The interpreted loop after its bounds: the message of a NULL names the bound,
and a step below one is refused. -/
def execFromBounds (loop : BitVec 32 → BitVec 32 → BitVec 32 → Exec W) (role : BoundRole) :
    Res W ForBounds → ExecOut W
  | .raise edata w => .err edata w
  | .ok none w => .err role.nullError w
  | .ok (some (lo, hi, by')) w => if by'.toInt ≤ 0 then .err stepNotPositive w else loop lo hi by' w

theorem execStmtFori_fromBounds (exec : Exec W) (w : W) : ∃ role,
    execStmtFori env fuel label var lower upper step reverse exec w =
      execFromBounds (fun lo hi by' w =>
        loopN (foriRound env label var hi by' reverse exec) (fun s => .spent s.w) fuel
          ⟨w, lo, false⟩) role (env.evalBounds lower upper step w) := by
  unfold execStmtFori execBound Res.exec Env.evalBounds
  cases env.evalInt lower w with
  | raise edata w => exact ⟨.lower, rfl⟩
  | ok lo w =>
    cases lo with
    | none => exact ⟨.lower, rfl⟩
    | some lo =>
      dsimp only
      cases env.evalInt upper w with
      | raise edata w => exact ⟨.upper, rfl⟩
      | ok hi w =>
        cases hi with
        | none => exact ⟨.upper, rfl⟩
        | some hi =>
          refine ⟨.step, ?_⟩
          cases step with
          | none => rfl
          | some expr =>
            dsimp only [execStep, execBound]
            cases env.evalInt expr w with
            | raise edata w => rfl
            | ok by' w =>
              cases by' with
              | none => rfl
              | some by' =>
                by_cases refused : by'.toInt ≤ 0
                · simp only [execFromBounds, if_pos refused]
                · simp only [execFromBounds, if_neg refused]

end Bounds

/-! ### The two loops -/

section Loops

variable {env : Env W} {label : Option Nat} {var : Nat} {reverse : Bool} {run : Run W}
  {exec : Exec W} {bind : BitVec 32 → W → W} {act : W → W}
  (assigns : ∀ v w, env.assignInt var v w = .ok () (bind v w))
  (stays : StaysInLoop label run exec act)
include assigns stays

/-- Unless the step is bad, both loops end as they should once they have a round
for each value. -/
theorem fori_ends (lower upper : Nat) (step : Option Nat) (rctx : RunCtx) (s : RunState W)
    (good : badStep (env.evalBounds lower upper step s.w) = false) : ∃ enough, ∀ fuel,
    enough ≤ fuel →
      (runFori env fuel label var lower upper step reverse run rctx s).foriEnd =
        some (specifiedEnd env bind act reverse (env.evalBounds lower upper step s.w)) ∧
      (execStmtFori env fuel label var lower upper step reverse exec s.w).foriEnd =
        some (specifiedEnd env bind act reverse (env.evalBounds lower upper step s.w)) := by
  have compiled fuel := runFori_fromBounds env fuel label var lower upper step reverse run rctx s
  have interpreted fuel :=
    execStmtFori_fromBounds env fuel label var lower upper step reverse exec s.w
  generalize env.evalBounds lower upper step s.w = bounds at *
  rcases bounds with ⟨_ | ⟨lo, hi, by'⟩, w⟩ | ⟨edata, w⟩
  case ok.none | raise =>
    refine ⟨0, fun fuel _ => ?_⟩
    obtain ⟨notes, runs⟩ := compiled fuel
    obtain ⟨role, executes⟩ := interpreted fuel
    rw [runs, executes]
    first | exact ⟨rfl, rfl⟩ | cases role <;> exact ⟨rfl, rfl⟩
  case ok.some =>
    have positive : 1 ≤ by'.toInt := by
      have notBad : ¬by'.toInt ≤ 0 := of_decide_eq_false good
      omega
    refine ⟨roundsLeft reverse hi by' lo + 1, fun fuel enough => ?_⟩
    obtain ⟨notes, runs⟩ := compiled fuel
    obtain ⟨role, executes⟩ := interpreted fuel
    have left : ForiLeft bind act reverse hi by' _ _ w lo false := ⟨rfl, rfl⟩
    rw [runs, executes, execFromBounds, specifiedEnd, if_neg (by omega), if_neg (by omega)]
    exact ⟨runFori_loop assigns stays positive fuel ⟨⟨w, notes⟩, lo, false⟩ left enough,
      execFori_loop assigns stays positive fuel ⟨w, lo, false⟩ left enough⟩

/-- With a bad step the compiled loop raises nothing, at any fuel. -/
theorem fori_misses (lower upper : Nat) (step : Option Nat) (rctx : RunCtx) (s : RunState W)
    (bad : badStep (env.evalBounds lower upper step s.w) = true) (fuel : Nat) :
    (runFori env fuel label var lower upper step reverse run rctx s).foriEnd ≠
      some (specifiedEnd env bind act reverse (env.evalBounds lower upper step s.w)) := by
  obtain ⟨notes, runs⟩ :=
    runFori_fromBounds env fuel label var lower upper step reverse run rctx s
  rw [runs]
  rcases bounds : env.evalBounds lower upper step s.w with ⟨_ | ⟨lo, hi, by'⟩, w⟩ | ⟨edata, w⟩
  case ok.none | raise =>
    rw [bounds] at bad
    cases bad
  case ok.some =>
    rw [bounds] at bad
    rw [runFromBounds, specifiedEnd, if_pos (of_decide_eq_true bad)]
    intro raised
    generalize ended : loopN _ _ _ _ = out at raised
    cases out with
    | raise edata s => exact runFori_loop_raises_not assigns stays fuel _ edata s ended
    | next | jump | ret | spent => cases raised

/-- The compiled loop ends, with the values and the errors of the interpreter,
exactly when the bounds do not come with a step of zero or below. -/
theorem fori_sequence (lower upper : Nat) (step : Option Nat) (rctx : RunCtx) (s : RunState W) :
    (∃ enough, ∀ fuel, enough ≤ fuel →
      (runFori env fuel label var lower upper step reverse run rctx s).foriEnd =
        some (specifiedEnd env bind act reverse (env.evalBounds lower upper step s.w)) ∧
      (execStmtFori env fuel label var lower upper step reverse exec s.w).foriEnd =
        some (specifiedEnd env bind act reverse (env.evalBounds lower upper step s.w))) ↔
      badStep (env.evalBounds lower upper step s.w) = false := by
  constructor
  · rintro ⟨enough, ends⟩
    by_contra bad
    rw [Bool.not_eq_false] at bad
    exact fori_misses assigns stays lower upper step rctx s bad enough
      (ends enough (Nat.le_refl _)).1
  · exact fori_ends assigns stays lower upper step rctx s

end Loops

/-- Records what the loop variable is set to. -/
def Small.setLoopVar (v : BitVec 32) (w : Small) : Small :=
  { w with ran := w.ran ++ [.initVar v.toNat] }

def Env.counting : Env Small :=
  { Env.small with assignInt := fun _ v w => .ok () (w.setLoopVar v) }

/-- Statement 7 as the body of a loop. -/
def Small.leafSeven (w : Small) : Small := { w with ran := w.ran ++ [.leaf 7] }

theorem leafSeven_stays : StaysInLoop none (runOp Env.counting (.leaf 7))
    (execOp Env.counting (.leaf 7)) Small.leafSeven where
  compiled _ _ _ := ⟨_, rfl, rfl⟩
  interpreted _ := rfl

/-- FOR i IN 2147483640..2147483647 BY 5 takes two values; the third would be
past the end of `int32`. -/
theorem fori_sequence_atTheEnd :
    badStep (Env.counting.evalBounds 2147483640 2147483647 (some 5) Small.start) = false ∧
    ∃ enough, ∀ fuel, enough ≤ fuel →
      (runFori Env.counting fuel none 1 2147483640 2147483647 (some 5) false
        (runOp Env.counting (.leaf 7)) ⟨[], []⟩ ⟨Small.start, Notes.none⟩).foriEnd =
        some (.finished ⟨true, 0,
          [.initVar 2147483640, .leaf 7, .initVar 2147483645, .leaf 7]⟩) := by
  have good : badStep (Env.counting.evalBounds 2147483640 2147483647 (some 5) Small.start) =
      false := by decide +kernel
  obtain ⟨enough, ends⟩ := (@fori_sequence Small Env.counting none 1 false _ _ Small.setLoopVar _
    (fun _ _ => rfl) leafSeven_stays 2147483640 2147483647 (some 5) ⟨[], []⟩
    ⟨Small.start, Notes.none⟩).mpr good
  refine ⟨good, enough, fun fuel more => (ends fuel more).1.trans ?_⟩
  decide +kernel

/-- FOR i IN 1..3 BY -1: the interpreter refuses the step, the compiled loop runs
its body once and ends in order. -/
theorem fori_negativeStep :
    (¬∃ enough, ∀ fuel, enough ≤ fuel →
      (runFori Env.counting fuel none 1 1 3 (some 4294967295) false
        (runOp Env.counting (.leaf 7)) ⟨[], []⟩ ⟨Small.start, Notes.none⟩).foriEnd =
        (execStmtFori Env.counting fuel none 1 1 3 (some 4294967295) false
          (execOp Env.counting (.leaf 7)) Small.start).foriEnd) ∧
    (runFori Env.counting 9 none 1 1 3 (some 4294967295) false
      (runOp Env.counting (.leaf 7)) ⟨[], []⟩ ⟨Small.start, Notes.none⟩).foriEnd =
      some (.finished ⟨true, 0, [.initVar 1, .leaf 7]⟩) ∧
    (execStmtFori Env.counting 9 none 1 1 3 (some 4294967295) false
      (execOp Env.counting (.leaf 7)) Small.start).foriEnd =
      some (.raised errcodeInvalidParameterValue Small.start) := by
  refine ⟨?_, by decide +kernel, by decide +kernel⟩
  rintro ⟨enough, ends⟩
  have bad : badStep (Env.counting.evalBounds 1 3 (some 4294967295) Small.start) = true := by
    decide +kernel
  refine @fori_misses Small Env.counting none 1 false _ _ Small.setLoopVar _ (fun _ _ => rfl)
    leafSeven_stays 1 3 (some 4294967295) ⟨[], []⟩ ⟨Small.start, Notes.none⟩ bad enough ?_
  exact (ends enough (Nat.le_refl _)).trans rfl

end Uplpgsql
