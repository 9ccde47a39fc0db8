import Uplpgsql.Expr.ShortCircuit
import Uplpgsql.Expr.Nulls

/-!
# Giving up part-way

When the compiler gives up on an expression, the statement is handed to the
interpreter, but the code of the arguments it had compiled is not taken back. It
runs first, and then the interpreter evaluates the whole expression.
-/

namespace Uplpgsql

open Lib Traced

/-! ### Statements -/

/-- What an expression is evaluated for. -/
inductive Purpose where
  /-- An assignment to a scalar variable. -/
  | assign (target : TypeOid)
  | condition
  /-- The value of an array element, of a native array or another. -/
  | element (native : Bool)
  /-- Anything that is not compiled. -/
  | other
  deriving DecidableEq, Repr

namespace Purpose

/-- Native instructions. -/
def tier1 : Purpose → PgExpr → Bool
  | .assign target, e => classifyExpr e ≠ .unknown ∧ classifyExpr e = target.oidToTypeClass
  | .condition, e => classifyExpr e = .bool
  | .element _, e => classifyExpr e ≠ .unknown
  | .other, _ => false

/-- Direct calls are tried. -/
def tier2 : Purpose → PgExpr → Bool
  | .assign _, e => canFmgrCompile e
  | .condition, e => canFmgrCompile e
  | .element native, e => native && canFmgrCompile e
  | .other, _ => false

def triesFmgr (purpose : Purpose) (e : PgExpr) : Bool := !purpose.tier1 e && purpose.tier2 e

end Purpose

section Statements

variable {σ : Type} (cat : Catalog) (fns : Functions σ) (params : Nat → NullableDatum)
  (foreign : Site → PgExpr → Eval σ NullableDatum)

/-- The emitted code, and the interpreter if it has no value: `exec_assign_expr`
for an assignment and for an array element, `rt_eval_bool` for a condition. -/
def fmgrOrInterpret (e : PgExpr) : Eval σ NullableDatum := do
  match ← runEmitted cat fns params [] e with
  | some d => pure d
  | none => execEval cat fns params foreign [] e

/-- The calls of one execution. Native instructions are no calls. -/
def statementCalls (purpose : Purpose) (e : PgExpr) (w : σ) : List Site :=
  if purpose.tier1 e then []
  else if purpose.tier2 e then (fmgrOrInterpret cat fns params foreign e w).trace
  else (execEval cat fns params foreign [] e w).trace

/-- No call more often than in one evaluation by the interpreter. -/
def CalledOnce (purpose : Purpose) (e : PgExpr) (w : σ) : Prop :=
  ∀ site, (statementCalls cat fns params foreign purpose e w).count site ≤
    (execEval cat fns params foreign [] e w).trace.count site

mutual

/-- In an expression that is not compiled: the executor comes to the node where
the compiler gives up, or leaves it out, with no error before. -/
def Reaches (site : Site) : PgExpr → σ → Prop
  | .relabelType arg, w => Reaches site arg w
  | .boolExpr .not args, w => ReachesArgs site 0 args w
  | .boolExpr .and args, w => ReachesBool true site 0 args w
  | .boolExpr .or args, w => ReachesBool false site 0 args w
  | .opExpr funcid _ args, w => cat.hasPoly funcid = true ∨ ReachesArgs site 0 args w
  | .funcExpr funcid _ args, w => cat.hasPoly funcid = true ∨ ReachesArgs site 0 args w
  | _, _ => True

def ReachesArgs (site : Site) (k : Nat) : List PgExpr → σ → Prop
  | [], _ => True
  | e :: es, w =>
    if (compileExprFmgrFull cat e).isSome then
      ∃ d, (execEval cat fns params foreign (k :: site) e w).result = .ok d ∧
        ReachesArgs site (k + 1) es (execEval cat fns params foreign (k :: site) e w).world
    else Reaches (k :: site) e w

def ReachesBool (isAnd : Bool) (site : Site) (k : Nat) : List PgExpr → σ → Prop
  | [], _ => True
  | e :: es, w =>
    if (compileExprFmgrFull cat e).isSome then
      ∃ d, (execEval cat fns params foreign (k :: site) e w).result = .ok d ∧
        (d.decides isAnd = true ∨
          ReachesBool isAnd site (k + 1) es (execEval cat fns params foreign (k :: site) e w).world)
    else Reaches (k :: site) e w

end

/-- Where the compiler succeeds, no operand left out by the executor needs a
call. Where it gives up, the code it had emitted needs none, or one of its calls
raises, and no call before is one the executor leaves out. -/
def NotRepeated (e : PgExpr) (w : σ) : Prop :=
  if (compileExprFmgrFull cat e).isSome then Guarded cat fns params foreign [] e w
  else silentEval cat params e ≠ .calls ∨
    Guarded cat fns params foreign [] e w ∧ ¬Reaches cat fns params foreign [] e w

end Statements

/-! ### The first call -/

section First

variable {σ : Type} {types : BoolTypes} {cat : Catalog} {fns : Functions σ} {params : Nat → NullableDatum}
  {foreign : Site → PgExpr → Eval σ NullableDatum}

theorem callFunction_steady (site : Site) (fnStrict : Bool) (funcid : Fid) (collation : Nat)
    (ds : List NullableDatum) : Steady (callFunction fns site fnStrict funcid collation ds) := by
  unfold callFunction
  split
  · exact .pure _
  · exact .event _ _

/-- The executor's first call is the same whatever the world. -/
theorem steadyCases : NodeCases cat params
    (fun e => Tier2Tree types e → ∀ site, Steady (execEval cat fns params foreign site e))
    (fun es => Tier2Trees types es →
      (∀ site k, Steady (execArgs cat fns params foreign site k es)) ∧
        ∀ isAnd site k anyNull, Steady (execBool cat fns params foreign isAnd site k anyNull es)) where
  leaf leaf _ site := by
    rw [execEval_leaf leaf]
    exact .pure _
  relabel arg ih tree site := by
    rw [execEval_relabel]
    exact ih tree.relabel site
  not arg ih tree site := by
    rw [execEval_not]
    exact (ih tree.not.1 _).bind fun _ => .pure _
  fold {e isAnd args} fold ih tree site := by
    rw [execEval_fold fold]
    exact (ih (tree.fold fold).1).2 isAnd site 0 false
  call call ih tree site := by
    rw [execEval_call call]
    exact ((ih (tree.call call)).1 site 0).bind fun ds => callFunction_steady site _ _ _ ds
  stuck stuck tree := (stuck.absurd tree).elim
  nil _ := by
    refine ⟨fun site k => ?_, fun isAnd site k anyNull => ?_⟩
    · rw [execArgs]
      exact .pure _
    · rw [execBool]
      exact .pure _
  cons e es first rest trees := by
    obtain ⟨restArgs, restBool⟩ := rest trees.cons.2
    refine ⟨fun site k => ?_, fun isAnd site k anyNull => ?_⟩
    · rw [execArgs]
      exact (first trees.cons.1 _).bind fun d => (restArgs site (k + 1)).bind fun ds => .pure _
    · rw [execBool]
      refine (first trees.cons.1 _).bind fun d => ?_
      split
      · exact restBool isAnd site (k + 1) true
      · split
        · exact .pure _
        · exact restBool isAnd site (k + 1) anyNull

end First

/-! ### Where the compiler gives up -/

section Reaching

variable {σ : Type} {types : BoolTypes} {cat : Catalog} {fns : Functions σ} {params : Nat → NullableDatum}
  {foreign : Site → PgExpr → Eval σ NullableDatum}

/-- Only the first part stops. -/
theorem proceed_stops_iff {α β : Type} {x : Eval σ (Option α)} {f : α → Eval σ (Option β)} {w : σ}
    (goesOn : ∀ a w, (f a w).result ≠ .ok none) :
    ((x >>= proceed f) w).result = .ok none ↔ (x w).result = .ok none := by
  cases result : (x w).result with
  | error err => simp [bind_error result]
  | ok o =>
    rw [bind_ok result]
    cases o with
    | none => simp [proceed]
    | some a => simp [proceed, goesOn]

theorem some_goesOn {α β : Type} {h : α → β} (a : α) (w : σ) :
    ((pure (some (h a)) : Eval σ (Option β)) w).result ≠ .ok none := by
  simp

theorem compileArgs_call {e : PgExpr} {funcid : Fid} {collation : Nat} {args : List PgExpr}
    (call : IsCall e funcid collation args) (mono : cat.hasPoly funcid = false)
    (gaveUp : compileExprFmgrFull cat e = none) : compileArgs cat args = none := by
  cases call with
  | op =>
    simpa only [compileExprFmgrFull, mono, Bool.false_eq_true, if_false, Option.map_eq_none_iff] using gaveUp
  | func collation notConst =>
    simpa only [compileExprFmgrFull, notConst, mono, Bool.false_eq_true, if_false,
      Option.map_eq_none_iff] using gaveUp

theorem compileArgs_rest {e : PgExpr} {es : List PgExpr} (compiled : (compileExprFmgrFull cat e).isSome = true)
    (gaveUp : compileArgs cat (e :: es) = none) : compileArgs cat es = none := by
  obtain ⟨code, compiled⟩ := Option.isSome_iff_exists.mp compiled
  simp only [compileArgs, compiled] at gaveUp
  cases rest : compileArgs cat es with
  | none => rfl
  | some codes => rw [rest] at gaveUp; cases gaveUp

/-- A silent list of arguments that is not compiled is stuck. -/
theorem silentArgs_stuck {es : List PgExpr} (gaveUp : compileArgs cat es = none)
    (silent : silentArgs cat params es ≠ .calls) (fns : Functions σ) (site : Site) (k : Nat) (w : σ) :
    (runEmittedArgs cat fns params site k es w).result = .ok none := by
  have described : (silentArgs cat params es).Describes (runEmittedArgs cat fns params site k es) :=
    silentCases.list es site k
  cases which : silentArgs cat params es with
  | calls => exact absurd which silent
  | stuck =>
    simp only [which, Silent.Describes] at described
    rw [described]
    rfl
  | value ds =>
    simp only [which, Silent.Describes] at described
    rw [← emitArgs_toOption site k] at gaveUp
    unfold runEmittedArgs at described
    cases emitted : emitArgs cat site k es with
    | ok codes => rw [emitted] at gaveUp; cases gaveUp
    | error pieces =>
      rw [emitted] at described
      obtain ⟨-, -, stopped⟩ := bind_result_ok (congrArg (fun x => (x w).result) described)
      cases stopped

/-- A list of arguments stops at the first that is not compiled. -/
theorem runEmittedArgs_stops_iff (conventions : Conventions types fns params) {e : PgExpr}
    (tree : Tier2Tree types e) {site : Site} {k : Nat} {w : σ}
    (guarded : Guarded cat fns params foreign (k :: site) e w) (es : List PgExpr) :
    (runEmittedArgs cat fns params site k (e :: es) w).result = .ok none ↔
      if (compileExprFmgrFull cat e).isSome then
        ∃ d, (execEval cat fns params foreign (k :: site) e w).result = .ok d ∧
          (runEmittedArgs cat fns params site (k + 1) es
            (execEval cat fns params foreign (k :: site) e w).world).result = .ok none
      else (runEmitted cat fns params (k :: site) e w).result = .ok none := by
  rw [runEmittedArgs_cons]
  split
  next compiled =>
    have complete : (runEmitted cat fns params (k :: site) e w).result ≠ .ok none :=
      complete_of_compiled compiled (k :: site) w
    have inStep := (guardedCases conventions).node e tree (k :: site) w guarded
    cases executed : (execEval cat fns params foreign (k :: site) e w).result with
    | ok d =>
      obtain ⟨a, -, outcome⟩ := inStep.value complete executed
      rw [bind_ok (by rw [outcome]), outcome]
      simp only [proceed, proceed_stops_iff some_goesOn, Except.ok.injEq, exists_eq_left']
    | error err =>
      have raised : (runEmitted cat fns params (k :: site) e w).result = .error err := by
        generalize runEmitted cat fns params (k :: site) e w = left at inStep complete
        generalize execEval cat fns params foreign (k :: site) e w = right at inStep executed
        cases inStep with
        | done => cases executed
        | raised =>
          cases executed
          rfl
        | stopped => exact absurd rfl complete
      simp [bind_error raised]
  next unfinished =>
    cases result : (runEmitted cat fns params (k :: site) e w).result with
    | error err => simp [bind_error result]
    | ok o =>
      cases o with
      | none => simp [bind_ok result, proceed]
      | some d => exact absurd (compiled_of_value result) unfinished

theorem reachCases (conventions : Conventions types fns params) : NodeCases cat params
    (fun e => Tier2Tree types e → ∀ site w, Guarded cat fns params foreign site e w →
      compileExprFmgrFull cat e = none →
        ((runEmitted cat fns params site e w).result = .ok none ↔ Reaches cat fns params foreign site e w))
    (fun es => Tier2Trees types es →
      (∀ site k w, GuardedArgs cat fns params foreign site k es w → compileArgs cat es = none →
        ((runEmittedArgs cat fns params site k es w).result = .ok none ↔
          ReachesArgs cat fns params foreign site k es w)) ∧
      ∀ isAnd site k w, GuardedBool cat fns params foreign isAnd site k es w → compileArgs cat es = none →
        ((runEmittedArgs cat fns params site k es w).result = .ok none ↔
          ReachesBool cat fns params foreign isAnd site k es w)) where
  leaf leaf _ site w _ gaveUp := by
    cases leaf with
    | const => cases gaveUp
    | param => cases gaveUp
    | folded collation isConst => simp only [compileExprFmgrFull, isConst, reduceCtorEq] at gaveUp
  relabel arg ih tree site w guarded gaveUp := by
    rw [runEmitted_relabel]
    simp only [Guarded] at guarded
    simp only [compileExprFmgrFull] at gaveUp
    simp only [Reaches]
    exact ih tree.relabel site w guarded gaveUp
  not arg ih tree site w guarded gaveUp := by
    rw [runEmitted_not, proceed_stops_iff some_goesOn]
    simp only [Guarded, GuardedArgs] at guarded
    simp only [compileExprFmgrFull, Option.map_eq_none_iff] at gaveUp
    simp only [Reaches, ReachesArgs, gaveUp, Option.isSome_none, Bool.false_eq_true, if_false]
    exact ih tree.not.1 _ w guarded.1 gaveUp
  fold {e isAnd args} fold ih tree site w guarded gaveUp := by
    rw [runEmitted_fold fold, proceed_stops_iff some_goesOn]
    have inner := (ih (tree.fold fold).1).2 isAnd site 0 w
    cases fold with
    | and =>
      simp only [Guarded] at guarded
      simp only [compileExprFmgrFull, Option.map_eq_none_iff] at gaveUp
      simp only [Reaches]
      exact inner guarded gaveUp
    | or =>
      simp only [Guarded] at guarded
      simp only [compileExprFmgrFull, Option.map_eq_none_iff] at gaveUp
      simp only [Reaches]
      exact inner guarded gaveUp
  call {e funcid collation args} call ih tree site w guarded gaveUp := by
    cases poly : cat.hasPoly funcid with
    | true =>
      -- Here the compiler gives up at the node itself.
      rw [runEmitted_poly call poly]
      cases call <;> simp only [Reaches, poly, true_or, pure_apply]
    | false =>
      rw [runEmitted_call call poly, proceed_stops_iff ?_]
      -- Elsewhere it gives up inside the arguments.
      · have guardedArgs : GuardedArgs cat fns params foreign site 0 args w := by
          cases call with
          | op => simpa only [Guarded, poly, Bool.false_eq_true, false_or] using guarded
          | func collation notConst =>
            simpa only [Guarded, poly, notConst, Option.isSome_none, Bool.false_eq_true, false_or] using guarded
        rw [(ih (tree.call call)).1 site 0 w guardedArgs (compileArgs_call call poly gaveUp)]
        cases call <;> simp only [Reaches, poly, Bool.false_eq_true, false_or]
      · intro ds w' stopped
        obtain ⟨d, -, none⟩ := bind_result_ok stopped
        cases none
  stuck stuck tree := (stuck.absurd tree).elim
  nil _ := by
    refine ⟨fun site k w _ gaveUp => ?_, fun isAnd site k w _ gaveUp => ?_⟩
    · cases gaveUp
    · cases gaveUp
  cons e es first rest trees := by
    obtain ⟨tree, others⟩ := trees.cons
    obtain ⟨restArgs, restBool⟩ := rest others
    have headNone (unfinished : ¬(compileExprFmgrFull cat e).isSome = true) :
        compileExprFmgrFull cat e = none := by
      simpa using unfinished
    refine ⟨fun site k w guarded gaveUp => ?_, fun isAnd site k w guarded gaveUp => ?_⟩
    -- The node that stops it is in the first argument, or after it.
    · simp only [GuardedArgs] at guarded
      rw [runEmittedArgs_stops_iff conventions tree guarded.1 es]
      simp only [ReachesArgs]
      split
      next compiled =>
        refine exists_congr fun d => and_congr_right fun ok => ?_
        exact restArgs site (k + 1) _ (guarded.2 compiled d ok) (compileArgs_rest compiled gaveUp)
      next unfinished => exact first tree _ w guarded.1 (headNone unfinished)
    · simp only [GuardedBool] at guarded
      rw [runEmittedArgs_stops_iff conventions tree guarded.1 es]
      simp only [ReachesBool]
      split
      next compiled =>
        refine exists_congr fun d => and_congr_right fun ok => ?_
        have restNone := compileArgs_rest compiled gaveUp
        have next := guarded.2 compiled d ok
        -- Behind the operand that decides, the emitted code still comes to the node.
        cases decides : d.decides isAnd with
        | true =>
          rw [decides, if_pos rfl] at next
          simp only [true_or, iff_true]
          exact silentArgs_stuck restNone next fns site (k + 1) _
        | false =>
          rw [decides, if_neg Bool.false_ne_true] at next
          simp only [Bool.false_eq_true, false_or]
          exact restBool isAnd site (k + 1) _ next restNone
      next unfinished => exact first tree _ w guarded.1 (headNone unfinished)

end Reaching

/-! ### Statements evaluate once -/

section Once

variable {σ : Type} {types : BoolTypes} {cat : Catalog} {fns : Functions σ} {params : Nat → NullableDatum}
  {foreign : Site → PgExpr → Eval σ NullableDatum} {e : PgExpr} {w : σ}

theorem count_le_iff_subset {xs ys : List Site} (once : xs.Nodup) :
    (∀ site, xs.count site ≤ ys.count site) ↔ xs ⊆ ys := by
  constructor
  · intro fewer site member
    have here := fewer site
    rw [List.count_eq_one_of_mem once member] at here
    exact List.count_pos_iff.mp here
  · intro subset site
    by_cases member : site ∈ xs
    · rw [List.count_eq_one_of_mem once member]
      exact List.count_pos_iff.mpr (subset member)
    · rw [List.count_eq_zero_of_not_mem member]
      exact Nat.zero_le _

/-- Emitted code calls only what the executor calls if and only if it is guarded. -/
theorem emitted_subset_iff (conventions : Conventions types fns params) (tree : Tier2Tree types e) :
    (runEmitted cat fns params [] e w).trace ⊆ (execEval cat fns params foreign [] e w).trace ↔
      Guarded cat fns params foreign [] e w := by
  constructor
  · exact (subsetCases conventions).node e tree [] w
  · intro guarded
    exact ((guardedCases conventions).node e tree [] w guarded).initial.subset

/-- Emitted code that ends with a value or an error is all there is. -/
theorem fmgrOrInterpret_trace (finished : (runEmitted cat fns params [] e w).result ≠ .ok none) :
    (fmgrOrInterpret cat fns params foreign e w).trace = (runEmitted cat fns params [] e w).trace := by
  unfold fmgrOrInterpret
  cases result : (runEmitted cat fns params [] e w).result with
  | error err => rw [bind_error result]
  | ok o =>
    rw [bind_ok result]
    cases o with
    | none => exact absurd result finished
    | some d => exact List.append_nil _

theorem fmgrOrInterpret_stopped (stopped : (runEmitted cat fns params [] e w).result = .ok none) :
    (fmgrOrInterpret cat fns params foreign e w).trace = (runEmitted cat fns params [] e w).trace ++
      (execEval cat fns params foreign [] e (runEmitted cat fns params [] e w).world).trace := by
  unfold fmgrOrInterpret
  rw [bind_ok stopped]

/-- Emitted code that stops has called nothing, or its first call is repeated. -/
theorem stopped_once_iff (conventions : Conventions types fns params) (tree : Tier2Tree types e)
    (stopped : (runEmitted cat fns params [] e w).result = .ok none) :
    (∀ site, (fmgrOrInterpret cat fns params foreign e w).trace.count site ≤
        (execEval cat fns params foreign [] e w).trace.count site) ↔
      silentEval cat params e ≠ .calls := by
  have described : (silentEval cat params e).Describes (runEmitted cat fns params [] e) :=
    silentCases.node e []
  rw [fmgrOrInterpret_stopped stopped]
  constructor
  · intro once calls
    rw [calls] at described
    have fewer : (runEmitted cat fns params [] e w).trace ⊆ (execEval cat fns params foreign [] e w).trace := by
      rw [← count_le_iff_subset ((runEmitted_local [] e).once w)]
      intro site
      refine Nat.le_trans ?_ (once site)
      rw [List.count_append]
      exact Nat.le_add_right _ _
    have initial := ((guardedCases conventions).node e tree [] w
      ((emitted_subset_iff conventions tree).mp fewer)).initial
    obtain ⟨site, more, trace⟩ := List.exists_cons_of_ne_nil (described w)
    -- The executor's first call is this one, also in the world the emitted code leaves.
    have first : (execEval cat fns params foreign [] e w).trace.head? = some site := by
      obtain ⟨rest, same⟩ := initial
      rw [← same, trace]
      rfl
    have again : site ∈ (execEval cat fns params foreign [] e
        (runEmitted cat fns params [] e w).world).trace := by
      have steady : Steady (execEval cat fns params foreign [] e) := steadyCases.node e tree []
      rw [steady.head?_eq w (runEmitted cat fns params [] e w).world] at first
      exact List.mem_of_mem_head? first
    have twice := once site
    rw [List.count_append, trace, List.count_cons_self] at twice
    have distinct : (execEval cat fns params foreign [] e w).trace.Nodup := (execEval_local tree []).once w
    have atMost := List.nodup_iff_count_le_one.mp distinct site
    have atLeast := List.count_pos_iff.mpr again
    omega
  · intro silent site
    have quiet : runEmitted cat fns params [] e w = ⟨[], .ok none, w⟩ := by
      cases which : silentEval cat params e with
      | calls => exact absurd which silent
      | value d =>
        simp only [which, Silent.Describes] at described
        rw [described] at stopped
        cases stopped
      | stuck =>
        simp only [which, Silent.Describes] at described
        rw [described]
        rfl
    rw [quiet]
    exact Nat.le_refl _

theorem fmgr_once_iff (conventions : Conventions types fns params) (tree : Tier2Tree types e) :
    (∀ site, (fmgrOrInterpret cat fns params foreign e w).trace.count site ≤
        (execEval cat fns params foreign [] e w).trace.count site) ↔
      NotRepeated cat fns params foreign e w := by
  -- If the emitted code comes to its end, nothing is interpreted after it.
  have whole (finished : (runEmitted cat fns params [] e w).result ≠ .ok none) :
      (∀ site, (fmgrOrInterpret cat fns params foreign e w).trace.count site ≤
          (execEval cat fns params foreign [] e w).trace.count site) ↔
        Guarded cat fns params foreign [] e w := by
    rw [fmgrOrInterpret_trace finished, count_le_iff_subset ((runEmitted_local [] e).once w),
      emitted_subset_iff conventions tree]
  unfold NotRepeated
  split
  next compiled => exact whole (complete_of_compiled compiled [] w)
  next unfinished =>
    have gaveUp : compileExprFmgrFull cat e = none := by simpa using unfinished
    have reaches (guarded : Guarded cat fns params foreign [] e w) :=
      (reachCases conventions).node e tree [] w guarded gaveUp
    by_cases stopped : (runEmitted cat fns params [] e w).result = .ok none
    -- It stops where the compiler gave up, and the whole is interpreted again.
    · rw [stopped_once_iff conventions tree stopped]
      constructor
      · exact Or.inl
      · rintro (silent | ⟨guarded, notReached⟩)
        · exact silent
        · exact absurd ((reaches guarded).mp stopped) notReached
    · rw [whole stopped]
      constructor
      · intro guarded
        exact .inr ⟨guarded, fun reached => stopped ((reaches guarded).mpr reached)⟩
      · rintro (silent | ⟨guarded, -⟩)
        · refine (emitted_subset_iff conventions tree).mp ?_
          have described : (silentEval cat params e).Describes (runEmitted cat fns params [] e) :=
            silentCases.node e []
          cases which : silentEval cat params e with
          | calls => exact absurd which silent
          | value d =>
            simp only [which, Silent.Describes] at described
            rw [described]
            exact List.nil_subset _
          | stuck =>
            simp only [which, Silent.Describes] at described
            rw [described]
            exact List.nil_subset _
        · exact guarded

end Once

/-! ### A sequence -/

/-- `e + array_length(a, 1)`, whose second argument is polymorphic. -/
def plusLength (e : PgExpr) : PgExpr :=
  .opExpr .int84pl 0 [e, .funcExpr (.other 2176) 0 [.param true 1 (.other 1007), .const .int4 false 1]]

/-- `nextval('s')`. -/
def nextvalOfS : PgExpr := .funcExpr (.other 1574) 0 [.const (.other 2205) false 16400]

def arrayLengthPoly : Catalog := ⟨fun _ => true, fun funcid => funcid = .other 2176, id⟩

/-- A sequence at `w`; the array has three elements. -/
def sequenceFns : Functions Nat := fun funcid _ ds w =>
  match funcid with
  | .other 1574 => (.ok ⟨BitVec.ofNat 64 (w + 1), false⟩, w + 1)
  | .other 2176 => (.ok ⟨3, false⟩, w)
  | .int84pl => (ofTwo (fun a b => .ok ⟨a + b, false⟩) (ds.map (·.toOption)), w)
  | _ => (.ok ⟨0, true⟩, w)

theorem sequenceFns_conventions :
    Conventions ⟨fun _ => false, fun _ => false⟩ sequenceFns fun _ => ⟨7, false⟩ := by
  refine ⟨fun funcid collation ds ds' w same => ?_, nofun, nofun, rfl⟩
  simp only [sequenceFns, same, and_self]

end Uplpgsql
