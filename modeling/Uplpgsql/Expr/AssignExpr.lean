import Uplpgsql.Expr.Assigned
import Mathlib.Data.List.Nodup

/-!
# Assignments

What one assignment does, whatever the expression and whichever way the object of
the target is handed over: the target gets the value that is meant and the other
variables keep theirs, or there is the error that is meant.

An error leaves the target as it was, too, unless the target is local. Where the
top-level function modifies the object in place, this takes more than the function
being trusted: the value must not fail to be converted or stored afterwards.
-/

namespace Uplpgsql.ReadWrite

open Lib

variable {V E : Type} {env : Executor V E} {expr : PlExpr V} {s : EvalState V E}

/-- After an object has been modified in place nothing can fail any more: there is no
conversion, and a target that is NOT NULL is not assigned NULL. -/
def Settled (env : Executor V E) (expr : PlExpr V) : Prop :=
  (execCheckRwParameter env expr).1 = .inplace →
    expr.cast = none ∧ ((env.decl expr.targetParam).notnull = true →
      ∀ vals ext, (expr.simpleExpr.interpret (denoted env vals) ext).1 ≠ .ok none)

/-- The expressions that the parser and `exec_simple_check_plan` leave: every Param
is a node of its own, and an assignment that may be undone can be. -/
structure PlExpr.Sane (env : Executor V E) (expr : PlExpr V) : Prop where
  distinct : (expr.simpleExpr.params.map Prod.fst).Nodup
  settled : expr.targetIsLocal = false → Settled env expr

/-- What comes of an assignment. -/
structure Assigns (env : Executor V E) (expr : PlExpr V) (s : EvalState V E)
    (m : Except ErrorData (Option V) × E) (o : Except ErrorData Unit × EvalState V E) : Prop where
  ext : o.2.ext = m.2
  link : o.2.link.Consistent env expr
  held : Held env o.2.toWorld
  ok : ∀ v, m.1 = .ok v → o.1 = .ok () ∧ Clean o.2.toWorld ∧
    o.2.value = Function.update s.value expr.targetParam v
  error : ∀ err, m.1 = .error err → o.1 = .error err ∧
    (∀ d, d ≠ expr.targetParam → o.2.value d = s.value d) ∧
    (expr.targetIsLocal = false → o.2.value expr.targetParam = s.value expr.targetParam)

theorem isNull_eq {r : Ref V} {v : Option V} {h : Objects V} (read : r.read h = some v) :
    isNull r = v.isNone := by
  cases r with
  | null =>
    cases read
    rfl
  | flat w =>
    cases read
    rfl
  | ro a =>
    obtain ⟨w, -, rfl⟩ := Option.map_eq_some_iff.mp read
    rfl
  | rw a =>
    obtain ⟨w, -, rfl⟩ := Option.map_eq_some_iff.mp read
    rfl

theorem assignedValue_error {vals : Nat → Option V} {ext : E} {err : ErrorData}
    (failed : (convertedValue env vals expr ext).1 = .error err) :
    assignedValue env vals expr ext = (.error err, (convertedValue env vals expr ext).2) := by
  unfold assignedValue
  revert failed
  rcases convertedValue env vals expr ext with ⟨_ | _, _⟩ <;> simp

theorem assignedValue_ok {vals : Nat → Option V} {ext : E} {v : Option V}
    (ok : (convertedValue env vals expr ext).1 = .ok v) :
    assignedValue env vals expr ext =
      if v.isNone && (env.decl expr.targetParam).notnull then
        (.error (nullValueNotAllowed (env.decl expr.targetParam)), (convertedValue env vals expr ext).2)
      else (.ok v, (convertedValue env vals expr ext).2) := by
  unfold assignedValue
  revert ok
  rcases convertedValue env vals expr ext with ⟨_ | _, _⟩
  · simp
  · rintro ⟨⟩
    rfl

theorem execAssignExpr_error {err : ErrorData} (failed : (evalConverted env expr s).1 = .error err) :
    execAssignExpr env expr s = (.error err, (evalConverted env expr s).2) := by
  rw [execAssignExpr_eq]
  revert failed
  rcases evalConverted env expr s with ⟨_ | _, _⟩ <;> simp

theorem execAssignExpr_ok {r : Ref V} (ok : (evalConverted env expr s).1 = .ok r) :
    execAssignExpr env expr s =
      if isNull r && (env.decl expr.targetParam).notnull then
        (.error (nullValueNotAllowed (env.decl expr.targetParam)), (evalConverted env expr s).2)
      else (.ok (), { (evalConverted env expr s).2 with
        toWorld := (storeValue env expr.targetParam r (evalConverted env expr s).2.toWorld).evalCleanup }) := by
  rw [execAssignExpr_eq]
  revert ok
  rcases evalConverted env expr s with ⟨_ | _, _⟩
  · simp
  · rintro ⟨⟩
    rfl

/-- The target as it was, after a NULL that it does not allow: a target that is not
local has not been handed over. -/
theorem null_value (held : Held env s.toWorld) (sane : expr.Sane env)
    {m : Except ErrorData (Option V) × E} {o : Except ErrorData (Ref V) × EvalState V E}
    (computes : Computes env expr s.toWorld m o) (nonlocal : expr.targetIsLocal = false)
    (wanted : convertedValue env s.value expr s.ext = (.ok none, m.2))
    (notnull : (env.decl expr.targetParam).notnull = true) (d : Nat) : o.2.value d = s.value d := by
  have nope : execCheckRwParameter env expr = (.nope, none) := by
    rcases execCheckRwParameter_cases env expr with ⟨local_, -⟩ | nope | ⟨_, _, _, _, _, _, _, inplace⟩
    · rw [nonlocal] at local_
      cases local_
    · exact nope
    · -- in place, the expression itself would have been NULL
      obtain ⟨cast, never⟩ := sane.settled nonlocal (by rw [inplace])
      refine absurd ?_ (never notnull s.value s.ext)
      unfold convertedValue at wanted
      rcases result : expr.simpleExpr.interpret (denoted env s.value) s.ext with ⟨_ | v, _⟩
      · rw [result] at wanted
        cases wanted
      · rw [result, cast] at wanted
        exact congrArg Prod.fst wanted
  obtain ⟨vars, -⟩ := computes.during.before (by simp [nope])
  refine value_congr (by rw [vars]) fun a points => computes.yields.same a (held.live points) ?_
  exact fun written => written.1 (by rw [nope])

/-- Whatever comes of an assignment, the memory is in order after it. -/
theorem execAssignExpr_held (sound : env.Sound) (honest : env.Honest) (held : Held env s.toWorld)
    (consistent : s.link.Consistent env expr) (distinct : (expr.simpleExpr.params.map Prod.fst).Nodup) :
    Held env (execAssignExpr env expr s).2.toWorld ∧ (execAssignExpr env expr s).2.link.Consistent env expr ∧
      ((execAssignExpr env expr s).1 = .ok () → Clean (execAssignExpr env expr s).2.toWorld) := by
  obtain ⟨computes, -⟩ := evalConverted_computes sound honest held consistent distinct
  have after := held.during computes.during
  cases result : (evalConverted env expr s).1 with
  | error err =>
    rw [execAssignExpr_error result]
    exact ⟨after, computes.during.link, by simp⟩
  | ok r =>
    obtain ⟨v, -, read⟩ := computes.yields.value r result
    rw [execAssignExpr_ok result]
    split
    · exact ⟨after, computes.during.link, by simp⟩
    · obtain ⟨held', clean, -⟩ := storeValue_spec after read (computes.mine result)
      exact ⟨held', computes.during.link, fun _ => clean⟩

/-- The objects of the caller are neither modified nor freed. -/
theorem execAssignExpr_lent (sound : env.Sound) (honest : env.Honest) (held : Held env s.toWorld)
    (consistent : s.link.Consistent env expr) (distinct : (expr.simpleExpr.params.map Prod.fst).Nodup) {a : Nat}
    (live : s.heap a ≠ none) (caller : s.owner a = .caller) :
    (execAssignExpr env expr s).2.heap a = s.heap a ∧ (execAssignExpr env expr s).2.owner a = .caller := by
  obtain ⟨computes, -⟩ := evalConverted_computes sound honest held consistent distinct
  have after := held.during computes.during
  have notOwned (d : Nat) : (s.vars d).value ≠ .rw a := by
    intro own
    rw [(held.owns d a own).2.1] at caller
    cases caller
  have heap : (evalConverted env expr s).2.heap a = s.heap a :=
    computes.yields.same a live fun written => notOwned _ written.2
  have owner : (evalConverted env expr s).2.owner a = .caller := by
    rcases computes.during.phase with ⟨-, kept⟩ | ⟨-, b, own, -, -, others⟩
    · exact (kept a live).trans caller
    · exact (others a live fun same => notOwned _ (same ▸ own)).trans caller
  cases result : (evalConverted env expr s).1 with
  | error err =>
    rw [execAssignExpr_error result]
    exact ⟨heap, owner⟩
  | ok r =>
    rw [execAssignExpr_ok result]
    split
    · exact ⟨heap, owner⟩
    · rw [← heap]
      refine storeValue_lent after (fun b own => ?_) (by rwa [heap]) owner
      rcases computes.mine result b own with gone | held'
      · rw [gone]
        decide
      · rw [(after.owns _ b held').2.1]
        decide

theorem execAssignExpr_assigns (sound : env.Sound) (honest : env.Honest) (held : Held env s.toWorld)
    (consistent : s.link.Consistent env expr) (sane : expr.Sane env) :
    Assigns env expr s (assignedValue env s.value expr s.ext) (execAssignExpr env expr s) := by
  obtain ⟨computes, intact⟩ := evalConverted_computes sound honest held consistent sane.distinct
  obtain ⟨heldAfter, link, clean⟩ := execAssignExpr_held sound honest held consistent sane.distinct
  have others (d : Nat) (ne : d ≠ expr.targetParam) : (evalConverted env expr s).2.value d = s.value d :=
    computes.value_other held ne
  -- The heap and the links are settled; what is left are values and errors.
  suffices outcome : (execAssignExpr env expr s).2.ext = (assignedValue env s.value expr s.ext).2 ∧
      (∀ v, (assignedValue env s.value expr s.ext).1 = .ok v → (execAssignExpr env expr s).1 = .ok () ∧
        (execAssignExpr env expr s).2.value = Function.update s.value expr.targetParam v) ∧
      ∀ err, (assignedValue env s.value expr s.ext).1 = .error err →
        (execAssignExpr env expr s).1 = .error err ∧
        (∀ d, d ≠ expr.targetParam → (execAssignExpr env expr s).2.value d = s.value d) ∧
        (expr.targetIsLocal = false →
          (execAssignExpr env expr s).2.value expr.targetParam = s.value expr.targetParam) by
    obtain ⟨ext, ok, error⟩ := outcome
    exact ⟨ext, link, heldAfter, fun v eq => ⟨(ok v eq).1, clean (ok v eq).1, (ok v eq).2⟩, error⟩
  cases result : (evalConverted env expr s).1 with
  | error err =>
    have wanted := computes.yields.error err result
    rw [assignedValue_error wanted, execAssignExpr_error result]
    refine ⟨computes.ext, by simp, fun err' eq => ?_⟩
    cases eq
    -- An error before the store: a target that is not local has not been handed over.
    refine ⟨rfl, others, fun nonlocal => ?_⟩
    have converts inplace := (sane.settled nonlocal inplace).1
    exact (intact nonlocal converts).value held result _
  | ok r =>
    obtain ⟨v, wanted, read⟩ := computes.yields.value r result
    rw [assignedValue_ok wanted, execAssignExpr_ok result, isNull_eq read]
    -- A null for a NOT NULL variable is refused after the evaluation.
    by_cases null : (v.isNone && (env.decl expr.targetParam).notnull) = true
    · rw [if_pos null, if_pos null]
      obtain ⟨isNone, notnull⟩ := Bool.and_eq_true_iff.mp null
      obtain rfl := Option.isNone_iff_eq_none.mp isNone
      refine ⟨computes.ext, by simp, fun err eq => ?_⟩
      cases eq
      refine ⟨rfl, others, fun nonlocal => ?_⟩
      exact null_value held sane computes nonlocal (Prod.ext wanted rfl) notnull _
    · rw [if_neg null, if_neg null]
      obtain ⟨-, -, value⟩ := storeValue_spec (held.during computes.during) read (computes.mine result)
      refine ⟨(storeValue_ext r).trans computes.ext, fun v' eq => ?_, by simp⟩
      cases eq
      refine ⟨rfl, value.trans (funext fun d => ?_)⟩
      by_cases ne : d = expr.targetParam
      · rw [ne, Function.update_self, Function.update_self]
      · rw [Function.update_of_ne ne, Function.update_of_ne ne]
        exact others d ne

end Uplpgsql.ReadWrite
