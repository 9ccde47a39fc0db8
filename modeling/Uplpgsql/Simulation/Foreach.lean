import Uplpgsql.Simulation.Notes
import Uplpgsql.Machine

/-!
# Honouring the code of a FOREACH

What the compiled code would have to do with the code the interpreter returns
for a FOREACH: RETURN goes to the return block, EXIT and CONTINUE release what
they cross and go to the construct they are for. `ignoreRc` is what it does.
The two meanings coincide as long as no code is dropped.
-/

namespace Uplpgsql

open Lib.Iteration

variable {W : Type}

/-- FOREACH with its return code acted upon. -/
def honourRc (env : Env W) (delegate : Delegate W) (label : Option Nat) (id : Nat) (body : Stmts) :
    Run W := fun rctx s =>
  match delegate label id body s.w with
  | .done .ok w => .next (s.set w)
  | .done .ret w => .ret (s.set w)
  | .done (.exit label) w => takeJump env true label rctx (s.set w)
  | .done (.continue label) w => takeJump env false label rctx (s.set w)
  | .err edata w => .raise edata (s.set w)
  | .spent w => .spent (s.set w)

/-- No code has been dropped since, if none has been dropped now. -/
def NoDrop (earlier later : Notes) : Prop :=
  later.foreachDropped = false → earlier.foreachDropped = false

theorem noDrop_notesRel (env : Env W) (f : Features) : NotesRel env f NoDrop where
  refl _ := id
  trans first second := first ∘ second
  bound _ _ := id
  found _ _ _ _ _ := id
  late _ _ _ := id
  drop _ n b none := by
    simp only [Notes.dropForeach, Bool.or_eq_false_iff] at none
    exact none.1

/-- Two meanings that coincide on the runs of the first that drop no code. -/
def Coincides (run run' : Run W) : Prop :=
  ∀ rctx s, (run rctx s).state.notes.foreachDropped = false → run' rctx s = run rctx s

theorem coincides_foreachA (env : Env W) (delegate : Delegate W) (label : Option Nat) (id : Nat)
    (body : Stmts) :
    Coincides (ignoreRc delegate label id body) (honourRc env delegate label id body) := by
  intro rctx s none
  unfold ignoreRc runForeachA at none ⊢
  unfold honourRc
  cases result : delegate label id body s.w with
  | done rc w =>
    simp only [result, Out.state, RunState.note, Notes.dropForeach, Bool.or_eq_false_iff,
      bne_eq_false_iff_eq] at none
    obtain ⟨-, rfl⟩ := none
    simp [RunState.note, Notes.dropForeach]
  | err edata w => rfl
  | spent w => rfl

namespace Coincides

variable {env : Env W} {f : Features} {fuel : Nat} {run₁ run₁' run₂ run₂' : Run W}

theorem refl (run : Run W) : Coincides run run := fun _ _ _ => rfl

theorem seq (along : Notes.Along NoDrop run₂) (first : Coincides run₁ run₁')
    (second : Coincides run₂ run₂') : Coincides (runSeq run₁ run₂) (runSeq run₁' run₂') := by
  intro rctx s none
  unfold runSeq at none ⊢
  cases result : run₁ rctx s with
  | next s₁ =>
    rw [result] at none
    have before : s₁.notes.foreachDropped = false := along rctx s₁ none
    rw [first rctx s (by rw [result]; exact before), result]
    exact second rctx s₁ none
  | _ =>
    rw [result] at none
    rw [first rctx s (by rw [result]; exact none), result]
    rfl

theorem when (expr : Nat) (matched : Coincides run₁ run₁') (rest : Coincides run₂ run₂') :
    Coincides (runWhen env expr run₁ run₂) (runWhen env expr run₁' run₂') := by
  intro rctx s none
  unfold runWhen Res.run at none ⊢
  cases result : env.evalBool expr s.w with
  | ok value w =>
    simp only [result] at none ⊢
    cases holds : isTrue value with
    | true =>
      rw [holds] at none
      exact matched rctx (s.set w) none
    | false =>
      rw [holds] at none
      exact rest rctx (s.set w) none
  | raise edata w => rfl

/-- Clauses with the same expressions and coinciding bodies. -/
def Clause (c c' : Nat × Run W) : Prop := c'.1 = c.1 ∧ Coincides c.2 c'.2

theorem clauses {runs runs' : List (Nat × Run W)} (bodies : List.Forall₂ Clause runs runs')
    (otherwise : Coincides run₁ run₁') :
    Coincides (runClauses env run₁ runs) (runClauses env run₁' runs') := by
  induction bodies with
  | nil => exact otherwise
  | @cons c c' _ _ head _ ih =>
    obtain ⟨expr, body⟩ := c
    obtain ⟨expr', body'⟩ := c'
    obtain ⟨rfl, same⟩ : expr' = expr ∧ Coincides body body' := head
    exact when expr' same ih

theorem case (rel : NotesRel env f NoDrop) (test : Option (Nat × Nat)) (haveElse : Bool)
    {runs runs' : List (Nat × Run W)} (along : ∀ c ∈ runs, Notes.Along NoDrop c.2)
    (bodies : List.Forall₂ Clause runs runs') (elseNotes : Notes.Along NoDrop run₁)
    (otherwise : Coincides run₁ run₁') :
    Coincides (runCase env test runs haveElse run₁) (runCase env test runs' haveElse run₁') := by
  have cleared : List.Forall₂ Clause (runs.map fun c => (c.1, runSeq (runClearTest env test) c.2))
      (runs'.map fun c => (c.1, runSeq (runClearTest env test) c.2)) := by
    clear otherwise elseNotes
    induction bodies with
    | nil => exact .nil
    | @cons c c' _ _ head _ ih =>
      exact .cons ⟨head.1, seq (along c (by simp)) (refl _) head.2⟩
        (ih fun c' member => along c' (by simp [member]))
  refine seq (rel.caseClauses test haveElse along elseNotes) (refl _) (clauses cleared ?_)
  cases haveElse with
  | true => exact seq elseNotes (refl _) otherwise
  | false => exact refl _

theorem label (label : Option Nat) (body : Coincides run₁ run₁') :
    Coincides (fun rctx s => leaveLabel label (run₁ (rctx.pushLabel label) s))
      (fun rctx s => leaveLabel label (run₁' (rctx.pushLabel label) s)) := by
  intro rctx s none
  dsimp only at none ⊢
  rw [leaveLabel_notes] at none
  rw [body _ s none]

/-- Handlers for the same conditions with coinciding actions. -/
def Handler (h h' : List Condition × Run W) : Prop := h'.1 = h.1 ∧ Coincides h.2 h'.2

theorem handlers (blockLabel : Option Nat) (edata : ErrorData)
    {runs runs' : List (List Condition × Run W)} (actions : List.Forall₂ Handler runs runs') :
    Coincides (runHandlers env blockLabel runs edata) (runHandlers env blockLabel runs' edata) := by
  induction actions with
  | nil => exact refl _
  | @cons h h' _ _ head _ ih =>
    obtain ⟨conditions, action⟩ := h
    obtain ⟨conditions', action'⟩ := h'
    obtain ⟨rfl, same⟩ : conditions' = conditions ∧ Coincides action action' := head
    intro rctx s none
    unfold runHandlers at none ⊢
    split
    next matched =>
      rw [if_pos matched] at none
      exact label blockLabel same _ _ none
    next unmatched =>
      rw [if_neg unmatched] at none
      exact ih rctx s none

theorem blockExceptions (blockLabel : Option Nat) (initvars : List Nat)
    {runs runs' : List (List Condition × Run W)} (along : Notes.Along NoDrop run₁)
    (body : Coincides run₁ run₁') (handlerNotes : ∀ h ∈ runs, Notes.Along NoDrop h.2)
    (actions : List.Forall₂ Handler runs runs') :
    Coincides (runBlockExceptions env blockLabel initvars run₁ runs)
      (runBlockExceptions env blockLabel initvars run₁' runs') := by
  intro rctx s none
  have inner := label blockLabel (seq along (refl (runInitVars env initvars)) body)
    (rctx.pushCleanup .tryExit) ((s.map env.beginSub).note (·.initLate !env.initsInert initvars s.w))
  unfold runBlockExceptions at none ⊢
  dsimp only at none inner ⊢
  cases result : leaveLabel blockLabel (runSeq (runInitVars env initvars) run₁
      ((rctx.pushCleanup .tryExit).pushLabel blockLabel)
      ((s.map env.beginSub).note (·.initLate !env.initsInert initvars s.w))) with
  | raise edata s₁ =>
    rw [result] at none inner
    have back : NoDrop s₁.notes _ := (noDrop_notesRel env ⟨true, true, true⟩).handlers blockLabel edata
      handlerNotes rctx (s₁.map env.rollbackSub)
    rw [inner (back none)]
    exact handlers blockLabel edata actions rctx (s₁.map env.rollbackSub) none
  | _ =>
    rw [result] at none inner
    dsimp only at none
    rw [release_notes] at none
    rw [inner none]

/-- Loops coincide if their rounds do. -/
theorem loopN (rel : NotesRel env f NoDrop) {α : Type} (state : α → RunState W) {round round' : α → α ⊕ Out W}
    (each : ∀ a, NoDrop (state a).notes (roundNotes ((round a).map state id)))
    (same : ∀ a, (roundNotes ((round a).map state id)).foreachDropped = false → round' a = round a)
    (count : Nat) (a : α)
    (none : (loopN round (fun a => .spent (state a)) count a).state.notes.foreachDropped = false) :
    Lib.Iteration.loopN round' (fun a => .spent (state a)) count a =
      Lib.Iteration.loopN round (fun a => .spent (state a)) count a := by
  induction count generalizing a with
  | zero => rfl
  | succ count ih =>
    unfold Lib.Iteration.loopN at none ⊢
    cases result : round a with
    | inl again =>
      simp only [result] at none ⊢
      have before : (state again).notes.foreachDropped = false :=
        rel.loopN state each count again (rel.refl _) none
      rw [same a (by rw [result]; exact before), result]
      exact ih again none
    | inr stop =>
      simp only [result] at none ⊢
      rw [same a (by rw [result]; exact none), result]

/-- The end of a loop body. -/
theorem body (loopLabel : Option Nat) (isFor : Bool) (same : Coincides run₁ run₁')
    {exited : RunState W → Out W} (keeps : ∀ s, (exited s).state.notes = s.notes) (rctx : RunCtx)
    (s : RunState W)
    (none : (roundNotes (leaveBody exited
      (run₁ (rctx.pushLoop loopLabel isFor) s))).foreachDropped = false) :
    leaveBody exited (run₁' (rctx.pushLoop loopLabel isFor) s) =
      leaveBody exited (run₁ (rctx.pushLoop loopLabel isFor) s) := by
  rw [leaveBody_notes keeps] at none
  rw [same _ s none]

section Rounds

variable (same : Coincides run₁ run₁') (loopLabel : Option Nat)
include same

theorem whileRound (expr : Nat) (rctx : RunCtx) (s : RunState W)
    (none : (roundNotes ((runWhileRound env loopLabel expr run₁ rctx s).map id id)).foreachDropped =
      false) :
    runWhileRound env loopLabel expr run₁' rctx s = runWhileRound env loopLabel expr run₁ rctx s := by
  rw [Sum.map_id_id, id] at none
  unfold runWhileRound at none ⊢
  cases result : env.evalBool expr s.w with
  | raise edata w => rfl
  | ok value w =>
    simp only [result] at none ⊢
    split
    next holds =>
      rw [if_pos holds] at none
      exact same.body loopLabel false (fun _ => rfl) rctx (s.set w) none
    next => rfl

theorem repeatRound (expr : Nat) (rctx : RunCtx) (s : RunState W)
    (none : (roundNotes ((runRepeatRound env loopLabel expr run₁ rctx s).map id id)).foreachDropped =
      false) :
    runRepeatRound env loopLabel expr run₁' rctx s = runRepeatRound env loopLabel expr run₁ rctx s := by
  rw [Sum.map_id_id, id] at none
  have here : (roundNotes (leaveBody Out.next (run₁ (rctx.pushLoop loopLabel false) s))).foreachDropped
      = false := by
    unfold runRepeatRound at none
    split at none
    next out eq => rw [eq]; exact none
    next s₁ eq =>
      rw [eq]
      split at none
      next => exact none
      next => split at none <;> exact none
  unfold runRepeatRound
  rw [same.body loopLabel false (fun _ => rfl) rctx s here]

theorem foriRound (var : Nat) (upper step : BitVec 32) (reverse : Bool) (rctx : RunCtx)
    (r : ForiRun W)
    (none : (roundNotes ((runForiRound env loopLabel var upper step reverse run₁ rctx r).map
      ForiRun.s id)).foreachDropped = false) :
    runForiRound env loopLabel var upper step reverse run₁' rctx r =
      runForiRound env loopLabel var upper step reverse run₁ rctx r := by
  unfold runForiRound at none ⊢
  split
  next => rfl
  next notDone =>
    rw [if_neg notDone] at none
    cases result : env.assignInt var r.value r.s.w with
    | raise edata w => rfl
    | ok value w =>
      simp only [result] at none ⊢
      have here : (roundNotes (leaveBody (fun s => .next (s.map (env.setFound true)))
          (run₁ (rctx.pushLoop loopLabel true) (r.s.set w)))).foreachDropped = false := by
        split at none
        next out eq => rw [eq]; exact none
        next s₁ eq =>
          rw [eq]
          split at none <;> exact none
      rw [same.body loopLabel true (fun _ => rfl) rctx (r.s.set w) here]

theorem forqRound (kind : ForKind) (qid handle : Nat) (rctx : RunCtx) (r : ForqRun W)
    (none : (roundNotes ((runForqRound env kind loopLabel qid handle run₁ rctx r).map
      ForqRun.s id)).foreachDropped = false) :
    runForqRound env kind loopLabel qid handle run₁' rctx r =
      runForqRound env kind loopLabel qid handle run₁ rctx r := by
  unfold runForqRound at none ⊢
  dsimp only at none ⊢
  cases result : env.fetchRow kind qid handle r.s.w with
  | raise edata w => rfl
  | ok row w =>
    simp only [result] at none ⊢
    cases row with
    | false => rfl
    | true =>
      simp only at none ⊢
      have here : (roundNotes (leaveBody
          (fun s => .next ((s.map (env.closePortal kind qid handle)).map (env.setFound true)))
          (run₁ ((rctx.pushCleanup (.closePortal kind qid handle)).pushLoop loopLabel true)
            (r.s.set w)))).foreachDropped = false := by
        split at none
        next s₁ eq => rw [eq]; exact none
        next out _ eq => rw [eq]; exact none
        next s₁ eq => rw [eq]; exact none
      rw [same.body loopLabel true (fun _ => rfl) _ (r.s.set w) here]

end Rounds

variable (rel : NotesRel env f NoDrop) (loopLabel : Option Nat) (along : Notes.Along NoDrop run₁)
  (same : Coincides run₁ run₁')
include rel along same

theorem loop : Coincides (runLoop fuel loopLabel run₁) (runLoop fuel loopLabel run₁') := by
  intro rctx s none
  refine loopN rel id (along.loopRound loopLabel rctx) (fun s none => ?_) fuel s none
  rw [Sum.map_id_id, id] at none
  exact same.body loopLabel false (fun _ => rfl) rctx s none

theorem condLoop (expr : Nat) (testAtTop : Bool) :
    Coincides (runCondLoop env fuel loopLabel expr testAtTop run₁)
      (runCondLoop env fuel loopLabel expr testAtTop run₁') := by
  intro rctx s none
  cases testAtTop with
  | true =>
    exact loopN rel id (rel.whileRound loopLabel along expr rctx)
      (same.whileRound loopLabel expr rctx) fuel s none
  | false =>
    exact loopN rel id (along.repeatRound loopLabel expr rctx)
      (same.repeatRound loopLabel expr rctx) fuel s none

theorem fori (var lower upper : Nat) (step : Option Nat) (reverse : Bool) :
    Coincides (runFori env fuel loopLabel var lower upper step reverse run₁)
      (runFori env fuel loopLabel var lower upper step reverse run₁') := by
  -- The bounds are evaluated by the same code; only the rounds differ.
  have bound (expr : Nat) (s : RunState W) (next next' : BitVec 32 → RunState W → Out W)
      (rest : ∀ v s, (next v s).state.notes.foreachDropped = false → next' v s = next v s)
      (none : (runBound env expr s next).state.notes.foreachDropped = false) :
      runBound env expr s next' = runBound env expr s next := by
    unfold runBound Res.run at none ⊢
    split
    next value w eq =>
      simp only [eq] at none
      cases value with
      | none => rfl
      | some v => exact rest v _ none
    next => rfl
  intro rctx s none
  refine bound lower s _ _ (fun lo s none => bound upper s _ _ (fun hi s none => ?_) none) none
  have loops (by' : BitVec 32) (s : RunState W)
      (none : (Lib.Iteration.loopN (runForiRound env loopLabel var hi by' reverse run₁ rctx)
        (fun r => .spent r.s) fuel ⟨s, lo, false⟩).state.notes.foreachDropped = false) :
      Lib.Iteration.loopN (runForiRound env loopLabel var hi by' reverse run₁' rctx)
        (fun r => .spent r.s) fuel ⟨s, lo, false⟩ =
      Lib.Iteration.loopN (runForiRound env loopLabel var hi by' reverse run₁ rctx)
        (fun r => .spent r.s) fuel ⟨s, lo, false⟩ :=
    loopN rel ForiRun.s (rel.foriRound loopLabel along var hi by' reverse rctx)
      (same.foriRound loopLabel var hi by' reverse rctx) fuel _ none
  cases step with
  | none => exact loops 1 s none
  | some expr => exact bound expr s _ _ (fun v s none => loops v _ none) none

theorem forq (kind : ForKind) (qid : Nat) :
    Coincides (runForq env fuel kind loopLabel qid run₁) (runForq env fuel kind loopLabel qid run₁') := by
  intro rctx s none
  unfold runForq Res.run at none ⊢
  split
  next handle w eq =>
    simp only [eq] at none
    exact loopN rel ForqRun.s (rel.forqRound loopLabel along kind qid handle rctx)
      (same.forqRound loopLabel kind qid handle rctx) fuel _ none
  next => rfl

end Coincides

/-! ### The induction over statements -/

section Statements

variable {env : Env W} {delegate : Delegate W} {fuel : Nat}

theorem Stmts.run_noDrop (ss : Stmts) : Notes.Along NoDrop (ss.run env (ignoreRc delegate) fuel) :=
  ss.run_notes (noDrop_notesRel env .all) ss.within_all

mutual

theorem Stmt.run_coincides (st : Stmt) :
    Coincides (st.run env (ignoreRc delegate) fuel) (st.run env (honourRc env delegate) fuel) := by
  have rel := noDrop_notesRel env .all
  cases st with
  | leaf id => exact .refl _
  | block label initvars body =>
    exact .seq (body.run_noDrop.label label) (.refl _) (.label label body.run_coincides)
  | blockExceptions label initvars body exceptions =>
    exact .blockExceptions label initvars body.run_noDrop body.run_coincides
      (exceptions.run_notes rel exceptions.within_all) exceptions.run_coincides
  | cond expr thenBody elsifs elseBody =>
    exact .when expr thenBody.run_coincides (.clauses elsifs.run_coincides elseBody.run_coincides)
  | case test whens haveElse elseStmts =>
    exact .case rel test haveElse (whens.run_notes rel whens.within_all) whens.run_coincides
      elseStmts.run_noDrop elseStmts.run_coincides
  | condLoop label expr testAtTop body =>
    exact .condLoop rel label body.run_noDrop body.run_coincides expr testAtTop
  | loop label body => exact .loop rel label body.run_noDrop body.run_coincides
  | fori label var lower upper step reverse body =>
    exact .fori rel label body.run_noDrop body.run_coincides var lower upper step reverse
  | forq kind label id body => exact .forq rel label body.run_noDrop body.run_coincides kind id
  | foreachA label id body => exact coincides_foreachA env delegate label id body
  | exit isExit label cond => exact .refl _
  | ret id => exact .refl _

theorem Stmts.run_coincides (ss : Stmts) :
    Coincides (ss.run env (ignoreRc delegate) fuel) (ss.run env (honourRc env delegate) fuel) := by
  cases ss with
  | nil => exact .refl _
  | cons head tail => exact .seq tail.run_noDrop head.run_coincides tail.run_coincides

theorem Whens.run_coincides (ws : Whens) :
    List.Forall₂ Coincides.Clause (ws.run env (ignoreRc delegate) fuel)
      (ws.run env (honourRc env delegate) fuel) := by
  cases ws with
  | nil => exact .nil
  | cons expr body rest => exact .cons ⟨rfl, body.run_coincides⟩ rest.run_coincides

theorem Exceptions.run_coincides (es : Exceptions) :
    List.Forall₂ Coincides.Handler (es.run env (ignoreRc delegate) fuel)
      (es.run env (honourRc env delegate) fuel) := by
  cases es with
  | nil => exact .nil
  | cons conditions action rest => exact .cons ⟨rfl, action.run_coincides⟩ rest.run_coincides

end

end Statements

end Uplpgsql
