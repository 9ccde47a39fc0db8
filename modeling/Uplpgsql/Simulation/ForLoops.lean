import Uplpgsql.Simulation.Statements

/-!
# The simulation of FOR loops

Leaving a FOR loop assigns FOUND in the interpreter, whichever way it is left.
The wrap-around test of the compiled loop and the distance test of the
interpreter agree for BY values of at least one.
-/

namespace Uplpgsql

open Lib.Iteration

variable {W : Type} {env : Env W} {fuel : Nat} {scopes : List Scope}

/-! ### Bounds -/

theorem follows_bound (role : BoundRole) (expr : Nat) {run : BitVec 32 → Run W}
    {exec : BitVec 32 → Exec W} (rest : ∀ v, Follows env scopes (run v) (exec v)) :
    Follows env scopes (fun rctx s => runBound env expr s fun v s => run v rctx s)
      (fun w => (execBound env role expr w).exec exec) where
  back rctx s fine := by
    unfold runBound Res.run at fine
    cases result : env.evalInt expr s.w with
    | raise edata w => rw [result] at fine; exact fine
    | ok value w =>
      rw [result] at fine
      cases value with
      | none => exact (Notes.fine_of_boundBad fine).1
      | some v => exact (rest v).back rctx (s.set w) fine
  agrees rctx s inside ok fine := by
    unfold runBound Res.run at fine ⊢
    unfold execBound Res.exec
    cases result : env.evalInt expr s.w with
    | raise edata w => rfl
    | ok value w =>
      rw [result] at fine
      cases value with
      | none => cases (Notes.fine_of_boundBad fine).2
      | some v => exact (rest v).agrees rctx (s.set w) inside ok fine

theorem follows_step (step : Option Nat) {run : BitVec 32 → Run W} {exec : BitVec 32 → Exec W}
    (back : ∀ v rctx s, (run v rctx s).state.notes.fine → s.notes.fine)
    (rest : ∀ v, 1 ≤ v.toInt → Follows env scopes (run v) (exec v)) :
    Follows env scopes (fun rctx s => runStep env step s fun v s => run v rctx s)
      (fun w => (execStep env step w).exec exec) := by
  cases step with
  | none => exact rest 1 (by decide)
  | some expr =>
    constructor
    · intro rctx s fine
      unfold runStep runBound Res.run at fine
      cases result : env.evalInt expr s.w with
      | raise edata w => simp only [result] at fine; exact fine
      | ok value w =>
        simp only [result] at fine
        cases value with
        | none => exact (Notes.fine_of_boundBad fine).1
        | some v => exact (Notes.fine_of_boundBad (back v rctx _ fine)).1
    · intro rctx s inside ok fine
      unfold runStep runBound Res.run at fine ⊢
      unfold execStep execBound Res.exec
      dsimp only at fine ⊢
      cases result : env.evalInt expr s.w with
      | raise edata w => rfl
      | ok value w =>
        simp only [result] at fine
        cases value with
        | none => cases (Notes.fine_of_boundBad fine).2
        | some v =>
          have positive : ¬v.toInt ≤ 0 := by simpa using (Notes.fine_of_boundBad (back v rctx _ fine)).2
          have agrees := (rest v (by omega)).agrees rctx _ inside ok fine
          simp only [if_neg positive]
          exact agrees

/-! ### The integer FOR loop -/

theorem doneTest_eq (reverse : Bool) (value bound : BitVec 32) :
    doneTest reverse value bound = pastEnd reverse value bound := by
  cases reverse <;> simp [doneTest, pastEnd, BitVec.slt]

/-- The next value lies on the wrong side of the current one exactly when it is
too far from the end of the range. -/
theorem wraps_eq (reverse : Bool) (value step : BitVec 32) (positive : 1 ≤ step.toInt) :
    wraps reverse value step = stepOverflows reverse value step := by
  have low := BitVec.le_toInt value
  have high := BitVec.toInt_lt (x := value)
  have stepHigh := BitVec.toInt_lt (x := step)
  cases reverse with
  | true =>
    simp only [wraps, stepOverflows, BitVec.slt, BitVec.toInt_sub, if_true, decide_eq_decide,
      Int.bmod_def]
    omega
  | false =>
    simp only [wraps, stepOverflows, BitVec.slt, BitVec.toInt_add, Bool.false_eq_true, if_false,
      decide_eq_decide, Int.bmod_def]
    omega

/-- The states of the two executions between rounds. -/
structure ForiRel (r : ForiRun W) (s : ForiState W) : Prop where
  world : r.s.w = s.w
  value : r.value = s.value
  found : r.found = s.found

section Fori

variable {label : Option Nat} {var : Nat} {upper step : BitVec 32} {reverse : Bool} {run : Run W}
  {exec : Exec W} {rctx : RunCtx}

theorem foriRound_back (body : Follows env (⟨label, true⟩ :: scopes) run exec) :
    RoundBack ForiRun.s (runForiRound env label var upper step reverse run rctx) := by
  constructor
  · intro r again eq fine
    unfold runForiRound at eq
    split at eq
    next => cases eq
    next =>
      split at eq
      next => cases eq
      next value w _ =>
        split at eq
        next => cases eq
        next s₁ ended =>
          split at eq
          next => cases eq
          next =>
            obtain rfl := Sum.inl.inj eq
            exact back_body (s := r.s.set w) body (fun _ => rfl) ended fine
  · intro r stop eq fine
    unfold runForiRound at eq
    split at eq
    next =>
      obtain rfl := Sum.inr.inj eq
      exact fine
    next =>
      split at eq
      next =>
        obtain rfl := Sum.inr.inj eq
        exact fine
      next value w _ =>
        split at eq
        next out ended =>
          obtain rfl := Sum.inr.inj eq
          exact back_body (s := r.s.set w) body (fun _ => rfl) ended fine
        next s₁ ended =>
          split at eq
          next =>
            obtain rfl := Sum.inr.inj eq
            exact back_body (s := r.s.set w) body (fun _ => rfl) ended fine
          next => cases eq

theorem foriRound_agrees (laws : env.FoundLaws)
    (body : Follows env (⟨label, true⟩ :: scopes) run exec) (inside : rctx.scopes = scopes)
    (ok : rctx.Ok) (positive : 1 ≤ step.toInt) :
    RoundAgrees env rctx ForiRun.s ForiRel id (runForiRound env label var upper step reverse run rctx)
      (foriRound env label var upper step reverse exec) := by
  constructor
  -- A round that goes on: the variable is assigned, the body runs, and the next value fits.
  · rintro r ⟨w, value, found⟩ again ⟨rfl, rfl, rfl⟩ eq fine
    unfold runForiRound at eq
    unfold foriRound
    rw [doneTest_eq] at eq
    split at eq
    next => cases eq
    next more =>
      rw [if_neg more]
      cases result : env.assignInt var r.value r.s.w with
      | raise edata w => simp [result] at eq
      | ok value w =>
        cases ended : leaveBody (fun s => .next (s.map (env.setFound true)))
            (run (rctx.pushLoop label true) (r.s.set w)) with
        | inr out => simp [result, ended] at eq
        | inl s₁ =>
          simp only [result, ended, wraps_eq _ _ _ positive] at eq
          split at eq
          next => cases eq
          next fits =>
            obtain rfl := Sum.inl.inj eq
            have left := agrees_again (s := r.s.set w) laws body inside ok (fun _ => rfl) ended fine
            change afterBody label (exec w) = _ at left
            simp only [left, if_neg fits]
            exact ⟨_, rfl, rfl, rfl, rfl⟩
  -- A round that ends the loop: the bound is passed, or the assignment or the body ends it,
  -- or the next value would wrap.
  · rintro r ⟨w, value, found⟩ stop ⟨rfl, rfl, rfl⟩ eq fine
    unfold runForiRound at eq
    unfold foriRound
    rw [doneTest_eq] at eq
    split at eq
    next done =>
      obtain rfl := Sum.inr.inj eq
      rw [if_pos done]
      exact ⟨_, rfl, rfl⟩
    next more =>
      rw [if_neg more]
      cases result : env.assignInt var r.value r.s.w with
      | raise edata w =>
        simp only [result, Sum.inr.injEq] at eq
        subst eq
        exact ⟨_, rfl, rfl⟩
      | ok value w =>
        cases ended : leaveBody (fun s => .next (s.map (env.setFound true)))
            (run (rctx.pushLoop label true) (r.s.set w)) with
        -- A jump caught by this loop is an end of it; any other leaves it.
        | inr out =>
          simp only [result, ended, Sum.inr.injEq] at eq
          subst eq
          rcases agrees_stop (s := r.s.set w) laws body inside ok (fun _ => rfl) ended fine with
            ⟨s', w', rfl, left, same⟩ | ⟨-, x, left, agrees⟩
          · change afterBody label (exec w) = _ at left
            simp only [left]
            exact ⟨_, rfl, by rw [Agrees, id, ExecOut.mapDone, ← same.setFound true]; rfl⟩
          · change afterBody label (exec w) = _ at left
            simp only [left]
            exact ⟨_, rfl, agrees⟩
        | inl s₁ =>
          simp only [result, ended, wraps_eq _ _ _ positive] at eq
          split at eq
          next past =>
            obtain rfl := Sum.inr.inj eq
            have left := agrees_again (s := r.s.set w) laws body inside ok (fun _ => rfl) ended fine
            change afterBody label (exec w) = _ at left
            simp only [left, if_pos past]
            exact ⟨_, rfl, rfl⟩
          next => cases eq

end Fori

theorem follows_fori (laws : env.FoundLaws) (label : Option Nat) (var lower upper : Nat)
    (step : Option Nat) (reverse : Bool) {run : Run W} {exec : Exec W}
    (body : Follows env (⟨label, true⟩ :: scopes) run exec) :
    Follows env scopes (runFori env fuel label var lower upper step reverse run)
      (execStmtFori env fuel label var lower upper step reverse exec) := by
  refine follows_bound .lower lower fun lo => follows_bound .upper upper fun hi =>
    follows_step step (fun by' rctx s fine => ?_) fun by' positive => ?_
  · exact loopN_fine (foriRound_back body) fuel (⟨s, lo, false⟩ : ForiRun W) fine
  · constructor
    · exact fun rctx s fine => loopN_fine (foriRound_back body) fuel (⟨s, lo, false⟩ : ForiRun W) fine
    · intro rctx s inside ok fine
      exact loopN_agrees ForiRun.s ForiState.w ForiRel id (fun _ => rfl) (fun _ _ rel => rel.world)
        (foriRound_back body) (foriRound_agrees laws body inside ok positive) fuel ⟨s, lo, false⟩
        ⟨s.w, lo, false⟩ ⟨rfl, rfl, rfl⟩ fine

/-! ### Row loops -/

structure ForqRel (r : ForqRun W) (s : ForqState W) : Prop where
  world : r.s.w = s.w
  found : r.found = s.found

section Forq

variable {kind : ForKind} {label : Option Nat} {id handle : Nat} {run : Run W} {exec : Exec W}
  {rctx : RunCtx}

/-- What a round of a row loop makes of a body that has left the loop. -/
def closeReturn (close : W → W) : Out W → Out W
  | .ret s => .ret (s.map close)
  | out => out

theorem closeReturn_eq_release {close : W → W} {out : Out W} (leaves : ∀ s, out ≠ .next s) :
    closeReturn close out = out.release close := by
  cases out with
  | next s => exact absurd rfl (leaves s)
  | _ => rfl

theorem closeReturn_notes (close : W → W) (out : Out W) :
    (closeReturn close out).state.notes = out.state.notes := by
  cases out <;> rfl

/-- `runForqRound` with the close calls of its paths named. -/
theorem runForqRound_eq (r : ForqRun W) :
    runForqRound env kind label id handle run rctx r =
      match env.fetchRow kind id handle r.s.w with
      | .raise edata w => .inr (.raise edata (r.s.set w))
      | .ok false w => .inr (.next
          (((r.s.set w).map (env.closePortal kind id handle)).map (env.setFound r.found)))
      | .ok true w =>
        match leaveBody
            (fun s => .next ((s.map (env.closePortal kind id handle)).map (env.setFound true)))
            (run ((rctx.pushCleanup (.closePortal kind id handle)).pushLoop label true) (r.s.set w)) with
        | .inr out => .inr (closeReturn (env.closePortal kind id handle) out)
        | .inl s => .inl ⟨s, true⟩ := by
  unfold runForqRound
  cases env.fetchRow kind id handle r.s.w with
  | raise edata w => rfl
  | ok row w =>
    cases row with
    | false => rfl
    | true =>
      dsimp only
      generalize leaveBody _ _ = left
      cases left with
      | inl s => rfl
      | inr out => cases out <;> rfl

theorem forqRound_back (body : Follows env (⟨label, true⟩ :: scopes) run exec) :
    RoundBack ForqRun.s (runForqRound env kind label id handle run rctx) := by
  constructor
  · intro r again eq fine
    rw [runForqRound_eq] at eq
    split at eq
    next => cases eq
    next => cases eq
    next w _ =>
      split at eq
      next => cases eq
      next s₁ ended =>
        obtain rfl := Sum.inl.inj eq
        exact back_body (s := r.s.set w) body (fun _ => rfl) ended fine
  · intro r stop eq fine
    rw [runForqRound_eq] at eq
    split at eq
    next =>
      obtain rfl := Sum.inr.inj eq
      exact fine
    next =>
      obtain rfl := Sum.inr.inj eq
      exact fine
    next w _ =>
      split at eq
      next out ended =>
        obtain rfl := Sum.inr.inj eq
        rw [closeReturn_notes] at fine
        exact back_body (s := r.s.set w) body (fun _ => rfl) ended fine
      next => cases eq

theorem forqRound_agrees (laws : env.FoundLaws)
    (body : Follows env (⟨label, true⟩ :: scopes) run exec) (inside : rctx.scopes = scopes)
    (ok : rctx.Ok) :
    RoundAgrees env rctx ForqRun.s ForqRel (ExecOut.mapDone (env.closePortal kind id handle))
      (runForqRound env kind label id handle run rctx)
      (forQueryRound env (env.fetchRow kind id handle) label exec) := by
  have okHeld := ok.pushCleanup (.closePortal kind id handle)
  have insideHeld : (rctx.pushCleanup (.closePortal kind id handle)).scopes = scopes := inside
  constructor
  -- A round that goes on has fetched a row.
  · rintro r ⟨w, found⟩ again ⟨rfl, rfl⟩ eq fine
    rw [runForqRound_eq] at eq
    unfold forQueryRound
    cases result : env.fetchRow kind id handle r.s.w with
    | raise edata w => simp [result] at eq
    | ok row w =>
      cases row with
      | false => simp [result] at eq
      | true =>
        simp only [result] at eq
        split at eq
        next => cases eq
        next s₁ ended =>
          obtain rfl := Sum.inl.inj eq
          have left := agrees_again (s := r.s.set w) laws body insideHeld okHeld (fun _ => rfl) ended fine
          change afterBody label (exec w) = _ at left
          simp only [left]
          exact ⟨_, rfl, rfl, rfl⟩
  -- The last round: no row, an error, or a body that leaves the loop.
  · rintro r ⟨w, found⟩ stop ⟨rfl, rfl⟩ eq fine
    rw [runForqRound_eq] at eq
    unfold forQueryRound
    cases result : env.fetchRow kind id handle r.s.w with
    | raise edata w =>
      simp only [result, Sum.inr.injEq] at eq
      subst eq
      exact ⟨_, rfl, rfl⟩
    | ok row w =>
      cases row with
      | false =>
        simp only [result, Sum.inr.injEq] at eq
        subst eq
        exact ⟨_, rfl, by rw [ExecOut.mapDone, ← laws.set_close]; rfl⟩
      | true =>
        simp only [result] at eq
        split at eq
        next out ended =>
          obtain rfl := Sum.inr.inj eq
          rw [closeReturn_notes] at fine
          rcases agrees_stop (s := r.s.set w) laws body insideHeld okHeld (fun _ => rfl) ended fine with
            ⟨s', w', rfl, left, same⟩ | ⟨leaves, x, left, agrees⟩
          · change afterBody label (exec w) = _ at left
            simp only [left]
            refine ⟨_, rfl, ?_⟩
            -- FOUND is set and the portal closed in either order.
            rw [ExecOut.mapDone, ExecOut.mapDone, ← same.setFound true, ← laws.set_close]
            rfl
          · change afterBody label (exec w) = _ at left
            simp only [left, closeReturn_eq_release leaves]
            exact ⟨_, rfl, agrees.release laws ok⟩
        next => cases eq

end Forq

theorem follows_forq (laws : env.FoundLaws) (kind : ForKind) (label : Option Nat) (id : Nat)
    {run : Run W} {exec : Exec W} (body : Follows env (⟨label, true⟩ :: scopes) run exec) :
    Follows env scopes (runForq env fuel kind label id run)
      (execStmtForq env fuel kind label id exec) where
  back rctx s fine := by
    unfold runForq Res.run at fine
    cases result : env.openPortal kind id s.w with
    | raise edata w => rw [result] at fine; exact fine
    | ok handle w =>
      rw [result] at fine
      exact loopN_fine (forqRound_back body) fuel (⟨s.set w, false⟩ : ForqRun W) fine
  agrees rctx s inside ok fine := by
    unfold runForq Res.run at fine ⊢
    unfold execStmtForq Res.exec execForQuery
    cases result : env.openPortal kind id s.w with
    | raise edata w => rfl
    | ok handle w =>
      rw [result] at fine
      exact loopN_agrees ForqRun.s ForqState.w ForqRel (ExecOut.mapDone (env.closePortal kind id handle))
        (fun _ => rfl) (fun _ _ rel => rel.world) (forqRound_back body)
        (forqRound_agrees laws body inside ok) fuel ⟨s.set w, false⟩ ⟨w, false⟩ ⟨rfl, rfl⟩ fine

/-- A FOREACH that ends with code OK has done all there was to do. -/
theorem follows_foreachA (exec : Exec W) : Follows env scopes (runForeachA exec) exec where
  back rctx s fine := by
    unfold runForeachA at fine
    cases result : exec s.w with
    | done rc w => rw [result] at fine; exact (Notes.fine_of_dropForeach fine).1
    | err edata w => rw [result] at fine; exact fine
    | spent w => rw [result] at fine; exact fine
  agrees rctx s _ _ fine := by
    unfold runForeachA at fine ⊢
    cases result : exec s.w with
    | done rc w =>
      rw [result] at fine
      obtain rfl : rc = .ok := by simpa using (Notes.fine_of_dropForeach fine).2
      rfl
    | err edata w => rfl
    | spent w => rfl

/-! ### The induction over statements -/

/-- The interpreter's clauses, as a list. -/
def Whens.execs (env : Env W) (fuel : Nat) (test : Option (Nat × Nat)) : Whens → List (Nat × Exec W)
  | .nil => []
  | .cons expr body rest =>
    (expr, execSeq (execClearTest env test) (body.exec env fuel)) :: rest.execs env fuel test

theorem Whens.exec_eq (test : Option (Nat × Nat)) (otherwise : Exec W) (ws : Whens) :
    ws.exec env fuel test otherwise = execClauses env otherwise (ws.execs env fuel test) := by
  match ws with
  | .nil => rfl
  | .cons expr body rest =>
    rw [Whens.exec, Whens.exec_eq test otherwise rest]
    rfl

/-- The interpreter's handlers, as a list. -/
def Exceptions.execs (env : Env W) (fuel : Nat) : Exceptions → List (List Condition × Exec W)
  | .nil => []
  | .cons conditions action rest => (conditions, action.exec env fuel) :: rest.execs env fuel

theorem Exceptions.exec_eq (es : Exceptions) :
    es.exec env fuel = execHandlers env (es.execs env fuel) := by
  match es with
  | .nil => rfl
  | .cons conditions action rest =>
    funext edata w
    rw [Exceptions.exec, Exceptions.exec_eq rest]
    rfl

mutual

theorem Stmt.run_follows (laws : env.FoundLaws) (st : Stmt) (scopes : List Scope)
    (resolves : st.resolves scopes = true) :
    Follows env scopes (st.run env (ignoreRc (interpretForeach env fuel)) fuel) (st.exec env fuel) := by
  cases st with
  | leaf id => exact follows_op (.leaf id)
  | block label initvars body =>
    exact follows_block label initvars (body.run_follows laws _ resolves)
  | blockExceptions label initvars body exceptions =>
    rw [Stmt.resolves, Bool.and_eq_true] at resolves
    rw [Stmt.run, Stmt.exec, Exceptions.exec_eq]
    exact follows_blockExceptions laws label initvars (body.run_follows laws _ resolves.1)
      (exceptions.run_follows laws _ resolves.2)
  | cond expr thenBody elsifs elseBody =>
    rw [Stmt.resolves, Bool.and_eq_true, Bool.and_eq_true] at resolves
    rw [Stmt.run, Stmt.exec, Whens.exec_eq]
    -- Without a test expression there is nothing to clear before a body runs.
    have clauses := elsifs.run_follows laws scopes none resolves.1.2
    have same : (elsifs.run env (ignoreRc (interpretForeach env fuel)) fuel).map
        (fun c => (c.1, runSeq (runClearTest env none) c.2)) =
        elsifs.run env (ignoreRc (interpretForeach env fuel)) fuel := List.map_id _
    rw [same] at clauses
    exact follows_when expr (thenBody.run_follows laws _ resolves.1.1)
      (follows_clauses clauses (elseBody.run_follows laws _ resolves.2))
  | case test whens haveElse elseStmts =>
    rw [Stmt.resolves, Bool.and_eq_true] at resolves
    rw [Stmt.run, Stmt.exec, Whens.exec_eq]
    exact (follows_caseTest test).seq (follows_clauses (whens.run_follows laws _ test resolves.1)
      (follows_caseElse test haveElse (elseStmts.run_follows laws _ resolves.2)))
  | condLoop label expr testAtTop body =>
    exact follows_condLoop laws label expr testAtTop (body.run_follows laws _ resolves)
  | loop label body => exact follows_loop laws label (body.run_follows laws _ resolves)
  | fori label var lower upper step reverse body =>
    exact follows_fori laws label var lower upper step reverse (body.run_follows laws _ resolves)
  | forq kind label id body => exact follows_forq laws kind label id (body.run_follows laws _ resolves)
  | foreachA label id body => exact follows_foreachA _
  | exit isExit label cond => exact follows_exit laws isExit label cond resolves
  | ret id => exact follows_return id

theorem Stmts.run_follows (laws : env.FoundLaws) (ss : Stmts) (scopes : List Scope)
    (resolves : ss.resolves scopes = true) :
    Follows env scopes (ss.run env (ignoreRc (interpretForeach env fuel)) fuel) (ss.exec env fuel) := by
  cases ss with
  | nil => exact follows_skip
  | cons head tail =>
    rw [Stmts.resolves, Bool.and_eq_true] at resolves
    exact (head.run_follows laws _ resolves.1).seq (tail.run_follows laws _ resolves.2)

theorem Whens.run_follows (laws : env.FoundLaws) (ws : Whens) (scopes : List Scope)
    (test : Option (Nat × Nat)) (resolves : ws.resolves scopes = true) :
    List.Forall₂ (FollowsClause env scopes)
      ((ws.run env (ignoreRc (interpretForeach env fuel)) fuel).map fun c =>
        (c.1, runSeq (runClearTest env test) c.2))
      (ws.execs env fuel test) := by
  cases ws with
  | nil => exact .nil
  | cons expr body rest =>
    rw [Whens.resolves, Bool.and_eq_true] at resolves
    exact .cons ⟨rfl, (follows_clearTest test).seq (body.run_follows laws _ resolves.1)⟩
      (rest.run_follows laws _ test resolves.2)

theorem Exceptions.run_follows (laws : env.FoundLaws) (es : Exceptions) (scopes : List Scope)
    (resolves : es.resolves scopes = true) :
    List.Forall₂ (FollowsHandler env scopes) (es.run env (ignoreRc (interpretForeach env fuel)) fuel)
      (es.execs env fuel) := by
  cases es with
  | nil => exact .nil
  | cons conditions action rest =>
    rw [Exceptions.resolves, Bool.and_eq_true] at resolves
    exact .cons ⟨rfl, action.run_follows laws _ resolves.1⟩ (rest.run_follows laws _ resolves.2)

end

end Uplpgsql
