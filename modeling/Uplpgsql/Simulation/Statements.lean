import Uplpgsql.Simulation.Leaving
import Uplpgsql.Machine

/-!
# The simulation, statement by statement

Each statement's structured meaning follows the interpreter's function for it,
given that its parts do.
-/

namespace Uplpgsql

open Lib.Iteration

variable {W : Type} {env : Env W} {fuel : Nat} {scopes : List Scope}

/-! ### Sequences and branches -/

theorem follows_op (op : Op) : Follows env scopes (runOp env op) (execOp env op) where
  back rctx s fine := by
    unfold runOp Res.run at fine
    cases result : env.call op s.w <;> rw [result] at fine <;> exact fine
  agrees rctx s _ _ _ := by
    unfold runOp execOp Res.run Res.exec
    cases env.call op s.w <;> rfl

theorem follows_skip : Follows env scopes (fun _ s => .next s) (fun w => .done .ok w) where
  back _ _ fine := fine
  agrees _ _ _ _ _ := rfl

theorem Follows.seq {run₁ run₂ : Run W} {exec₁ exec₂ : Exec W} (first : Follows env scopes run₁ exec₁)
    (second : Follows env scopes run₂ exec₂) :
    Follows env scopes (runSeq run₁ run₂) (execSeq exec₁ exec₂) where
  back rctx s fine := by
    refine first.back rctx s ?_
    unfold runSeq at fine
    cases result : run₁ rctx s with
    | next s₁ =>
      rw [result] at fine
      exact second.back rctx s₁ fine
    | _ => rw [result] at fine; exact fine
  agrees rctx s inside ok fine := by
    unfold runSeq at fine ⊢
    unfold execSeq
    have here := first.agrees rctx s inside ok
    cases result : run₁ rctx s with
    | next s₁ =>
      rw [result] at fine here
      rw [here (second.back rctx s₁ fine)]
      exact second.agrees rctx s₁ inside ok fine
    | jump isExit k s₁ =>
      rw [result] at fine here
      obtain ⟨label, w, eq, rest⟩ := here fine
      rw [eq]
      refine ⟨label, w, ?_, rest⟩
      cases isExit <;> rfl
    | ret s₁ =>
      rw [result] at fine here
      obtain ⟨w, eq, same⟩ := here fine
      rw [eq]
      exact ⟨w, rfl, same⟩
    | raise edata s₁ =>
      rw [result] at fine here
      rw [here fine]
      rfl
    | spent s₁ =>
      rw [result] at fine here
      rw [here fine]
      rfl

theorem follows_when (expr : Nat) {run₁ run₂ : Run W} {exec₁ exec₂ : Exec W}
    (matched : Follows env scopes run₁ exec₁) (rest : Follows env scopes run₂ exec₂) :
    Follows env scopes (runWhen env expr run₁ run₂) (execWhen env expr exec₁ exec₂) where
  back rctx s fine := by
    unfold runWhen Res.run at fine
    cases result : env.evalBool expr s.w with
    | raise edata w => rw [result] at fine; exact fine
    | ok value w =>
      rw [result] at fine
      dsimp only at fine
      split at fine
      · exact matched.back rctx (s.set w) fine
      · exact rest.back rctx (s.set w) fine
  agrees rctx s inside ok fine := by
    unfold runWhen Res.run at fine ⊢
    unfold execWhen Res.exec
    cases result : env.evalBool expr s.w with
    | raise edata w => rfl
    | ok value w =>
      rw [result] at fine
      dsimp only at fine ⊢
      by_cases truth : isTrue value = true
      · rw [if_pos truth] at fine ⊢
        rw [if_pos truth]
        exact matched.agrees rctx (s.set w) inside ok fine
      · rw [if_neg truth] at fine ⊢
        rw [if_neg truth]
        exact rest.agrees rctx (s.set w) inside ok fine

/-- A clause follows the clause it was compiled from. -/
structure FollowsClause (env : Env W) (scopes : List Scope) (run : Nat × Run W)
    (exec : Nat × Exec W) : Prop where
  expr : run.1 = exec.1
  body : Follows env scopes run.2 exec.2

/-- The clauses of the interpreter, one after the other. -/
def execClauses (env : Env W) (otherwise : Exec W) : List (Nat × Exec W) → Exec W
  | [] => otherwise
  | (expr, body) :: rest => execWhen env expr body (execClauses env otherwise rest)

theorem follows_clauses {runs : List (Nat × Run W)} {execs : List (Nat × Exec W)} {run : Run W}
    {exec : Exec W} (clauses : List.Forall₂ (FollowsClause env scopes) runs execs)
    (otherwise : Follows env scopes run exec) :
    Follows env scopes (runClauses env run runs) (execClauses env exec execs) := by
  induction clauses with
  | nil => exact otherwise
  | @cons run' exec' _ _ head _ ih =>
    obtain ⟨expr, body⟩ := run'
    obtain ⟨expr', body'⟩ := exec'
    obtain ⟨rfl, follows⟩ := head
    exact follows_when expr follows ih

theorem follows_clearTest (test : Option (Nat × Nat)) :
    Follows env scopes (runClearTest env test) (execClearTest env test) := by
  rcases test with _ | ⟨varno, expr⟩
  · exact follows_skip
  · exact follows_op (.assignNull varno)

theorem follows_caseTest (test : Option (Nat × Nat)) :
    Follows env scopes (runCaseTest env test) (execCaseTest env test) := by
  rcases test with _ | ⟨varno, expr⟩
  · exact follows_skip
  · exact follows_op (.caseAssignTest varno expr)

theorem follows_caseElse (test : Option (Nat × Nat)) (haveElse : Bool) {run : Run W} {exec : Exec W}
    (elseStmts : Follows env scopes run exec) :
    Follows env scopes (runSeq (runClearTest env test) (runCaseElse env haveElse run))
      (execCaseElse env test haveElse exec) := by
  refine (follows_clearTest test).seq ?_
  cases haveElse with
  | true => exact elseStmts
  | false => exact follows_op .caseError

/-! ### Jumps -/

theorem follows_takeJump (laws : env.FoundLaws) (isExit : Bool) (label : Option Nat)
    (resolves : jumpResolves scopes isExit label = true) :
    Follows env scopes (takeJump env isExit label) (fun w => .done (jumpRc isExit label) w) where
  back rctx s fine := by
    unfold takeJump at fine
    cases target : findTarget rctx.scopes label with
    | none => rw [target] at fine; exact fine
    | some k => rw [target] at fine; exact (Notes.fine_of_loseFound fine).1
  agrees rctx s inside ok fine := by
    obtain ⟨k, target, loops⟩ : ∃ k, findTarget rctx.scopes label = some k ∧
        (isExit = true ∨ (rctx.loops[k]?.map (·.isLoop)) = some true) := by
      unfold jumpResolves at resolves
      rw [← inside] at resolves
      cases target : findTarget rctx.scopes label with
      | none => simp [target] at resolves
      | some k =>
        refine ⟨k, rfl, ?_⟩
        have lt : k < rctx.loops.length := by simpa [RunCtx.scopes] using findTarget_lt target
        rw [target] at resolves
        simpa [RunCtx.scopes, lt, Enclosing.scope] using resolves
    unfold takeJump at fine ⊢
    rw [target] at fine ⊢
    refine ⟨label, s.w, rfl, target, loops, ?_⟩
    have kept := (Notes.fine_of_loseFound fine).2
    unfold losesFound at kept
    by_cases lands : isExit = true ∧ (rctx.loops[k]?.map (·.isFor)) = some true
    · exact .assigns lands.1 lands.2 fun b => rfl
    · refine .same rfl fun crosses => laws.keep s.w ?_
      have notLands : (isExit && (rctx.loops[k]?.map (·.isFor)).getD false) = false := by
        cases isExit with
        | false => rfl
        | true =>
          cases isFor : rctx.loops[k]?.map (·.isFor) with
          | none => rfl
          | some b => cases b <;> simp_all
      simpa [crosses, notLands] using kept

theorem follows_exit (laws : env.FoundLaws) (isExit : Bool) (label : Option Nat) (cond : Option Nat)
    (resolves : jumpResolves scopes isExit label = true) :
    Follows env scopes (runExit env isExit label cond) (execStmtExit env isExit label cond) := by
  cases cond with
  | none => exact follows_takeJump laws isExit label resolves
  | some expr => exact follows_when expr (follows_takeJump laws isExit label resolves) follows_skip

theorem follows_return (id : Nat) :
    Follows env scopes (runReturn env id) (execStmtReturn env id) where
  back rctx s fine := by
    unfold runReturn Res.run at fine
    cases result : env.call (.execReturn id) s.w <;> rw [result] at fine <;> exact fine
  agrees rctx s _ _ _ := by
    unfold runReturn execStmtReturn Res.run Res.exec
    cases env.call (.execReturn id) s.w with
    | ok value w => exact ⟨w, rfl, fun _ => rfl⟩
    | raise edata w => rfl

/-! ### Blocks -/

theorem follows_initVars (initvars : List Nat) :
    Follows env scopes (runInitVars env initvars) (execInitVars env initvars) := by
  induction initvars with
  | nil => exact follows_skip
  | cons dno rest ih => exact (follows_op (.initVar dno)).seq ih

/-- Initialising variables leaves no return code behind. -/
theorem execInitVars_rc {initvars : List Nat} {w w' : W} {rc : Rc}
    (done : execInitVars env initvars w = .done rc w') : rc = .ok := by
  induction initvars generalizing w with
  | nil =>
    cases done
    rfl
  | cons dno rest ih =>
    unfold execInitVars execSeq execOp Res.exec at done
    cases result : env.call (.initVar dno) w with
    | ok value w₁ =>
      rw [result] at done
      exact ih done
    | raise edata w₁ =>
      rw [result] at done
      cases done

theorem execInitVars_mapRc (initvars : List Nat) (body : Exec W) (f : Rc → Rc) (w : W) :
    (execSeq (execInitVars env initvars) body w).mapRc f =
      execSeq (execInitVars env initvars) (fun w => (body w).mapRc f) w := by
  unfold execSeq
  cases result : execInitVars env initvars w with
  | done rc w₁ =>
    obtain rfl := execInitVars_rc result
    rfl
  | err edata w₁ => rfl
  | spent w₁ => rfl

theorem follows_label (label : Option Nat) {run : Run W} {exec : Exec W}
    (body : Follows env (blockScope label scopes) run exec) :
    Follows env scopes (fun rctx s => leaveLabel label (run (rctx.pushLabel label) s))
      (fun w => (exec w).mapRc (blockRc label)) where
  back rctx s fine := by
    rw [leaveLabel_notes] at fine
    exact body.back _ s fine
  agrees rctx s inside ok fine := by
    rw [leaveLabel_notes] at fine
    exact (body.agrees _ s (by rw [RunCtx.pushLabel_scopes, inside]) (ok.pushLabel label)
      fine).leaveLabel

theorem follows_block (label : Option Nat) (initvars : List Nat) {run : Run W} {exec : Exec W}
    (body : Follows env (blockScope label scopes) run exec) :
    Follows env scopes (runBlock env label initvars run) (execStmtBlock env label initvars exec) := by
  have eq : execStmtBlock env label initvars exec =
      execSeq (execInitVars env initvars) (fun w => (exec w).mapRc (blockRc label)) :=
    funext fun w => execInitVars_mapRc initvars exec (blockRc label) w
  rw [eq]
  exact (follows_initVars initvars).seq (follows_label label body)

/-- A handler follows the one it was compiled from. -/
structure FollowsHandler (env : Env W) (scopes : List Scope) (run : List Condition × Run W)
    (exec : List Condition × Exec W) : Prop where
  conditions : run.1 = exec.1
  body : Follows env scopes run.2 exec.2

/-- The handlers of the interpreter, in source order. -/
def execHandlers (env : Env W) : List (List Condition × Exec W) → ErrorData → Exec W
  | [], edata => fun w => .err edata w
  | (conditions, action) :: rest, edata => fun w =>
    if exceptionMatchesConditions edata conditions then action (env.setHandlerVars edata w)
    else execHandlers env rest edata w

theorem follows_handlers (laws : env.FoundLaws) (label : Option Nat) (edata : ErrorData)
    {runs : List (List Condition × Run W)} {execs : List (List Condition × Exec W)}
    (handlers : List.Forall₂ (FollowsHandler env (blockScope label scopes)) runs execs) :
    Follows env scopes (runHandlers env label runs edata)
      (fun w => (execHandlers env execs edata w).mapRc (blockRc label)) := by
  induction handlers with
  | nil => exact ⟨fun _ _ fine => fine, fun _ _ _ _ _ => rfl⟩
  | @cons run exec runs execs head _ ih =>
    obtain ⟨conditions, action⟩ := run
    obtain ⟨conditions', action'⟩ := exec
    obtain ⟨rfl, follows⟩ := head
    have body := follows_label label follows
    constructor
    · intro rctx s fine
      unfold runHandlers at fine
      split at fine
      · exact body.back (rctx.pushCleanup .handlerDone) (s.map (env.setHandlerVars edata)) fine
      · exact ih.back rctx s fine
    · intro rctx s inside ok fine
      unfold runHandlers at fine ⊢
      unfold execHandlers
      split
      next matched =>
        rw [if_pos matched] at fine
        have agrees := body.agrees (rctx.pushCleanup .handlerDone)
          (s.map (env.setHandlerVars edata)) inside (ok.pushCleanup _) fine
        exact (agrees.release laws ok).of_handlerDone
      next other =>
        rw [if_neg other] at fine
        exact ih.agrees rctx s inside ok fine

/-- Initialisations that do not matter can be moved across the start of a
subtransaction. -/
theorem initVars_inert {initvars : List Nat} {w : W} (inert : env.initsInert initvars w = true) :
    ∃ w', execInitVars env initvars w = .done .ok w' ∧
      ∀ rctx notes, runInitVars env initvars rctx ⟨env.beginSub w, notes⟩ =
        .next ⟨env.beginSub w', notes⟩ := by
  induction initvars generalizing w with
  | nil => exact ⟨w, rfl, fun _ _ => rfl⟩
  | cons dno rest ih =>
    simp only [Env.initsInert, Bool.and_eq_true] at inert
    obtain ⟨w₁, outside, inside⟩ := env.inert_spec inert.1
    rw [outside] at inert
    obtain ⟨w', done, next⟩ := ih inert.2
    refine ⟨w', ?_, fun rctx notes => ?_⟩
    · simp only [execInitVars, execSeq, execOp, Env.call, outside, Res.exec]
      exact done
    · simp only [runInitVars, runSeq, runOp, Env.call, inside, Res.run, Out.andThen]
      exact next rctx notes

/-- The body of a block with handlers against the interpreter's, from the state
in which the subtransaction has begun. -/
theorem agrees_guarded (laws : env.FoundLaws) (label : Option Nat) {exec : Exec W}
    {runs : List (List Condition × Run W)} {execs : List (List Condition × Exec W)}
    (handlers : List.Forall₂ (FollowsHandler env (blockScope label scopes)) runs execs)
    {rctx : RunCtx} (inside : rctx.scopes = scopes) (ok : rctx.Ok) {out : Out W} {w : W}
    (agrees : Agrees env (rctx.pushCleanup .tryExit) out ((exec w).mapRc (blockRc label)))
    (fine : (match out with
      | .raise edata s => runHandlers env label runs edata rctx (s.map env.rollbackSub)
      | out => out.release env.releaseSub).state.notes.fine) :
    Agrees env rctx
      (match out with
      | .raise edata s => runHandlers env label runs edata rctx (s.map env.rollbackSub)
      | out => out.release env.releaseSub)
      (ExecOut.mapRc (blockRc label) (match exec w with
      | .done rc w => .done rc (env.releaseSub w)
      | .err edata w => execHandlers env execs edata (env.rollbackSub w)
      | .spent w => .spent w)) := by
  have released := agrees.release laws ok
  generalize exec w = x at agrees released ⊢
  cases x with
  | done rc w =>
    cases out with
    | raise edata s₁ => cases agrees
    | _ => exact released
  | err edata w =>
    cases out with
    | raise edata' s₁ =>
      cases agrees
      exact (follows_handlers laws label edata handlers).agrees rctx (s₁.map env.rollbackSub) inside
        ok fine
    | next s₁ => cases agrees
    | jump isExit k s₁ =>
      obtain ⟨_, _, eq, _⟩ := agrees
      cases eq
    | ret s₁ =>
      obtain ⟨_, eq, _⟩ := agrees
      cases eq
    | spent s₁ => cases agrees
  | spent w =>
    cases out with
    | raise edata s₁ => cases agrees
    | _ => exact released

theorem follows_blockExceptions (laws : env.FoundLaws) (label : Option Nat) (initvars : List Nat)
    {run : Run W} {exec : Exec W} {runs : List (List Condition × Run W)}
    {execs : List (List Condition × Exec W)}
    (body : Follows env (blockScope label scopes) run exec)
    (handlers : List.Forall₂ (FollowsHandler env (blockScope label scopes)) runs execs) :
    Follows env scopes (runBlockExceptions env label initvars run runs)
      (execStmtBlockExceptions env label initvars exec (execHandlers env execs)) := by
  have inner := follows_label label ((follows_initVars initvars).seq body)
  have back : ∀ rctx s, (runBlockExceptions env label initvars run runs rctx s).state.notes.fine →
      (leaveLabel label (runSeq (runInitVars env initvars) run
        ((rctx.pushCleanup .tryExit).pushLabel label)
        ((s.map env.beginSub).note (·.initLate !env.initsInert initvars s.w)))).state.notes.fine := by
    intro rctx s fine
    unfold runBlockExceptions at fine
    dsimp only at fine
    split at fine
    next edata s₁ eq =>
      rw [eq]
      exact (follows_handlers laws label edata handlers).back rctx (s₁.map env.rollbackSub) fine
    next => rwa [release_notes] at fine
  constructor
  · intro rctx s fine
    exact (Notes.fine_of_initLate (inner.back (rctx.pushCleanup .tryExit) _ (back rctx s fine))).1
  · intro rctx s inside ok fine
    have fineInner := back rctx s fine
    have early := (Notes.fine_of_initLate (inner.back (rctx.pushCleanup .tryExit) _ fineInner)).2
    obtain ⟨w', done, next⟩ := initVars_inert (by simpa using early)
    -- After the initialisations both sides are in the state `w'`, inside the subtransaction.
    have entered : runSeq (runInitVars env initvars) run
        ((rctx.pushCleanup .tryExit).pushLabel label)
        ((s.map env.beginSub).note (·.initLate !env.initsInert initvars s.w)) =
        run ((rctx.pushCleanup .tryExit).pushLabel label)
          ⟨env.beginSub w', s.notes.initLate !env.initsInert initvars s.w⟩ := by
      simp only [runSeq, RunState.map, RunState.note, next, Out.andThen]
    unfold runBlockExceptions at fine ⊢
    dsimp only at fine ⊢
    rw [entered] at fine fineInner ⊢
    have agrees := (follows_label label body).agrees (rctx.pushCleanup .tryExit) _ inside
      (ok.pushCleanup _) fineInner
    simp only [execStmtBlockExceptions, execSeq, done]
    exact agrees_guarded laws label handlers inside ok agrees fine

/-! ### Loops -/

/-- A round of a loop in which nothing has gone wrong by its end began so. -/
structure RoundBack {α : Type} (state : α → RunState W) (round : α → α ⊕ Out W) : Prop where
  again : ∀ a a', round a = .inl a' → (state a').notes.fine → (state a).notes.fine
  stop : ∀ a out, round a = .inr out → out.state.notes.fine → (state a).notes.fine

/-- A round of a loop and the interpreter's round from a related state. What the
interpreter still does once the loop is over is in `after`. -/
structure RoundAgrees (env : Env W) (rctx : RunCtx) {α β : Type} (state : α → RunState W)
    (Rel : α → β → Prop) (after : ExecOut W → ExecOut W) (round : α → α ⊕ Out W)
    (round' : β → β ⊕ ExecOut W) : Prop where
  again : ∀ a b a', Rel a b → round a = .inl a' → (state a').notes.fine →
    ∃ b', round' b = .inl b' ∧ Rel a' b'
  stop : ∀ a b out, Rel a b → round a = .inr out → out.state.notes.fine →
    ∃ x, round' b = .inr x ∧ Agrees env rctx out (after x)

theorem loopN_fine {α : Type} {state : α → RunState W} {round : α → α ⊕ Out W}
    (back : RoundBack state round) (n : Nat) (a : α)
    (fine : (loopN round (fun a => .spent (state a)) n a).state.notes.fine) :
    (state a).notes.fine := by
  refine loopN_back (fun r : Out W => r.state.notes.fine) (fun a => (state a).notes.fine) ?_
    (fun a => ?_) n a fine
  · exact fun _ fine => fine
  · split
    next a' eq => exact back.again a a' eq
    next out eq => exact back.stop a out eq

theorem loopN_agrees {α β : Type} (state : α → RunState W) (world : β → W) (Rel : α → β → Prop)
    (after : ExecOut W → ExecOut W) {round : α → α ⊕ Out W} {round' : β → β ⊕ ExecOut W}
    {rctx : RunCtx} (spent : ∀ w, after (.spent w) = .spent w)
    (worlds : ∀ a b, Rel a b → (state a).w = world b) (back : RoundBack state round)
    (agrees : RoundAgrees env rctx state Rel after round round') (n : Nat) (a : α) (b : β)
    (rel : Rel a b) (fine : (loopN round (fun a => .spent (state a)) n a).state.notes.fine) :
    Agrees env rctx (loopN round (fun a => .spent (state a)) n a)
      (after (loopN round' (fun b => .spent (world b)) n b)) := by
  refine loopN_related Rel (fun out x => Agrees env rctx out (after x))
    (fun out => out.state.notes.fine) (fun a => (state a).notes.fine) (loopN_fine back) ?_ ?_ n a b rel
    fine
  · intro a b rel _
    rw [spent, ← worlds a b rel]
    rfl
  · intro a b rel
    split
    next a' eq => exact agrees.again a b a' rel eq
    next out eq => exact agrees.stop a b out rel eq

section Body

variable {label : Option Nat} {run : Run W} {exec : Exec W} {exited : RunState W → Out W}
  {rctx : RunCtx} {isFor : Bool}

theorem back_body (body : Follows env (⟨label, true⟩ :: scopes) run exec)
    (keeps : ∀ s, (exited s).state.notes = s.notes) {s : RunState W} {r : RunState W ⊕ Out W}
    (eq : leaveBody exited (run (rctx.pushLoop label isFor) s) = r) (fine : (roundNotes r).fine) :
    s.notes.fine := by
  rw [← eq, leaveBody_notes keeps] at fine
  exact body.back _ s fine

/-- The body of a loop in both executions, on the way to another round. -/
theorem agrees_again (laws : env.FoundLaws) (body : Follows env (⟨label, true⟩ :: scopes) run exec)
    (inside : rctx.scopes = scopes) (ok : rctx.Ok) (keeps : ∀ s, (exited s).state.notes = s.notes)
    {s again : RunState W}
    (eq : leaveBody exited (run (rctx.pushLoop label isFor) s) = .inl again)
    (fine : again.notes.fine) : afterBody label (exec s.w) = .inl again.w := by
  have notes := leaveBody_notes keeps (run (rctx.pushLoop label isFor) s)
  rw [eq] at notes
  have agrees := (body.agrees (rctx.pushLoop label isFor) s
    (by rw [RunCtx.pushLoop_scopes, inside]) (ok.pushLoop label isFor) (notes ▸ fine)).leaveBody laws
    exited
  rwa [eq] at agrees

/-- The body of a loop in both executions, when the loop is over. -/
theorem agrees_stop (laws : env.FoundLaws) (body : Follows env (⟨label, true⟩ :: scopes) run exec)
    (inside : rctx.scopes = scopes) (ok : rctx.Ok) (keeps : ∀ s, (exited s).state.notes = s.notes)
    {s : RunState W} {stop : Out W}
    (eq : leaveBody exited (run (rctx.pushLoop label isFor) s) = .inr stop)
    (fine : stop.state.notes.fine) :
    (∃ s' w, stop = exited s' ∧ afterBody label (exec s.w) = .inr (.done .ok w) ∧
      SameUpTo env isFor s'.w w) ∨
    ((∀ s, stop ≠ .next s) ∧
      ∃ x, afterBody label (exec s.w) = .inr x ∧ Agrees env rctx stop (x.leaveFor env isFor)) := by
  have notes := leaveBody_notes keeps (run (rctx.pushLoop label isFor) s)
  rw [eq] at notes
  have agrees := (body.agrees (rctx.pushLoop label isFor) s
    (by rw [RunCtx.pushLoop_scopes, inside]) (ok.pushLoop label isFor) (notes ▸ fine)).leaveBody laws
    exited
  rwa [eq] at agrees

/-- The same for a loop that does not assign FOUND. -/
theorem agrees_plainStop (laws : env.FoundLaws)
    (body : Follows env (⟨label, true⟩ :: scopes) run exec) (inside : rctx.scopes = scopes)
    (ok : rctx.Ok) {s : RunState W} {stop : Out W}
    (eq : leaveBody .next (run (rctx.pushLoop label false) s) = .inr stop)
    (fine : stop.state.notes.fine) :
    ∃ x, afterBody label (exec s.w) = .inr x ∧ Agrees env rctx stop x := by
  rcases agrees_stop laws body inside ok (fun _ => rfl) eq fine with
    ⟨s', w, rfl, left, same⟩ | ⟨-, x, left, agrees⟩
  · obtain same | ⟨isFor, -⟩ := same
    · exact ⟨_, left, by rw [← same]; rfl⟩
    · cases isFor
  · exact ⟨x, left, agrees⟩

end Body

theorem follows_loop (laws : env.FoundLaws) (label : Option Nat) {run : Run W} {exec : Exec W}
    (body : Follows env (⟨label, true⟩ :: scopes) run exec) :
    Follows env scopes (runLoop fuel label run) (execStmtLoop fuel label exec) := by
  have back (rctx : RunCtx) :
      RoundBack id fun s => leaveBody .next (run (rctx.pushLoop label false) s) :=
    ⟨fun _ _ eq => back_body body (fun _ => rfl) eq, fun _ _ eq => back_body body (fun _ => rfl) eq⟩
  constructor
  · exact fun rctx s fine => loopN_fine (back rctx) fuel s fine
  · intro rctx s inside ok fine
    refine loopN_agrees id id (fun s w => s.w = w) id (fun _ => rfl) (fun _ _ rel => rel) (back rctx) ?_
      fuel s s.w rfl fine
    constructor
    · rintro s₁ _ again rfl eq fine
      exact ⟨_, agrees_again laws body inside ok (fun _ => rfl) eq fine, rfl⟩
    · rintro s₁ _ stop rfl eq fine
      exact agrees_plainStop laws body inside ok eq fine

/-- The interpreter's round of a WHILE loop. -/
def execWhileRound (env : Env W) (label : Option Nat) (expr : Nat) (body : Exec W) (w : W) :
    W ⊕ ExecOut W :=
  match env.evalBool expr w with
  | .raise edata w => .inr (.err edata w)
  | .ok value w => if isTrue value then afterBody label (body w) else .inr (.done .ok w)

/-- The interpreter's round of a REPEAT loop. -/
def execRepeatRound (env : Env W) (label : Option Nat) (expr : Nat) (body : Exec W) (w : W) :
    W ⊕ ExecOut W :=
  match afterBody label (body w) with
  | .inr out => .inr out
  | .inl w =>
    match env.evalBool expr w with
    | .raise edata w => .inr (.err edata w)
    | .ok value w => if isTrue value then .inr (.done .ok w) else .inl w

section Cond

variable {label : Option Nat} {run : Run W} {exec : Exec W} {rctx : RunCtx}

theorem whileRound_back (expr : Nat) (body : Follows env (⟨label, true⟩ :: scopes) run exec) :
    RoundBack id (runWhileRound env label expr run rctx) := by
  have back : ∀ s r, runWhileRound env label expr run rctx s = r → (roundNotes r).fine →
      s.notes.fine := by
    rintro s r rfl fine
    unfold runWhileRound at fine
    split at fine
    next => exact fine
    next value w _ =>
      split at fine
      · exact back_body (s := s.set w) body (fun _ => rfl) rfl fine
      · exact fine
  exact ⟨fun a _ eq => back a _ eq, fun a _ eq => back a _ eq⟩

theorem whileRound_agrees (laws : env.FoundLaws) (expr : Nat)
    (body : Follows env (⟨label, true⟩ :: scopes) run exec) (inside : rctx.scopes = scopes)
    (ok : rctx.Ok) :
    RoundAgrees env rctx id (fun s w => s.w = w) id (runWhileRound env label expr run rctx)
      (execWhileRound env label expr exec) := by
  constructor
  · rintro s _ again rfl eq fine
    unfold runWhileRound at eq
    unfold execWhileRound
    cases result : env.evalBool expr s.w with
    | raise edata w => simp [result] at eq
    | ok value w =>
      by_cases truth : isTrue value = true
      · simp only [result, truth, if_true] at eq ⊢
        exact ⟨_, agrees_again (s := s.set w) laws body inside ok (fun _ => rfl) eq fine, rfl⟩
      · simp [result, truth] at eq
  · rintro s _ stop rfl eq fine
    unfold runWhileRound at eq
    unfold execWhileRound
    cases result : env.evalBool expr s.w with
    | raise edata w =>
      simp only [result, Sum.inr.injEq] at eq
      subst eq
      exact ⟨_, rfl, rfl⟩
    | ok value w =>
      by_cases truth : isTrue value = true
      · simp only [result, truth, if_true] at eq ⊢
        exact agrees_plainStop (s := s.set w) laws body inside ok eq fine
      · simp only [result, truth, Bool.false_eq_true, if_false, Sum.inr.injEq] at eq ⊢
        subst eq
        exact ⟨_, rfl, rfl⟩

theorem repeatRound_back (expr : Nat) (body : Follows env (⟨label, true⟩ :: scopes) run exec) :
    RoundBack id (runRepeatRound env label expr run rctx) := by
  have back : ∀ s r, runRepeatRound env label expr run rctx s = r → (roundNotes r).fine →
      s.notes.fine := by
    rintro s r rfl fine
    unfold runRepeatRound at fine
    split at fine
    next out eq => exact back_body body (fun _ => rfl) eq fine
    next s₁ eq =>
      refine back_body body (fun _ => rfl) eq ?_
      split at fine
      next => exact fine
      next => split at fine <;> exact fine
  exact ⟨fun a _ eq => back a _ eq, fun a _ eq => back a _ eq⟩

theorem repeatRound_agrees (laws : env.FoundLaws) (expr : Nat)
    (body : Follows env (⟨label, true⟩ :: scopes) run exec) (inside : rctx.scopes = scopes)
    (ok : rctx.Ok) :
    RoundAgrees env rctx id (fun s w => s.w = w) id (runRepeatRound env label expr run rctx)
      (execRepeatRound env label expr exec) := by
  constructor
  · rintro s _ again rfl eq fine
    unfold runRepeatRound at eq
    unfold execRepeatRound
    cases ended : leaveBody .next (run (rctx.pushLoop label false) s) with
    | inr out => simp [ended] at eq
    | inl s₁ =>
      cases result : env.evalBool expr s₁.w with
      | raise edata w => simp [ended, result] at eq
      | ok value w =>
        by_cases truth : isTrue value = true
        · simp [ended, result, truth] at eq
        · simp only [ended, result, truth, Bool.false_eq_true, if_false, Sum.inl.injEq] at eq
          subst eq
          have left := agrees_again laws body inside ok (fun _ => rfl) ended fine
          simp only [left, result, truth, Bool.false_eq_true, if_false]
          exact ⟨_, rfl, rfl⟩
  · rintro s _ stop rfl eq fine
    unfold runRepeatRound at eq
    unfold execRepeatRound
    cases ended : leaveBody .next (run (rctx.pushLoop label false) s) with
    | inr out =>
      simp only [ended, Sum.inr.injEq] at eq
      subst eq
      obtain ⟨x, left, agrees⟩ := agrees_plainStop laws body inside ok ended fine
      simp only [left]
      exact ⟨x, rfl, agrees⟩
    | inl s₁ =>
      cases result : env.evalBool expr s₁.w with
      | raise edata w =>
        simp only [ended, result, Sum.inr.injEq] at eq
        subst eq
        have left := agrees_again laws body inside ok (fun _ => rfl) ended fine
        simp only [left, result]
        exact ⟨_, rfl, rfl⟩
      | ok value w =>
        by_cases truth : isTrue value = true
        · simp only [ended, result, truth, if_true, Sum.inr.injEq] at eq
          subst eq
          have left := agrees_again laws body inside ok (fun _ => rfl) ended fine
          simp only [left, result, truth, if_true]
          exact ⟨_, rfl, rfl⟩
        · simp [ended, result, truth] at eq

end Cond

theorem follows_condLoop (laws : env.FoundLaws) (label : Option Nat) (expr : Nat) (testAtTop : Bool)
    {run : Run W} {exec : Exec W} (body : Follows env (⟨label, true⟩ :: scopes) run exec) :
    Follows env scopes (runCondLoop env fuel label expr testAtTop run)
      (execStmtWhile env fuel label expr testAtTop exec) := by
  cases testAtTop with
  | true =>
    constructor
    · exact fun rctx s fine => loopN_fine (whileRound_back expr body) fuel s fine
    · intro rctx s inside ok fine
      exact loopN_agrees id id (fun s w => s.w = w) id (fun _ => rfl) (fun _ _ rel => rel)
        (whileRound_back expr body) (whileRound_agrees laws expr body inside ok) fuel s s.w rfl fine
  | false =>
    constructor
    · exact fun rctx s fine => loopN_fine (repeatRound_back expr body) fuel s fine
    · intro rctx s inside ok fine
      exact loopN_agrees id id (fun s w => s.w = w) id (fun _ => rfl) (fun _ _ rel => rel)
        (repeatRound_back expr body) (repeatRound_agrees laws expr body inside ok) fuel s s.w rfl fine

end Uplpgsql
