import Uplpgsql.Simulation.Leaving

/-!
# What a run can note

A statement tree without FOREACH drops no return code, and one without handlers
initialises no variable late. What is shown here holds for any relation between
the notes before and after that the single notes respect.
-/

namespace Uplpgsql

open Lib.Iteration

variable {W : Type}

/-- A relation between earlier and later notes that every note of a run of the
fragment respects. -/
structure NotesRel (env : Env W) (f : Features) (R : Notes → Notes → Prop) : Prop where
  refl : ∀ n, R n n
  trans : ∀ {a b c}, R a b → R b c → R a c
  bound : ∀ n b, R n (n.boundBad b)
  found : ∀ n loops isExit k w, R n (n.loseFound (losesFound env loops isExit k w))
  late : f.handlers = true → ∀ n b, R n (n.initLate b)
  drop : f.foreach = true → ∀ n b, R n (n.dropForeach b)

/-- A run whose notes stay in the relation. -/
def Notes.Along (R : Notes → Notes → Prop) (run : Run W) : Prop :=
  ∀ rctx s, R s.notes (run rctx s).state.notes

variable {env : Env W} {f : Features} {R : Notes → Notes → Prop} {fuel : Nat}

theorem Notes.Along.label {run : Run W} (body : Notes.Along R run) (label : Option Nat) :
    Notes.Along R fun rctx s => leaveLabel label (run (rctx.pushLabel label) s) := by
  intro rctx s
  dsimp only
  rw [leaveLabel_notes]
  exact body _ s

theorem Notes.Along.body {run : Run W} (body : Notes.Along R run) (label : Option Nat) (isFor : Bool)
    {exited : RunState W → Out W} (keeps : ∀ s, (exited s).state.notes = s.notes) (rctx : RunCtx)
    (s : RunState W) {r : RunState W ⊕ Out W}
    (eq : leaveBody exited (run (rctx.pushLoop label isFor) s) = r) : R s.notes (roundNotes r) := by
  rw [← eq, leaveBody_notes keeps]
  exact body _ s

theorem Notes.Along.loopRound {run : Run W} (body : Notes.Along R run) (label : Option Nat)
    (rctx : RunCtx) (s : RunState W) :
    R s.notes (roundNotes ((leaveBody Out.next (run (rctx.pushLoop label false) s)).map id id)) := by
  rw [Sum.map_id_id, id]
  exact body.body label false (fun _ => rfl) rctx s rfl

theorem Notes.Along.repeatRound {run : Run W} (body : Notes.Along R run) (label : Option Nat)
    (expr : Nat) (rctx : RunCtx) (s : RunState W) :
    R s.notes (roundNotes ((runRepeatRound env label expr run rctx s).map id id)) := by
  rw [Sum.map_id_id, id]
  unfold runRepeatRound
  split
  next out eq => exact body.body label false (fun _ => rfl) rctx s eq
  next s₁ eq =>
    have here := body.body label false (fun _ => rfl) rctx s eq
    split
    next => exact here
    next => split <;> exact here

namespace NotesRel

variable (rel : NotesRel env f R) {run₁ run₂ : Run W}
include rel

theorem op (op : Op) : Notes.Along R (runOp env op) := by
  intro rctx s
  unfold runOp Res.run
  split <;> exact rel.refl _

theorem seq (first : Notes.Along R run₁) (second : Notes.Along R run₂) :
    Notes.Along R (runSeq run₁ run₂) := by
  intro rctx s
  have here := first rctx s
  unfold runSeq
  cases result : run₁ rctx s with
  | next s₁ =>
    rw [result] at here
    exact rel.trans here (second rctx s₁)
  | _ => rw [result] at here; exact here

theorem when (expr : Nat) (matched : Notes.Along R run₁) (rest : Notes.Along R run₂) :
    Notes.Along R (runWhen env expr run₁ run₂) := by
  intro rctx s
  unfold runWhen Res.run
  split
  next value w _ =>
    dsimp only
    split
    · exact matched rctx (s.set w)
    · exact rest rctx (s.set w)
  next => exact rel.refl _

theorem clauses {runs : List (Nat × Run W)} (bodies : ∀ c ∈ runs, Notes.Along R c.2)
    (otherwise : Notes.Along R run₁) : Notes.Along R (runClauses env run₁ runs) := by
  induction runs with
  | nil => exact otherwise
  | cons c rest ih =>
    exact rel.when c.1 (bodies c (by simp)) (ih fun c' member => bodies c' (by simp [member]))

theorem clearTest (test : Option (Nat × Nat)) : Notes.Along R (runClearTest env test) := by
  rcases test with _ | ⟨varno, expr⟩
  · exact fun _ s => rel.refl s.notes
  · exact rel.op (.assignNull varno)

theorem initVars (initvars : List Nat) : Notes.Along R (runInitVars env initvars) := by
  induction initvars with
  | nil => exact fun _ s => rel.refl s.notes
  | cons dno rest ih => exact rel.seq (rel.op (.initVar dno)) ih

theorem caseClauses (test : Option (Nat × Nat)) (haveElse : Bool) {runs : List (Nat × Run W)}
    (bodies : ∀ c ∈ runs, Notes.Along R c.2) (otherwise : Notes.Along R run₁) :
    Notes.Along R (runClauses env (runSeq (runClearTest env test) (runCaseElse env haveElse run₁))
      (runs.map fun c => (c.1, runSeq (runClearTest env test) c.2))) := by
  refine rel.clauses ?_ (rel.seq (rel.clearTest test) ?_)
  · intro c member
    obtain ⟨c', inside, rfl⟩ := List.mem_map.mp member
    exact rel.seq (rel.clearTest test) (bodies c' inside)
  · cases haveElse with
    | true => exact otherwise
    | false => exact rel.op .caseError

theorem case (test : Option (Nat × Nat)) (haveElse : Bool) {runs : List (Nat × Run W)}
    (bodies : ∀ c ∈ runs, Notes.Along R c.2) (otherwise : Notes.Along R run₁) :
    Notes.Along R (runCase env test runs haveElse run₁) := by
  have caseTest : Notes.Along R (runCaseTest env test) := by
    rcases test with _ | ⟨varno, expr⟩
    · exact fun _ s => rel.refl s.notes
    · exact rel.op (.caseAssignTest varno expr)
  exact rel.seq caseTest (rel.caseClauses test haveElse bodies otherwise)

theorem exit (isExit : Bool) (label cond : Option Nat) :
    Notes.Along R (runExit env isExit label cond) := by
  have jumps : Notes.Along R (takeJump env isExit label) := by
    intro rctx s
    unfold takeJump
    split
    · exact rel.refl _
    · exact rel.found _ _ _ _ _
  cases cond with
  | none => exact jumps
  | some expr => exact rel.when expr jumps fun _ s => rel.refl s.notes

theorem ret (id : Nat) : Notes.Along R (runReturn env id) := by
  intro rctx s
  unfold runReturn Res.run
  split <;> exact rel.refl _

theorem handlers (label : Option Nat) (edata : ErrorData) {runs : List (List Condition × Run W)}
    (actions : ∀ h ∈ runs, Notes.Along R h.2) : Notes.Along R (runHandlers env label runs edata) := by
  induction runs with
  | nil => exact fun _ s => rel.refl s.notes
  | cons h rest ih =>
    intro rctx s
    unfold runHandlers
    split
    · exact (actions h (by simp)).label label (rctx.pushCleanup .handlerDone)
        (s.map (env.setHandlerVars edata))
    · exact ih (fun h' member => actions h' (by simp [member])) rctx s

theorem blockExceptions (allowed : f.handlers = true) (label : Option Nat) (initvars : List Nat)
    {runs : List (List Condition × Run W)} (body : Notes.Along R run₁)
    (actions : ∀ h ∈ runs, Notes.Along R h.2) :
    Notes.Along R (runBlockExceptions env label initvars run₁ runs) := by
  intro rctx s
  have inner := rel.trans (rel.late allowed s.notes (!env.initsInert initvars s.w))
    ((rel.seq (rel.initVars initvars) body).label label (rctx.pushCleanup .tryExit)
      ((s.map env.beginSub).note (·.initLate !env.initsInert initvars s.w)))
  unfold runBlockExceptions
  dsimp only at inner ⊢
  split
  next edata s₁ eq =>
    rw [eq] at inner
    exact rel.trans inner (rel.handlers label edata actions rctx (s₁.map env.rollbackSub))
  next => rwa [release_notes]

/-- A loop stays in the relation if each of its rounds does. -/
theorem loopN {α : Type} (state : α → RunState W) {round : α → α ⊕ Out W} {n : Notes}
    (each : ∀ a, R (state a).notes (roundNotes ((round a).map state id))) (count : Nat) (a : α)
    (start : R n (state a).notes) :
    R n (loopN round (fun a => .spent (state a)) count a).state.notes := by
  refine loopN_invariant (fun a => R n (state a).notes) (fun out : Out W => R n out.state.notes) ?_
    (fun a here => ?_) count a start
  · exact fun _ here => here
  · have next := rel.trans here (each a)
    split
    next a' eq => rwa [eq] at next
    next out eq => rwa [eq] at next

variable (label : Option Nat) (body : Notes.Along R run₁)
include body

theorem loop : Notes.Along R (runLoop fuel label run₁) :=
  fun rctx s => rel.loopN id (body.loopRound label rctx) fuel s (rel.refl _)

theorem whileRound (expr : Nat) (rctx : RunCtx) (s : RunState W) :
    R s.notes (roundNotes ((runWhileRound env label expr run₁ rctx s).map id id)) := by
  rw [Sum.map_id_id, id]
  unfold runWhileRound
  split
  next => exact rel.refl _
  next value w _ =>
    split
    · exact body.body label false (fun _ => rfl) rctx (s.set w) rfl
    · exact rel.refl _

theorem condLoop (expr : Nat) (testAtTop : Bool) :
    Notes.Along R (runCondLoop env fuel label expr testAtTop run₁) := by
  intro rctx s
  cases testAtTop with
  | true => exact rel.loopN id (rel.whileRound label body expr rctx) fuel s (rel.refl _)
  | false => exact rel.loopN id (body.repeatRound label expr rctx) fuel s (rel.refl _)

theorem foriRound (var : Nat) (upper step : BitVec 32) (reverse : Bool) (rctx : RunCtx)
    (r : ForiRun W) :
    R r.s.notes (roundNotes
      ((runForiRound env label var upper step reverse run₁ rctx r).map ForiRun.s id)) := by
  unfold runForiRound
  split
  next => exact rel.refl _
  next =>
    split
    next => exact rel.refl _
    next w _ =>
      split
      next out eq => exact body.body label true (fun _ => rfl) rctx (r.s.set w) eq
      next s₁ eq =>
        have here := body.body label true (fun _ => rfl) rctx (r.s.set w) eq
        split <;> exact here

theorem fori (var lower upper : Nat) (step : Option Nat) (reverse : Bool) :
    Notes.Along R (runFori env fuel label var lower upper step reverse run₁) := by
  have bound : ∀ (expr : Nat) (s : RunState W) (next : BitVec 32 → RunState W → Out W),
      (∀ v s', R s.notes s'.notes → R s.notes (next v s').state.notes) →
      R s.notes (runBound env expr s next).state.notes := by
    intro expr s next rest
    unfold runBound Res.run
    split
    next value w _ =>
      cases value with
      | none => exact rel.bound _ _
      | some v => exact rest v _ (rel.refl _)
    next => exact rel.refl _
  intro rctx s
  refine bound lower s _ fun lo s₁ r₁ => rel.trans r₁ (bound upper s₁ _ fun hi s₂ r₂ =>
    rel.trans r₂ ?_)
  have loops (by' : BitVec 32) (s₃ : RunState W) (r₃ : R s₂.notes s₃.notes) :
      R s₂.notes (Lib.Iteration.loopN (runForiRound env label var hi by' reverse run₁ rctx)
        (fun r => .spent r.s) fuel ⟨s₃, lo, false⟩).state.notes :=
    rel.loopN ForiRun.s (rel.foriRound label body var hi by' reverse rctx) fuel _ r₃
  cases step with
  | none => exact loops 1 s₂ (rel.refl _)
  | some expr =>
    exact bound expr s₂ _ fun v s₃ r₃ => loops v _ (rel.trans r₃ (rel.bound _ _))

theorem forqRound (kind : ForKind) (qid handle : Nat) (rctx : RunCtx) (r : ForqRun W) :
    R r.s.notes (roundNotes
      ((runForqRound env kind label qid handle run₁ rctx r).map ForqRun.s id)) := by
  unfold runForqRound
  dsimp only
  split
  next => exact rel.refl _
  next => exact rel.refl _
  next w _ =>
    have inner {exited : RunState W → Out W} {next : RunState W ⊕ Out W}
        (keeps : ∀ s, (exited s).state.notes = s.notes)
        (eq : leaveBody exited (run₁ ((rctx.pushCleanup (.closePortal kind qid handle)).pushLoop
          label true) (r.s.set w)) = next) : R r.s.notes (roundNotes next) :=
      body.body label true keeps _ (r.s.set w) eq
    split
    next s₁ eq =>
      have here : R r.s.notes s₁.notes := inner (fun _ => rfl) eq
      exact here
    next out _ eq => exact inner (fun _ => rfl) eq
    next s₁ eq => exact inner (fun _ => rfl) eq

theorem forq (kind : ForKind) (id : Nat) : Notes.Along R (runForq env fuel kind label id run₁) := by
  intro rctx s
  unfold runForq Res.run
  split
  next handle w _ =>
    exact rel.loopN ForqRun.s (rel.forqRound label body kind id handle rctx) fuel ⟨s.set w, false⟩
      (rel.refl _)
  next => exact rel.refl _

end NotesRel

/-! ### The induction over statements -/

variable {delegate : Option Nat → Nat → Stmts → Exec W}

mutual

theorem Stmt.run_notes (rel : NotesRel env f R) (st : Stmt) (within : st.within f = true) :
    Notes.Along R (st.run env (ignoreRc delegate) fuel) := by
  cases st with
  | leaf id => exact rel.op (.leaf id)
  | block label initvars body =>
    exact rel.seq (rel.initVars initvars) ((body.run_notes rel within).label label)
  | blockExceptions label initvars body exceptions =>
    rw [Stmt.within, Bool.and_eq_true, Bool.and_eq_true] at within
    exact rel.blockExceptions within.1.1 label initvars (body.run_notes rel within.1.2)
      (exceptions.run_notes rel within.2)
  | cond expr thenBody elsifs elseBody =>
    rw [Stmt.within, Bool.and_eq_true, Bool.and_eq_true] at within
    exact rel.when expr (thenBody.run_notes rel within.1.1)
      (rel.clauses (elsifs.run_notes rel within.1.2) (elseBody.run_notes rel within.2))
  | case test whens haveElse elseStmts =>
    rw [Stmt.within, Bool.and_eq_true] at within
    exact rel.case test haveElse (whens.run_notes rel within.1) (elseStmts.run_notes rel within.2)
  | condLoop label expr testAtTop body =>
    exact rel.condLoop label (body.run_notes rel within) expr testAtTop
  | loop label body => exact rel.loop label (body.run_notes rel within)
  | fori label var lower upper step reverse body =>
    exact rel.fori label (body.run_notes rel within) var lower upper step reverse
  | forq kind label id body =>
    rw [Stmt.within, Bool.and_eq_true] at within
    exact rel.forq label (body.run_notes rel within.2) kind id
  | foreachA label id body =>
    rw [Stmt.within, Bool.and_eq_true] at within
    intro rctx s
    unfold Stmt.run ignoreRc runForeachA
    split
    next => exact rel.drop within.1 _ _
    next => exact rel.refl _
    next => exact rel.refl _
  | exit isExit label cond => exact rel.exit isExit label cond
  | ret id => exact rel.ret id

theorem Stmts.run_notes (rel : NotesRel env f R) (ss : Stmts) (within : ss.within f = true) :
    Notes.Along R (ss.run env (ignoreRc delegate) fuel) := by
  cases ss with
  | nil => exact fun _ s => rel.refl s.notes
  | cons head tail =>
    rw [Stmts.within, Bool.and_eq_true] at within
    exact rel.seq (head.run_notes rel within.1) (tail.run_notes rel within.2)

theorem Whens.run_notes (rel : NotesRel env f R) (ws : Whens) (within : ws.within f = true) :
    ∀ c ∈ ws.run env (ignoreRc delegate) fuel, Notes.Along R c.2 := by
  cases ws with
  | nil => exact fun _ member => nomatch member
  | cons expr body rest =>
    rw [Whens.within, Bool.and_eq_true] at within
    intro c member
    rcases List.mem_cons.mp member with rfl | inside
    · exact body.run_notes rel within.1
    · exact rest.run_notes rel within.2 c inside

theorem Exceptions.run_notes (rel : NotesRel env f R) (es : Exceptions)
    (within : es.within f = true) : ∀ h ∈ es.run env (ignoreRc delegate) fuel, Notes.Along R h.2 := by
  cases es with
  | nil => exact fun _ member => nomatch member
  | cons conditions action rest =>
    rw [Exceptions.within, Bool.and_eq_true] at within
    intro h member
    rcases List.mem_cons.mp member with rfl | inside
    · exact action.run_notes rel within.1
    · exact rest.run_notes rel within.2 h inside

end

end Uplpgsql
