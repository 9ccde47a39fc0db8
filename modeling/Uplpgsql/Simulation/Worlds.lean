import Uplpgsql.Structured

/-!
# What a run keeps of the world

A relation between earlier and later worlds that every single action of the
environment respects holds between the ends of every run. What the leaf
statements and the declarations do is left open: they only have to respect the
relation where they occur in the tree.
-/

namespace Uplpgsql

open Lib.Iteration

variable {W : Type}

mutual

/-- Every leaf statement and every declared variable of the tree passes its
test. The body of a FOREACH is not compiled and not looked at. -/
def Stmt.everywhere (leaf init : Nat → Bool) : Stmt → Bool
  | .leaf id => leaf id
  | .block _ initvars body => initvars.all init && body.everywhere leaf init
  | .blockExceptions _ initvars body exceptions =>
    initvars.all init && body.everywhere leaf init && exceptions.everywhere leaf init
  | .cond _ thenBody elsifs elseBody =>
    thenBody.everywhere leaf init && elsifs.everywhere leaf init && elseBody.everywhere leaf init
  | .case _ whens _ elseStmts => whens.everywhere leaf init && elseStmts.everywhere leaf init
  | .condLoop _ _ _ body => body.everywhere leaf init
  | .loop _ body => body.everywhere leaf init
  | .fori _ _ _ _ _ _ body => body.everywhere leaf init
  | .forq _ _ _ body => body.everywhere leaf init
  | .foreachA _ _ _ => true
  | .exit _ _ _ => true
  | .ret _ => true

def Stmts.everywhere (leaf init : Nat → Bool) : Stmts → Bool
  | .nil => true
  | .cons head tail => head.everywhere leaf init && tail.everywhere leaf init

def Whens.everywhere (leaf init : Nat → Bool) : Whens → Bool
  | .nil => true
  | .cons _ body rest => body.everywhere leaf init && rest.everywhere leaf init

def Exceptions.everywhere (leaf init : Nat → Bool) : Exceptions → Bool
  | .nil => true
  | .cons _ action rest => action.everywhere leaf init && rest.everywhere leaf init

end

/-- A relation between an earlier and a later world that holds across every
action other than leaf statements and declarations. -/
structure WorldRel (env : Env W) (R : W → W → Prop) : Prop where
  refl : ∀ w, R w w
  trans : ∀ {a b c}, R a b → R b c → R a c
  caseAssignTest : ∀ varno expr w, R w (env.caseAssignTest varno expr w).world
  assignNull : ∀ dno w, R w (env.assignNull dno w)
  execReturn : ∀ id w, R w (env.execReturn id w).world
  evalBool : ∀ expr w, R w (env.evalBool expr w).world
  evalInt : ∀ expr w, R w (env.evalInt expr w).world
  assignInt : ∀ dno v w, R w (env.assignInt dno v w).world
  setFound : ∀ b w, R w (env.setFound b w)
  openPortal : ∀ kind id w, R w (env.openPortal kind id w).world
  fetchRow : ∀ kind id handle w, R w (env.fetchRow kind id handle w).world
  closePortal : ∀ kind id handle w, R w (env.closePortal kind id handle w)
  beginSub : ∀ w, R w (env.beginSub w)
  releaseSub : ∀ w, R w (env.releaseSub w)
  rollbackSub : ∀ w, R w (env.rollbackSub w)
  setHandlerVars : ∀ edata w, R w (env.setHandlerVars edata w)

/-- The worlds before and after every run are related. -/
def Run.Keeps (R : W → W → Prop) (run : Run W) : Prop :=
  ∀ rctx s, R s.w (run rctx s).state.w

/-- The world at the end of a round. -/
def roundWorld : RunState W ⊕ Out W → W
  | .inl s => s.w
  | .inr out => out.state.w

theorem leaveLabel_world (label : Option Nat) (out : Out W) :
    (leaveLabel label out).state.w = out.state.w := by
  cases label with
  | none => rfl
  | some l =>
    cases out with
    | jump isExit k s => cases k <;> rfl
    | _ => rfl

variable {env : Env W} {R : W → W → Prop} {fuel : Nat}

theorem Run.Keeps.label {run : Run W} (body : run.Keeps R) (label : Option Nat) :
    Run.Keeps R fun rctx s => leaveLabel label (run (rctx.pushLabel label) s) := by
  intro rctx s
  dsimp only
  rw [leaveLabel_world]
  exact body _ s

/-- Code that runs an action and goes on from where it ended. -/
theorem Res.run_keeps {α : Type} {r : Res W α} {s : RunState W} {next : α → RunState W → Out W}
    {w : W} (acts : R w r.world)
    (rest : ∀ value w', R w w' → R w (next value (s.set w')).state.w) :
    R w (r.run s next).state.w := by
  cases r with
  | ok value w' => exact rest value w' acts
  | raise edata w' => exact acts

theorem runOp_keeps (env : Env W) (op : Op) (acts : ∀ w, R w (env.call op w).world) :
    Run.Keeps R (runOp env op) :=
  fun _ s => Res.run_keeps (acts s.w) fun _ _ here => here

namespace WorldRel

variable (rel : WorldRel env R) {run₁ run₂ : Run W}
include rel

theorem release (release : Release) (w : W) : R w (release.run env w) := by
  cases release with
  | tryExit => exact rel.releaseSub w
  | handlerDone => exact rel.refl w
  | closePortal kind id handle => exact rel.closePortal kind id handle w

theorem releaseAll (releases : List Release) (w : W) : R w (releaseAll env releases w) := by
  induction releases generalizing w with
  | nil => exact rel.refl w
  | cons release rest ih => exact rel.trans (rel.release release w) (ih (release.run env w))

theorem seq (first : run₁.Keeps R) (second : run₂.Keeps R) : Run.Keeps R (runSeq run₁ run₂) := by
  intro rctx s
  have here := first rctx s
  unfold runSeq
  cases result : run₁ rctx s with
  | next s₁ =>
    rw [result] at here
    exact rel.trans here (second rctx s₁)
  | _ =>
    rw [result] at here
    exact here

theorem skip : Run.Keeps R fun _ (s : RunState W) => .next s := fun _ s => rel.refl s.w

theorem when (expr : Nat) (matched : run₁.Keeps R) (rest : run₂.Keeps R) :
    Run.Keeps R (runWhen env expr run₁ run₂) := by
  intro rctx s
  refine Res.run_keeps (rel.evalBool expr s.w) fun value w here => ?_
  split
  · exact rel.trans here (matched rctx (s.set w))
  · exact rel.trans here (rest rctx (s.set w))

theorem clauses {runs : List (Nat × Run W)} (bodies : ∀ c ∈ runs, c.2.Keeps R)
    (otherwise : run₁.Keeps R) : Run.Keeps R (runClauses env run₁ runs) := by
  induction runs with
  | nil => exact otherwise
  | cons c rest ih =>
    exact rel.when c.1 (bodies c (by simp)) (ih fun c' member => bodies c' (by simp [member]))

theorem clearTest (test : Option (Nat × Nat)) : Run.Keeps R (runClearTest env test) := by
  rcases test with _ | ⟨varno, expr⟩
  · exact rel.skip
  · exact runOp_keeps env (.assignNull varno) fun w => rel.assignNull varno w

theorem case (test : Option (Nat × Nat)) (haveElse : Bool) {runs : List (Nat × Run W)}
    (bodies : ∀ c ∈ runs, c.2.Keeps R) (otherwise : run₁.Keeps R) :
    Run.Keeps R (runCase env test runs haveElse run₁) := by
  have caseTest : Run.Keeps R (runCaseTest env test) := by
    rcases test with _ | ⟨varno, expr⟩
    · exact rel.skip
    · exact runOp_keeps env (.caseAssignTest varno expr) fun w => rel.caseAssignTest varno expr w
  refine rel.seq caseTest (rel.clauses ?_ (rel.seq (rel.clearTest test) ?_))
  · intro c member
    obtain ⟨c', inside, rfl⟩ := List.mem_map.mp member
    exact rel.seq (rel.clearTest test) (bodies c' inside)
  · cases haveElse with
    | true => exact otherwise
    | false => exact runOp_keeps env .caseError fun w => rel.refl w

theorem exit (isExit : Bool) (label cond : Option Nat) :
    Run.Keeps R (runExit env isExit label cond) := by
  have jumps : Run.Keeps R (takeJump env isExit label) := by
    intro rctx s
    unfold takeJump
    split
    · exact rel.refl s.w
    · exact rel.releaseAll _ s.w
  cases cond with
  | none => exact jumps
  | some expr => exact rel.when expr jumps rel.skip

theorem ret (id : Nat) : Run.Keeps R (runReturn env id) :=
  fun _ s => Res.run_keeps (rel.execReturn id s.w) fun _ _ here => here

theorem initVars {initvars : List Nat}
    (inits : ∀ dno ∈ initvars, ∀ w, R w (env.initVar dno w).world) :
    Run.Keeps R (runInitVars env initvars) := by
  induction initvars with
  | nil => exact rel.skip
  | cons dno rest ih =>
    exact rel.seq (runOp_keeps env (.initVar dno) fun w => inits dno (by simp) w)
      (ih fun dno' member => inits dno' (by simp [member]))

theorem handlers (label : Option Nat) (edata : ErrorData) {runs : List (List Condition × Run W)}
    (actions : ∀ h ∈ runs, h.2.Keeps R) : Run.Keeps R (runHandlers env label runs edata) := by
  induction runs with
  | nil => exact fun _ s => rel.refl s.w
  | cons h rest ih =>
    intro rctx s
    unfold runHandlers
    split
    · have action := (actions h (by simp)).label label (rctx.pushCleanup .handlerDone)
        (s.map (env.setHandlerVars edata))
      exact rel.trans (rel.setHandlerVars edata s.w) action
    · exact ih (fun h' member => actions h' (by simp [member])) rctx s

theorem released {w : W} (f : W → W) (keeps : ∀ w, R w (f w)) {out : Out W}
    (here : R w out.state.w) :
    R w (out.release f).state.w := by
  cases out with
  | next s => exact rel.trans here (keeps s.w)
  | ret s => exact rel.trans here (keeps s.w)
  | jump isExit k s => exact here
  | raise edata s => exact here
  | spent s => exact here

theorem blockExceptions (label : Option Nat) {initvars : List Nat}
    {runs : List (List Condition × Run W)}
    (inits : ∀ dno ∈ initvars, ∀ w, R w (env.initVar dno w).world) (body : run₁.Keeps R)
    (actions : ∀ h ∈ runs, h.2.Keeps R) :
    Run.Keeps R (runBlockExceptions env label initvars run₁ runs) := by
  intro rctx s
  have inner := rel.trans (rel.beginSub s.w)
    ((rel.seq (rel.initVars inits) body).label label (rctx.pushCleanup .tryExit)
      ((s.map env.beginSub).note (·.initLate !env.initsInert initvars s.w)))
  unfold runBlockExceptions
  dsimp only at inner ⊢
  split
  next edata s₁ eq =>
    rw [eq] at inner
    exact rel.trans inner
      (rel.trans (rel.rollbackSub s₁.w)
        (rel.handlers label edata actions rctx (s₁.map env.rollbackSub)))
  next => exact rel.released env.releaseSub rel.releaseSub inner

/-! ### Loops -/

/-- The end of a loop body, given that the way out of the loop is in the
relation too. -/
theorem left (exited : RunState W → Out W) (leaves : ∀ s, R s.w (exited s).state.w) {out : Out W}
    {w : W} (here : R w out.state.w) {r : RunState W ⊕ Out W} (eq : leaveBody exited out = r) :
    R w (roundWorld r) := by
  subst eq
  cases out with
  | jump isExit k s =>
    cases k with
    | zero =>
      cases isExit with
      | true => exact rel.trans here (leaves s)
      | false => exact here
    | succ k => cases isExit <;> exact here
  | _ => exact here

/-- A loop stays in the relation if each of its rounds does. -/
theorem loopN {α : Type} (state : α → RunState W) {round : α → α ⊕ Out W} {w : W}
    (each : ∀ a, R (state a).w (roundWorld ((round a).map state id))) (count : Nat) (a : α)
    (start : R w (state a).w) :
    R w (loopN round (fun a => .spent (state a)) count a).state.w := by
  refine loopN_invariant (fun a => R w (state a).w) (fun out : Out W => R w out.state.w) ?_
    (fun a here => ?_) count a start
  · exact fun _ here => here
  · have next := rel.trans here (each a)
    split
    next a' eq => rwa [eq] at next
    next out eq => rwa [eq] at next

theorem bound (expr : Nat) {s : RunState W} {w : W} {next : BitVec 32 → RunState W → Out W}
    (start : R w s.w) (rest : ∀ v s', R w s'.w → R w (next v s').state.w) :
    R w (runBound env expr s next).state.w := by
  refine Res.run_keeps (rel.trans start (rel.evalInt expr s.w)) fun value w' here => ?_
  cases value with
  | none => exact here
  | some v => exact rest v _ here

variable (label : Option Nat) (body : run₁.Keeps R)
include body

theorem loop : Run.Keeps R (runLoop fuel label run₁) := by
  intro rctx s
  refine rel.loopN id (fun s₁ => ?_) fuel s (rel.refl s.w)
  rw [Sum.map_id_id, id]
  exact rel.left .next (fun s => rel.refl s.w) (body _ s₁) rfl

theorem whileRound (expr : Nat) (rctx : RunCtx) (s : RunState W) :
    R s.w (roundWorld (runWhileRound env label expr run₁ rctx s)) := by
  have tested := rel.evalBool expr s.w
  unfold runWhileRound
  split
  next edata w eq => rwa [eq] at tested
  next value w eq =>
    rw [eq] at tested
    split
    · exact rel.left .next (fun s => rel.refl s.w) (rel.trans tested (body _ (s.set w))) rfl
    · exact tested

theorem repeatRound (expr : Nat) (rctx : RunCtx) (s : RunState W) :
    R s.w (roundWorld (runRepeatRound env label expr run₁ rctx s)) := by
  have ended {r : RunState W ⊕ Out W}
      (eq : leaveBody Out.next (run₁ (rctx.pushLoop label false) s) = r) : R s.w (roundWorld r) :=
    rel.left .next (fun s => rel.refl s.w) (body _ s) eq
  unfold runRepeatRound
  split
  next out eq => exact ended eq
  next s₁ eq =>
    have tested := rel.trans (ended eq) (rel.evalBool expr s₁.w)
    split
    next edata w raised => rwa [raised] at tested
    next value w ok =>
      rw [ok] at tested
      split <;> exact tested

theorem condLoop (expr : Nat) (testAtTop : Bool) :
    Run.Keeps R (runCondLoop env fuel label expr testAtTop run₁) := by
  intro rctx s
  unfold runCondLoop
  split
  · refine rel.loopN id (fun s₁ => ?_) fuel s (rel.refl s.w)
    rw [Sum.map_id_id, id]
    exact rel.whileRound label body expr rctx s₁
  · refine rel.loopN id (fun s₁ => ?_) fuel s (rel.refl s.w)
    rw [Sum.map_id_id, id]
    exact rel.repeatRound label body expr rctx s₁

theorem foriRound (var : Nat) (upper step : BitVec 32) (reverse : Bool) (rctx : RunCtx)
    (r : ForiRun W) :
    R r.s.w (roundWorld
      ((runForiRound env label var upper step reverse run₁ rctx r).map ForiRun.s id)) := by
  have assigned := rel.assignInt var r.value r.s.w
  unfold runForiRound
  split
  · exact rel.setFound r.found r.s.w
  split
  next edata w eq => rwa [eq] at assigned
  next w eq =>
    rw [eq] at assigned
    have ended {next : RunState W ⊕ Out W}
        (eq : leaveBody (fun s => .next (s.map (env.setFound true)))
          (run₁ (rctx.pushLoop label true) (r.s.set w)) = next) : R r.s.w (roundWorld next) :=
      rel.left (fun s => .next (s.map (env.setFound true))) (fun s => rel.setFound true s.w)
        (rel.trans assigned (body _ (r.s.set w))) eq
    split
    next out eq => exact ended eq
    next s₁ eq =>
      split
      · exact rel.trans (ended eq) (rel.setFound true s₁.w)
      · exact ended eq

theorem fori (var lower upper : Nat) (step : Option Nat) (reverse : Bool) :
    Run.Keeps R (runFori env fuel label var lower upper step reverse run₁) := by
  intro rctx s
  refine rel.bound lower (rel.refl s.w) fun lo s₁ r₁ =>
    rel.bound upper r₁ fun hi s₂ r₂ => ?_
  have loops (by' : BitVec 32) (s₃ : RunState W) (r₃ : R s.w s₃.w) :
      R s.w (Lib.Iteration.loopN (runForiRound env label var hi by' reverse run₁ rctx)
        (fun r => .spent r.s) fuel ⟨s₃, lo, false⟩).state.w :=
    rel.loopN ForiRun.s (rel.foriRound label body var hi by' reverse rctx) fuel _ r₃
  cases step with
  | none => exact loops 1 s₂ r₂
  | some expr => exact rel.bound expr r₂ fun v s₃ r₃ => loops v _ r₃

theorem forqRound (kind : ForKind) (qid handle : Nat) (rctx : RunCtx) (r : ForqRun W) :
    R r.s.w (roundWorld
      ((runForqRound env kind label qid handle run₁ rctx r).map ForqRun.s id)) := by
  have closing := rel.closePortal kind qid handle
  have fetched := rel.fetchRow kind qid handle r.s.w
  unfold runForqRound
  dsimp only
  split
  next edata w eq => rwa [eq] at fetched
  next w eq =>
    rw [eq] at fetched
    exact rel.trans fetched (rel.trans (closing w) (rel.setFound r.found _))
  next w eq =>
    rw [eq] at fetched
    have ended {next : RunState W ⊕ Out W}
        (eq : leaveBody
          (fun s => .next ((s.map (env.closePortal kind qid handle)).map (env.setFound true)))
          (run₁ ((rctx.pushCleanup (.closePortal kind qid handle)).pushLoop label true)
            (r.s.set w)) = next) : R r.s.w (roundWorld next) :=
      rel.left _ (fun s => rel.trans (closing s.w) (rel.setFound true _))
        (rel.trans fetched (body _ (r.s.set w))) eq
    split
    next s₁ eq => exact rel.trans (ended eq) (closing s₁.w)
    next out _ eq => exact ended eq
    next s₁ eq => exact ended eq

theorem forq (kind : ForKind) (id : Nat) : Run.Keeps R (runForq env fuel kind label id run₁) := by
  intro rctx s
  exact Res.run_keeps (rel.openPortal kind id s.w) fun handle w here =>
    rel.loopN ForqRun.s (rel.forqRound label body kind id handle rctx) fuel ⟨s.set w, false⟩ here

end WorldRel

/-! ### The induction over statements -/

/-- The leaf statements, the declared variables that pass their test, and the
FOREACH loops respect the relation too. -/
structure StmtRel (env : Env W) (foreach : Option Nat → Nat → Stmts → Run W)
    (leaf init : Nat → Bool) (R : W → W → Prop) : Prop extends WorldRel env R where
  foreachs : ∀ label id body, Run.Keeps R (foreach label id body)
  leaves : ∀ id, leaf id = true → ∀ w, R w (env.leaf id w).world
  inits : ∀ dno, init dno = true → ∀ w, R w (env.initVar dno w).world

variable {foreach : Option Nat → Nat → Stmts → Run W} {leaf init : Nat → Bool}

mutual

theorem Stmt.run_keeps (rel : StmtRel env foreach leaf init R) (st : Stmt)
    (fine : st.everywhere leaf init = true) :
    Run.Keeps R (st.run env foreach fuel) := by
  cases st with
  | leaf id => exact runOp_keeps env (.leaf id) (rel.leaves id fine)
  | block label initvars body =>
    obtain ⟨declared, inside⟩ := Bool.and_eq_true_iff.mp fine
    have started := rel.initVars fun dno member =>
      rel.inits dno (List.all_eq_true.mp declared dno member)
    exact rel.seq started ((body.run_keeps rel inside).label label)
  | blockExceptions label initvars body exceptions =>
    rw [Stmt.everywhere, Bool.and_eq_true, Bool.and_eq_true] at fine
    exact rel.blockExceptions label
      (fun dno member => rel.inits dno (List.all_eq_true.mp fine.1.1 dno member))
      (body.run_keeps rel fine.1.2) (exceptions.run_keeps rel fine.2)
  | cond expr thenBody elsifs elseBody =>
    rw [Stmt.everywhere, Bool.and_eq_true, Bool.and_eq_true] at fine
    exact rel.when expr (thenBody.run_keeps rel fine.1.1)
      (rel.clauses (elsifs.run_keeps rel fine.1.2) (elseBody.run_keeps rel fine.2))
  | case test whens haveElse elseStmts =>
    rw [Stmt.everywhere, Bool.and_eq_true] at fine
    exact rel.case test haveElse (whens.run_keeps rel fine.1) (elseStmts.run_keeps rel fine.2)
  | condLoop label expr testAtTop body =>
    exact rel.condLoop label (body.run_keeps rel fine) expr testAtTop
  | loop label body => exact rel.loop label (body.run_keeps rel fine)
  | fori label var lower upper step reverse body =>
    exact rel.fori label (body.run_keeps rel fine) var lower upper step reverse
  | forq kind label id body => exact rel.forq label (body.run_keeps rel fine) kind id
  | foreachA label id body => exact rel.foreachs label id body
  | exit isExit label cond => exact rel.exit isExit label cond
  | ret id => exact rel.ret id

theorem Stmts.run_keeps (rel : StmtRel env foreach leaf init R) (ss : Stmts)
    (fine : ss.everywhere leaf init = true) :
    Run.Keeps R (ss.run env foreach fuel) := by
  cases ss with
  | nil => exact rel.skip
  | cons head tail =>
    rw [Stmts.everywhere, Bool.and_eq_true] at fine
    exact rel.seq (head.run_keeps rel fine.1) (tail.run_keeps rel fine.2)

theorem Whens.run_keeps (rel : StmtRel env foreach leaf init R) (ws : Whens)
    (fine : ws.everywhere leaf init = true) :
    ∀ c ∈ ws.run env foreach fuel, c.2.Keeps R := by
  cases ws with
  | nil => exact fun _ member => nomatch member
  | cons expr body rest =>
    rw [Whens.everywhere, Bool.and_eq_true] at fine
    intro c member
    rcases List.mem_cons.mp member with rfl | inside
    · exact body.run_keeps rel fine.1
    · exact rest.run_keeps rel fine.2 c inside

theorem Exceptions.run_keeps (rel : StmtRel env foreach leaf init R) (es : Exceptions)
    (fine : es.everywhere leaf init = true) :
    ∀ h ∈ es.run env foreach fuel, h.2.Keeps R := by
  cases es with
  | nil => exact fun _ member => nomatch member
  | cons conditions action rest =>
    rw [Exceptions.everywhere, Bool.and_eq_true] at fine
    intro h member
    rcases List.mem_cons.mp member with rfl | inside
    · exact action.run_keeps rel fine.1
    · exact rest.run_keeps rel fine.2 h inside

end

end Uplpgsql
