import Uplpgsql.Correctness.LayoutStmts

/-!
# Compilation succeeds

The compiler gives up only on a jump whose target it does not find, and the
parser has already rejected those.
-/

namespace Uplpgsql

open Lib.Blocks Emit

def LoopInfo.scope (info : LoopInfo) : Scope := ⟨info.label, info.isLoop⟩

/-- The loop stack describes the labels in scope, and every loop on it has a
block for CONTINUE. -/
structure InScope (ctx : Ctx) (scopes : List Scope) : Prop where
  scopes : ctx.loopStack.map LoopInfo.scope = scopes
  continues : ∀ info ∈ ctx.loopStack, info.isLoop = true → info.continueBb.isSome = true

/-- An emitter that succeeds inside the given constructs. -/
def ReturnsIn (scopes : List Scope) (emitter : Emitter) : Prop :=
  ∀ ctx, InScope ctx scopes → Returns (emitter ctx)

variable {ctx : Ctx} {scopes : List Scope} {body : Emitter}

namespace InScope

theorem pushLoop (inScope : InScope ctx scopes) (label : Option Nat) (continueBb exitBb : Nat) :
    InScope (uplPushLoop ctx label continueBb exitBb) (⟨label, true⟩ :: scopes) where
  scopes := by rw [← inScope.scopes]; rfl
  continues info member isLoop := by
    rcases List.mem_cons.mp member with rfl | inside
    · rfl
    · exact inScope.continues info inside isLoop

theorem pushLabel (inScope : InScope ctx scopes) (label : Option Nat) (exitBb : Nat) :
    InScope (pushLabel ctx label exitBb) (blockScope label scopes) := by
  cases label with
  | none => exact inScope
  | some l =>
    refine ⟨by rw [← inScope.scopes]; rfl, fun info member isLoop => ?_⟩
    rcases List.mem_cons.mp member with rfl | inside
    · cases isLoop
    · exact inScope.continues info inside isLoop

theorem pushCleanup (inScope : InScope ctx scopes) (x : Cleanup) (padBb : Nat) :
    InScope (uplPushCleanup { ctx with returnBb := padBb } x) scopes :=
  ⟨inScope.scopes, inScope.continues⟩

end InScope

/-! ### Emitters -/

theorem uplEvalBool_returns (expr : Nat) : Returns (uplEvalBool expr) := fun _ => ⟨_, _, rfl⟩

theorem emitClauses_returns (mergeBb : Nat) (clauses : List (Nat × Emit Item Unit))
    (bodies : ∀ c ∈ clauses, Returns c.2) : Returns (emitClauses mergeBb clauses) := by
  induction clauses with
  | nil => exact .pure ()
  | cons clause rest ih =>
    refine .bind ?_ fun _ => ih fun c member => bodies c (by simp [member])
    exact .bind (uplEvalBool_returns _) fun _ => .bind .appendBlock fun _ =>
      .bind .appendBlock fun _ => .bind (.item _) fun _ => .bind (.positionAtEnd _) fun _ =>
      .bind (bodies clause (by simp)) fun _ => .bind (.item _) fun _ => .positionAtEnd _

theorem emitClearTest_returns (test : Option (Nat × Nat)) : Returns (emitClearTest test) := by
  rcases test with _ | ⟨varno, expr⟩
  · exact .pure ()
  · exact .item _

theorem emitCaseTest_returns (test : Option (Nat × Nat)) : Returns (emitCaseTest test) := by
  rcases test with _ | ⟨varno, expr⟩
  · exact .pure ()
  · exact .item _

theorem uplEmitIf_returns (expr : Nat) {thenStmts elseStmts : Emitter}
    {elsifs : List (Nat × Emitter)} (thenReturns : ReturnsIn scopes thenStmts)
    (elsifReturns : ∀ c ∈ elsifs, ReturnsIn scopes c.2) (elseReturns : ReturnsIn scopes elseStmts) :
    ReturnsIn scopes (uplEmitIf expr thenStmts elsifs elseStmts) := by
  intro ctx inScope
  have first (mergeBb : Nat) : Returns (emitClause mergeBb expr (thenStmts ctx)) :=
    .bind (uplEvalBool_returns _) fun _ => .bind .appendBlock fun _ =>
      .bind .appendBlock fun _ => .bind (.item _) fun _ => .bind (.positionAtEnd _) fun _ =>
      .bind (thenReturns ctx inScope) fun _ => .bind (.item _) fun _ => .positionAtEnd _
  refine .bind .appendBlock fun mergeBb => .bind (first mergeBb) fun _ => .bind ?_ fun _ =>
    .bind (elseReturns ctx inScope) fun _ => .bind (.item _) fun _ => .positionAtEnd _
  refine emitClauses_returns mergeBb _ fun c member => ?_
  obtain ⟨c', inside, rfl⟩ := List.mem_map.mp member
  exact elsifReturns c' inside ctx inScope

theorem uplEmitCase_returns (test : Option (Nat × Nat)) (haveElse : Bool) {elseStmts : Emitter}
    {whens : List (Nat × Emitter)} (whenReturns : ∀ c ∈ whens, ReturnsIn scopes c.2)
    (elseReturns : ReturnsIn scopes elseStmts) :
    ReturnsIn scopes (uplEmitCase test whens haveElse elseStmts) := by
  intro ctx inScope
  have otherwise : Returns (emitCaseElse haveElse elseStmts ctx) := by
    cases haveElse with
    | true => exact elseReturns ctx inScope
    | false => exact .item _
  refine .bind .appendBlock fun mergeBb => .bind (emitCaseTest_returns test) fun _ =>
    .bind ?_ fun _ => .bind (emitClearTest_returns test) fun _ => .bind otherwise fun _ =>
    .bind (.item _) fun _ => .positionAtEnd _
  refine emitClauses_returns mergeBb _ fun c member => ?_
  obtain ⟨c', inside, rfl⟩ := List.mem_map.mp member
  exact .bind (emitClearTest_returns test) fun _ => whenReturns c' inside ctx inScope

theorem uplEmitCondLoop_returns (label : Option Nat) (expr : Nat) (testAtTop : Bool)
    (returns : ReturnsIn (⟨label, true⟩ :: scopes) body) :
    ReturnsIn scopes (uplEmitCondLoop label expr testAtTop body) := by
  intro ctx inScope
  have inside (condBb exitBb : Nat) : Returns (body (uplPushLoop ctx label condBb exitBb)) :=
    returns _ (inScope.pushLoop label condBb exitBb)
  refine .bind .appendBlock fun condBb => .bind .appendBlock fun bodyBb =>
    .bind .appendBlock fun exitBb => ?_
  cases testAtTop with
  | true =>
    exact .bind (.item _) fun _ => .bind (.positionAtEnd _) fun _ => .bind (uplEvalBool_returns expr) fun _ =>
      .bind (.item _) fun _ => .bind (.positionAtEnd _) fun _ => .bind (inside _ _) fun _ =>
      .bind (.item _) fun _ => .positionAtEnd _
  | false =>
    exact .bind (.item _) fun _ => .bind (.positionAtEnd _) fun _ => .bind (inside _ _) fun _ =>
      .bind (.item _) fun _ => .bind (.positionAtEnd _) fun _ => .bind (uplEvalBool_returns expr) fun _ =>
      .bind (.item _) fun _ => .positionAtEnd _

theorem uplEmitLoop_returns (label : Option Nat)
    (returns : ReturnsIn (⟨label, true⟩ :: scopes) body) :
    ReturnsIn scopes (uplEmitLoop label body) := fun _ inScope =>
  .bind .appendBlock fun _ => .bind .appendBlock fun _ => .bind (.item _) fun _ =>
    .bind (.positionAtEnd _) fun _ => .bind (returns _ (inScope.pushLoop label _ _)) fun _ =>
    .bind (.item _) fun _ => .positionAtEnd _

theorem uplEmitFori_returns (label : Option Nat) (var lower upper : Nat) (step : Option Nat)
    (reverse : Bool) (returns : ReturnsIn (⟨label, true⟩ :: scopes) body) :
    ReturnsIn scopes (uplEmitFori label var lower upper step reverse body) := fun _ inScope =>
  .bind (fun _ => ⟨_, _, rfl⟩) fun _ => .bind (fun _ => ⟨_, _, rfl⟩) fun _ =>
    .bind (fun _ => ⟨_, _, rtEvalStep_run step⟩) fun _ => .bind .newReg fun _ =>
    .bind .newReg fun _ => .bind (.item _) fun _ => .bind (.item _) fun _ =>
    .bind .appendBlock fun _ => .bind .appendBlock fun _ => .bind .appendBlock fun _ =>
    .bind .appendBlock fun _ => .bind (.item _) fun _ => .bind (.positionAtEnd _) fun _ =>
    .bind (fun _ => ⟨_, _, rfl⟩) fun _ => .bind (.positionAtEnd _) fun _ => .bind (.item _) fun _ =>
    .bind (.item _) fun _ => .bind (returns _ (inScope.pushLoop label _ _)) fun _ =>
    .bind (.item _) fun _ => .bind (.positionAtEnd _) fun _ => .bind (fun _ => ⟨_, _, rfl⟩) fun _ =>
    .bind (.positionAtEnd _) fun _ => fun _ => ⟨_, _, rfl⟩

theorem compileForq_returns (kind : ForKind) (label : Option Nat) (id : Nat)
    (returns : ReturnsIn (⟨label, true⟩ :: scopes) body) :
    ReturnsIn scopes (compileForq kind label id body) := fun _ inScope =>
  .bind .newReg fun _ => .bind (.item _) fun _ => .bind .newReg fun _ => .bind (.item _) fun _ =>
    .bind .appendBlock fun _ => .bind .appendBlock fun _ => .bind .appendBlock fun _ =>
    .bind .appendBlock fun _ => .bind .appendBlock fun _ => .bind (.item _) fun _ =>
    .bind (.positionAtEnd _) fun _ => .bind .newReg fun _ => .bind (.item _) fun _ =>
    .bind (.item _) fun _ => .bind (.positionAtEnd _) fun _ => .bind (.item _) fun _ =>
    .bind (returns _ ((inScope.pushCleanup _ _).pushLoop label _ _)) fun _ => .bind (.item _) fun _ =>
    .bind (fun _ => ⟨_, _, rfl⟩) fun _ => .bind (.positionAtEnd _) fun _ => .bind (.item _) fun _ =>
    .bind (fun _ => ⟨_, _, rfl⟩) fun _ => .bind (.item _) fun _ => .positionAtEnd _

theorem compileBlock_returns (label : Option Nat) (initvars : List Nat)
    (returns : ReturnsIn (blockScope label scopes) body) :
    ReturnsIn scopes (compileBlock label initvars body) := by
  intro ctx inScope
  refine .bind (fun _ => ⟨_, _, emitInitVars_run initvars⟩) fun _ => ?_
  cases label with
  | none => exact returns ctx inScope
  | some l =>
    refine .bind .appendBlock fun endBb =>
      .bind (returns _ (inScope.pushLabel (some l) endBb)) fun _ =>
      .bind (fun _ => ⟨_, _, rfl⟩) fun terminated => ?_
    cases terminated with
    | true => exact .positionAtEnd _
    | false => exact .bind (.item _) fun _ => .positionAtEnd _

theorem emitHandlers_returns (frame afterBb : Nat) (handlers : List (Nat × Emit Item Unit))
    (actions : ∀ h ∈ handlers, Returns h.2) : Returns (emitHandlers frame afterBb handlers) := by
  induction handlers with
  | nil => exact .pure ()
  | cons h rest ih =>
    exact .bind (.positionAtEnd _) fun _ => .bind (.item _) fun _ =>
      .bind (actions h (by simp)) fun _ => .bind (.item _) fun _ => .bind (.item _) fun _ =>
      ih fun h' member => actions h' (by simp [member])

theorem compileBlockExceptions_returns (label : Option Nat) (initvars : List Nat)
    {handlers : List (List Condition × Emitter)}
    (returns : ReturnsIn (blockScope label scopes) body)
    (handlerReturns : ∀ h ∈ handlers, ReturnsIn (blockScope label scopes) h.2) :
    ReturnsIn scopes (compileBlockExceptions label initvars body handlers) := by
  intro ctx inScope
  refine .bind .appendBlock fun _ => .bind .appendBlock fun _ => .bind .appendBlock fun _ =>
    .bind .appendBlock fun _ => .bind .appendBlock fun _ => .bind .appendBlock fun _ =>
    .bind .appendBlock fun _ => .bind .appendBlock fun _ => .bind .newReg fun _ =>
    .bind (.item _) fun _ => .bind (.item _) fun _ => .bind (.positionAtEnd _) fun _ =>
    .bind (.item _) fun _ => .bind (fun _ => ⟨_, _, emitInitVars_run initvars⟩) fun _ =>
    .bind (returns _ ((inScope.pushCleanup _ _).pushLabel label _)) fun _ => .bind (.item _) fun _ =>
    .bind (fun _ => ⟨_, _, rfl⟩) fun _ => .bind (fun _ => ⟨_, _, rfl⟩) fun _ =>
    .bind (.positionAtEnd _) fun _ => .bind .newReg fun _ => .bind (.item _) fun _ =>
    .bind (fun _ => ⟨_, _, appendBlocks_run _ _⟩) fun handlerBbs => .bind (.item _) fun _ =>
    .bind ?_ fun _ => .bind (fun _ => ⟨_, _, rfl⟩) fun _ => .bind (fun _ => ⟨_, _, rfl⟩) fun _ =>
    .bind (.positionAtEnd _) fun _ => .bind (.item _) fun _ => .bind (.item _) fun _ =>
    .positionAtEnd _
  refine emitHandlers_returns _ _ _ fun h member => ?_
  obtain ⟨g, inside, eq⟩ := List.mem_map.mp (List.of_mem_zip member).2
  rw [← eq]
  exact handlerReturns g inside _ ((inScope.pushCleanup _ _).pushLabel label _)

/-! ### Jumps -/

/-- What the parser resolves, the compiler finds. -/
theorem uplFindLoop_of_findTarget {infos : List LoopInfo} {label : Option Nat} {k : Nat}
    (found : findTarget (infos.map LoopInfo.scope) label = some k) :
    ∃ info, uplFindLoop infos label = some info ∧ infos[k]? = some info := by
  induction infos generalizing k with
  | nil => cases found
  | cons first rest ih =>
    rw [List.map_cons] at found
    unfold findTarget at found
    have target : first.scope.isTarget label = true ∧ uplFindLoop (first :: rest) label = some first ∨
        first.scope.isTarget label = false ∧
          uplFindLoop (first :: rest) label = uplFindLoop rest label := by
      conv in uplFindLoop (first :: rest) label => unfold uplFindLoop
      conv in uplFindLoop (first :: rest) label => unfold uplFindLoop
      unfold Scope.isTarget LoopInfo.scope
      cases label with
      | none => cases isLoop : first.isLoop <;> simp
      | some l => by_cases same : first.label = some l <;> simp [same]
    rcases target with ⟨here, eq⟩ | ⟨further, eq⟩
    · rw [if_pos here] at found
      obtain rfl := Option.some.inj found
      exact ⟨first, eq, rfl⟩
    · rw [if_neg (by simp [further])] at found
      obtain ⟨k', found', rfl⟩ := Option.map_eq_some_iff.mp found
      obtain ⟨info, finds, infoAt⟩ := ih found'
      exact ⟨info, eq.trans finds, infoAt⟩

theorem uplEmitLoopExit_returns (label : Option Nat) (isExit : Bool) (cond : Option Nat)
    (resolves : jumpResolves scopes isExit label = true) :
    ReturnsIn scopes (uplEmitLoopExit label isExit cond) := by
  intro ctx inScope
  unfold jumpResolves at resolves
  rw [← inScope.scopes] at resolves
  cases found : findTarget (ctx.loopStack.map LoopInfo.scope) label with
  | none => simp [found] at resolves
  | some k =>
    obtain ⟨info, finds, infoAt⟩ := uplFindLoop_of_findTarget found
    simp only [found, List.getElem?_map, infoAt, Option.map_some, Option.getD_some,
      Bool.or_eq_true] at resolves
    obtain ⟨targetBb, target⟩ : ∃ targetBb, jumpTarget isExit info = some targetBb := by
      cases isExit with
      | true => exact ⟨_, rfl⟩
      | false =>
        exact Option.isSome_iff_exists.mp (inScope.continues info (List.mem_of_getElem? infoAt)
          (by simpa [LoopInfo.scope] using resolves))
    have guard : ¬(!isExit && !info.isLoop) = true := by
      rcases resolves with rfl | isLoop
      · simp
      · simp [show info.isLoop = true from isLoop]
    unfold uplEmitLoopExit
    rw [finds]
    dsimp only
    rw [if_neg guard, target]
    cases cond with
    | none =>
      exact .bind (fun _ => ⟨_, _, uplEmitCleanupUnwind_run ctx _⟩) fun _ => .bind (.item _) fun _ =>
        .bind .appendBlock fun _ => .positionAtEnd _
    | some expr =>
      refine .bind .appendBlock fun skipBb => .bind (uplEvalBool_returns expr) fun _ => ?_
      split
      · exact .bind .appendBlock fun _ => .bind (.item _) fun _ => .bind (.positionAtEnd _) fun _ =>
          .bind (fun _ => ⟨_, _, uplEmitCleanupUnwind_run ctx _⟩) fun _ => .bind (.item _) fun _ =>
          .positionAtEnd _
      · exact .bind (.item _) fun _ => .positionAtEnd _

/-! ### The statement dispatch -/

mutual

theorem Stmt.compile_returns (st : Stmt) (scopes : List Scope) (resolves : st.resolves scopes = true) :
    ReturnsIn scopes st.compile := by
  cases st with
  | leaf id => exact fun _ _ => .item _
  | block label initvars body =>
    exact compileBlock_returns label initvars (body.compile_returns _ resolves)
  | blockExceptions label initvars body exceptions =>
    rw [Stmt.resolves, Bool.and_eq_true] at resolves
    exact compileBlockExceptions_returns label initvars (body.compile_returns _ resolves.1)
      (exceptions.compile_returns _ resolves.2)
  | cond expr thenBody elsifs elseBody =>
    rw [Stmt.resolves, Bool.and_eq_true, Bool.and_eq_true] at resolves
    exact uplEmitIf_returns expr (thenBody.compile_returns _ resolves.1.1)
      (elsifs.compile_returns _ resolves.1.2) (elseBody.compile_returns _ resolves.2)
  | case test whens haveElse elseStmts =>
    rw [Stmt.resolves, Bool.and_eq_true] at resolves
    exact uplEmitCase_returns test haveElse (whens.compile_returns _ resolves.1)
      (elseStmts.compile_returns _ resolves.2)
  | condLoop label expr testAtTop body =>
    exact uplEmitCondLoop_returns label expr testAtTop (body.compile_returns _ resolves)
  | loop label body => exact uplEmitLoop_returns label (body.compile_returns _ resolves)
  | fori label var lower upper step reverse body =>
    exact uplEmitFori_returns label var lower upper step reverse (body.compile_returns _ resolves)
  | forq kind label id body => exact compileForq_returns kind label id (body.compile_returns _ resolves)
  | foreachA label id body => exact fun _ _ => .item _
  | exit isExit label cond => exact uplEmitLoopExit_returns label isExit cond resolves
  | ret id => exact fun _ _ _ => ⟨_, _, uplEmitReturn_run id _⟩

theorem Stmts.compile_returns (ss : Stmts) (scopes : List Scope)
    (resolves : ss.resolves scopes = true) : ReturnsIn scopes ss.compile := by
  cases ss with
  | nil => exact fun _ _ => .pure ()
  | cons head tail =>
    rw [Stmts.resolves, Bool.and_eq_true] at resolves
    exact fun ctx inScope => .bind (head.compile_returns _ resolves.1 ctx inScope) fun _ =>
      tail.compile_returns _ resolves.2 ctx inScope

theorem Whens.compile_returns (ws : Whens) (scopes : List Scope)
    (resolves : ws.resolves scopes = true) : ∀ c ∈ ws.compile, ReturnsIn scopes c.2 := by
  cases ws with
  | nil => simp [Whens.compile]
  | cons expr body rest =>
    rw [Whens.resolves, Bool.and_eq_true] at resolves
    intro c member
    rcases List.mem_cons.mp member with rfl | inside
    · exact body.compile_returns _ resolves.1
    · exact rest.compile_returns _ resolves.2 c inside

theorem Exceptions.compile_returns (es : Exceptions) (scopes : List Scope)
    (resolves : es.resolves scopes = true) : ∀ h ∈ es.compile, ReturnsIn scopes h.2 := by
  cases es with
  | nil => simp [Exceptions.compile]
  | cons conditions action rest =>
    rw [Exceptions.resolves, Bool.and_eq_true] at resolves
    intro h member
    rcases List.mem_cons.mp member with rfl | inside
    · exact action.compile_returns _ resolves.1
    · exact rest.compile_returns _ resolves.2 h inside

end

theorem compileFunction_returns (action : Stmt) (resolves : action.resolves [] = true) :
    ∃ code, compileFunction action = some code := by
  have emitted : Returns (emitFunction action.compile) :=
    .bind (action.compile_returns [] resolves functionCtx ⟨rfl, fun _ member => nomatch member⟩)
      fun _ => .bind (.item _) fun _ => .bind (.positionAtEnd _) fun _ => .item _
  obtain ⟨_, σ, eq⟩ := emitted (Builder.start Item 2)
  exact ⟨σ.code, by rw [compileFunction, eq]; rfl⟩

end Uplpgsql
