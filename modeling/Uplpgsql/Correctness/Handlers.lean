import Uplpgsql.Correctness.Resources

/-!
# Blocks with handlers

The try body runs under a frame of its own. An error that escapes it arrives at
the catch block with the frames of the enclosing blocks in place, and the switch
goes to the first handler that matches.
-/

namespace Uplpgsql

open Lib.Blocks Lib.Iteration Builder

variable {W : Type} {env : Env W} {delegate : Delegate W} {code : Nat → List Item} {fuel : Nat}
variable {n : Nat} {ctx : Ctx} {rctx : RunCtx} {cleanups : List Cleanup}
  {held : List (Nat × Frame)} {rc : Bool} {fin fin' : Config W → Prop} {c : Config W}
  {s : RunState W} {σ σ' σ₁ σ₂ : Builder Item}

/-! ### Entering the try body -/

variable (env delegate) in
/-- The frame is pushed, its jump buffer filled, and the frame armed. -/
theorem runs_tryEnter (at' : c.At σ) (valid : σ.Valid)
    (laid : (((excStart σ).goto σ.nblocks).push (.instr (.arm σ.nregs))).Laid code)
    (good : Good cleanups held false c s) (below : ∀ x ∈ cleanups, x.reg < σ.nregs) :
    ∃ c' f frame, Runs env delegate code 0 c c' ∧
      c'.At (((excStart σ).goto σ.nblocks).push (.instr (.arm σ.nregs))) ∧
      Good (.tryExit σ.nregs :: cleanups) ((f, frame) :: held) false c' (s.map env.beginSub) ∧
      Agree σ.nregs c c' ∧ frame.jmpbuf = some (σ.nblocks + 1) := by
  have laidJmp : (excStart σ).Laid code := Laid.of_push (σ := Builder.goto _ _) laid
  let frame₀ : Frame :=
    { jmpbuf := none
      savedExceptionStack := none
      oldowner := c.rt.getStmtMcontext.owner
      oldEvalEcontext := c.rt.getStmtMcontext.evalEcontext
      savedCurError := c.rt.getStmtMcontext.plCurError
      stmtMcontext := c.rt.getStmtMcontext.stmtMcontext.getD 0 }
  let f := c.rt.nextFrame
  let c₁ := (((c.withRt c.rt.exceptionPushFrame).withWorld (env.beginSub c.w)).setReg σ.nregs
    (.ptr f)).next
  have run₁ : Runs env delegate code 1 c c₁ :=
    runs_item (at'.appendN 8) laidJmp.of_push good.running
  have at₁ : c₁.At ((σ.appendN 8).fresh.push (.instr (.pushFrame σ.nregs))) :=
    ⟨at'.1, by rw [push_offset, fresh_offset, ← (at'.appendN 8).2]; rfl⟩
  have reg₁ : c₁.regs σ.nregs = .ptr f := setReg_regs_self _ _ _
  have live₁ : c₁.rt.frames f = some frame₀ := by
    change Function.update c.rt.getStmtMcontext.frames c.rt.getStmtMcontext.nextFrame _ f = _
    rw [Rt.getStmtMcontext_nextFrame, Function.update_self]
  -- `sigsetjmp` fills the jump buffer and falls through to the try block.
  let c₂ := (c₁.withRt (c₁.rt.sigsetjmp f frame₀ (σ.nblocks + 1))).goto σ.nblocks
  have run₂ : Runs env delegate code 1 c₁ c₂ := by
    have run : Runs env delegate code 1 c₁ (stepItem env delegate c₁
      (.sigsetjmp σ.nregs σ.nblocks (σ.nblocks + 1))) := runs_item at₁ laidJmp good.running
    simpa only [stepItem, Config.withFrame, reg₁, Val.toPtr, live₁] using run
  have tryBb := excStart_reserved valid 0 (by omega)
  have at₂ : c₂.At ((excStart σ).goto σ.nblocks) := (Config.goto_enters _ σ.nblocks).at tryBb
  let frame₁ : Frame := { frame₀ with jmpbuf := some (σ.nblocks + 1) }
  have live₂ : c₂.rt.frames f = some frame₁ := Function.update_self ..
  let c₃ := (c₂.withRt (c₂.rt.exceptionArm f frame₁)).next
  have run₃ : Runs env delegate code 1 c₂ c₃ := by
    have run : Runs env delegate code 1 c₂ (stepItem env delegate c₂ (.instr (.arm σ.nregs))) :=
      runs_item at₂ laid good.running
    have reg₂ : c₂.regs σ.nregs = .ptr f := reg₁
    simpa only [stepItem, stepInstr, Config.withFrame, reg₂, Val.toPtr, live₂] using run
  let frame : Frame := { frame₁ with savedExceptionStack := c₂.rt.exceptionStack }
  have live₃ : c₃.rt.frames f = some frame := Function.update_self ..
  have older : ∀ g, g < f → c₃.rt.frames g = c.rt.frames g := by
    intro g lt
    have ne : g ≠ f := by omega
    change Function.update (Function.update (Function.update c.rt.getStmtMcontext.frames
      c.rt.getStmtMcontext.nextFrame _) f _) f _ g = _
    rw [Rt.getStmtMcontext_nextFrame, Function.update_of_ne ne, Function.update_of_ne ne,
      Function.update_of_ne ne, Rt.getStmtMcontext_frames]
  have agree : Agree σ.nregs c c₃ := Agree.setReg _ (Nat.le_refl _) _
  have next₃ : c₃.rt.nextFrame = f + 1 := by
    change c.rt.getStmtMcontext.nextFrame + 1 = _
    rw [Rt.getStmtMcontext_nextFrame]
  have saved : frame.savedExceptionStack = c.rt.exceptionStack := Rt.getStmtMcontext_exceptionStack _
  refine ⟨c₃, f, frame, ((run₁.trans run₂).trans run₃).weaken (by omega), at₂.next,
    ⟨good.running, ?_, good.rc, ?_⟩, agree, rfl⟩
  · change env.beginSub c.w = env.beginSub s.w
    rw [good.world]
  · refine .tryExit (f := f) (by rw [show c₃.regs σ.nregs = .ptr f from reg₁]; rfl)
      (by rw [next₃]; omega) live₃ ?_
    rw [saved]
    exact good.chain.mono (Nat.le_refl _) (fun x member => agree _ (below x member)) older

/-! ### The landing pads -/

section Pads

variable {f : Nat} {frame : Frame}

variable (env delegate) in
/-- `runs_pad` for the frame of a try body or of a handler. -/
theorem runs_framePad {x : Cleanup} {release : Release} {padBb target : Nat}
    (link : ∀ regs : Nat → Val, CleanupLink regs x release)
    (drops : dropHeld 1 (x :: cleanups) ((f, frame) :: held) = held) (enters : c.Enters padBb)
    (reserved : σ.Reserved padBb) (laid : (pad σ padBb x.release target).Laid code)
    (good : Good (x :: cleanups) ((f, frame) :: held) rc c s) :
    ∃ c', Runs env delegate code 0 c c' ∧ c'.Enters target ∧
      Good cleanups held rc c' (s.map (release.run env)) ∧ Agree n c c' := by
  obtain ⟨c', run, enters', good', same⟩ := runs_pad env delegate enters reserved laid good (link _)
  rw [drops] at good'
  exact ⟨c', run, enters', good', fun r _ => by rw [same]⟩

end Pads

/-! ### Catching -/

/-- Where the switch goes for an error. -/
def handlerBlock (σ τ : Builder Item) (handlers : List (List Condition)) (edata : ErrorData) : Nat :=
  ((findHandler edata handlers).bind ((List.range' τ.nblocks handlers.length)[·]?)).getD
    (σ.nblocks + 7)

variable (env delegate) in
/-- An error thrown under the frame is caught and the switch taken. -/
theorem runs_catch {τ : Builder Item} {f : Nat} {frame : Frame} {edata : ErrorData}
    {handlers : List (List Condition)} (reserved : τ.Reserved (σ.nblocks + 1))
    (laid : (excCatch σ τ handlers).Laid code) (le : σ.nregs + 1 ≤ τ.nregs)
    (good : Good (.tryExit σ.nregs :: cleanups) ((f, frame) :: held) false c s)
    (below : ∀ x ∈ cleanups, x.reg < σ.nregs) (jmpbuf : frame.jmpbuf = some (σ.nblocks + 1)) :
    ∃ c', Runs env delegate code 0 (c.throw edata) c' ∧
      c'.Enters (handlerBlock σ τ handlers edata) ∧
      Good (.handlerDone σ.nregs :: cleanups) ((f, frame) :: held) false c' (s.map env.rollbackSub) ∧
      c'.rt.curError = some edata ∧ Agree τ.nregs c c' := by
  have chain := good.chain
  -- The frame is on top of the stack, so the error lands at its catch block.
  generalize above : c.rt.exceptionStack = exc at chain
  obtain _ | @⟨_, _, _, _, _, _, reg, lt, live, inner⟩ | _ | _ := chain
  let c₁ : Config W := { c.goto (σ.nblocks + 1) with thrown := edata }
  have thrown : c.throw edata = c₁ := by
    unfold Config.throw
    rw [above]
    dsimp only
    rw [live, Option.bind_some, jmpbuf]
  have laidCall : ((τ.goto (σ.nblocks + 1)).fresh.push
      (.instr (.catchError τ.nregs σ.nregs handlers))).Laid code :=
    Laid.of_push (σ := Builder.appendN _ _) laid
  have at₁ : c₁.At (τ.goto (σ.nblocks + 1)) := Config.Enters.at ⟨rfl, rfl⟩ reserved
  -- There the subtransaction is rolled back and the handler looked up.
  let c₂ := (((c₁.withRt (c₁.rt.exceptionCatch frame edata)).withWorld (env.rollbackSub c₁.w)).setReg
    τ.nregs (.index (findHandler edata handlers))).next
  have run₂ : Runs env delegate code 1 c₁ c₂ := by
    have run : Runs env delegate code 1 c₁
        (stepItem env delegate c₁ (.instr (.catchError τ.nregs σ.nregs handlers))) :=
      runs_item (σ := (τ.goto (σ.nblocks + 1)).fresh) at₁ laidCall good.running
    have reg₁ : (c₁.regs σ.nregs).toPtr = f := reg
    have live₁ : c₁.rt.frames f = some frame := live
    simpa only [stepItem, stepInstr, Config.withFrame, reg₁, live₁] using run
  have at₂ : c₂.At (excCatchCall σ τ handlers) := ⟨at₁.1, by
    rw [excCatchCall, push_offset, fresh_offset, ← at₁.2]; rfl⟩
  have index₂ : c₂.regs τ.nregs = .index (findHandler edata handlers) := setReg_regs_self _ _ _
  -- The switch goes to the block of that handler, or to the one that rethrows.
  have run₃ : Runs env delegate code 1 c₂ (c₂.goto (handlerBlock σ τ handlers edata)) := by
    have run : Runs env delegate code 1 c₂ (stepItem env delegate c₂ (.switch τ.nregs
        (List.range' τ.nblocks handlers.length) (σ.nblocks + 7))) :=
      runs_item (at₂.appendN handlers.length) laid good.running
    simpa only [stepItem, index₂, Val.toIndex, handlerBlock] using run
  have agree : Agree τ.nregs c c₂ :=
    Agree.setReg ((c₁.withRt (c₁.rt.exceptionCatch frame edata)).withWorld (env.rollbackSub c₁.w))
      (Nat.le_refl _) _
  rw [thrown]
  refine ⟨_, (run₂.trans run₃).weaken (by omega), c₂.goto_enters _, ⟨good.running, ?_, good.rc, ?_⟩,
    rfl, agree⟩
  · change env.rollbackSub c.w = env.rollbackSub s.w
    rw [good.world]
  · have same : c₂.regs σ.nregs = c.regs σ.nregs := agree _ (by omega)
    have reg₂ : (c₂.regs σ.nregs).toPtr = f := by rw [same]; exact reg
    refine .handlerDone reg₂ lt live ?_
    exact inner.mono (Nat.le_refl _)
      (fun x member => agree _ (by have := below x member; omega)) fun _ _ => rfl

/-- No handler matches: the frame is popped and the error thrown again. -/
theorem meets_rethrow {τ : Builder Item} {f : Nat} {frame : Frame} {edata : ErrorData} {r b : Nat}
    (enters : c.Enters b) (reserved : τ.Reserved b)
    (laid : ((τ.goto b).push (.instr (.rethrow r))).Laid code)
    (good : Good (.handlerDone r :: ctx.cleanupStack) ((f, frame) :: held) false c s)
    (thrown : c.rt.curError = some edata) :
    Meets env delegate code fuel n ctx held fin c (.raise edata s) := by
  have run : Runs env delegate code 1 c (stepItem env delegate c (.instr (.rethrow r))) :=
    runs_item (enters.at reserved) laid good.running
  have chain := good.chain
  generalize above : c.rt.exceptionStack = exc at chain
  obtain _ | _ | @⟨_, _, _, _, _, _, _, reg, lt, live, below⟩ | _ := chain
  simp only [stepItem, stepInstr, Config.withFrame, reg, live, thrown] at run
  refine ⟨_, run.weaken (by omega), ⟨good.running, good.world, good.rc, ?_⟩, fun _ _ => rfl⟩
  rw [← above] at below
  exact below.mono (Nat.le_of_lt lt) (fun _ _ => rfl)
    fun g older => Function.update_of_ne (by omega) ..

/-! ### Handlers -/

/-- A handler and its meaning. -/
structure SoundHandler (env : Env W) (delegate : Delegate W) (code : Nat → List Item) (fuel : Nat)
    (handler : List Condition × Emitter) (run : List Condition × Run W) : Prop where
  conditions : handler.1 = run.1
  body : Sound env delegate code fuel handler.2 run.2

theorem SoundHandler.emits {handlers : List (List Condition × Emitter)}
    {runs : List (List Condition × Run W)}
    (sound : List.Forall₂ (SoundHandler env delegate code fuel) handlers runs) :
    ∀ h ∈ handlers, ∀ ctx, Emits (h.2 ctx) := by
  induction sound with
  | nil => simp
  | cons head _ ih =>
    intro h member
    rcases List.mem_cons.mp member with rfl | inside
    · exact head.body.emits
    · exact ih h inside

theorem SoundHandler.conditions_eq {handlers : List (List Condition × Emitter)}
    {runs : List (List Condition × Run W)}
    (sound : List.Forall₂ (SoundHandler env delegate code fuel) handlers runs) :
    handlers.map (·.1) = runs.map (·.1) := by
  induction sound with
  | nil => rfl
  | cons head _ ih => rw [List.map_cons, List.map_cons, head.conditions, ih]

/-- `runHandlers` runs the handler `findHandler` finds. -/
theorem runHandlers_eq (label : Option Nat) (runs : List (List Condition × Run W))
    (edata : ErrorData) (rctx : RunCtx) (s : RunState W) :
    runHandlers env label runs edata rctx s =
      match (findHandler edata (runs.map (·.1))).bind (runs[·]?) with
      | none => .raise edata s
      | some h => leaveLabel label (h.2 ((rctx.pushCleanup .handlerDone).pushLabel label)
          (s.map (env.setHandlerVars edata))) := by
  induction runs with
  | nil => rfl
  | cons h rest ih =>
    unfold runHandlers findHandler
    rw [List.map_cons, List.findIdx?_cons]
    cases matched : exceptionMatchesConditions edata h.1 with
    | true => rfl
    | false =>
      rw [ih, findHandler]
      simp only [Bool.false_eq_true, if_false]
      cases List.findIdx? (exceptionMatchesConditions edata) (rest.map (·.1)) <;> rfl

/-- The handler body, from the switch to the end of the block. -/
theorem meets_handler {label : Option Nat} {f afterBb : Nat} {frame : Frame} {edata : ErrorData}
    {handlerBb : Nat} {τ τ₁ τ₂ τ₃ : Builder Item} {action : Emitter} {run : Run W}
    (sound : Sound env delegate code fuel action run) (enters : c.Enters handlerBb)
    (valid : τ.Valid) (reserved : τ.Reserved handlerBb) (ok : CtxOk ctx σ.nregs)
    (le : σ.nregs + 1 ≤ τ.nregs)
    (emitted : action (handlerCtx ctx label σ) ((τ.goto handlerBb).push (.instr .setHandlerVars)) =
      some ((), τ₁))
    (laid : ((τ₁.push (.instr (.handlerDone σ.nregs))).push (.br afterBb)).Laid code)
    (returnBb : τ₂.Reserved (σ.nblocks + 4))
    (laidReturn : (pad τ₂ (σ.nblocks + 4) (.handlerDone σ.nregs) ctx.returnBb).Laid code)
    (exitBb : τ₃.Reserved (σ.nblocks + 5))
    (laidExit : (pad τ₃ (σ.nblocks + 5) (.handlerDone σ.nregs) afterBb).Laid code)
    (good : Good (.handlerDone σ.nregs :: ctx.cleanupStack) ((f, frame) :: held) false c s)
    (thrown : c.rt.curError = some edata) (linked : Linked ctx rctx c.regs) :
    Meets env delegate code fuel σ.nregs ctx held (fun c' => c'.Enters afterBb) c
      (leaveLabel label (run ((rctx.pushCleanup .handlerDone).pushLabel label)
        (s.map (env.setHandlerVars edata)))) := by
  have start : ((τ.goto handlerBb).push (.instr .setHandlerVars)).Valid :=
    ((Extends.refl (σ := τ.goto handlerBb) ⟨reserved.born, valid.unborn⟩).push _).valid
  have ext := sound.emits _ _ _ start emitted
  have laidVars : ((τ.goto handlerBb).push (.instr .setHandlerVars)).Laid code :=
    laid.of_push.of_push.of_extends ext
  -- SQLSTATE and SQLERRM are set from the error that was caught.
  let c₁ := ((c.withRt c.rt.exceptionSetHandlerVars).withWorld (env.setHandlerVars edata c.w)).next
  have run₁ : Runs env delegate code 1 c c₁ := by
    have run : Runs env delegate code 1 c (stepItem env delegate c (.instr .setHandlerVars)) :=
      runs_item (enters.at reserved) laidVars good.running
    simpa only [stepItem, stepInstr, thrown] using run
  have good₁ : Good (.handlerDone σ.nregs :: ctx.cleanupStack) ((f, frame) :: held) false c₁
      (s.map (env.setHandlerVars edata)) :=
    ⟨good.running, by
      change env.setHandlerVars edata c.w = env.setHandlerVars edata s.w
      rw [good.world], good.rc, good.chain⟩
  have at₁ : c₁.At ((τ.goto handlerBb).push (.instr .setHandlerVars)) :=
    Config.At.next (enters.at reserved)
  have okBody : CtxOk (uplPushCleanup { ctx with returnBb := σ.nblocks + 4 }
      (.handlerDone σ.nregs)) (σ.nregs + 1) :=
    (ok.mono (Nat.le_succ _)).pushCleanup (x := .handlerDone σ.nregs) (Nat.lt_succ_self _) _
  have meets := sound.implements (handlerCtx ctx label σ) _ τ₁ start (.push_instr _ _)
    ((okBody.mono le).pushLabel label _) emitted laid.of_push.of_push
    ((rctx.pushCleanup .handlerDone).pushLabel label) ((f, frame) :: held) c₁ _ at₁
    (by rw [handlerCtx, pushLabel_cleanupStack]; exact good₁)
    ((linked.pushCleanup (.handlerDone σ.nregs) _).pushLabel label _)
  -- The body, left at its label or at its end.
  have left : Meets env delegate code fuel τ.nregs (uplPushCleanup
      { ctx with returnBb := σ.nblocks + 4 } (.handlerDone σ.nregs)) ((f, frame) :: held)
      (fun c' => c'.Enters (σ.nblocks + 5) ∨ c'.At τ₁) c₁ _ :=
    meets.leaveLabel (fun c₂ s₂ at₂ good₂ => ⟨c₂, .refl c₂, .inr at₂, good₂, .refl _ c₂⟩)
      (fun _ c₂ enters₂ => .inl enters₂)
  generalize leaveLabel label (run ((rctx.pushCleanup .handlerDone).pushLabel label)
    (s.map (env.setHandlerVars edata))) = out at left ⊢
  have links : ∀ regs : Nat → Val, CleanupLink regs (.handlerDone σ.nregs) .handlerDone :=
    fun regs => .handlerDone σ.nregs
  -- Both of these go on after the block, and a RETURN through the pad of its own.
  have popped : Meets env delegate code fuel σ.nregs ctx held (fun c' => c'.Enters afterBb) c₁
      (out.release (Release.run env .handlerDone)) := by
    refine left.popCleanup ok (by omega) rfl ?_ ?_ (fun _ _ _ c₂ good₂ => good₂.popHandler)
    · rintro c₂ s₂ (enters₂ | at₂) good₂ -
      · exact runs_framePad env delegate links rfl enters₂ exitBb laidExit good₂
      · obtain ⟨c₃, run₃, at₃, good₃, same₃⟩ :=
          runs_release env delegate (x := .handlerDone σ.nregs) at₂ laid.of_push good₂ (links _)
        have branch : Runs env delegate code 1 c₃ (c₃.goto afterBb) := runs_br at₃ laid good₃.running
        exact ⟨_, (run₃.trans branch).weaken (by omega), c₃.goto_enters _, good₃.goto _,
          fun r _ => by rw [Config.goto, same₃]⟩
    · exact fun c₂ s₂ enters₂ good₂ _ =>
        runs_framePad env delegate links rfl enters₂ returnBb laidReturn good₂
  have whole := popped.prepend (run₁.weaken (by omega)) (fun _ _ => rfl)
  cases out <;> exact whole

/-- What is laid down for a block with handlers, piece by piece. -/
structure ExcLaid (σ σ₁ σ₂ : Builder Item) (ctx : Ctx) (initvars : List Nat)
    (handlers : List (List Condition)) (code : Nat → List Item) : Prop where
  arm : (((excStart σ).goto σ.nblocks).push (.instr (.arm σ.nregs))).Laid code
  enter : (excTry σ initvars).Laid code
  body : (σ₁.push (.br (σ.nblocks + 2))).Laid code
  tryReturn : (pad (σ₁.push (.br (σ.nblocks + 2))) (σ.nblocks + 3) (.tryExit σ.nregs)
    ctx.returnBb).Laid code
  pads : (excPads σ σ₁ ctx).Laid code
  catch_ : (excCatch σ (excPads σ σ₁ ctx) handlers).Laid code
  handlerReturn : (pad σ₂ (σ.nblocks + 4) (.handlerDone σ.nregs) ctx.returnBb).Laid code
  handlerExit : (pad (pad σ₂ (σ.nblocks + 4) (.handlerDone σ.nregs) ctx.returnBb) (σ.nblocks + 5)
    (.handlerDone σ.nregs) (σ.nblocks + 6)).Laid code
  rethrow : (((pad (pad σ₂ (σ.nblocks + 4) (.handlerDone σ.nregs) ctx.returnBb) (σ.nblocks + 5)
    (.handlerDone σ.nregs) (σ.nblocks + 6)).goto (σ.nblocks + 7)).push
    (.instr (.rethrow σ.nregs))).Laid code
  hands : σ₂.Laid code

theorem ExcLaid.of_end {initvars : List Nat} {handlers : List (List Condition × Emitter)}
    {hctx : Ctx} (emits : ∀ h ∈ handlers, ∀ ctx, Emits (h.2 ctx))
    (layout : ExcLayout σ σ₁ σ₂ ctx initvars (handlers.map (·.1)))
    (hands : emitHandlers σ.nregs (σ.nblocks + 6)
      ((List.range' σ₁.nblocks handlers.length).zip (handlers.map fun h => h.2 hctx))
      (excCatch σ (excPads σ σ₁ ctx) (handlers.map (·.1))) = some ((), σ₂))
    (laid : (excEnd σ σ₂ ctx).Laid code) :
    ExcLaid σ σ₁ σ₂ ctx initvars (handlers.map (·.1)) code := by
  have rethrow := laid.of_push
  have handlerExit := rethrow.of_push.of_goto
  have handlerReturn := pad_laid handlerExit
  have laid₂ := pad_laid handlerReturn
  have caught : (excCatch σ (excPads σ σ₁ ctx) (handlers.map (·.1))).Laid code := by
    refine emitHandlers_laid layout.catch_.valid ?_ ?_ hands laid₂
    · intro h member
      obtain ⟨-, -, g, inside, eq⟩ := excHandlers_own handlers _ h member
      rw [eq]
      exact emits g inside _
    · intro h member
      obtain ⟨-, lt, -⟩ := excHandlers_own handlers _ h member
      rw [excCatch_nblocks, List.length_map]
      exact lt
  have pads := caught.of_push.of_appendN.of_push.of_fresh.of_goto
  have tryReturn := pad_laid pads
  have body := pad_laid tryReturn
  have enter := body.of_push.of_extends layout.body
  exact
    { arm := enter.of_pushAll
      enter := enter
      body := body
      tryReturn := tryReturn
      pads := pads
      catch_ := caught
      handlerReturn := handlerReturn
      handlerExit := handlerExit
      rethrow := rethrow
      hands := laid₂ }

/-- The error has been caught; the switch goes to the handler or to the rethrow. -/
theorem meets_caught {label : Option Nat} {initvars : List Nat} {f : Nat} {frame : Frame}
    {edata : ErrorData} {handlers : List (List Condition × Emitter)}
    {runs : List (List Condition × Run W)}
    (sound : List.Forall₂ (SoundHandler env delegate code fuel) handlers runs)
    (layout : ExcLayout σ σ₁ σ₂ ctx initvars (handlers.map (·.1)))
    (laid : ExcLaid σ σ₁ σ₂ ctx initvars (handlers.map (·.1)) code)
    (hands : emitHandlers σ.nregs (σ.nblocks + 6)
      ((List.range' σ₁.nblocks handlers.length).zip
        (handlers.map fun h => h.2 (handlerCtx ctx label σ)))
      (excCatch σ (excPads σ σ₁ ctx) (handlers.map (·.1))) = some ((), σ₂))
    (ok : CtxOk ctx σ.nregs) (le : σ.nregs + 1 ≤ σ₁.nregs)
    (enters : c.Enters (handlerBlock σ (excPads σ σ₁ ctx) (handlers.map (·.1)) edata))
    (good : Good (.handlerDone σ.nregs :: ctx.cleanupStack) ((f, frame) :: held) false c s)
    (thrown : c.rt.curError = some edata) (linked : Linked ctx rctx c.regs) :
    Meets env delegate code fuel σ.nregs ctx held (fun c' => c'.Enters (σ.nblocks + 6)) c
      (runHandlers env label runs edata rctx s) := by
  have rethrowBb := pad_reserved (pad_reserved (layout.reserved₂ 7 (by omega) (by omega))
    (show σ.nblocks + 7 ≠ σ.nblocks + 4 by omega) (.handlerDone σ.nregs) ctx.returnBb)
    (show σ.nblocks + 7 ≠ σ.nblocks + 5 by omega) (.handlerDone σ.nregs) (σ.nblocks + 6)
  rw [runHandlers_eq, ← SoundHandler.conditions_eq sound]
  unfold handlerBlock at enters
  cases found : findHandler edata (handlers.map (·.1)) with
  | none =>
    rw [found] at enters
    exact meets_rethrow enters rethrowBb laid.rethrow good thrown
  | some i =>
    obtain ⟨lt, -⟩ := List.findIdx?_eq_some_iff_getElem.mp found
    rw [List.length_map] at lt
    have ltRuns : i < runs.length := by rw [← sound.length_eq]; exact lt
    have head := sound.get lt ltRuns
    simp only [List.get_eq_getElem] at head
    rw [found, List.length_map, Option.bind_some,
      List.getElem?_eq_getElem (by rw [List.length_range']; exact lt), Option.getD_some,
      List.getElem_range', excPads, pad_nblocks, pad_nblocks, push_nblocks] at enters
    rw [Option.bind_some, List.getElem?_eq_getElem ltRuns]
    -- The block of the handler and what was emitted there.
    have member : (σ₁.nblocks + i, handlers[i].2 (handlerCtx ctx label σ)) ∈
        (List.range' σ₁.nblocks handlers.length).zip
          (handlers.map fun h => h.2 (handlerCtx ctx label σ)) := by
      refine List.mem_of_getElem? (i := i) (List.getElem?_zip_eq_some.mpr ⟨?_, ?_⟩)
      · rw [List.getElem?_range' lt, Nat.one_mul]
      · rw [List.getElem?_map, List.getElem?_eq_getElem lt]
        rfl
    obtain ⟨τ, τ₁, valid, reserved, leτ, emitted, laidτ⟩ := emitHandlers_each layout.catch_.valid
      (fun h inside => by
        obtain ⟨-, -, g, inHandlers, eq⟩ := excHandlers_own handlers _ h inside
        rw [eq]
        exact SoundHandler.emits sound g inHandlers _)
      (fun h inside => by
        obtain ⟨le, lt, -⟩ := excHandlers_own handlers _ h inside
        exact excCatch_handler_reserved layout.pads layout.born _ le (by rw [List.length_map]; exact lt))
      (by
        rw [List.map_fst_zip (by simp)]
        exact List.nodup_range')
      hands laid.hands member
    rw [Nat.one_mul] at enters
    exact meets_handler head.body enters valid reserved ok
      (le.trans (Nat.le_trans (Nat.le_succ _) leτ)) emitted laidτ
      (layout.reserved₂ 4 (by omega) (by omega)) laid.handlerReturn
      (pad_reserved (layout.reserved₂ 5 (by omega) (by omega)) (by omega) _ _) laid.handlerExit good
      thrown linked

theorem sound_blockExceptions (label : Option Nat) (initvars : List Nat) {body : Emitter}
    {handlers : List (List Condition × Emitter)} {run : Run W}
    {runs : List (List Condition × Run W)} (sound : Sound env delegate code fuel body run)
    (soundHandlers : List.Forall₂ (SoundHandler env delegate code fuel) handlers runs) :
    Sound env delegate code fuel (compileBlockExceptions label initvars body handlers)
      (runBlockExceptions env label initvars run runs) where
  emits ctx := compileBlockExceptions_emits label initvars ctx sound.emits
    (SoundHandler.emits soundHandlers)
  keepsOpen ctx := compileBlockExceptions_keepsOpen label initvars ctx sound.emits
    (SoundHandler.emits soundHandlers)
  implements := by
    intro ctx σ σ' valid _ ok returned laid rctx held c s at' good linked
    obtain ⟨σ₁, σ₂, inner, hands, rfl⟩ := compileBlockExceptions_inv returned
    have emitsHandlers := SoundHandler.emits soundHandlers
    have layout := compileBlockExceptions_layout valid sound.emits emitsHandlers inner hands
    have laids : ExcLaid σ σ₁ σ₂ ctx initvars (handlers.map (·.1)) code :=
      .of_end emitsHandlers layout hands laid
    have afterBb := excEnd_reserved (layout.reserved₂ 6 (by omega) (by omega)) ctx
    have le : σ.nregs + 1 ≤ σ₁.nregs := by simpa [excTry, excStart] using layout.body.nregs_le
    -- Entering the block pushes a frame and arms it.
    obtain ⟨c₁, f, frame, run₁, at₁, good₁, agree₁, jmpbuf⟩ :=
      runs_tryEnter env delegate at' valid laids.arm good ok.regs
    -- Under the frame a RETURN goes to the pad that pops it, and the label ends the body.
    have okBody : CtxOk (tryCtx ctx label σ) (σ.nregs + 1) :=
      ((ok.mono (Nat.le_succ _)).pushCleanup (x := .tryExit σ.nregs) (Nat.lt_succ_self _) _).pushLabel
        label _
    have linked₁ : Linked (tryCtx ctx label σ) ((rctx.pushCleanup .tryExit).pushLabel label) c₁.regs :=
      ((linked.agree ok agree₁).pushCleanup (.tryExit σ.nregs) _).pushLabel label _
    have goodTry : Good (tryCtx ctx label σ).cleanupStack ((f, frame) :: held) false c₁
        ((s.map env.beginSub).note (·.initLate !env.initsInert initvars s.w)) := by
      rw [tryCtx, pushLabel_cleanupStack]
      exact good₁.note _
    have armed : (((excStart σ).goto σ.nblocks).push (.instr (.arm σ.nregs))).Valid :=
      ((excStart_extends valid).goto _ (Nat.le_refl _) (by simp [excStart])).push _ |>.valid
    -- The declared variables come first, inside the frame.
    have inits : Meets env delegate code fuel _ _ _ _ c₁ (runInitVars env initvars _ _) :=
      (sound_initVars initvars).implements (tryCtx ctx label σ) _ (excTry σ initvars) armed
        (.push_instr _ _) okBody (by simp [excTry, initItems]) laids.enter _ _ c₁ _ at₁ goodTry linked₁
    have regsTry : σ.nregs + 1 ≤ (excTry σ initvars).nregs := by simp [excTry, excStart]
    have meets := inits.andThen fun c₂ s₂ at₂ good₂ agree₂ =>
      (sound.implements (tryCtx ctx label σ) _ σ₁ layout.start.valid (excTry_open initvars)
        (okBody.mono regsTry) inner laids.body.of_push _ _ c₂ s₂ at₂ good₂
        (linked₁.agree okBody agree₂)).weaken regsTry
    have left : Meets env delegate code fuel (σ.nregs + 1) (uplPushCleanup
        { ctx with returnBb := σ.nblocks + 3 } (.tryExit σ.nregs)) ((f, frame) :: held)
        (fun c' => c'.Enters (σ.nblocks + 2)) c₁ _ :=
      meets.leaveLabel (fun c₂ s₂ at₂ good₂ =>
        ⟨c₂.goto (σ.nblocks + 2), (runs_br at₂ laids.body good₂.running).weaken (by omega),
          c₂.goto_enters _, good₂.goto _, .goto _ c₂ _⟩) fun _ c₂ enters₂ => enters₂
    have links : ∀ regs : Nat → Val, CleanupLink regs (.tryExit σ.nregs) .tryExit :=
      fun regs => .tryExit σ.nregs
    -- Every way out but an error pops the frame and releases the subtransaction.
    have leaves : ∀ {out : Out W}, (∀ edata s, out ≠ .raise edata s) →
        Meets env delegate code fuel (σ.nregs + 1) (uplPushCleanup
          { ctx with returnBb := σ.nblocks + 3 } (.tryExit σ.nregs)) ((f, frame) :: held)
          (fun c' => c'.Enters (σ.nblocks + 2)) c₁ out →
        Meets env delegate code fuel σ.nregs ctx held
          (fun c' => c'.At ((excEnd σ σ₂ ctx).goto (σ.nblocks + 6))) c
          (out.release env.releaseSub) := by
      intro out calm left
      refine (left.popCleanup ok (Nat.le_succ _) rfl (fun c₂ s₂ enters₂ good₂ _ => ?_)
        (fun c₂ s₂ enters₂ good₂ _ => ?_) fun edata s₂ raised => absurd raised (calm _ _)).prepend
        run₁ agree₁
      · obtain ⟨c₃, run₃, enters₃, rest⟩ := runs_framePad env delegate links rfl enters₂
          (pad_reserved ((layout.reserved₁ 2 (by omega) (by omega)).push _) (by omega) _ _) laids.pads
          good₂
        exact ⟨c₃, run₃, enters₃.at afterBb, rest⟩
      · exact runs_framePad env delegate links rfl enters₂
          ((layout.reserved₁ 3 (by omega) (by omega)).push _) laids.tryReturn good₂
    unfold runBlockExceptions runSeq
    dsimp only
    revert left
    generalize leaveLabel label ((runInitVars env initvars _ _).andThen _) = out
    intro left
    cases out with
    | raise edata s₂ =>
      -- An error lands at the armed frame, and the switch over the handlers follows.
      obtain ⟨c₂, run₂, good₂, agree₂⟩ := left
      have catchBb := excPads_reserved (layout.reserved₁ 1 (by omega) (by omega))
        (show σ.nblocks + 1 ≠ σ.nblocks + 2 by omega) (by omega) ctx
      obtain ⟨c₃, run₃, enters₃, good₃, thrown₃, agree₃⟩ :=
        runs_catch env delegate catchBb laids.catch_ le good₂ ok.regs jmpbuf
      have agree : Agree σ.nregs c c₃ := agree₁.trans
        ((agree₂.weaken (Nat.le_succ _)).trans (agree₃.weaken (Nat.le_trans (Nat.le_succ _) le)))
      exact ((meets_caught soundHandlers layout laids hands ok le enters₃ good₃ thrown₃
        (linked.agree ok agree)).prepend ((run₁.append run₂).append run₃) agree).land
        fun c₄ s₄ enters₄ good₄ => ⟨c₄, .refl c₄, enters₄.at afterBb, good₄, .refl _ c₄⟩
    | next s₂ => exact leaves (by simp) left
    | jump isExit k s₂ => exact leaves (by simp) left
    | ret s₂ => exact leaves (by simp) left
    | spent s₂ => exact leaves (by simp) left

end Uplpgsql
