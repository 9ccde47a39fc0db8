import Uplpgsql.Correctness.Branches

/-!
# Loops

LOOP, WHILE, REPEAT and the integer FOR. A round of a loop starts at one of its
blocks; the bounded iteration of rounds is met by `loopN_met`.
-/

namespace Uplpgsql

open Lib.Blocks Lib.Iteration Builder

variable {W : Type} {env : Env W} {delegate : Delegate W} {code : Nat → List Item} {fuel : Nat}
variable {n : Nat} {ctx : Ctx} {rctx : RunCtx} {held : List (Nat × Frame)}
  {fin : Config W → Prop} {c : Config W} {s : RunState W} {σ σ' σ₁ : Builder Item}

/-! ### The context of a loop body -/

theorem Linked.cleanups_length {regs : Nat → Val} (linked : Linked ctx rctx regs) :
    ctx.cleanupStack.length = rctx.cleanups.length := linked.cleanups.length_eq

theorem Linked.pushLoop {regs : Nat → Val} (linked : Linked ctx rctx regs) (label : Option Nat)
    (isFor : Bool) (continueBb exitBb : Nat) :
    Linked (uplPushLoop ctx label continueBb exitBb) (rctx.pushLoop label isFor) regs :=
  ⟨.cons ⟨rfl, rfl, linked.cleanups_length⟩ linked.loops, linked.cleanups⟩

theorem CtxOk.pushLoop (ok : CtxOk ctx n) (label : Option Nat) (continueBb exitBb : Nat) :
    CtxOk (uplPushLoop ctx label continueBb exitBb) n where
  regs := ok.regs
  depths info member := by
    rcases List.mem_cons.mp member with rfl | inside
    · exact Nat.le_refl _
    · exact ok.depths info inside

/-- How the body of a loop ends: it reaches the end of its code or the continue
block, or the exit block, or leaves the loop altogether. -/
theorem Meets.leaveBody {label : Option Nat} {continueBb exitBb : Nat} {out : Out W}
    (exited : RunState W → Out W)
    (meets : Meets env delegate code fuel n (uplPushLoop ctx label continueBb exitBb) held fin c out) :
    match leaveBody exited out with
    | .inl s => ∃ c', (Runs env delegate code 0 c c' ∧ fin c' ∨
          Runs env delegate code 1 c c' ∧ c'.Enters continueBb) ∧
        Good ctx.cleanupStack held false c' s ∧ Agree n c c'
    | .inr o =>
      (∃ s c', o = exited s ∧ Runs env delegate code 0 c c' ∧ c'.Enters exitBb ∧
        Good ctx.cleanupStack held false c' s ∧ Agree n c c') ∨
      ∀ fin', Meets env delegate code fuel n ctx held fin' c o := by
  cases out with
  | next s =>
    obtain ⟨c', run, at', good, agree⟩ := meets
    exact ⟨c', .inl ⟨run, at'⟩, good, agree⟩
  | jump isExit k s =>
    obtain ⟨c', info, target, run, found, goes, enters, good, agree⟩ := meets
    cases k with
    | zero =>
      obtain rfl := Option.some.inj found
      simp only [uplPushLoop, Ctx.cleanupDepth, Nat.sub_self, List.drop_zero, dropHeld] at good
      cases isExit with
      | true =>
        obtain rfl := Option.some.inj goes
        exact .inl ⟨s, c', rfl, run.weaken (by omega), enters, good, agree⟩
      | false =>
        obtain rfl := Option.some.inj goes
        exact ⟨c', .inr ⟨run, enters⟩, good, agree⟩
    | succ k =>
      cases isExit <;> exact .inr fun _ => ⟨c', info, target, run, found, goes, enters, good, agree⟩
  | ret s => exact .inr fun _ => meets
  | raise edata s => exact .inr fun _ => meets
  | spent s => exact .inr fun _ => meets

/-- A bounded loop of rounds, each of which starts at its place in the code and
ends there again or ends the loop. A round may hold more than the loop. -/
theorem meets_loopN {α : Type} {cleanups : List Cleanup} {held' : List (Nat × Frame)}
    {round : α → α ⊕ Out W} (state : α → RunState W)
    (Place : α → Config W → Prop)
    (each : ∀ a c', Place a c' → Good cleanups held' false c' (state a) → Agree n c c' →
      match round a with
      | .inl again => ∃ c'', Runs env delegate code 1 c' c'' ∧ Place again c'' ∧
          Good cleanups held' false c'' (state again) ∧ Agree n c' c''
      | .inr stop => Meets env delegate code fuel n ctx held fin c' stop)
    (a : α) (place : Place a c) (good : Good cleanups held' false c (state a)) :
    Meets env delegate code fuel n ctx held fin c
      (loopN round (fun a => .spent (state a)) fuel a) := by
  refine loopN_met (fun a c' => Place a c' ∧ Good cleanups held' false c' (state a) ∧
      Agree n c c') (fun c' out => Meets env delegate code fuel n ctx held fin c' out)
    (fun a c' out here run meets => meets.prepend run here.2.2)
    ?_ ?_ a ⟨place, good, .refl n c⟩
  · rintro a c' ⟨_, good', _⟩ run
    exact ⟨c', good'.world, .inl ⟨run, good'.running⟩⟩
  rintro a c' ⟨place', good', agree'⟩
  have next := each a c' place' good' agree'
  split
  next again eq =>
    rw [eq] at next
    obtain ⟨c'', run, place'', good'', agree''⟩ := next
    exact ⟨c'', run, place'', good'', agree'.trans agree''⟩
  next stop eq =>
    rw [eq] at next
    exact next

/-! ### LOOP -/

theorem sound_loop (label : Option Nat) {body : Emitter} {run : Run W}
    (sound : Sound env delegate code fuel body run) :
    Sound env delegate code fuel (uplEmitLoop label body) (runLoop fuel label run) where
  emits ctx := uplEmitLoop_emits label ctx sound.emits
  keepsOpen ctx := uplEmitLoop_keepsOpen label ctx sound.emits
  implements := by
    intro ctx σ σ' valid _ ok returned laid rctx held c s at' good linked
    obtain ⟨σ₁, inner, rfl⟩ := uplEmitLoop_inv returned
    have start := loopBody_extends valid
    have ext := sound.emits _ _ _ start.valid inner
    have laid₁ : σ₁.Laid code := Laid.of_push (σ := σ₁) laid
    have bodyBb : (σ.append.append.push (.br σ.nblocks)).Reserved σ.nblocks :=
      (Reserved.appended valid).append.push _
    have exitBb := (loopBody_exit_reserved valid).survives ext
    have laidBody : (loopBody σ).Laid code := laid₁.of_extends ext
    refine Meets.br (σ := σ.append.append) at' laidBody good.running ?_
    refine meets_loopN id (fun _ c' => c'.Enters σ.nblocks) ?_ s (c.goto_enters _) (good.goto _)
    intro s₁ c₁ enters good₁ agree₁
    have linked₁ : Linked ctx rctx c₁.regs := linked.agree ok agree₁
    have meets := sound.implements _ _ σ₁ start.valid (.goto bodyBb)
      ((ok.mono start.nregs_le).pushLoop label _ _) inner laid₁ _ held c₁ s₁ (enters.at bodyBb) good₁
      (linked₁.pushLoop label false _ _)
    have left := (meets.weaken start.nregs_le).leaveBody .next
    split
    next again eq =>
      rw [eq] at left
      obtain ⟨c₂, ⟨run, ends⟩ | ⟨run, continues⟩, good₂, agree₂⟩ := left
      · have back : Runs env delegate code 1 c₂ (c₂.goto σ.nblocks) := runs_br ends laid good₂.running
        exact ⟨_, run.append back, c₂.goto_enters _, good₂.goto _, agree₂⟩
      · exact ⟨c₂, run, continues, good₂, agree₂⟩
    next stop eq =>
      rw [eq] at left
      rcases left with ⟨s₂, c₂, rfl, run, enters₂, good₂, agree₂⟩ | left
      · exact ⟨c₂, run, enters₂.at (exitBb.push _), good₂, agree₂⟩
      · exact left _

/-! ### WHILE and REPEAT -/

/-- The condition block of a WHILE. -/
def whileCond (σ : Builder Item) : Builder Item :=
  (σ.append.append.append.push (.br σ.nblocks)).goto σ.nblocks

theorem implements_while (label : Option Nat) (expr : Nat) {body : Emitter} {run : Run W}
    (sound : Sound env delegate code fuel body run) :
    Implements env delegate code fuel (uplEmitCondLoop label expr true body)
      (runCondLoop env fuel label expr true run) := by
  intro ctx σ σ' valid _ ok returned laid rctx held c s at' good linked
  obtain ⟨σ₁, inner, rfl⟩ := uplEmitWhile_inv returned
  have start := whileBody_extends valid expr
  have ext := sound.emits _ _ _ start.valid inner
  have laid₁ : σ₁.Laid code := Laid.of_push (σ := σ₁) laid
  have laidBody : (whileBody σ expr).Laid code := laid₁.of_extends ext
  have laidTest : ((whileCond σ).fresh.push (.instr (.evalBool σ.nregs expr))).Laid code :=
    Laid.of_push (σ := (whileCond σ).fresh.push (.instr (.evalBool σ.nregs expr))) laidBody
  have laidBr : (σ.append.append.append.push (.br σ.nblocks)).Laid code :=
    Laid.of_push (σ := (whileCond σ).fresh) laidTest
  have condBb := (condLoop_reserved valid 0 (by omega)).push (.br σ.nblocks)
  have bodyBb := ((((condLoop_reserved valid 1 (by omega)).push (.br σ.nblocks)).goto σ.nblocks
    (by omega)).fresh.push (.instr (.evalBool σ.nregs expr))).push
    (.condBr σ.nregs (σ.nblocks + 1) (σ.nblocks + 2))
  have exitBb := (whileBody_exit_reserved valid expr).survives ext
  refine Meets.br (σ := σ.append.append.append) at' laidBr good.running ?_
  -- Every round starts at the block of the condition.
  refine meets_loopN id (fun _ c' => c'.Enters σ.nblocks) ?_ s (c.goto_enters _) (good.goto _)
  intro s₁ c₁ enters good₁ agree₁
  have linked₁ : Linked ctx rctx c₁.regs := linked.agree ok agree₁
  rw [id_eq] at good₁
  have evaluated := step_evalBool env delegate fuel (σ := whileCond σ) (enters.at condBb) laidTest good₁ ok
  unfold runWhileRound
  cases result : env.evalBool expr s₁.w with
  | raise edata w =>
    rw [result] at evaluated
    exact evaluated _ _
  | ok value w =>
    rw [result] at evaluated
    obtain ⟨c₂, run₂, at₂, good₂, agree₂, reg⟩ := evaluated
    have branch : Runs env delegate code 1 c₂ _ := runs_condBr at₂ laidBody good₂.running reg
    dsimp only
    cases truth : isTrue value with
    | false =>
      rw [truth] at branch
      exact ⟨_, (run₂.trans branch).weaken (by omega),
        (c₂.goto_enters _).at (exitBb.push _), good₂.goto _, agree₂⟩
    | true =>
      rw [truth] at branch
      have meets := sound.implements _ _ σ₁ start.valid (.goto bodyBb)
        ((ok.mono start.nregs_le).pushLoop label _ _) inner laid₁ _ held (c₂.goto (σ.nblocks + 1)) _
        ((c₂.goto_enters _).at bodyBb) (good₂.goto _)
        ((linked₁.agree ok agree₂).pushLoop label false σ.nblocks (σ.nblocks + 2))
      have left := ((meets.weaken start.nregs_le).prepend
        ((run₂.trans branch).weaken (by omega)) agree₂).leaveBody .next
      rw [if_pos rfl]
      split
      next again eq =>
        rw [eq] at left
        -- The body ran to its end and jumps back, or a CONTINUE came here.
        obtain ⟨c₃, ⟨run₃, ends⟩ | ⟨run₃, continues⟩, good₃, agree₃⟩ := left
        · have back : Runs env delegate code 1 c₃ (c₃.goto σ.nblocks) :=
            runs_br ends laid good₃.running
          exact ⟨_, run₃.append back, c₃.goto_enters _, good₃.goto _, agree₃⟩
        · exact ⟨c₃, run₃, continues, good₃, agree₃⟩
      next stop eq =>
        rw [eq] at left
        rcases left with ⟨s₃, c₃, rfl, run₃, enters₃, good₃, agree₃⟩ | left
        · exact ⟨c₃, run₃, enters₃.at (exitBb.push _), good₃, agree₃⟩
        · exact left _

theorem implements_repeat (label : Option Nat) (expr : Nat) {body : Emitter} {run : Run W}
    (sound : Sound env delegate code fuel body run) :
    Implements env delegate code fuel (uplEmitCondLoop label expr false body)
      (runCondLoop env fuel label expr false run) := by
  intro ctx σ σ' valid _ ok returned laid rctx held c s at' good linked
  obtain ⟨σ₁, inner, rfl⟩ := uplEmitRepeat_inv returned
  have start := repeatBody_extends valid
  have ext := sound.emits _ _ _ start.valid inner
  have laidTest : (repeatTest σ σ₁ expr).Laid code := laid
  have laidEval : (((σ₁.push (.br σ.nblocks)).goto σ.nblocks).fresh.push
      (.instr (.evalBool σ₁.nregs expr))).Laid code := laidTest.of_push
  have laidBr : (σ₁.push (.br σ.nblocks)).Laid code :=
    Laid.of_push (σ := ((σ₁.push (.br σ.nblocks)).goto σ.nblocks).fresh) laidEval
  have laid₁ : σ₁.Laid code := laidBr.of_push
  have laidBody : (repeatBody σ).Laid code := laid₁.of_extends ext
  have bodyBb := (condLoop_reserved valid 1 (by omega)).push (.br (σ.nblocks + 1))
  have condBb := ((repeatBody_reserved valid).1.survives ext).push (.br σ.nblocks)
  have exitBb := repeatTest_exit_reserved ((repeatBody_reserved valid).2.survives ext) expr
  have ok₁ : CtxOk ctx σ₁.nregs := ok.mono (start.trans ext).nregs_le
  refine Meets.br (σ := σ.append.append.append) at' laidBody good.running ?_
  refine meets_loopN id (fun _ c' => c'.Enters (σ.nblocks + 1)) ?_ s (c.goto_enters _) (good.goto _)
  intro s₁ c₁ enters good₁ agree₁
  have linked₁ : Linked ctx rctx c₁.regs := linked.agree ok agree₁
  have meets := sound.implements _ _ σ₁ start.valid (.goto bodyBb)
    ((ok.mono start.nregs_le).pushLoop label _ _) inner laid₁ _ held c₁ s₁ (enters.at bodyBb) good₁
    (linked₁.pushLoop label false σ.nblocks (σ.nblocks + 2))
  have left := (meets.weaken start.nregs_le).leaveBody .next
  unfold runRepeatRound
  cases ended : leaveBody .next (run (rctx.pushLoop label false) s₁) with
  | inr stop =>
    rw [ended] at left
    rcases left with ⟨s₃, c₃, rfl, run₃, enters₃, good₃, agree₃⟩ | left
    · exact ⟨c₃, run₃, enters₃.at exitBb, good₃, agree₃⟩
    · exact left _
  | inl s₂ =>
    rw [ended] at left
    -- Falling off the body and CONTINUE meet at the condition block.
    obtain ⟨c₂, run₂, enters₂, good₂, agree₂⟩ : ∃ c₂, Runs env delegate code 1 c₁ c₂ ∧
        c₂.Enters σ.nblocks ∧ Good ctx.cleanupStack held false c₂ s₂ ∧ Agree σ.nregs c₁ c₂ := by
      obtain ⟨c₂, ⟨run₂, ends⟩ | ⟨run₂, continues⟩, good₂, agree₂⟩ := left
      · have back : Runs env delegate code 1 c₂ (c₂.goto σ.nblocks) :=
          runs_br ends laidBr good₂.running
        exact ⟨_, run₂.append back, c₂.goto_enters _, good₂.goto _, agree₂⟩
      · exact ⟨c₂, run₂, continues, good₂, agree₂⟩
    have evaluated :=
      step_evalBool env delegate fuel (σ := (σ₁.push (.br σ.nblocks)).goto σ.nblocks) (enters₂.at condBb)
        laidEval good₂ ok₁
    dsimp only
    cases result : env.evalBool expr s₂.w with
    | raise edata w =>
      rw [result] at evaluated
      exact (evaluated _ _).prepend (run₂.weaken (by omega)) agree₂
    | ok value w =>
      rw [result] at evaluated
      obtain ⟨c₃, run₃, at₃, good₃, agree₃, reg⟩ := evaluated
      have branch : Runs env delegate code 1 c₃ _ := runs_condBr at₃ laidTest good₃.running reg
      have agree := agree₂.trans (agree₃.weaken (start.trans ext).nregs_le)
      dsimp only
      cases truth : isTrue value with
      | true =>
        rw [truth] at branch
        exact ⟨_, ((run₂.trans run₃).trans branch).weaken (by omega), (c₃.goto_enters _).at exitBb, good₃.goto _, agree⟩
      | false =>
        rw [truth] at branch
        exact ⟨_, ((run₂.trans run₃).trans branch).weaken (by omega), c₃.goto_enters _,
          good₃.goto _, agree⟩

theorem sound_condLoop (label : Option Nat) (expr : Nat) (testAtTop : Bool) {body : Emitter}
    {run : Run W} (sound : Sound env delegate code fuel body run) :
    Sound env delegate code fuel (uplEmitCondLoop label expr testAtTop body)
      (runCondLoop env fuel label expr testAtTop run) where
  emits ctx := uplEmitCondLoop_emits label expr testAtTop ctx sound.emits
  keepsOpen ctx := uplEmitCondLoop_keepsOpen label expr testAtTop ctx sound.emits
  implements := by
    cases testAtTop with
    | true => exact implements_while label expr sound
    | false => exact implements_repeat label expr sound

end Uplpgsql
