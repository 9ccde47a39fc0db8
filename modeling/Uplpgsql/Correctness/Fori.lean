import Uplpgsql.Correctness.Loops

/-!
# The integer FOR loop

The registers of the loop keep the bound, the BY value, the loop value and the
found flag from round to round; the body has registers of its own.
-/

namespace Uplpgsql

open Lib.Blocks Lib.Iteration Builder

variable {W : Type} {env : Env W} {delegate : Delegate W} {code : Nat → List Item} {fuel : Nat}
variable {n : Nat} {ctx : Ctx} {rctx : RunCtx} {held : List (Nat × Frame)}
  {fin : Config W → Prop} {c : Config W} {s : RunState W} {σ σ' σ₁ : Builder Item}

/-- What a loop's registers hold between rounds, counted from the first. -/
structure ForiRegs (base : Nat) (upper step value : BitVec 32) (found : Bool) (c : Config W) :
    Prop where
  upper : c.regs (base + 1) = .int upper
  step : c.regs (base + 2) = .int step
  value : c.regs (base + 3) = .int value
  found : c.regs (base + 4) = .bool found

theorem ForiRegs.agree {base : Nat} {upper step value : BitVec 32} {found : Bool} {c c' : Config W}
    (regs : ForiRegs base upper step value found c) {m : Nat} (agree : Agree m c c')
    (le : base + 5 ≤ m) : ForiRegs base upper step value found c' where
  upper := by rw [agree _ (by omega)]; exact regs.upper
  step := by rw [agree _ (by omega)]; exact regs.step
  value := by rw [agree _ (by omega)]; exact regs.value
  found := by rw [agree _ (by omega)]; exact regs.found

variable (env delegate) in
/-- The condition block: the loop value goes to a register and is compared. -/
theorem runs_foriCond {reverse : Bool} {loopVal upperReg bodyBb exitBb : Nat}
    {upper value : BitVec 32} (at' : c.At σ)
    (laid : (foriCond σ reverse loopVal upperReg bodyBb exitBb).Laid code)
    (good : Good ctx.cleanupStack held false c s) (ok : CtxOk ctx σ.nregs)
    (upperLt : upperReg < σ.nregs) (valueReg : c.regs loopVal = .int value)
    (upperVal : c.regs upperReg = .int upper) :
    ∃ c', Runs env delegate code 1 c c' ∧
      c'.Enters (if doneTest reverse value upper then exitBb else bodyBb) ∧
      Good ctx.cleanupStack held false c' s ∧ Agree σ.nregs c c' ∧
      c'.regs σ.nregs = .int value := by
  have laidTest : ((σ.fresh.push (.instr (.move σ.nregs loopVal))).fresh.push
      (.instr (foriTest reverse (σ.nregs + 1) σ.nregs upperReg))).Laid code := laid.of_push
  have laidMove : (σ.fresh.push (.instr (.move σ.nregs loopVal))).Laid code :=
    Laid.of_push (σ := (σ.fresh.push (.instr (.move σ.nregs loopVal))).fresh) laidTest
  obtain ⟨c₁, run₁, at₁, good₁, cur₁, others₁⟩ :=
    step_reg env delegate (σ := σ.fresh) at' laidMove good ok.regs (Nat.le_refl _) rfl
  rw [valueReg] at cur₁
  have upper₁ : c₁.regs upperReg = .int upper := by rw [others₁ _ (by omega), upperVal]
  have effect : stepInstr env delegate c₁ (foriTest reverse (σ.nregs + 1) σ.nregs upperReg) =
      (c₁.setReg (σ.nregs + 1) (.bool (doneTest reverse value upper))).next := by
    cases reverse <;> simp [foriTest, stepInstr, doneTest, cur₁, upper₁, Val.toInt32]
  obtain ⟨c₂, run₂, at₂, good₂, done₂, others₂⟩ := step_reg env delegate
    (σ := (σ.fresh.push (.instr (.move σ.nregs loopVal))).fresh) at₁ laidTest good₁ ok.regs
    (Nat.le_succ _) effect
  have run₃ : Runs env delegate code 1 c₂ _ := runs_condBr at₂ laid good₂.running done₂
  refine ⟨_, ((run₁.trans run₂).trans run₃).weaken (by omega), c₂.goto_enters _, good₂.goto _,
    fun r lt => ?_, ?_⟩
  · exact (others₂ r (by omega)).trans (others₁ r (by omega))
  · exact (others₂ _ (by omega)).trans cur₁

variable (env delegate) in
/-- The step block: the next value, the overflow test, and the store. -/
theorem runs_foriStep {reverse : Bool} {base condBb exitBb : Nat} {upper step value : BitVec 32}
    {found : Bool} (at' : c.At σ) (valid : σ.Valid)
    (laid : (foriStore σ reverse (base + 3) (base + 2) condBb exitBb).Laid code)
    (good : Good ctx.cleanupStack held false c s) (ok : CtxOk ctx n) (above : n ≤ base)
    (le : base + 5 ≤ σ.nregs) (regs : ForiRegs base upper step value found c) :
    ∃ c', Runs env delegate code 1 c c' ∧ Good ctx.cleanupStack held false c' s ∧ Agree n c c' ∧
      if wraps reverse value step then
        c'.Enters exitBb ∧ ForiRegs base upper step value found c'
      else c'.Enters condBb ∧ ForiRegs base upper step (nextValue reverse value step) found c' := by
  have storeBb : (foriCheck σ reverse (base + 3) (base + 2) exitBb).Reserved σ.nblocks :=
    ((((Reserved.appended ((Extends.refl valid).fresh.push _).valid).fresh.push _).fresh.push
      _).push _)
  have laidStore : (((foriCheck σ reverse (base + 3) (base + 2) exitBb).goto σ.nblocks).push
      (.instr (.move (base + 3) (σ.nregs + 1)))).Laid code := laid.of_push
  have laidCheck : (foriCheck σ reverse (base + 3) (base + 2) exitBb).Laid code :=
    Laid.of_push (σ := (foriCheck σ reverse (base + 3) (base + 2) exitBb).goto σ.nblocks) laidStore
  have laidOver := laidCheck.of_push
  have laidNext := Laid.of_push (σ := Builder.fresh _) laidOver
  have laidMove := Laid.of_push (σ := Builder.fresh (Builder.append _)) laidNext
  -- The old value is kept in a register, then the next one is computed beside it.
  obtain ⟨c₁, run₁, at₁, good₁, cur₁, others₁⟩ := step_reg env delegate (σ := σ.fresh) at' laidMove
    good ok.regs (show n ≤ σ.nregs by omega) rfl
  rw [regs.value] at cur₁
  have step₁ : c₁.regs (base + 2) = .int step := by rw [others₁ _ (by omega), regs.step]
  have effect₂ : stepInstr env delegate c₁ (foriNext reverse (σ.nregs + 1) σ.nregs (base + 2)) =
      (c₁.setReg (σ.nregs + 1) (.int (nextValue reverse value step))).next := by
    cases reverse <;> simp [foriNext, stepInstr, nextValue, cur₁, step₁, Val.toInt32]
  obtain ⟨c₂, run₂, at₂, good₂, next₂, others₂⟩ := step_reg env delegate
    (σ := (σ.fresh.push (.instr (.move σ.nregs (base + 3)))).append.fresh) at₁ laidNext good₁ ok.regs
    (show n ≤ σ.nregs + 1 by omega) effect₂
  have cur₂ : c₂.regs σ.nregs = .int value := by rw [others₂ _ (by omega), cur₁]
  -- A wrap shows in the two values: the next one is on the wrong side of the old.
  have effect₃ : stepInstr env delegate c₂
      (foriOverflow reverse (σ.nregs + 2) (σ.nregs + 1) σ.nregs) =
      (c₂.setReg (σ.nregs + 2) (.bool (wraps reverse value step))).next := by
    cases reverse <;> simp [foriOverflow, stepInstr, wraps, cur₂, next₂, Val.toInt32, nextValue]
  obtain ⟨c₃, run₃, at₃, good₃, over₃, others₃⟩ := step_reg env delegate at₂ laidOver good₂ ok.regs
    (show n ≤ σ.nregs + 2 by omega) effect₃
  have regs₃ : ForiRegs base upper step value found c₃ := regs.agree (m := base + 5)
    (fun r lt => (others₃ r (by omega)).trans
      ((others₂ r (by omega)).trans (others₁ r (by omega)))) (Nat.le_refl _)
  have agree₃ : Agree n c c₃ := fun r lt => (others₃ r (by omega)).trans
    ((others₂ r (by omega)).trans (others₁ r (by omega)))
  have branch : Runs env delegate code 1 c₃ _ := runs_condBr at₃ laidCheck good₃.running over₃
  have whole := (((run₁.trans run₂).trans run₃).trans branch)
  -- The loop ends at a wrap; otherwise the next value is stored.
  cases overflow : wraps reverse value step with
  | true =>
    rw [overflow] at whole
    exact ⟨_, whole.weaken (by omega), good₃.goto _, agree₃, c₃.goto_enters _,
      ⟨regs₃.upper, regs₃.step, regs₃.value, regs₃.found⟩⟩
  | false =>
    rw [overflow] at whole
    have next₃ : (c₃.goto σ.nblocks).regs (σ.nregs + 1) = .int (nextValue reverse value step) :=
      (others₃ _ (by omega)).trans next₂
    obtain ⟨c₄, run₄, at₄, good₄, value₄, others₄⟩ := step_reg env delegate
      ((c₃.goto_enters σ.nblocks).at storeBb) laidStore (good₃.goto σ.nblocks) ok.regs
      (show n ≤ base + 3 by omega) rfl
    rw [next₃] at value₄
    have back : Runs env delegate code 1 c₄ (c₄.goto condBb) := runs_br at₄ laid good₄.running
    refine ⟨_, ((whole.trans run₄).trans back).weaken (by omega), good₄.goto _, ?_, ?_⟩
    · exact fun r lt => (others₄ r (by omega)).trans (agree₃ r lt)
    · exact ⟨c₄.goto_enters _, (others₄ _ (by omega)).trans regs₃.upper,
        (others₄ _ (by omega)).trans regs₃.step, value₄, (others₄ _ (by omega)).trans regs₃.found⟩

/-- The bounds and the BY value are evaluated, and the loop is entered. -/
theorem meets_foriSetup {lower upper : Nat} {step : Option Nat}
    {next : BitVec 32 → BitVec 32 → BitVec 32 → RunState W → Out W} (at' : c.At σ)
    (laid : (foriSetup σ lower upper step).Laid code)
    (good : Good ctx.cleanupStack held false c s) (ok : CtxOk ctx σ.nregs)
    (rest : ∀ c' s' lo hi by', c'.Enters σ.nblocks → Good ctx.cleanupStack held false c' s' →
      Agree σ.nregs c c' → ForiRegs σ.nregs hi by' lo false c' →
      Meets env delegate code fuel σ.nregs ctx held fin c' (next lo hi by' s')) :
    Meets env delegate code fuel σ.nregs ctx held fin c
      (runBound env lower s fun lo s => runBound env upper s fun hi s =>
        runStep env step s fun by' s => next lo hi by' s) := by
  have laidFound := Laid.of_push (σ := Builder.append (Builder.append (Builder.append
    (Builder.append _)))) laid
  have laidMove := laidFound.of_push
  have laidStep := Laid.of_push (σ := Builder.fresh (Builder.fresh _)) laidMove
  have laidUpper := Laid.of_push (σ := Builder.fresh _) laidStep
  have laidLower := Laid.of_push (σ := Builder.fresh _) laidUpper
  refine meets_evalInt at' laidLower good ok (Nat.le_refl _)
    fun c₁ s₁ lo at₁ good₁ agree₁ lower₁ => ?_
  refine meets_evalInt at₁ laidUpper good₁ (ok.mono (by simp)) (by simp)
    fun c₂ s₂ hi at₂ good₂ agree₂ upper₂ => ?_
  refine meets_step at₂ laidStep good₂ (ok.mono (by simp; omega)) (by simp; omega)
    fun c₃ s₃ by' at₃ good₃ agree₃ step₃ => ?_
  simp only [push_nregs, fresh_nregs] at upper₂ step₃ agree₂ agree₃
  have lower₃ : c₃.regs σ.nregs = .int lo := by
    rw [agree₃ _ (by omega), agree₂ _ (by omega), lower₁]
  have upper₃ : c₃.regs (σ.nregs + 1) = .int hi := by rw [agree₃ _ (by omega), upper₂]
  obtain ⟨c₄, run₄, at₄, good₄, value₄, others₄⟩ := step_reg env delegate
    (σ := Builder.fresh (Builder.fresh _)) at₃ laidMove good₃ ok.regs
    (show σ.nregs ≤ σ.nregs + 3 by omega) rfl
  rw [lower₃] at value₄
  obtain ⟨c₅, run₅, at₅, good₅, found₅, others₅⟩ := step_reg env delegate at₄ laidFound good₄ ok.regs
    (show σ.nregs ≤ σ.nregs + 4 by omega) rfl
  have enter : Runs env delegate code 1 c₅ (c₅.goto σ.nblocks) := runs_br at₅ laid good₅.running
  have agree : ∀ r, r < σ.nregs + 3 → c₅.regs r = c₃.regs r := fun r lt =>
    (others₅ r (by omega)).trans (others₄ r (by omega))
  refine Meets.prepend (((run₄.trans run₅).trans enter).weaken (by omega))
    (fun r lt => agree r (by omega)) (rest (c₅.goto σ.nblocks) s₃ lo hi by' (c₅.goto_enters _)
      (good₅.goto _) ?_ ?_)
  · exact fun r lt => ((agree r (by omega)).trans (agree₃ r (by omega))).trans
      ((agree₂ r (by omega)).trans (agree₁ r lt))
  · exact
      { upper := (agree _ (by omega)).trans upper₃
        step := (agree _ (by omega)).trans step₃
        value := (others₅ _ (by omega)).trans value₄
        found := found₅ }

/-- The head of the body: the flag is set and the loop variable assigned. -/
theorem meets_foriAssign {base var : Nat} {upper step value : BitVec 32} {found : Bool}
    (at' : c.At σ)
    (laid : ((σ.push (.instr (.const (base + 4) (.bool true)))).push
      (.instr (.assignInt var (base + 5)))).Laid code)
    (good : Good ctx.cleanupStack held false c s) (ok : CtxOk ctx base)
    (regs : ForiRegs base upper step value found c) (cur : c.regs (base + 5) = .int value) :
    match env.assignInt var value s.w with
    | .raise edata w =>
      ∀ fin, Meets env delegate code fuel base ctx held fin c (.raise edata (s.set w))
    | .ok _ w =>
      ∃ c', Runs env delegate code 1 c c' ∧
        c'.At ((σ.push (.instr (.const (base + 4) (.bool true)))).push
          (.instr (.assignInt var (base + 5)))) ∧
        Good ctx.cleanupStack held false c' (s.set w) ∧ Agree base c c' ∧
        ForiRegs base upper step value true c' := by
  obtain ⟨c₁, run₁, at₁, good₁, found₁, others₁⟩ := step_reg env delegate at' laid.of_push good
    ok.regs (show base ≤ base + 4 by omega) rfl
  have run₂ : Runs env delegate code 1 c₁
      (stepItem env delegate c₁ (.instr (.assignInt var (base + 5)))) :=
    runs_item at₁ laid good₁.running
  have cur₁ : c₁.regs (base + 5) = .int value := by rw [others₁ _ (by omega), cur]
  simp only [stepItem, stepInstr, good₁.world, cur₁, Val.toInt32] at run₂
  have agree₁ : Agree base c c₁ := fun r lt => others₁ r (by omega)
  cases result : env.assignInt var value s.w with
  | raise edata w =>
    rw [result] at run₂
    exact fun fin => ⟨_, (run₁.trans run₂).weaken (by omega), good₁.withWorld w, agree₁⟩
  | ok _ w =>
    rw [result] at run₂
    refine ⟨_, (run₁.trans run₂).weaken (by omega), ⟨at₁.1, by rw [push_offset, ← at₁.2]; rfl⟩,
      (good₁.withWorld w).next, agree₁, ?_⟩
    exact
      { upper := (others₁ _ (by omega)).trans regs.upper
        step := (others₁ _ (by omega)).trans regs.step
        value := (others₁ _ (by omega)).trans regs.value
        found := found₁ }

theorem sound_fori (label : Option Nat) (var lower upper : Nat) (step : Option Nat) (reverse : Bool)
    {body : Emitter} {run : Run W} (sound : Sound env delegate code fuel body run) :
    Sound env delegate code fuel (uplEmitFori label var lower upper step reverse body)
      (runFori env fuel label var lower upper step reverse run) where
  emits ctx := uplEmitFori_emits label var lower upper step reverse ctx sound.emits
  keepsOpen ctx := uplEmitFori_keepsOpen label var lower upper step reverse ctx
  implements := by
    intro ctx σ σ' valid _ ok returned laid rctx held c s at' good linked
    obtain ⟨σ₁, inner, rfl⟩ := uplEmitFori_inv returned
    have start := foriBody_extends valid var lower upper step reverse
    have ext := sound.emits _ _ _ start.valid inner
    have regsLe : σ.nregs + 7 ≤ σ₁.nregs := ext.nregs_le
    have exit₁ := (foriBody_reserved valid var lower upper step reverse 3 (by omega)
      (by omega)).survives ext
    have step₁ := (foriBody_reserved valid var lower upper step reverse 2 (by omega)
      (by omega)).survives ext
    have exitBb := foriTail_exit_reserved exit₁ reverse
    have laidTail : (foriTail σ σ₁ reverse).Laid code :=
      Laid.of_push (σ := Builder.fresh ((foriTail σ σ₁ reverse).goto (σ.nblocks + 3))) laid.of_push
    have validStep : ((σ₁.push (.br (σ.nblocks + 2))).goto (σ.nblocks + 2)).Valid :=
      ⟨step₁.born, ((Extends.refl ext.valid).push _).valid.unborn⟩
    have laidBr : (σ₁.push (.br (σ.nblocks + 2))).Laid code :=
      Laid.of_extends (σ := Builder.goto _ (σ.nblocks + 2)) laidTail
        (foriStore_extends (.refl validStep) reverse _ _ _ _)
    have laid₁ : σ₁.Laid code := laidBr.of_push
    have laidBody := laid₁.of_extends ext
    have laidCond : (foriCond ((foriSetup σ lower upper step).goto σ.nblocks) reverse (σ.nregs + 3)
        (σ.nregs + 1) (σ.nblocks + 1) (σ.nblocks + 3)).Laid code :=
      Laid.of_push (σ := Builder.goto _ _) laidBody.of_push
    have condBb := foriSetup_reserved valid lower upper step 0 (by omega)
    have validCond : ((foriSetup σ lower upper step).goto σ.nblocks).Valid :=
      ⟨condBb.born, (foriSetup_extends valid lower upper step).valid.unborn⟩
    have laidSetup : (foriSetup σ lower upper step).Laid code :=
      Laid.of_extends (σ := Builder.goto _ σ.nblocks) laidCond
        (foriCond_extends (.refl validCond) reverse _ _ _ _)
    have bodyBb : (foriCond ((foriSetup σ lower upper step).goto σ.nblocks) reverse (σ.nregs + 3)
        (σ.nregs + 1) (σ.nblocks + 1) (σ.nblocks + 3)).Reserved (σ.nblocks + 1) :=
      (((((foriSetup_reserved valid lower upper step 1 (by omega)).goto _
        (by omega)).fresh.push _).fresh.push _).push _)
    have exitRegs : σ.nregs ≤ ((foriTail σ σ₁ reverse).goto (σ.nblocks + 3)).nregs := by
      simp only [foriTail, foriStore, foriCheck, goto_nregs, push_nregs, fresh_nregs, append_nregs]
      omega
    -- The exit block, whichever way it is reached.
    have leave : ∀ c' s' b hi by' value, c'.Enters (σ.nblocks + 3) →
        Good ctx.cleanupStack held false c' s' → ForiRegs σ.nregs hi by' value b c' →
        Meets env delegate code fuel σ.nregs ctx held _ c' (.next (s'.map (env.setFound b))) :=
      fun c' s' b hi by' value enters good' regs =>
        meets_foundExit (enters.at exitBb) laid good'
          (ok.mono exitRegs) exitRegs regs.found
    refine meets_foriSetup at' laidSetup good ok fun c₁ s₁ lo hi by' enters₁ good₁ agree₁ regs₁ => ?_
    refine meets_loopN ForiRun.s (fun r c' => c'.Enters σ.nblocks ∧
      ForiRegs σ.nregs hi by' r.value r.found c') ?_ ⟨s₁, lo, false⟩ ⟨enters₁, regs₁⟩ good₁
    rintro r c₂ ⟨enters₂, regs₂⟩ good₂ agree₂
    have linked₂ : Linked ctx rctx c₂.regs := linked.agree ok (agree₁.trans agree₂)
    obtain ⟨c₃, run₃, enters₃, good₃, agree₃, cur₃⟩ := runs_foriCond env delegate
      (enters₂.at condBb) laidCond good₂ (ok.mono (by simp [foriSetup]; omega))
      (by simp [foriSetup]) regs₂.value regs₂.upper
    have regs₃ := regs₂.agree agree₃ (by simp [foriSetup])
    have agree₃' : Agree σ.nregs c₂ c₃ := agree₃.weaken (by simp [foriSetup]; omega)
    unfold runForiRound
    cases done : doneTest reverse r.value hi with
    | true =>
      rw [done] at enters₃
      exact (leave c₃ r.s r.found hi by' r.value enters₃ good₃ regs₃).prepend
        (run₃.weaken (by omega)) agree₃'
    | false =>
      rw [done] at enters₃
      have assigned : match env.assignInt var r.value r.s.w with
        | .raise edata w =>
          ∀ fin, Meets env delegate code fuel σ.nregs ctx held fin c₃ (.raise edata (r.s.set w))
        | .ok _ w => _ := meets_foriAssign (enters₃.at bodyBb) laidBody good₃ ok regs₃ cur₃
      simp only [Bool.false_eq_true, if_false]
      cases result : env.assignInt var r.value r.s.w with
      | raise edata w =>
        rw [result] at assigned
        exact (assigned _).prepend (run₃.weaken (by omega)) agree₃'
      | ok _ w =>
        rw [result] at assigned
        obtain ⟨c₄, run₄, at₄, good₄, agree₄, regs₄⟩ := assigned
        have meets := sound.implements _ _ σ₁ start.valid (.push_instr _ _)
          ((ok.mono start.nregs_le).pushLoop label _ _) inner laid₁ _ held c₄ _ at₄ good₄
          ((linked₂.agree ok (agree₃'.trans agree₄)).pushLoop label true _ _)
        have left := meets.leaveBody fun s => .next (s.map (env.setFound true))
        have before := (run₃.trans run₄).weaken (show 0 ≤ 1 + 1 by omega)
        have agree₄' := agree₃'.trans agree₄
        dsimp only
        cases ended : leaveBody (fun s => .next (s.map (env.setFound true)))
            (run (rctx.pushLoop label true) (r.s.set w)) with
        | inr stop =>
          rw [ended] at left
          rcases left with ⟨s₅, c₅, rfl, run₅, enters₅, good₅, agree₅⟩ | left
          · exact (leave c₅ s₅ true hi by' r.value enters₅ good₅ (regs₄.agree agree₅ (show σ.nregs + 5 ≤ σ.nregs + 7 by omega))).prepend
              (before.append run₅) (agree₄'.trans (agree₅.weaken start.nregs_le))
          · exact ((left _).weaken start.nregs_le).prepend before agree₄'
        | inl s₅ =>
          rw [ended] at left
          -- Falling off the body and CONTINUE meet at the step block.
          obtain ⟨c₅, run₅, enters₅, good₅, agree₅⟩ : ∃ c₅, Runs env delegate code 0 c₄ c₅ ∧
              c₅.Enters (σ.nblocks + 2) ∧ Good ctx.cleanupStack held false c₅ s₅ ∧
              Agree (σ.nregs + 7) c₄ c₅ := by
            obtain ⟨c₅, ⟨run₅, ends⟩ | ⟨run₅, continues⟩, good₅, agree₅⟩ := left
            · have next : Runs env delegate code 1 c₅ (c₅.goto (σ.nblocks + 2)) :=
                runs_br ends laidBr good₅.running
              exact ⟨_, run₅.append (next.weaken (by omega)), c₅.goto_enters _, good₅.goto _, agree₅⟩
            · exact ⟨c₅, run₅.weaken (by omega), continues, good₅, agree₅⟩
          obtain ⟨c₆, run₆, good₆, agree₆, split₆⟩ := runs_foriStep env delegate
            (enters₅.at (step₁.push _)) validStep laidTail good₅ ok (Nat.le_refl _)
            (show σ.nregs + 5 ≤ σ₁.nregs by omega) (regs₄.agree agree₅ (by omega))
          have agree := agree₄'.trans ((agree₅.weaken (by omega)).trans agree₆)
          dsimp only
          cases overflow : wraps reverse r.value by' with
          | true =>
            rw [overflow] at split₆
            obtain ⟨enters₆, regs₆⟩ := split₆
            exact (leave c₆ s₅ true hi by' r.value enters₆ good₆ regs₆).prepend
              ((before.append run₅).append (run₆.weaken (by omega))) agree
          | false =>
            rw [overflow] at split₆
            exact ⟨c₆, (before.append run₅).append run₆, split₆, good₆, agree⟩

end Uplpgsql
