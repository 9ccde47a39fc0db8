import Uplpgsql.Correctness.Fori

/-!
# Jumps, RETURN and labelled blocks

A jump releases what it crosses, innermost first, and arrives at the block the
compiler found for its label.
-/

namespace Uplpgsql

open Lib.Blocks Lib.Iteration Builder

variable {W : Type} {env : Env W} {delegate : Delegate W} {code : Nat → List Item} {fuel : Nat}
variable {n : Nat} {ctx : Ctx} {rctx : RunCtx} {cleanups : List Cleanup} {releases : List Release}
  {held : List (Nat × Frame)} {rc : Bool} {fin fin' : Config W → Prop} {c : Config W}
  {s : RunState W} {σ σ' σ₁ : Builder Item}

/-! ### Releasing -/

theorem dropHeld_succ (k : Nat) (x : Cleanup) (rest : List Cleanup) (held : List (Nat × Frame)) :
    dropHeld (k + 1) (x :: rest) held = dropHeld k rest (dropHeld 1 (x :: rest) held) := by
  cases x <;> rfl

variable (env delegate) in
/-- The release helper of the innermost resource. -/
theorem runs_release {x : Cleanup} {release : Release} (at' : c.At σ)
    (laid : (σ.push (.instr x.release)).Laid code)
    (good : Good (x :: cleanups) held rc c s) (link : CleanupLink c.regs x release) :
    ∃ c', Runs env delegate code 1 c c' ∧ c'.At (σ.push (.instr x.release)) ∧
      Good cleanups (dropHeld 1 (x :: cleanups) held) rc c' (s.map (release.run env)) ∧
      c'.regs = c.regs := by
  have run : Runs env delegate code 1 c (stepItem env delegate c (.instr x.release)) :=
    runs_item at' laid good.running
  have chain := good.chain
  cases link with
  | tryExit r =>
    generalize above : c.rt.exceptionStack = exc at chain
    obtain _ | @⟨_, f, _, _, frame, held', reg, lt, live, below⟩ | _ | _ := chain
    simp only [Cleanup.release, stepItem, stepInstr, Config.withFrame, reg, live, good.world] at run
    refine ⟨_, run, ⟨at'.1, by rw [push_offset, ← at'.2]; rfl⟩, ⟨good.running, rfl, good.rc, ?_⟩, rfl⟩
    exact below.mono (Nat.le_of_lt lt) (fun _ _ => rfl)
      fun g older => Function.update_of_ne (by omega) ..
  | handlerDone r =>
    generalize above : c.rt.exceptionStack = exc at chain
    obtain _ | _ | @⟨_, f, _, _, frame, held', _, reg, lt, live, below⟩ | _ := chain
    simp only [Cleanup.release, stepItem, stepInstr, Config.withFrame, reg, live] at run
    refine ⟨_, run, ⟨at'.1, by rw [push_offset, ← at'.2]; rfl⟩,
      ⟨good.running, good.world, good.rc, ?_⟩, rfl⟩
    rw [← above] at below
    exact below.mono (Nat.le_of_lt lt) (fun _ _ => rfl)
      fun g older => Function.update_of_ne (by omega) ..
  | @closePortal kind id r handle reg =>
    generalize above : c.rt.exceptionStack = exc at chain
    obtain _ | _ | _ | ⟨below⟩ := chain
    simp only [Cleanup.release, stepItem, stepInstr, reg, good.world] at run
    rw [← above] at below
    exact ⟨_, run, ⟨at'.1, by rw [push_offset, ← at'.2]; rfl⟩, ⟨good.running, rfl, good.rc, below⟩, rfl⟩

variable (env delegate) in
/-- The release calls in front of a jump. -/
theorem runs_unwind {k : Nat} (at' : c.At σ)
    (laid : (σ.pushAll ((cleanups.take k).map fun x => .instr x.release)).Laid code)
    (good : Good cleanups held rc c s)
    (links : List.Forall₂ (CleanupLink c.regs) cleanups releases) :
    ∃ c', Runs env delegate code 0 c c' ∧
      c'.At (σ.pushAll ((cleanups.take k).map fun x => .instr x.release)) ∧
      Good (cleanups.drop k) (dropHeld k cleanups held) rc c'
        (s.map (releaseAll env (releases.take k))) ∧
      c'.regs = c.regs := by
  induction k generalizing σ c s cleanups releases held with
  | zero => exact ⟨c, .refl c, at', good, rfl⟩
  | succ k ih =>
    cases links with
    | nil => exact ⟨c, .refl c, at', good, rfl⟩
    | @cons x release rest releases head tail =>
      have laidRest : ((σ.push (.instr x.release)).pushAll
          ((rest.take k).map fun x => .instr x.release)).Laid code := laid
      obtain ⟨c₁, run₁, at₁, good₁, same₁⟩ :=
        runs_release env delegate at' laidRest.of_pushAll good head
      rw [← same₁] at tail
      obtain ⟨c₂, run₂, at₂, good₂, same₂⟩ := ih at₁ laidRest good₁ tail
      rw [← dropHeld_succ] at good₂
      exact ⟨c₂, (run₁.weaken (by omega)).append run₂, at₂, good₂, same₂.trans same₁⟩

/-! ### EXIT and CONTINUE -/

/-- The compiler's search of the loop stack finds what the label stands for. -/
theorem findTarget_of_uplFindLoop {infos : List LoopInfo} {loops : List Enclosing}
    {label : Option Nat} {info : LoopInfo} (links : List.Forall₂ LoopLink infos loops)
    (found : uplFindLoop infos label = some info) :
    ∃ k e, findTarget (loops.map Enclosing.scope) label = some k ∧ infos[k]? = some info ∧
      loops[k]? = some e ∧ e.cleanupDepth = info.cleanupDepth := by
  induction links with
  | nil => cases found
  | @cons first e infos loops head _ ih =>
    have target : e.scope.isTarget label = true ∧ first = info ∨
        e.scope.isTarget label = false ∧ uplFindLoop infos label = some info := by
      unfold uplFindLoop at found
      unfold Scope.isTarget Enclosing.scope
      cases label with
      | none =>
        dsimp only at found ⊢
        rw [head.isLoop] at found
        cases isLoop : e.isLoop <;> simp_all
      | some l =>
        dsimp only at found ⊢
        rw [head.label] at found
        by_cases same : e.label = some l <;> simp_all
    rw [List.map_cons]
    unfold findTarget
    rcases target with ⟨here, rfl⟩ | ⟨further, found⟩
    · exact ⟨0, e, by rw [if_pos here], rfl, rfl, head.depth.symm⟩
    · obtain ⟨k, e', target, infoAt, eAt, depth⟩ := ih found
      refine ⟨k + 1, e', ?_, infoAt, eAt, depth⟩
      rw [if_neg (by simp [further]), target]
      rfl

/-- A machine that has made the releases of a jump and stands at its target. -/
theorem meets_arrived {label : Option Nat} {isExit : Bool} {info : LoopInfo} {targetBb : Nat}
    {c₁ : Config W} (resolved : Resolved ctx label isExit info targetBb)
    (linked : Linked ctx rctx c.regs) (run : Runs env delegate code 1 c c₁)
    (enters : c₁.Enters targetBb)
    (good : Good (ctx.cleanupStack.drop (ctx.cleanupStack.length - info.cleanupDepth))
      (dropHeld (ctx.cleanupStack.length - info.cleanupDepth) ctx.cleanupStack held) false c₁
      (s.map (releaseAll env (rctx.cleanups.take (ctx.cleanupStack.length - info.cleanupDepth)))))
    (agree : Agree n c c₁) :
    Meets env delegate code fuel n ctx held fin c (takeJump env isExit label rctx s) := by
  obtain ⟨k, e, target, infoAt, eAt, depth⟩ := findTarget_of_uplFindLoop linked.loops resolved.found
  have crossed : rctx.crossed k =
      rctx.cleanups.take (ctx.cleanupStack.length - info.cleanupDepth) := by
    rw [RunCtx.crossed, eAt, linked.cleanups_length]
    simp [depth]
  unfold takeJump
  rw [RunCtx.scopes, target]
  dsimp only
  rw [crossed]
  exact ⟨c₁, info, targetBb, run, infoAt, resolved.target, enters,
    ⟨good.running, good.world, good.rc, good.chain⟩, agree⟩

/-- The release calls and the branch of a jump that is taken. -/
theorem meets_jump {label : Option Nat} {isExit : Bool} {info : LoopInfo} {targetBb : Nat}
    (resolved : Resolved ctx label isExit info targetBb) (at' : c.At σ)
    (laid : ((σ.pushAll (unwindItems ctx info.cleanupDepth)).push (.br targetBb)).Laid code)
    (good : Good ctx.cleanupStack held false c s) (linked : Linked ctx rctx c.regs) :
    Meets env delegate code fuel n ctx held fin c (takeJump env isExit label rctx s) := by
  obtain ⟨c₁, run₁, at₁, good₁, same₁⟩ := runs_unwind env delegate at' laid.of_push good
    linked.cleanups
  have branch : Runs env delegate code 1 c₁ (c₁.goto targetBb) := runs_br at₁ laid good₁.running
  exact meets_arrived resolved linked (run₁.append branch) (c₁.goto_enters _) (good₁.goto _)
    fun r _ => by rw [Config.goto, same₁]

theorem sound_exit (isExit : Bool) (label : Option Nat) (cond : Option Nat) :
    Sound env delegate code fuel (uplEmitLoopExit label isExit cond)
      (runExit env isExit label cond) where
  emits ctx := uplEmitLoopExit_emits label isExit cond ctx
  keepsOpen ctx := uplEmitLoopExit_keepsOpen label isExit cond ctx
  implements := by
    intro ctx σ σ' valid _ ok returned laid rctx held c s at' good linked
    obtain ⟨info, targetBb, resolved⟩ := uplEmitLoopExit_resolved returned
    have eq := uplEmitLoopExit_eq resolved returned
    cases cond with
    | none =>
      dsimp only at eq
      subst eq
      exact meets_jump resolved at' laid good linked
    | some expr =>
      have skip := ((Reserved.appended valid).fresh).push (.instr (.evalBool σ.nregs expr))
      dsimp only at eq
      unfold runExit runWhen
      split at eq
      next crossing =>
        subst eq
        have laidJump : (((((σ.append.fresh.push (.instr (.evalBool σ.nregs expr))).append.push
            (.condBr σ.nregs (σ.nblocks + 1) σ.nblocks)).goto (σ.nblocks + 1)).pushAll
            (unwindItems ctx info.cleanupDepth)).push (.br targetBb)).Laid code := laid
        have laidBr : ((σ.append.fresh.push (.instr (.evalBool σ.nregs expr))).append.push
            (.condBr σ.nregs (σ.nblocks + 1) σ.nblocks)).Laid code :=
          Laid.of_pushAll (σ := Builder.goto _ (σ.nblocks + 1)) laidJump.of_push
        have unwindBb : ((σ.append.fresh.push (.instr (.evalBool σ.nregs expr))).append.push
            (.condBr σ.nregs (σ.nblocks + 1) σ.nblocks)).Reserved (σ.nblocks + 1) :=
          (Reserved.appended ((Extends.refl valid).append.fresh.push _).valid).push _
        -- The condition guards a block that unwinds and jumps.
        refine meets_evalBool (σ := σ.append) at' (Laid.of_push (σ := Builder.append _) laidBr) good
          ok (Nat.le_refl σ.nregs) fun c₁ s₁ value at₁ good₁ agree₁ reg₁ => ?_
        refine Meets.condBr (σ := (σ.append.fresh.push
          (.instr (.evalBool σ.nregs expr))).append) at₁ laidBr good₁.running reg₁ ?_
        cases isTrue value with
        | true =>
          exact meets_jump resolved ((c₁.goto_enters (σ.nblocks + 1)).at unwindBb)
            laidJump (good₁.goto _) (linked.agree ok agree₁)
        | false =>
          exact ⟨_, .refl _, (c₁.goto_enters σ.nblocks).at
            ((((skip.append.push _).goto _ (by omega)).pushAll _).push _), good₁.goto _, .refl _ _⟩
      next level =>
        subst eq
        have laidBr : ((σ.append.fresh.push (.instr (.evalBool σ.nregs expr))).push
            (.condBr σ.nregs targetBb σ.nblocks)).Laid code := laid
        -- Nothing is to be unwound, and the condition guards the jump itself.
        refine meets_evalBool (σ := σ.append) at' laidBr.of_push good ok (Nat.le_refl σ.nregs)
          fun c₁ s₁ value at₁ good₁ agree₁ reg₁ => ?_
        have branch : Runs env delegate code 1 c₁ _ := runs_condBr at₁ laidBr good₁.running reg₁
        cases truth : isTrue value with
        | true =>
          rw [truth] at branch
          have none : ctx.cleanupStack.length - info.cleanupDepth = 0 := by
            simp only [Ctx.cleanupDepth] at level
            omega
          refine meets_arrived resolved (linked.agree ok agree₁) branch (c₁.goto_enters targetBb) ?_
            (.goto _ c₁ _)
          rw [none]
          exact good₁.goto _
        | false =>
          rw [truth] at branch
          exact ⟨_, branch.weaken (by omega), (c₁.goto_enters σ.nblocks).at (skip.push _),
            good₁.goto _, .goto _ c₁ _⟩

/-! ### RETURN -/

theorem sound_return (id : Nat) :
    Sound env delegate code fuel (uplEmitReturn id) (runReturn env id) where
  emits ctx := uplEmitReturn_emits id ctx
  keepsOpen ctx := uplEmitReturn_keepsOpen id ctx
  implements := by
    intro ctx σ σ' valid _ ok returned laid rctx held c s at' good linked
    rw [uplEmitReturn_run] at returned
    obtain rfl := (Prod.mk.inj (Option.some.inj returned)).2
    have laidBr : (((σ.push (.instr (.call (.execReturn id)))).push (.instr .storeRc)).push
      (.br ctx.returnBb)).Laid code := laid
    have called : runReturn env id rctx s =
        (runOp env (.execReturn id) rctx s).andThen fun s => .ret s := by
      unfold runReturn runOp Res.run
      cases env.call (.execReturn id) s.w <;> rfl
    rw [called]
    refine (meets_call at' laidBr.of_push.of_push good).andThen fun c₁ s₁ at₁ good₁ _ => ?_
    have store : Runs env delegate code 1 c₁ (stepItem env delegate c₁ (.instr .storeRc)) :=
      runs_item at₁ laidBr.of_push good₁.running
    have at₂ : (stepItem env delegate c₁ (.instr .storeRc)).At
        ((σ.push (.instr (.call (.execReturn id)))).push (.instr .storeRc)) :=
      ⟨at₁.1, by rw [push_offset, ← at₁.2]; rfl⟩
    have branch : Runs env delegate code 1 (stepItem env delegate c₁ (.instr .storeRc)) _ :=
      runs_br at₂ laidBr good₁.running
    exact ⟨_, (store.trans branch).weaken (by omega), Config.goto_enters _ _,
      ⟨good₁.running, good₁.world, rfl, good₁.chain⟩, fun _ _ => rfl⟩

/-! ### Blocks -/

theorem sound_initVars (initvars : List Nat) :
    Sound env delegate code fuel (fun _ => emitInitVars initvars) (runInitVars env initvars) := by
  induction initvars with
  | nil => exact sound_skip
  | cons dno rest ih => exact (sound_op (.initVar dno)).seq ih

theorem Linked.pushLabel {regs : Nat → Val} (linked : Linked ctx rctx regs) (label : Option Nat)
    (exitBb : Nat) : Linked (pushLabel ctx label exitBb) (rctx.pushLabel label) regs := by
  cases label with
  | none => exact linked
  | some l => exact ⟨.cons ⟨rfl, rfl, linked.cleanups_length⟩ linked.loops, linked.cleanups⟩

theorem CtxOk.pushLabel (ok : CtxOk ctx n) (label : Option Nat) (exitBb : Nat) :
    CtxOk (pushLabel ctx label exitBb) n := by
  cases label with
  | none => exact ok
  | some l =>
    refine ⟨ok.regs, fun info member => ?_⟩
    rcases List.mem_cons.mp member with rfl | inside
    · exact Nat.le_refl _
    · exact ok.depths info inside

@[simp] theorem pushLabel_cleanupStack (ctx : Ctx) (label : Option Nat) (exitBb : Nat) :
    (pushLabel ctx label exitBb).cleanupStack = ctx.cleanupStack := by
  cases label <;> rfl

@[simp] theorem pushLabel_returnBb (ctx : Ctx) (label : Option Nat) (exitBb : Nat) :
    (pushLabel ctx label exitBb).returnBb = ctx.returnBb := by
  cases label <;> rfl

/-- A jump to a labelled block arrives at the block its label was pushed with. -/
theorem Meets.leaveLabel {label : Option Nat} {exitBb : Nat} {out : Out W}
    (meets : Meets env delegate code fuel n (pushLabel ctx label exitBb) held fin c out)
    (falls : ∀ c' s, fin c' → Good ctx.cleanupStack held false c' s →
      ∃ c'', Runs env delegate code 0 c' c'' ∧ fin' c'' ∧
        Good ctx.cleanupStack held false c'' s ∧ Agree n c' c'')
    (lands : label ≠ none → ∀ c' : Config W, c'.Enters exitBb → fin' c') :
    Meets env delegate code fuel n ctx held fin' c (leaveLabel label out) := by
  cases label with
  | none => exact meets.land falls
  | some l =>
    cases out with
    | next s =>
      have there : Meets env delegate code fuel n ctx held fin c (.next s) := meets
      exact there.land falls
    | jump isExit k s =>
      obtain ⟨c', info, target, run, found, goes, enters, good, agree⟩ := meets
      cases k with
      | zero =>
        obtain rfl := Option.some.inj found
        cases isExit with
        | true =>
          obtain rfl := Option.some.inj goes
          simp only [pushLabel, uplPushBlockLabel, Ctx.cleanupDepth, Nat.sub_self, List.drop_zero,
            dropHeld] at good
          exact ⟨c', run.weaken (by omega), lands (by simp) c' enters, good, agree⟩
        | false => cases goes
      | succ k => exact ⟨c', info, target, run, found, goes, enters, good, agree⟩
    | ret s => exact meets
    | raise edata s => exact meets
    | spent s => exact meets

theorem sound_block (label : Option Nat) (initvars : List Nat) {body : Emitter} {run : Run W}
    (sound : Sound env delegate code fuel body run) :
    Sound env delegate code fuel (compileBlock label initvars body)
      (runBlock env label initvars run) where
  emits ctx := compileBlock_emits label initvars ctx sound.emits
  keepsOpen ctx := compileBlock_keepsOpen label initvars ctx sound.emits sound.keepsOpen
  implements := by
    intro ctx σ σ' valid opened ok returned laid rctx held c s at' good linked
    have start := (Extends.refl valid).pushAll (initItems initvars)
    have openStart := opened.pushAll_init initvars
    have init : (fun _ => emitInitVars initvars) ctx σ =
        some ((), σ.pushAll (initItems initvars)) := by simp [initItems]
    cases label with
    -- Without a label nothing can leave the block but what leaves its surroundings.
    | none =>
      have inner := compileBlock_inv returned
      have ext := sound.emits _ _ _ start.valid inner
      refine ((sound_initVars initvars).implements ctx σ _ valid opened ok init
        (laid.of_extends ext) rctx held c s at' good linked).andThen
        fun c₁ s₁ at₁ good₁ agree₁ => ?_
      exact (sound.implements ctx _ σ' start.valid openStart (ok.mono start.nregs_le) inner laid rctx
        held c₁ s₁ at₁ good₁ (linked.agree ok agree₁)).weaken start.nregs_le
    -- With one there is a block behind it, for EXIT and for the end of the body.
    | some l =>
      obtain ⟨σ₁, inner, rfl⟩ := compileBlock_label_inv returned
      have ext := sound.emits _ _ _ start.append.valid inner
      have openEnd : Open σ₁ := sound.keepsOpen _ _ _ start.append.valid openStart inner
      have endBb := (Reserved.appended start.valid).survives ext
      rw [pushAll_nblocks] at endBb
      rw [blockEnd_open openEnd] at laid ⊢
      have laidBr : (σ₁.push (.br σ.nblocks)).Laid code := laid
      have laidInit : (σ.pushAll (initItems initvars)).Laid code :=
        Laid.of_extends (σ := Builder.append _) laidBr.of_push ext
      refine ((sound_initVars initvars).implements ctx σ _ valid opened ok init laidInit rctx held c
        s at' good linked).andThen fun c₁ s₁ at₁ good₁ agree₁ => ?_
      have meets := sound.implements (pushLabel ctx (some l) σ.nblocks) _ σ₁ start.append.valid
        openStart ((ok.mono start.append.nregs_le).pushLabel (some l) σ.nblocks) inner laidBr.of_push
        (rctx.pushLabel (some l)) held c₁ s₁ at₁ good₁
        ((linked.agree ok agree₁).pushLabel (some l) σ.nblocks)
      refine (meets.weaken start.append.nregs_le).leaveLabel (fun c₂ s₂ at₂ good₂ => ?_)
        fun _ c₂ enters => enters.at (endBb.push _)
      have branch : Runs env delegate code 1 c₂ (c₂.goto σ.nblocks) :=
        runs_br at₂ laidBr good₂.running
      exact ⟨_, branch.weaken (by omega), (c₂.goto_enters _).at (endBb.push _), good₂.goto _,
        .goto _ c₂ _⟩

end Uplpgsql
