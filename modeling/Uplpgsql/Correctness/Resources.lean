import Uplpgsql.Correctness.Jumps

/-!
# Row loops and blocks with handlers

The constructs that hold a portal or an exception frame. Their bodies run with
one more cleanup on the stack; whichever way a body is left, the resource has
been released when control arrives outside.
-/

namespace Uplpgsql

open Lib.Blocks Lib.Iteration Builder

variable {W : Type} {env : Env W} {delegate : Delegate W} {code : Nat → List Item} {fuel : Nat}
variable {n : Nat} {ctx : Ctx} {rctx : RunCtx} {cleanups : List Cleanup}
  {held held' : List (Nat × Frame)} {rc : Bool} {fin fin' : Config W → Prop} {c : Config W}
  {s : RunState W} {σ σ' σ₁ σ₂ : Builder Item}

/-! ### Leaving what holds a resource -/

/-- The frame of a handler is not on the exception stack. -/
theorem Good.popHandler {r : Nat} {held : Nat × Frame} {rest : List (Nat × Frame)}
    (good : Good (.handlerDone r :: cleanups) (held :: rest) rc c s) :
    Good cleanups rest rc c s := by
  refine ⟨good.running, good.world, good.rc, ?_⟩
  have chain := good.chain
  generalize above : c.rt.exceptionStack = exc at chain ⊢
  obtain _ | _ | @⟨_, f, _, _, frame, held', _, reg, lt, live, below⟩ | _ := chain
  exact below.mono (Nat.le_of_lt lt) (fun _ _ => rfl) fun _ _ => rfl

theorem Good.popPortal {kind : ForKind} {id r : Nat}
    (good : Good (.closePortal kind id r :: cleanups) held rc c s) : Good cleanups held rc c s := by
  refine ⟨good.running, good.world, good.rc, ?_⟩
  have chain := good.chain
  generalize above : c.rt.exceptionStack = exc at chain ⊢
  obtain _ | _ | _ | ⟨below⟩ := chain
  exact below

theorem CtxOk.pushCleanup (ok : CtxOk ctx n) {x : Cleanup} (lt : x.reg < n) (padBb : Nat) :
    CtxOk (uplPushCleanup { ctx with returnBb := padBb } x) n where
  regs y member := by
    rcases List.mem_cons.mp member with rfl | inside
    · exact lt
    · exact ok.regs y inside
  depths info member := Nat.le_succ_of_le (ok.depths info member)

theorem Linked.pushCleanup {regs : Nat → Val} {x : Cleanup} {release : Release}
    (linked : Linked ctx rctx regs) (link : CleanupLink regs x release) (padBb : Nat) :
    Linked (uplPushCleanup { ctx with returnBb := padBb } x) (rctx.pushCleanup release) regs :=
  ⟨linked.loops, .cons link linked.cleanups⟩

/-- The body of a construct that holds a resource ends outside with the resource
released: on the fall-through and return paths by the construct's own code, on a
jump by the unwinding in front of it. -/
theorem Meets.popCleanup {m : Nat} {x : Cleanup} {padBb : Nat} {f : W → W} {out : Out W}
    (ok : CtxOk ctx n) (le : n ≤ m) (drops : dropHeld 1 (x :: ctx.cleanupStack) held' = held)
    (meets : Meets env delegate code fuel m (uplPushCleanup { ctx with returnBb := padBb } x) held'
      fin c out)
    (falls : ∀ c' s, fin c' → Good (x :: ctx.cleanupStack) held' false c' s → Agree m c c' →
      ∃ c'', Runs env delegate code 0 c' c'' ∧ fin' c'' ∧
        Good ctx.cleanupStack held false c'' (s.map f) ∧ Agree n c' c'')
    (returns : ∀ c' s, c'.Enters padBb → Good (x :: ctx.cleanupStack) held' true c' s →
      Agree m c c' → ∃ c'', Runs env delegate code 0 c' c'' ∧ c''.Enters ctx.returnBb ∧
        Good ctx.cleanupStack held true c'' (s.map f) ∧ Agree n c' c'')
    (raises : ∀ edata s, out = .raise edata s → ∀ c', Good (x :: ctx.cleanupStack) held' false c' s →
      Good ctx.cleanupStack held false c' s) :
    Meets env delegate code fuel n ctx held fin' c (out.release f) := by
  cases out with
  | next s =>
    obtain ⟨c', run, at', good, agree⟩ := meets
    obtain ⟨c'', run', at'', good', agree'⟩ := falls c' s at' good agree
    exact ⟨c'', run.append run', at'', good', (agree.weaken le).trans agree'⟩
  | jump isExit k s =>
    obtain ⟨c', info, target, run, found, goes, enters, good, agree⟩ := meets
    refine ⟨c', info, target, run, found, goes, enters, ?_, agree.weaken le⟩
    have deep := ok.depths info (List.mem_of_getElem? found)
    have more : (x :: ctx.cleanupStack).length - info.cleanupDepth =
        ctx.cleanupStack.length - info.cleanupDepth + 1 := by simp only [List.length_cons]; omega
    simp only [uplPushCleanup] at good
    rwa [more, List.drop_succ_cons, dropHeld_succ, drops] at good
  | ret s =>
    obtain ⟨c', run, enters, good, agree⟩ := meets
    obtain ⟨c'', run', enters', good', agree'⟩ := returns c' s enters good agree
    exact ⟨c'', run.append run', enters', good', (agree.weaken le).trans agree'⟩
  | raise edata s =>
    obtain ⟨c', run, good, agree⟩ := meets
    exact ⟨c', run, raises edata s rfl c' good, agree.weaken le⟩
  | spent s => exact meets

variable (env delegate) in
/-- A landing pad releases the resource and goes on. -/
theorem runs_pad {x : Cleanup} {release : Release} {padBb target : Nat} (enters : c.Enters padBb)
    (reserved : σ.Reserved padBb) (laid : (pad σ padBb x.release target).Laid code)
    (good : Good (x :: cleanups) held rc c s) (link : CleanupLink c.regs x release) :
    ∃ c', Runs env delegate code 0 c c' ∧ c'.Enters target ∧
      Good cleanups (dropHeld 1 (x :: cleanups) held) rc c' (s.map (release.run env)) ∧
      c'.regs = c.regs := by
  obtain ⟨c₁, run₁, at₁, good₁, same₁⟩ :=
    runs_release env delegate (enters.at reserved) laid.of_push good link
  have branch : Runs env delegate code 1 c₁ (c₁.goto target) := runs_br at₁ laid good₁.running
  exact ⟨_, (run₁.trans branch).weaken (by omega), c₁.goto_enters _, good₁.goto _, same₁⟩

/-! ### Row loops -/

section Rows

variable {kind : ForKind} {id : Nat}

/-- What a row loop's registers hold between rounds. -/
structure ForqRegs (base handle : Nat) (found : Bool) (c : Config W) : Prop where
  portal : c.regs base = .ptr handle
  found : c.regs (base + 1) = .bool found

theorem ForqRegs.agree {base handle : Nat} {found : Bool} {c c' : Config W}
    (regs : ForqRegs base handle found c) {m : Nat} (agree : Agree m c c') (le : base + 2 ≤ m) :
    ForqRegs base handle found c' where
  portal := by rw [agree _ (by omega)]; exact regs.portal
  found := by rw [agree _ (by omega)]; exact regs.found

/-- The portal is opened and the loop entered. -/
theorem meets_forqSetup {next : Nat → RunState W → Out W} (at' : c.At σ)
    (laid : (forqSetup kind id σ).Laid code) (good : Good ctx.cleanupStack held false c s)
    (ok : CtxOk ctx σ.nregs)
    (rest : ∀ c' s' handle, c'.Enters σ.nblocks →
      Good (.closePortal kind id σ.nregs :: ctx.cleanupStack) held false c' s' →
      Agree σ.nregs c c' → ForqRegs σ.nregs handle false c' →
      Meets env delegate code fuel σ.nregs ctx held fin c' (next handle s')) :
    Meets env delegate code fuel σ.nregs ctx held fin c
      ((env.openPortal kind id s.w).run s next) := by
  have laidFound := Laid.of_push (σ := Builder.appendN _ 5) laid
  have laidOpen := Laid.of_push (σ := Builder.fresh _) laidFound
  have run : Runs env delegate code 1 c
      (stepItem env delegate c (.instr (.openPortal σ.nregs kind id))) :=
    runs_item (σ := σ.fresh) at' laidOpen good.running
  simp only [stepItem, stepInstr, good.world] at run
  unfold Res.run
  cases result : env.openPortal kind id s.w with
  | raise edata w =>
    rw [result] at run
    exact ⟨_, run.weaken (by omega), good.withWorld w, fun _ _ => rfl⟩
  | ok handle w =>
    rw [result] at run
    have good₁ := ((good.withWorld w).setReg ok.regs (Nat.le_refl _) (.ptr handle)).next
    have agree₁ : Agree σ.nregs c ((c.withWorld w).setReg σ.nregs (.ptr handle)).next :=
      Agree.setReg (c.withWorld w) (Nat.le_refl _) _
    have at₁ : ((c.withWorld w).setReg σ.nregs (.ptr handle)).next.At
        (σ.fresh.push (.instr (.openPortal σ.nregs kind id))).fresh :=
      ⟨at'.1, by rw [fresh_offset, push_offset, fresh_offset, ← at'.2]; rfl⟩
    obtain ⟨c₂, run₂, at₂, good₂, found₂, others₂⟩ := step_reg env delegate at₁ laidFound good₁
      ok.regs (show σ.nregs ≤ σ.nregs + 1 by omega) rfl
    have enter : Runs env delegate code 1 c₂ (c₂.goto σ.nblocks) :=
      runs_br (at₂.appendN 5) laid good₂.running
    have agree : Agree σ.nregs c c₂ := fun r lt => (others₂ r (by omega)).trans (agree₁ r lt)
    have good₃ := good₂.goto σ.nblocks
    refine (rest (c₂.goto σ.nblocks) _ handle (c₂.goto_enters _)
      ⟨good₃.running, good₃.world, good₃.rc, .closePortal good₃.chain⟩ agree ⟨?_, found₂⟩).prepend
      (((run.trans run₂).trans enter).weaken (by omega)) agree
    exact (others₂ _ (by omega)).trans (setReg_regs_self _ _ _)

/-- The exit block closes the portal and assigns FOUND. -/
theorem meets_forqExit {handle : Nat} {found : Bool} (enters : c.Enters (σ.nblocks + 2))
    (exitBb : σ₁.Reserved (σ.nblocks + 2)) (contBb : σ₁.Reserved (σ.nblocks + 4))
    (laid : (forqEnd kind id σ σ₁ ctx).Laid code)
    (good : Good (.closePortal kind id σ.nregs :: ctx.cleanupStack) held false c s)
    (ok : CtxOk ctx σ.nregs) (le : σ.nregs ≤ σ₁.nregs)
    (regs : ForqRegs σ.nregs handle found c) :
    Meets env delegate code fuel σ.nregs ctx held
      (fun c' => c'.At ((forqEnd kind id σ σ₁ ctx).goto (σ.nblocks + 4))) c
      (.next ((s.map (env.closePortal kind id handle)).map (env.setFound found))) := by
  have reserved := forqPads_reserved kind id ctx exitBb (show σ.nblocks + 2 ≠ σ.nblocks + 3 by omega)
  have laidFound := laid.of_push
  have laidClose : (((forqPads kind id σ σ₁ ctx).goto (σ.nblocks + 2)).push
      (.instr (Cleanup.closePortal kind id σ.nregs).release)).Laid code :=
    Laid.of_push (σ := Builder.fresh _) laidFound.of_push
  have link : CleanupLink c.regs (.closePortal kind id σ.nregs) (.closePortal kind id handle) :=
    .closePortal (by rw [regs.portal]; rfl)
  obtain ⟨c₁, run₁, at₁, good₁, same₁⟩ :=
    runs_release env delegate (enters.at reserved) laidClose good link
  have assigns : Meets env delegate code fuel σ.nregs ctx held _ c₁ _ := meets_foundExit at₁
    laidFound good₁ (ok.mono le) le (by rw [same₁]; exact regs.found)
  have contEnd := forqEnd_reserved kind id ctx contBb
  refine Meets.prepend (run₁.weaken (by omega)) (fun r _ => by rw [same₁]) ?_
  exact assigns.thenBr laid fun c' enters' => enters'.at contEnd

/-- The condition block fetches the next row and branches on whether there is one. -/
theorem step_fetchRow {handle : Nat} {found : Bool} (enters : c.Enters σ.nblocks) (valid : σ.Valid)
    (laid : (forqFetch kind id σ).Laid code)
    (good : Good (.closePortal kind id σ.nregs :: ctx.cleanupStack) held false c s)
    (ok : CtxOk ctx σ.nregs) (regs : ForqRegs σ.nregs handle found c) :
    match env.fetchRow kind id handle s.w with
    | .raise edata w =>
      ∀ n fin, Meets env delegate code fuel n ctx held fin c (.raise edata (s.set w))
    | .ok row w =>
      ∃ c', Runs env delegate code 1 c c' ∧
        c'.Enters (if row then σ.nblocks + 1 else σ.nblocks + 2) ∧
        Good (.closePortal kind id σ.nregs :: ctx.cleanupStack) held false c' (s.set w) ∧
        Agree (σ.nregs + 2) c c' := by
  have at' : c.At ((forqSetup kind id σ).goto σ.nblocks) :=
    enters.at (forqSetup_reserved kind id valid 0 (by omega))
  have run : Runs env delegate code 1 c
      (stepItem env delegate c (.instr (.fetchRow (σ.nregs + 2) kind id σ.nregs))) :=
    runs_item (σ := ((forqSetup kind id σ).goto σ.nblocks).fresh) at' laid.of_push good.running
  have below : ∀ x ∈ Cleanup.closePortal kind id σ.nregs :: ctx.cleanupStack,
      x.reg < σ.nregs + 2 := by
    intro x member
    rcases List.mem_cons.mp member with rfl | inside
    · exact Nat.lt_add_of_pos_right (by omega)
    · exact Nat.lt_of_lt_of_le (ok.regs x inside) (by omega)
  simp only [stepItem, stepInstr, good.world, regs.portal, Val.toPtr] at run
  cases result : env.fetchRow kind id handle s.w with
  | raise edata w =>
    rw [result] at run
    exact fun n fin => ⟨_, run.weaken (by omega), (good.withWorld w).popPortal, fun _ _ => rfl⟩
  | ok row w =>
    rw [result] at run
    have good₁ := ((good.withWorld w).setReg below (Nat.le_refl _) (.bool row)).next
    have branch : Runs env delegate code 1 _ _ :=
      runs_condBr (at'.setReg_next w _ _) laid good₁.running (setReg_regs_self _ _ _)
    exact ⟨_, (run.trans branch).weaken (by omega), Config.goto_enters _ _, good₁.goto _,
      Agree.setReg (c.withWorld w) (Nat.le_refl _) _⟩

theorem sound_forq (kind : ForKind) (label : Option Nat) (id : Nat) {body : Emitter} {run : Run W}
    (sound : Sound env delegate code fuel body run) :
    Sound env delegate code fuel (compileForq kind label id body)
      (runForq env fuel kind label id run) where
  emits ctx := compileForq_emits kind id label ctx sound.emits
  keepsOpen ctx := compileForq_keepsOpen kind id label ctx sound.emits
  implements := by
    intro ctx σ σ' valid _ ok returned laid rctx held c s at' good linked
    obtain ⟨σ₁, inner, rfl⟩ := compileForq_inv kind id returned
    have start := forqBody_extends kind id valid
    have ext := sound.emits _ _ _ start.valid inner
    have regsLe : σ.nregs + 3 ≤ σ₁.nregs := ext.nregs_le
    -- The blocks that the loop made survive the compilation of the body.
    have reserved₁ : ∀ k, k < 5 → 1 < k → σ₁.Reserved (σ.nblocks + k) := fun k lt one =>
      (forqBody_reserved kind id valid k lt one).survives ext
    have laidEnd : (forqEnd kind id σ σ₁ ctx).Laid code := laid
    have laidPads : (forqPads kind id σ σ₁ ctx).Laid code :=
      Laid.of_push (σ := Builder.goto _ _) (Laid.of_push (σ := Builder.fresh _) laidEnd.of_push.of_push)
    have laidBr : (σ₁.push (.br σ.nblocks)).Laid code :=
      Laid.of_push (σ := Builder.goto _ _) laidPads.of_push
    have laid₁ : σ₁.Laid code := laidBr.of_push
    have laidBody : (forqBody kind id σ).Laid code := laid₁.of_extends ext
    have laidFetch : (forqFetch kind id σ).Laid code := Laid.of_push (σ := Builder.goto _ _) laidBody
    have laidSetup : (forqSetup kind id σ).Laid code :=
      Laid.of_push (σ := Builder.fresh (Builder.goto _ _)) laidFetch.of_push
    have bodyBb := forqFetch_reserved kind id valid 1 (by omega) (by omega)
    -- Inside the body a RETURN goes to the pad that closes the portal.
    have okBody : CtxOk (uplPushCleanup { ctx with returnBb := σ.nblocks + 3 }
        (.closePortal kind id σ.nregs)) (σ.nregs + 1) :=
      (ok.mono (Nat.le_succ _)).pushCleanup (x := .closePortal kind id σ.nregs)
        (Nat.lt_succ_self _) _
    refine meets_forqSetup at' laidSetup good ok fun c₁ s₁ handle enters₁ good₁ agree₁ regs₁ => ?_
    -- The register that holds the portal is the invariant of the loop.
    refine meets_loopN ForqRun.s (fun r c' => c'.Enters σ.nblocks ∧
      ForqRegs σ.nregs handle r.found c') ?_ ⟨s₁, false⟩ ⟨enters₁, regs₁⟩ good₁
    rintro r c₂ ⟨enters₂, regs₂⟩ good₂ agree₂
    have linked₂ : Linked ctx rctx c₂.regs := linked.agree ok (agree₁.trans agree₂)
    -- Both ways out of the loop close the portal and set FOUND.
    have exits : ∀ c' s' b, c'.Enters (σ.nblocks + 2) →
        Good (.closePortal kind id σ.nregs :: ctx.cleanupStack) held false c' s' →
        ForqRegs σ.nregs handle b c' → Meets env delegate code fuel σ.nregs ctx held _ c'
          (.next ((s'.map (env.closePortal kind id handle)).map (env.setFound b))) :=
      fun c' s' b enters' good' regs' =>
        meets_forqExit enters' (reserved₁ 2 (by omega) (by omega)) (reserved₁ 4 (by omega) (by omega))
          laidEnd good' ok (by omega) regs'
    have fetched : match env.fetchRow kind id handle r.s.w with
      | .raise edata w =>
        ∀ n fin, Meets env delegate code fuel n ctx held fin c₂ (.raise edata (r.s.set w))
      | .ok row w => _ := step_fetchRow enters₂ valid laidFetch good₂ ok regs₂
    unfold runForqRound
    -- One round: the next row is fetched, and the body runs if there is one.
    cases result : env.fetchRow kind id handle r.s.w with
    | raise edata w =>
      rw [result] at fetched
      exact fetched _ _
    | ok row w =>
      rw [result] at fetched
      obtain ⟨c₃, run₃, enters₃, good₃, agree₃⟩ := fetched
      have regs₃ := regs₂.agree agree₃ (Nat.le_refl _)
      have before := run₃.weaken (show 0 ≤ 1 by omega)
      cases row with
      | false => exact (exits c₃ _ _ enters₃ good₃ regs₃).prepend before (agree₃.weaken (by omega))
      | true =>
        obtain ⟨c₄, run₄, at₄, good₄, found₄, others₄⟩ := step_reg env delegate (enters₃.at bodyBb)
          laidBody good₃ okBody.regs (Nat.le_refl _) rfl
        have agree₄ : Agree σ.nregs c₂ c₄ := fun r lt =>
          (others₄ r (by omega)).trans (agree₃ r (by omega))
        have regs₄ : ForqRegs σ.nregs handle true c₄ :=
          ⟨(others₄ _ (by omega)).trans regs₃.portal, found₄⟩
        have before := (run₃.trans run₄).weaken (show 0 ≤ 1 + 1 by omega)
        have link : CleanupLink c₄.regs (.closePortal kind id σ.nregs) (.closePortal kind id handle) :=
          .closePortal (by rw [regs₄.portal]; rfl)
        have meets := sound.implements _ _ σ₁ start.valid (.push_instr _ _)
          ((okBody.mono (show σ.nregs + 1 ≤ σ.nregs + 3 by omega)).pushLoop label σ.nblocks
            (σ.nblocks + 2)) inner laid₁ _ held c₄ _ at₄ good₄
          (((linked₂.agree ok agree₄).pushCleanup link _).pushLoop label true _ _)
        -- What the body ends with is a next round, the end of the loop, or a way past it.
        have left := meets.leaveBody fun s =>
          .next ((s.map (env.closePortal kind id handle)).map (env.setFound true))
        dsimp only
        cases ended : leaveBody
            (fun s => .next ((s.map (env.closePortal kind id handle)).map (env.setFound true)))
            (run ((rctx.pushCleanup (.closePortal kind id handle)).pushLoop label true) (r.s.set w)) with
        | inl s₅ =>
          rw [ended] at left
          obtain ⟨c₅, ⟨run₅, ends⟩ | ⟨run₅, continues⟩, good₅, agree₅⟩ := left
          · have back : Runs env delegate code 1 c₅ (c₅.goto σ.nblocks) :=
              runs_br ends laidBr good₅.running
            exact ⟨_, (before.append run₅).append back,
              ⟨c₅.goto_enters _, regs₄.agree agree₅ (show σ.nregs + 2 ≤ σ.nregs + 3 by omega)⟩,
              good₅.goto _, agree₄.trans (agree₅.weaken (show σ.nregs ≤ σ.nregs + 3 by omega))⟩
          · exact ⟨c₅, before.append run₅,
              ⟨continues, regs₄.agree agree₅ (show σ.nregs + 2 ≤ σ.nregs + 3 by omega)⟩, good₅,
              agree₄.trans (agree₅.weaken (show σ.nregs ≤ σ.nregs + 3 by omega))⟩
        | inr stop =>
          rw [ended] at left
          rcases left with ⟨s₅, c₅, rfl, run₅, enters₅, good₅, agree₅⟩ | left
          · exact (exits c₅ s₅ true enters₅ good₅ (regs₄.agree agree₅
              (show σ.nregs + 2 ≤ σ.nregs + 3 by omega))).prepend (before.append run₅)
              (agree₄.trans (agree₅.weaken (show σ.nregs ≤ σ.nregs + 3 by omega)))
          · -- The body has left the loop for good; only a RETURN still has to close the portal.
            have popped : Meets env delegate code fuel σ.nregs ctx held (fun _ => False) c₄
                (stop.release (env.closePortal kind id handle)) :=
              (left fun _ => False).popCleanup ok (show σ.nregs ≤ σ.nregs + 3 by omega) rfl
                (fun _ _ never => never.elim)
                (fun c₅ s₅ enters₅ good₅ agree₅ => by
                  have reg := agree₅ σ.nregs (show σ.nregs < σ.nregs + 3 by omega)
                  have link₅ : CleanupLink c₅.regs (.closePortal kind id σ.nregs)
                    (.closePortal kind id handle) := .closePortal (by rw [reg, regs₄.portal]; rfl)
                  obtain ⟨c₆, run₆, enters₆, good₆, same₆⟩ := runs_pad env delegate enters₅
                    ((reserved₁ 3 (by omega) (by omega)).push (.br σ.nblocks))
                    (x := .closePortal kind id σ.nregs) laidPads good₅ link₅
                  exact ⟨c₆, run₆, enters₆, good₆, fun r _ => by rw [same₆]⟩)
                (fun _ _ _ c₅ good₅ => good₅.popPortal)
            have last := popped.prepend before agree₄
            cases stop with
            | next s₅ => exact (left fun _ => False).elim fun _ never => never.2.1.elim
            | jump isExit k s₅ => exact last
            | ret s₅ => exact last
            | raise edata s₅ => exact last
            | spent s₅ => exact last

end Rows

end Uplpgsql
