import Uplpgsql.Correctness.Meets

/-!
# Single steps

One rule for each kind of item: what the machine does at an item that the
builder has emitted, in the form in which the proofs about statements use it.
-/

namespace Uplpgsql

open Lib.Blocks Lib.Iteration Builder

variable {W : Type} {env : Env W} {delegate : Delegate W} {code : Nat → List Item} {fuel : Nat}
variable {n : Nat} {ctx : Ctx} {cleanups : List Cleanup} {held : List (Nat × Frame)} {rc : Bool}
  {fin : Config W → Prop} {c : Config W} {s : RunState W} {σ : Builder Item}

/-! ### What a step leaves in place -/

namespace Good

theorem next (good : Good cleanups held rc c s) : Good cleanups held rc c.next s :=
  ⟨good.running, good.world, good.rc, good.chain⟩

theorem goto (good : Good cleanups held rc c s) (b : Nat) : Good cleanups held rc (c.goto b) s :=
  ⟨good.running, good.world, good.rc, good.chain⟩

theorem withWorld (good : Good cleanups held rc c s) (w : W) :
    Good cleanups held rc (c.withWorld w) (s.set w) :=
  ⟨good.running, rfl, good.rc, good.chain⟩

theorem note (good : Good cleanups held rc c s) (f : Notes → Notes) :
    Good cleanups held rc c (s.note f) :=
  ⟨good.running, good.world, good.rc, good.chain⟩

theorem map (good : Good cleanups held rc c s) (f : W → W) :
    Good cleanups held rc (c.withWorld (f c.w)) (s.map f) :=
  ⟨good.running, by rw [RunState.map, ← good.world]; rfl, good.rc, good.chain⟩

theorem setReg (good : Good cleanups held rc c s) (below : ∀ x ∈ cleanups, x.reg < n) {r : Nat}
    (above : n ≤ r) (v : Val) : Good cleanups held rc (c.setReg r v) s where
  running := good.running
  world := good.world
  rc := good.rc
  chain := good.chain.mono (Nat.le_refl _)
    (fun x member => Function.update_of_ne (by have := below x member; omega) ..) fun _ _ => rfl

theorem getStmtMcontext (good : Good cleanups held rc c s) :
    Good cleanups held rc (c.withRt c.rt.getStmtMcontext) s := by
  refine ⟨good.running, good.world, good.rc, ?_⟩
  have chain := good.chain
  unfold Config.withRt Rt.getStmtMcontext
  split
  · exact chain
  · exact chain

theorem callRt (good : Good cleanups held rc c s) (env : Env W) (op : Op) :
    Good cleanups held rc (c.withRt (callRt env op c.rt)) s := by
  unfold Uplpgsql.callRt
  split
  · exact good.getStmtMcontext
  · exact good

end Good

theorem Agree.setReg {r : Nat} (c : Config W) (above : n ≤ r) (v : Val) :
    Agree n c (c.setReg r v) := fun r' lt =>
  Function.update_of_ne (show r' ≠ r by omega) ..

@[simp] theorem setReg_regs_self (c : Config W) (r : Nat) (v : Val) : (c.setReg r v).regs r = v :=
  Function.update_self ..

theorem setReg_regs_of_ne (c : Config W) {r r' : Nat} (v : Val) (ne : r' ≠ r) :
    (c.setReg r v).regs r' = c.regs r' :=
  Function.update_of_ne ne ..

theorem Config.At.next {x : Item} (at' : c.At σ) : c.next.At (σ.push x) :=
  ⟨at'.1, by rw [push_offset, ← at'.2]; rfl⟩

theorem Config.At.setReg_next {x : Item} (at' : c.At σ) (w : W) (r : Nat) (v : Val) :
    ((c.withWorld w).setReg r v).next.At (σ.push x) :=
  ⟨at'.1, by rw [push_offset, ← at'.2]; rfl⟩

theorem Config.At.appendN (at' : c.At σ) (k : Nat) : c.At (σ.appendN k) :=
  ⟨at'.1, at'.2⟩

/-! ### Items -/

/-- The machine executes the item that stands where the builder was. -/
theorem runs_item {x : Item} (at' : c.At σ) (laid : (σ.push x).Laid code)
    (running : c.status = .running) :
    Runs env delegate code 1 c (stepItem env delegate c x) := by
  have fetch := laid.fetch
  have step_eq : step env delegate code c = stepItem env delegate c x := by
    unfold step
    rw [running, at'.1, at'.2, fetch]
  rw [← step_eq]
  exact AtLeast.once c

theorem runs_br {target : Nat} (at' : c.At σ) (laid : (σ.push (.br target)).Laid code)
    (running : c.status = .running) : Runs env delegate code 1 c (c.goto target) :=
  runs_item at' laid running

theorem runs_condBr {r thenBb elseBb : Nat} {b : Bool} (at' : c.At σ)
    (laid : (σ.push (.condBr r thenBb elseBb)).Laid code) (running : c.status = .running)
    (value : c.regs r = .bool b) :
    Runs env delegate code 1 c (c.goto (if b then thenBb else elseBb)) := by
  have run : Runs env delegate code 1 c (stepItem env delegate c (.condBr r thenBb elseBb)) :=
    runs_item at' laid running
  simpa only [stepItem, value, Val.toBool] using run

theorem Config.goto_enters (c : Config W) (b : Nat) : (c.goto b).Enters b := ⟨rfl, rfl⟩

theorem Agree.goto (n : Nat) (c : Config W) (b : Nat) : Agree n c (c.goto b) := fun _ _ => rfl

/-- A branch, and whatever follows it. -/
theorem Meets.br {target : Nat} {out : Out W} (at' : c.At σ)
    (laid : (σ.push (.br target)).Laid code) (running : c.status = .running)
    (rest : Meets env delegate code fuel n ctx held fin (c.goto target) out) :
    Meets env delegate code fuel n ctx held fin c out :=
  rest.prepend ((runs_br at' laid running).weaken (by omega)) (.goto n c target)

theorem Meets.condBr {r thenBb elseBb : Nat} {b : Bool} {out : Out W} (at' : c.At σ)
    (laid : (σ.push (.condBr r thenBb elseBb)).Laid code) (running : c.status = .running)
    (value : c.regs r = .bool b)
    (rest : Meets env delegate code fuel n ctx held fin (c.goto (if b then thenBb else elseBb)) out) :
    Meets env delegate code fuel n ctx held fin c out :=
  rest.prepend ((runs_condBr at' laid running value).weaken (by omega)) (.goto n c _)

/-- A statement followed by a branch. -/
theorem Meets.thenBr {target : Nat} {out : Out W}
    (meets : Meets env delegate code fuel n ctx held (fun c' => c'.At σ) c out)
    (laid : (σ.push (.br target)).Laid code) (lands : ∀ c' : Config W, c'.Enters target → fin c') :
    Meets env delegate code fuel n ctx held fin c out :=
  meets.land fun c' _ at' good =>
    ⟨c'.goto target, (runs_br at' laid good.running).weaken (by omega),
      lands _ (c'.goto_enters target), good.goto target, .goto n c' target⟩

/-- An error thrown by the item the machine stands at. -/
theorem Meets.raise {edata : ErrorData} (run : Runs env delegate code 0 c (c.throw edata))
    (good : Good ctx.cleanupStack held false c s) :
    Meets env delegate code fuel n ctx held fin c (.raise edata s) :=
  ⟨c, run, good, .refl n c⟩

/-- Calls for their effect. -/
theorem meets_call {op : Op} {rctx : RunCtx} (at' : c.At σ)
    (laid : (σ.push (.instr (.call op))).Laid code)
    (good : Good ctx.cleanupStack held false c s) :
    Meets env delegate code fuel n ctx held (fun c' => c'.At (σ.push (.instr (.call op)))) c
      (runOp env op rctx s) := by
  have run : Runs env delegate code 1 c (stepItem env delegate c (.instr (.call op))) :=
    runs_item at' laid good.running
  have kept := good.callRt env op
  simp only [stepItem, stepInstr, good.world] at run
  unfold runOp Res.run
  cases result : env.call op s.w with
  | ok value w =>
    rw [result] at run
    exact ⟨_, run.weaken (by omega), ⟨at'.1, by rw [push_offset, ← at'.2]; rfl⟩,
      (kept.withWorld w).next, fun _ _ => rfl⟩
  | raise edata w =>
    rw [result] at run
    exact ⟨_, run.weaken (by omega), kept.withWorld w, fun _ _ => rfl⟩

variable (env delegate fuel) in
/-- A condition evaluated into a new register. -/
theorem step_evalBool {expr : Nat} (at' : c.At σ)
    (laid : (σ.fresh.push (.instr (.evalBool σ.nregs expr))).Laid code)
    (good : Good ctx.cleanupStack held false c s) (ok : CtxOk ctx σ.nregs) :
    match env.evalBool expr s.w with
    | .raise edata w =>
      ∀ n fin, Meets env delegate code fuel n ctx held fin c (.raise edata (s.set w))
    | .ok value w =>
      ∃ c', Runs env delegate code 1 c c' ∧
        c'.At (σ.fresh.push (.instr (.evalBool σ.nregs expr))) ∧
        Good ctx.cleanupStack held false c' (s.set w) ∧ Agree σ.nregs c c' ∧
        c'.regs σ.nregs = .bool (isTrue value) := by
  have run : Runs env delegate code 1 c
      (stepItem env delegate c (.instr (.evalBool σ.nregs expr))) :=
    runs_item (σ := σ.fresh) at' laid good.running
  simp only [stepItem, stepInstr, good.world] at run
  cases result : env.evalBool expr s.w with
  | ok value w =>
    rw [result] at run
    exact ⟨_, run, ⟨at'.1, by rw [push_offset, fresh_offset, ← at'.2]; rfl⟩,
      ((good.withWorld w).setReg ok.regs (Nat.le_refl _) _).next,
      Agree.setReg (c.withWorld w) (Nat.le_refl σ.nregs) _, setReg_regs_self _ _ _⟩
  | raise edata w =>
    rw [result] at run
    exact fun n fin => ⟨_, run.weaken (by omega), good.withWorld w, fun _ _ => rfl⟩

theorem meets_evalBool {expr : Nat} {next : Option Bool → RunState W → Out W} (at' : c.At σ)
    (laid : (σ.fresh.push (.instr (.evalBool σ.nregs expr))).Laid code)
    (good : Good ctx.cleanupStack held false c s) (ok : CtxOk ctx σ.nregs) (le : n ≤ σ.nregs)
    (rest : ∀ c' s' value, c'.At (σ.fresh.push (.instr (.evalBool σ.nregs expr))) →
      Good ctx.cleanupStack held false c' s' → Agree σ.nregs c c' →
      c'.regs σ.nregs = .bool (isTrue value) →
      Meets env delegate code fuel n ctx held fin c' (next value s')) :
    Meets env delegate code fuel n ctx held fin c ((env.evalBool expr s.w).run s next) := by
  have evaluated := step_evalBool env delegate fuel at' laid good ok
  unfold Res.run
  cases result : env.evalBool expr s.w with
  | ok value w =>
    rw [result] at evaluated
    obtain ⟨c', run, at₁, good₁, agree, reg⟩ := evaluated
    exact (rest c' _ value at₁ good₁ agree reg).prepend (run.weaken (by omega)) (agree.weaken le)
  | raise edata w =>
    rw [result] at evaluated
    exact evaluated n fin

variable (env delegate) in
/-- An instruction that only sets a register. -/
theorem step_reg {i : Instr} {r : Nat} {v : Val} (at' : c.At σ)
    (laid : (σ.push (.instr i)).Laid code) (good : Good cleanups held rc c s)
    (below : ∀ x ∈ cleanups, x.reg < n) (above : n ≤ r)
    (effect : stepInstr env delegate c i = (c.setReg r v).next) :
    ∃ c', Runs env delegate code 1 c c' ∧ c'.At (σ.push (.instr i)) ∧
      Good cleanups held rc c' s ∧ c'.regs r = v ∧
      ∀ r', r' ≠ r → c'.regs r' = c.regs r' := by
  have run : Runs env delegate code 1 c (stepItem env delegate c (.instr i)) :=
    runs_item at' laid good.running
  rw [show stepItem env delegate c (.instr i) = (c.setReg r v).next from effect] at run
  exact ⟨_, run, ⟨at'.1, by rw [push_offset, ← at'.2]; rfl⟩, (good.setReg below above v).next,
    setReg_regs_self c r v, fun r' ne => setReg_regs_of_ne c v ne⟩

/-- A FOR bound evaluated into a new register. -/
theorem meets_evalInt {expr : Nat} {next : BitVec 32 → RunState W → Out W} (at' : c.At σ)
    (laid : (σ.fresh.push (.instr (.evalInt σ.nregs expr))).Laid code)
    (good : Good ctx.cleanupStack held false c s) (ok : CtxOk ctx σ.nregs) (le : n ≤ σ.nregs)
    (rest : ∀ c' s' value, c'.At (σ.fresh.push (.instr (.evalInt σ.nregs expr))) →
      Good ctx.cleanupStack held false c' s' → Agree σ.nregs c c' →
      c'.regs σ.nregs = .int value →
      Meets env delegate code fuel n ctx held fin c' (next value s')) :
    Meets env delegate code fuel n ctx held fin c (runBound env expr s next) := by
  have run : Runs env delegate code 1 c
      (stepItem env delegate c (.instr (.evalInt σ.nregs expr))) :=
    runs_item (σ := σ.fresh) at' laid good.running
  simp only [stepItem, stepInstr, good.world] at run
  unfold runBound Res.run
  cases result : env.evalInt expr s.w with
  | raise edata w =>
    rw [result] at run
    exact ⟨_, run.weaken (by omega), good.withWorld w, fun _ _ => rfl⟩
  | ok value w =>
    rw [result] at run
    cases value with
    | none => exact ⟨_, run.weaken (by omega), (good.withWorld w).note _, fun _ _ => rfl⟩
    | some v =>
      have agree : Agree σ.nregs c _ := Agree.setReg (c.withWorld w) (Nat.le_refl σ.nregs) (.int v)
      refine (rest _ _ v ?_ (((good.withWorld w).setReg ok.regs (Nat.le_refl _) _).next) agree
        (setReg_regs_self _ _ _)).prepend (run.weaken (by omega)) (agree.weaken le)
      exact ⟨at'.1, by rw [push_offset, fresh_offset, ← at'.2]; rfl⟩

/-- The BY value evaluated into a new register. -/
theorem meets_step {step : Option Nat} {next : BitVec 32 → RunState W → Out W} (at' : c.At σ)
    (laid : (σ.fresh.push (.instr (stepInstrOf step σ.nregs))).Laid code)
    (good : Good ctx.cleanupStack held false c s) (ok : CtxOk ctx σ.nregs) (le : n ≤ σ.nregs)
    (rest : ∀ c' s' value, c'.At (σ.fresh.push (.instr (stepInstrOf step σ.nregs))) →
      Good ctx.cleanupStack held false c' s' → Agree σ.nregs c c' →
      c'.regs σ.nregs = .int value →
      Meets env delegate code fuel n ctx held fin c' (next value s')) :
    Meets env delegate code fuel n ctx held fin c (runStep env step s next) := by
  cases step with
  | some expr =>
    exact meets_evalInt at' laid good ok le fun c' s' value at₁ good₁ agree reg =>
      rest c' _ value at₁ (good₁.note _) agree reg
  | none =>
    obtain ⟨c₁, run, at₁, good₁, reg, others⟩ :=
      step_reg env delegate (σ := σ.fresh) at' laid good ok.regs (Nat.le_refl _) rfl
    have agree : Agree σ.nregs c c₁ := fun r lt => others r (by omega)
    exact (rest c₁ s 1 at₁ good₁ agree reg).prepend (run.weaken (by omega)) (agree.weaken le)

/-- The exit block of a FOR loop assigns FOUND. -/
theorem meets_foundExit {found : Nat} {b : Bool} (at' : c.At σ)
    (laid : (foundExit σ found).Laid code) (good : Good ctx.cleanupStack held false c s)
    (ok : CtxOk ctx σ.nregs) (le : n ≤ σ.nregs) (value : c.regs found = .bool b) :
    Meets env delegate code fuel n ctx held (fun c' => c'.At (foundExit σ found)) c
      (.next (s.map (env.setFound b))) := by
  have laidMove : (σ.fresh.push (.instr (.move σ.nregs found))).Laid code := laid.of_push
  obtain ⟨c₁, run, at₁, good₁, reg, others⟩ :=
    step_reg env delegate (σ := σ.fresh) at' laidMove good ok.regs (Nat.le_refl _) rfl
  have second : Runs env delegate code 1 c₁ (stepItem env delegate c₁ (.instr (.setFound σ.nregs))) :=
    runs_item at₁ laid good₁.running
  simp only [stepItem, stepInstr, reg, value, Val.toBool] at second
  refine ⟨_, (run.trans second).weaken (by omega), ⟨at₁.1, ?_⟩, (good₁.map (env.setFound b)).next, ?_⟩
  · rw [foundExit, push_offset, ← at₁.2]
    rfl
  · exact fun r lt => others r (by omega)

end Uplpgsql
