import Uplpgsql.Correctness.Handlers

/-!
# Compiled functions

The induction over statements, and what it says about a whole function: the
machine started at the entry block ends as the structured meaning of the body
says. Compilation itself succeeds whenever every jump resolves.
-/

namespace Uplpgsql

open Lib.Blocks Lib.Iteration Builder Emit

variable {W : Type} {env : Env W} {delegate : Delegate W} {code : Nat → List Item} {fuel : Nat}

/-! ### The induction over statements -/

theorem sound_foreachA (label : Option Nat) (id : Nat) (body : Stmts) :
    Sound env delegate code fuel (compileForeachA label id body)
      (runForeachA (delegate label id body)) where
  emits _ := .instr _
  keepsOpen _ := .instr _
  implements := by
    intro ctx σ σ' _ _ _ returned laid rctx held c s at' good _
    obtain rfl : σ.push _ = σ' := by simpa [compileForeachA] using returned
    have run : Runs env delegate code 1 c
        (stepItem env delegate c (.instr (.foreachA label id body))) :=
      runs_item at' laid good.running
    have kept := good.getStmtMcontext
    simp only [stepItem, stepInstr, good.world] at run
    unfold runForeachA
    cases result : delegate label id body s.w with
    | done rc w =>
      rw [result] at run
      exact ⟨_, run.weaken (by omega), ⟨at'.1, by rw [push_offset, ← at'.2]; rfl⟩,
        ⟨kept.running, rfl, kept.rc, kept.chain⟩, fun _ _ => rfl⟩
    | err edata w =>
      rw [result] at run
      exact ⟨_, run.weaken (by omega), ⟨kept.running, rfl, kept.rc, kept.chain⟩, fun _ _ => rfl⟩
    | spent w =>
      rw [result] at run
      exact ⟨_, rfl, .inr ⟨run.weaken (by omega), rfl⟩⟩

mutual

theorem Stmt.compile_sound (st : Stmt) :
    Sound env delegate code fuel st.compile (st.run env (ignoreRc delegate) fuel) := by
  cases st with
  | leaf id => exact sound_op (.leaf id)
  | block label initvars body => exact sound_block label initvars body.compile_sound
  | blockExceptions label initvars body exceptions =>
    exact sound_blockExceptions label initvars body.compile_sound exceptions.compile_sound
  | cond expr thenBody elsifs elseBody =>
    exact sound_if expr thenBody.compile_sound elsifs.compile_sound elseBody.compile_sound
  | case test whens haveElse elseStmts =>
    exact sound_case test haveElse whens.compile_sound elseStmts.compile_sound
  | condLoop label expr testAtTop body => exact sound_condLoop label expr testAtTop body.compile_sound
  | loop label body => exact sound_loop label body.compile_sound
  | fori label var lower upper step reverse body =>
    exact sound_fori label var lower upper step reverse body.compile_sound
  | forq kind label id body => exact sound_forq kind label id body.compile_sound
  | foreachA label id body => exact sound_foreachA label id body
  | exit isExit label cond => exact sound_exit isExit label cond
  | ret id => exact sound_return id

theorem Stmts.compile_sound (ss : Stmts) :
    Sound env delegate code fuel ss.compile (ss.run env (ignoreRc delegate) fuel) := by
  cases ss with
  | nil => exact sound_skip
  | cons head tail => exact head.compile_sound.seq tail.compile_sound

theorem Whens.compile_sound (ws : Whens) :
    List.Forall₂ (SoundClause env delegate code fuel) ws.compile (ws.run env (ignoreRc delegate) fuel) := by
  cases ws with
  | nil => exact .nil
  | cons expr body rest => exact .cons ⟨rfl, body.compile_sound⟩ rest.compile_sound

theorem Exceptions.compile_sound (es : Exceptions) :
    List.Forall₂ (SoundHandler env delegate code fuel) es.compile (es.run env (ignoreRc delegate) fuel) := by
  cases es with
  | nil => exact .nil
  | cons conditions action rest => exact .cons ⟨rfl, action.compile_sound⟩ rest.compile_sound

end

/-! ### Functions -/

section Ends

variable (env delegate code fuel)

/-- The machine at `c` ends the function as the meaning of its body says. -/
def Ends (c : Config W) : Out W → Prop
  | .next s =>
    ∃ c', Runs env delegate code 0 c c' ∧ c'.status = .returned ∧ c'.rcReturn = false ∧ c'.w = s.w
  | .ret s =>
    ∃ c', Runs env delegate code 0 c c' ∧ c'.status = .returned ∧ c'.rcReturn = true ∧ c'.w = s.w
  | .raise edata s => ∃ c', Runs env delegate code 0 c c' ∧ c'.status = .uncaught edata ∧ c'.w = s.w
  | .spent s =>
    ∃ c', c'.w = s.w ∧
      ((Runs env delegate code fuel c c' ∧ c'.status = .running) ∨
        (Runs env delegate code 0 c c' ∧ c'.status = .spent))
  | .jump _ _ _ => False

end Ends

/-- With no frame on the exception stack an error leaves the function. -/
theorem Good.throw_uncaught {rc : Bool} {c : Config W} {s : RunState W} (good : Good [] [] rc c s)
    (edata : ErrorData) : c.throw edata = c.halt (.uncaught edata) := by
  have chain := good.chain
  unfold Config.throw
  generalize c.rt.exceptionStack = exc at chain ⊢
  cases chain
  rfl

theorem compileFunction_ends {action : Stmt} (compiled : compileFunction action = some code)
    (level : Nat) (w : W) :
    Ends env delegate code fuel (Config.start level w)
      (action.run env (ignoreRc delegate) fuel functionRunCtx ⟨w, .none⟩) := by
  obtain ⟨⟨_, σ'⟩, emitted, rfl⟩ := Option.map_eq_some_iff.mp compiled
  simp only [emitFunction, bind_run, br_run, positionAtEnd_run, item_run, Option.bind_some,
    Option.bind_eq_some_iff, Prod.exists, Option.some.injEq, Prod.mk.injEq, true_and] at emitted
  obtain ⟨_, σ₁, inner, rfl⟩ := emitted
  have valid : (start Item 2).Valid := ⟨by simp [start], fun _ _ => rfl⟩
  have ext := (action.compile_emits functionCtx) _ _ valid inner
  have startReturn : (start Item 2).Reserved returnBb :=
    ⟨by simp [start, returnBb], by simp [start, returnBb], rfl⟩
  have returnBlock := (startReturn.survives ext).push (.br returnBb)
  have laidRet : (((σ₁.push (.br returnBb)).goto returnBb).push .ret).Laid
      (((σ₁.push (.br returnBb)).goto returnBb).push .ret).code := fun _ => List.prefix_rfl
  have laidBr := laidRet.of_push.of_goto
  -- A run starts with nothing to release and no frame.
  have good : Good [] [] false (Config.start level w) (⟨w, .none⟩ : RunState W) :=
    ⟨rfl, rfl, rfl, .nil _⟩
  have ok : CtxOk functionCtx (start Item 2).nregs := ⟨by simp [functionCtx], by simp [functionCtx]⟩
  have meets : Meets env delegate _ fuel _ _ _ _ (Config.start level w)
      (action.run env (ignoreRc delegate) fuel functionRunCtx ⟨w, .none⟩) :=
    action.compile_sound.implements functionCtx (start Item 2) σ₁ valid rfl ok inner laidBr.of_push
      functionRunCtx [] (Config.start level w) ⟨w, .none⟩ ⟨rfl, rfl⟩ good ⟨.nil, .nil⟩
  have returns : ∀ c' : Config W, c'.Enters returnBb → c'.status = .running →
      Runs env delegate _ 1 c' (c'.halt .returned) := fun c' enters running =>
    runs_item (enters.at returnBlock) laidRet running
  cases result : action.run env (ignoreRc delegate) fuel functionRunCtx ⟨w, .none⟩ with
  | next s =>
    rw [result] at meets
    obtain ⟨c₁, run₁, at₁, good₁, -⟩ := meets
    have branch : Runs env delegate _ 1 c₁ (c₁.goto returnBb) := runs_br at₁ laidBr good₁.running
    exact ⟨_, (run₁.append (branch.trans (returns _ (c₁.goto_enters _) good₁.running))).weaken
      (by omega), rfl, good₁.rc, good₁.world⟩
  | jump isExit k s =>
    rw [result] at meets
    -- There is no loop around the body to jump to.
    obtain ⟨c₁, info, target, -, found, -⟩ := meets
    cases found
  | ret s =>
    rw [result] at meets
    obtain ⟨c₁, run₁, enters₁, good₁, -⟩ := meets
    exact ⟨_, run₁.append ((returns c₁ enters₁ good₁.running).weaken (by omega)), rfl, good₁.rc,
      good₁.world⟩
  | raise edata s =>
    rw [result] at meets
    obtain ⟨c₁, run₁, good₁, -⟩ := meets
    -- No frame is left to catch the error.
    rw [good₁.throw_uncaught] at run₁
    exact ⟨_, run₁, rfl, good₁.world⟩
  | spent s =>
    rw [result] at meets
    exact meets

end Uplpgsql
