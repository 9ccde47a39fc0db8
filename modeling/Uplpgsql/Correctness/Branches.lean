import Uplpgsql.Correctness.Steps

/-!
# Sequences, IF and CASE

The emitted branches do what the structured meaning says.
-/

namespace Uplpgsql

open Lib.Blocks Lib.Iteration Builder

variable {W : Type}

/-- What the induction over statements carries for each sub-statement. -/
structure Sound (env : Env W) (delegate : Delegate W) (code : Nat → List Item) (fuel : Nat)
    (emitter : Emitter) (run : Run W) : Prop where
  emits : ∀ ctx, Emits (emitter ctx)
  keepsOpen : ∀ ctx, KeepsOpen (emitter ctx)
  implements : Implements env delegate code fuel emitter run

variable {env : Env W} {delegate : Delegate W} {code : Nat → List Item} {fuel : Nat}

/-! ### Sequences -/

theorem sound_op (op : Op) :
    Sound env delegate code fuel (fun _ => instr (.call op)) (runOp env op) where
  emits _ := .instr _
  keepsOpen _ := .instr _
  implements := by
    intro ctx σ σ' _ _ _ returned laid rctx held c s at' good _
    obtain rfl : σ.push _ = σ' := by simpa using returned
    exact meets_call at' laid good

theorem sound_skip :
    Sound env delegate code fuel (fun _ => pure ()) (fun _ s => .next s) where
  emits _ := .pure
  keepsOpen _ := .pure
  implements := by
    intro ctx σ σ' _ _ _ returned laid rctx held c s at' good _
    obtain rfl : σ = σ' := by simpa using returned
    exact ⟨c, .refl c, at', good, .refl _ c⟩

theorem Sound.seq {first second : Emitter} {run₁ run₂ : Run W}
    (sound₁ : Sound env delegate code fuel first run₁)
    (sound₂ : Sound env delegate code fuel second run₂) :
    Sound env delegate code fuel (fun ctx => do first ctx; second ctx) (runSeq run₁ run₂) where
  emits ctx := (sound₁.emits ctx).seq (sound₂.emits ctx)
  keepsOpen ctx := .seq (sound₁.emits ctx) (sound₁.keepsOpen ctx) (sound₂.keepsOpen ctx)
  implements := by
    intro ctx σ σ' valid opened ok returned laid rctx held c s at' good linked
    obtain ⟨σ₁, before, after⟩ := seq_inv returned
    have ext := sound₁.emits ctx σ σ₁ valid before
    have ext' := sound₂.emits ctx σ₁ σ' ext.valid after
    have opened₁ := sound₁.keepsOpen ctx σ σ₁ valid opened before
    have meets := sound₁.implements ctx σ σ₁ valid opened ok before (laid.of_extends ext') rctx held
      c s at' good linked
    refine meets.andThen fun c' s' at₁ good' agree => ?_
    exact (sound₂.implements ctx σ₁ σ' ext.valid opened₁ (ok.mono ext.nregs_le) after laid rctx held
      c' s' at₁ good' (linked.agree ok agree)).weaken ext.nregs_le

/-! ### Clauses -/

section Clauses

variable {n : Nat} {ctx : Ctx} {held : List (Nat × Frame)} {fin : Config W → Prop} {c : Config W}
  {s : RunState W} {σ σ' : Builder Item} {rctx : RunCtx}

/-- One clause: its body ends at the merge block, and a failed test goes on with
the code after the clause. -/
theorem meets_clause {mergeBb expr : Nat} {body : Emitter} {run rest : Run W}
    (sound : Sound env delegate code fuel body run) (valid : σ.Valid) (ok : CtxOk ctx σ.nregs)
    (le : n ≤ σ.nregs) (returned : emitClause mergeBb expr (body ctx) σ = some ((), σ'))
    (laid : σ'.Laid code) (at' : c.At σ) (good : Good ctx.cleanupStack held false c s)
    (linked : Linked ctx rctx c.regs) (merge : ∀ c' : Config W, c'.Enters mergeBb → fin c')
    (otherwise : ∀ c' s', c'.At σ' → Good ctx.cleanupStack held false c' s' →
      Agree σ.nregs c c' → Meets env delegate code fuel n ctx held fin c' (rest rctx s')) :
    Meets env delegate code fuel n ctx held fin c (runWhen env expr run rest rctx s) := by
  obtain ⟨σ₁, inner, rfl⟩ := emitClause_inv returned
  have start := clauseThen_extends valid expr
  have ext := sound.emits ctx _ _ start.valid inner
  have laidBody : σ₁.Laid code := Laid.of_push (σ := σ₁) laid
  have laidThen := laidBody.of_extends ext
  have thenBb := emitClause_then_reserved valid expr
  have elseBb := emitClause_else_reserved (sound.emits ctx) valid inner
  refine meets_evalBool at' (Laid.of_push (σ := _) laidThen) good ok le
    fun c' s' value at₁ good₁ agree₁ reg => ?_
  refine Meets.condBr (σ := (σ.fresh.push (.instr (.evalBool σ.nregs expr))).append.append) at₁
    laidThen good₁.running reg ?_
  cases isTrue value with
  | true =>
    have enters : (c'.goto σ.nblocks).Enters σ.nblocks := c'.goto_enters _
    have meets := sound.implements ctx _ σ₁ start.valid (.goto thenBb) (ok.mono start.nregs_le) inner
      laidBody rctx held (c'.goto σ.nblocks) s' (enters.at thenBb) (good₁.goto _)
      (linked.agree ok agree₁)
    exact (meets.weaken (le.trans start.nregs_le)).thenBr laid merge
  | false =>
    have enters : (c'.goto (σ.nblocks + 1)).Enters (σ.nblocks + 1) := c'.goto_enters _
    exact otherwise _ s' (enters.at (elseBb.push _)) (good₁.goto _) agree₁

/-- A clause and its meaning. -/
structure SoundClause (env : Env W) (delegate : Delegate W) (code : Nat → List Item) (fuel : Nat)
    (clause : Nat × Emitter) (run : Nat × Run W) : Prop where
  expr : clause.1 = run.1
  body : Sound env delegate code fuel clause.2 run.2

theorem SoundClause.emits {clauses : List (Nat × Emitter)} {runs : List (Nat × Run W)}
    (sound : List.Forall₂ (SoundClause env delegate code fuel) clauses runs) (ctx : Ctx) :
    ∀ c ∈ clauses, Emits (c.2 ctx) := by
  induction sound with
  | nil => simp
  | cons head _ ih =>
    intro c member
    rcases List.mem_cons.mp member with rfl | inside
    · exact head.body.emits ctx
    · exact ih c inside

theorem meets_clauses {mergeBb : Nat} {clauses : List (Nat × Emitter)} {runs : List (Nat × Run W)}
    {rest : Run W} (sound : List.Forall₂ (SoundClause env delegate code fuel) clauses runs)
    (valid : σ.Valid) (ok : CtxOk ctx σ.nregs) (le : n ≤ σ.nregs)
    (returned : emitClauses mergeBb (clauses.map fun c => (c.1, c.2 ctx)) σ = some ((), σ'))
    (laid : σ'.Laid code) (at' : c.At σ) (good : Good ctx.cleanupStack held false c s)
    (linked : Linked ctx rctx c.regs) (merge : ∀ c' : Config W, c'.Enters mergeBb → fin c')
    (otherwise : ∀ c' s', c'.At σ' → Good ctx.cleanupStack held false c' s' →
      Agree σ.nregs c c' → Meets env delegate code fuel n ctx held fin c' (rest rctx s')) :
    Meets env delegate code fuel n ctx held fin c (runClauses env rest runs rctx s) := by
  induction sound generalizing σ c s with
  | nil =>
    obtain rfl : σ = σ' := by simpa [emitClauses] using returned
    exact otherwise c s at' good (.refl _ c)
  | @cons clause run clauses runs head tail ih =>
    obtain ⟨σ₁, first, remaining⟩ := seq_inv returned
    have ext := emitClause_emits mergeBb clause.1 (head.body.emits ctx) σ σ₁ valid first
    have extRest := emitClauses_emits mergeBb _ (by
      intro clause' member
      obtain ⟨c', inside, rfl⟩ := List.mem_map.mp member
      exact SoundClause.emits tail ctx c' inside) σ₁ σ' ext.valid remaining
    rw [head.expr] at first
    refine meets_clause head.body valid ok le first (laid.of_extends extRest) at' good linked merge
      fun c' s' at₁ good₁ agree₁ => ?_
    refine ih ext.valid (ok.mono ext.nregs_le) (le.trans ext.nregs_le) remaining at₁ good₁
      (linked.agree ok agree₁) fun c'' s'' at₂ good₂ agree₂ => ?_
    exact otherwise c'' s'' at₂ good₂ (agree₁.trans (agree₂.weaken ext.nregs_le))

end Clauses

/-! ### IF -/

theorem sound_if (expr : Nat) {thenStmts elseStmts : Emitter} {elsifs : List (Nat × Emitter)}
    {runThen runElse : Run W} {runs : List (Nat × Run W)}
    (soundThen : Sound env delegate code fuel thenStmts runThen)
    (soundElsif : List.Forall₂ (SoundClause env delegate code fuel) elsifs runs)
    (soundElse : Sound env delegate code fuel elseStmts runElse) :
    Sound env delegate code fuel (uplEmitIf expr thenStmts elsifs elseStmts)
      (runIf env expr runThen runs runElse) where
  emits ctx := uplEmitIf_emits expr ctx (soundThen.emits ctx) (SoundClause.emits soundElsif ctx)
    (soundElse.emits ctx)
  keepsOpen ctx := uplEmitIf_keepsOpen expr ctx (soundThen.emits ctx)
    (SoundClause.emits soundElsif ctx) (soundElse.emits ctx)
  implements := by
    intro ctx σ σ' valid opened ok returned laid rctx held c s at' good linked
    obtain ⟨σ₁, σ₂, σ₃, h₁, h₂, h₃, rfl⟩ := uplEmitIf_inv returned
    have emitsElsif := SoundClause.emits soundElsif ctx
    obtain ⟨-, merge⟩ := uplEmitIf_merge_reserved valid (soundThen.emits ctx) emitsElsif
      (soundElse.emits ctx) h₁ h₂ h₃
    have start : Extends σ σ.append := (Extends.refl valid).append
    have emitsAll : ∀ clause ∈ elsifs.map fun c => (c.1, c.2 ctx), Emits clause.2 := by
      intro clause member
      obtain ⟨c', inside, rfl⟩ := List.mem_map.mp member
      exact emitsElsif c' inside
    have ext₁ := emitClause_emits _ _ (soundThen.emits ctx) _ _ start.valid h₁
    have ext₂ := emitClauses_emits _ _ emitsAll _ _ ext₁.valid h₂
    have opened₂ : Open σ₂ := emitClauses_keepsOpen _ _ emitsAll _ _ ext₁.valid
      (emitClause_keepsOpen _ _ (soundThen.emits ctx) _ _ start.valid opened h₁) h₂
    have ext₃ := soundElse.emits ctx _ _ ext₂.valid h₃
    have laid₃ : σ₃.Laid code := Laid.of_push (σ := σ₃) laid
    have laid₂ := laid₃.of_extends ext₃
    have landed : ∀ c' : Config W, c'.Enters σ.nblocks →
        c'.At ((σ₃.push (.br σ.nblocks)).goto σ.nblocks) := fun c' enters => enters.at (merge.push _)
    refine meets_clause (σ := σ.append) soundThen start.valid ok (Nat.le_refl _) h₁
      (laid₂.of_extends ext₂) at' good linked landed fun c₁ s₁ at₁ good₁ agree₁ => ?_
    have ok₁ : CtxOk ctx σ₁.nregs := ok.mono (start.trans ext₁).nregs_le
    refine meets_clauses soundElsif ext₁.valid ok₁ ext₁.nregs_le h₂ laid₂ at₁ good₁
      (linked.agree ok agree₁) landed fun c₂ s₂ at₂ good₂ agree₂ => ?_
    have linked₂ := (linked.agree ok agree₁).agree ok₁ agree₂
    have meets := soundElse.implements ctx σ₂ σ₃ ext₂.valid opened₂ (ok₁.mono ext₂.nregs_le) h₃ laid₃
      rctx held c₂ s₂ at₂ good₂ linked₂
    exact (meets.weaken (ext₁.nregs_le.trans ext₂.nregs_le)).thenBr laid landed

/-! ### CASE -/

theorem sound_clearTest (test : Option (Nat × Nat)) :
    Sound env delegate code fuel (fun _ => emitClearTest test) (runClearTest env test) := by
  rcases test with _ | ⟨varno, expr⟩
  · exact sound_skip
  · exact sound_op (.assignNull varno)

theorem sound_caseTest (test : Option (Nat × Nat)) :
    Sound env delegate code fuel (fun _ => emitCaseTest test) (runCaseTest env test) := by
  rcases test with _ | ⟨varno, expr⟩
  · exact sound_skip
  · exact sound_op (.caseAssignTest varno expr)

theorem sound_caseElse (haveElse : Bool) {elseStmts : Emitter} {runElse : Run W}
    (sound : Sound env delegate code fuel elseStmts runElse) :
    Sound env delegate code fuel (emitCaseElse haveElse elseStmts)
      (runCaseElse env haveElse runElse) := by
  cases haveElse with
  | true => exact sound
  | false => exact sound_op .caseError

/-- The clauses of a CASE, each preceded by the clearing of the temporary. -/
theorem soundClause_clear (test : Option (Nat × Nat)) {whens : List (Nat × Emitter)}
    {runs : List (Nat × Run W)}
    (sound : List.Forall₂ (SoundClause env delegate code fuel) whens runs) :
    List.Forall₂ (SoundClause env delegate code fuel)
      (whens.map fun c => (c.1, fun ctx => do emitClearTest test; c.2 ctx))
      (runs.map fun c => (c.1, runSeq (runClearTest env test) c.2)) := by
  induction sound with
  | nil => exact .nil
  | cons head _ ih => exact .cons ⟨head.expr, (sound_clearTest test).seq head.body⟩ ih

theorem sound_case (test : Option (Nat × Nat)) {whens : List (Nat × Emitter)}
    {runs : List (Nat × Run W)} (haveElse : Bool) {elseStmts : Emitter} {runElse : Run W}
    (soundWhen : List.Forall₂ (SoundClause env delegate code fuel) whens runs)
    (soundElse : Sound env delegate code fuel elseStmts runElse) :
    Sound env delegate code fuel (uplEmitCase test whens haveElse elseStmts)
      (runCase env test runs haveElse runElse) where
  emits ctx := uplEmitCase_emits test haveElse ctx (SoundClause.emits soundWhen ctx)
    (soundElse.emits ctx)
  keepsOpen ctx := uplEmitCase_keepsOpen test haveElse ctx (SoundClause.emits soundWhen ctx)
    (soundElse.emits ctx)
  implements := by
    intro ctx σ σ' valid opened ok returned laid rctx held c s at' good linked
    obtain ⟨σ₁, σ₂, σ₃, σ₄, h₁, h₂, h₃, h₄, rfl⟩ := uplEmitCase_inv returned
    obtain ⟨-, merge⟩ := uplEmitCase_merge_reserved valid (SoundClause.emits soundWhen ctx)
      (soundElse.emits ctx) h₁ h₂ h₃ h₄
    have clauses := soundClause_clear test soundWhen
    -- Every branch clears the test variable before its statements.
    have whenEq : (whens.map fun c => (c.1, do emitClearTest test; c.2 ctx)) =
        (whens.map fun c => (c.1, fun ctx => do emitClearTest test; c.2 ctx)).map
          fun c => (c.1, c.2 ctx) := by simp [Function.comp_def]
    rw [whenEq] at h₂
    have emitsAll : ∀ clause ∈ (whens.map fun c =>
        (c.1, (fun ctx => do emitClearTest test; c.2 ctx : Emitter))).map fun c => (c.1, c.2 ctx),
        Emits clause.2 := by
      intro clause member
      obtain ⟨c', inside, rfl⟩ := List.mem_map.mp member
      exact SoundClause.emits clauses ctx c' inside
    have start : Extends σ σ.append := (Extends.refl valid).append
    have testSound : Sound env delegate code fuel _ _ := sound_caseTest test
    have ext₁ := testSound.emits ctx _ _ start.valid h₁
    have ext₂ := emitClauses_emits _ _ emitsAll _ _ ext₁.valid h₂
    have opened₂ : Open σ₂ := emitClauses_keepsOpen _ _ emitsAll _ _ ext₁.valid
      (testSound.keepsOpen ctx _ _ start.valid opened h₁) h₂
    have elseSound := (sound_clearTest test).seq (sound_caseElse haveElse soundElse)
    have last : (do emitClearTest test; emitCaseElse haveElse elseStmts ctx) σ₂ =
        some ((), σ₄) := by
      simp only [Emit.bind_run, h₃, Option.bind_some, h₄]
    have ext₄ := elseSound.emits ctx _ _ ext₂.valid last
    have laid₄ : σ₄.Laid code := Laid.of_push (σ := σ₄) laid
    have laid₂ := laid₄.of_extends ext₄
    have landed : ∀ c' : Config W, c'.Enters σ.nblocks →
        c'.At ((σ₄.push (.br σ.nblocks)).goto σ.nblocks) := fun c' enters => enters.at (merge.push _)
    have tested := testSound.implements ctx σ.append σ₁ start.valid opened ok h₁
      (laid₂.of_extends ext₂) rctx held c s at' good linked
    -- The test is evaluated once, then the clauses one after the other, and ELSE last.
    refine Meets.andThen tested fun c₁ s₁ at₁ good₁ agree₁ => ?_
    have ok₁ : CtxOk ctx σ₁.nregs := ok.mono ext₁.nregs_le
    refine meets_clauses clauses ext₁.valid ok₁ ext₁.nregs_le h₂ laid₂ at₁ good₁
      (linked.agree ok agree₁) landed fun c₂ s₂ at₂ good₂ agree₂ => ?_
    have meets := elseSound.implements ctx σ₂ σ₄ ext₂.valid opened₂ (ok₁.mono ext₂.nregs_le) last laid₄
      rctx held c₂ s₂ at₂ good₂ ((linked.agree ok agree₁).agree ok₁ agree₂)
    exact (meets.weaken (ext₁.nregs_le.trans ext₂.nregs_le)).thenBr laid landed

end Uplpgsql
