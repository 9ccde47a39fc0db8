import Uplpgsql.Frames.Points

/-!
# Emitters keep the discipline

One lemma for each emitter: started at a point where the cleanups of its context
are held, it ends at such a point, and every block it has written is checked.
The entry points of its own blocks are listed where the blocks are appended.
-/

namespace Uplpgsql

open Lib.Blocks Lib.Flow Builder

variable {σ σ' : Builder Item} {T : Entries Point} {ctx : Ctx} {held : List Cleanup}

/-! ### Straight-line code -/

theorem typed_quiet (typed : Typed discipline T σ (some (.plain .body held))) {i : Instr}
    (quiet : i.quiet = true) (silent : i.dst = none) :
    Typed discipline T (σ.push (.instr i)) (some (.plain .body held)) :=
  typed.push (.quiet quiet fun dst eq => by simp [silent] at eq)

theorem typed_write (typed : Typed discipline T σ (some (.plain .body held))) {i : Instr} {dst : Nat}
    (quiet : i.quiet = true) (writes : i.dst = some dst) (spare : Spare held dst) :
    Typed discipline T (σ.push (.instr i)) (some (.plain .body held)) :=
  typed.push (.quiet quiet fun dst' eq => by
    rw [writes] at eq
    exact Option.some.inj eq ▸ spare)

theorem typed_br (typed : Typed discipline T σ (some (.plain .body held))) {target : Nat}
    (goes : T target = some (.plain .body held)) : Typed discipline T (σ.push (.br target)) none :=
  typed.push (Flows.br goes (.inl ⟨rfl, nofun⟩))

theorem typed_condBr (typed : Typed discipline T σ (some (.plain .body held))) (cond : Nat)
    {thenBb elseBb : Nat} (goes : T thenBb = some (.plain .body held))
    (otherwise : T elseBb = some (.plain .body held)) :
    Typed discipline T (σ.push (.condBr cond thenBb elseBb)) none :=
  typed.push (Flows.condBr goes otherwise)

theorem typed_release {c : Cleanup} (typed : Typed discipline T σ (some (.plain .body (c :: held)))) :
    Typed discipline T (σ.push (.instr c.release)) (some (.plain .body held)) :=
  typed.push (Flows.release c nofun)

theorem Keeps.instr (ctx : Ctx) {i : Instr} (quiet : i.quiet = true) (silent : i.dst = none) :
    Keeps ctx (instr i) := by
  intro σ σ' T _ _ _ returned typed _
  obtain rfl : σ.push _ = σ' := by simpa using returned
  exact ⟨T, .refl T, typed_quiet typed quiet silent⟩

theorem Keeps.pure (ctx : Ctx) : Keeps ctx (Pure.pure ()) := by
  intro σ σ' T _ _ _ returned typed _
  obtain rfl : σ = σ' := by simpa using returned
  exact ⟨T, .refl T, typed⟩

theorem Keeps.seq {m k : Emit Item Unit} (emits : Emits m) (opens : KeepsOpen m) (first : Keeps ctx m)
    (second : Keeps ctx k) : Keeps ctx (do m; k) := by
  intro σ σ' T valid opened ok returned typed inside
  obtain ⟨σ₁, before, after⟩ := seq_inv returned
  have ext := emits σ σ₁ valid before
  obtain ⟨T₁, le₁, typed₁⟩ := first σ σ₁ T valid opened ok before typed inside
  obtain ⟨T₂, le₂, typed₂⟩ := second σ₁ σ' T₁ ext.valid (opens σ σ₁ valid opened before)
    (ok.mono ext.nregs_le) after typed₁ (inside.mono le₁)
  exact ⟨T₂, le₁.trans le₂, typed₂⟩

theorem typed_initVars (typed : Typed discipline T σ (some (.plain .body held))) (initvars : List Nat) :
    Typed discipline T (σ.pushAll (initItems initvars)) (some (.plain .body held)) := by
  induction initvars generalizing σ with
  | nil => exact typed
  | cons dno rest ih => exact ih (typed_quiet typed rfl rfl)

/-- What the induction over statements carries about an emitter. -/
structure Disciplined (emitter : Emitter) : Prop where
  emits : ∀ ctx, Emits (emitter ctx)
  opens : ∀ ctx, KeepsOpen (emitter ctx)
  keeps : ∀ ctx, Keeps ctx (emitter ctx)

/-! ### IF and CASE -/

/-- A clause whose bodies end at a block where the same cleanups are held. -/
theorem keeps_clause {mergeBb expr : Nat} {body : Emit Item Unit} (emits : Emits body)
    (keeps : Keeps ctx body) (valid : σ.Valid) (ok : CtxOk ctx σ.nregs)
    (returned : emitClause mergeBb expr body σ = some ((), σ'))
    (typed : Typed discipline T σ (some (.plain .body ctx.cleanupStack))) (inside : CtxTyped T ctx)
    (merge : T mergeBb = some (.plain .body ctx.cleanupStack)) :
    ∃ T' : Entries Point, T.Le T' ∧ Typed discipline T' σ' (some (.plain .body ctx.cleanupStack)) := by
  obtain ⟨σ₁, inner, rfl⟩ := emitClause_inv returned
  have start := clauseThen_extends valid expr
  have evaluated : Typed discipline T (σ.fresh.push (.instr (.evalBool σ.nregs expr))) _ :=
    typed_write typed.fresh rfl rfl (ok.spare (Nat.le_refl _))
  let own : List Point := [.plain .body ctx.cleanupStack, .plain .body ctx.cleanupStack]
  have le : T.Le (T.extend σ.nblocks own) := evaluated.le_extend own
  have thenKnown : T.extend σ.nblocks own σ.nblocks = _ := T.extend_new σ.nblocks 0 own
  have elseKnown : T.extend σ.nblocks own (σ.nblocks + 1) = _ := T.extend_new σ.nblocks 1 own
  have appended : Typed discipline (T.extend σ.nblocks own)
      (σ.fresh.push (.instr (.evalBool σ.nregs expr))).append.append _ :=
    evaluated.appendN ((Extends.refl valid).fresh.push _).valid own
  have entered := (typed_condBr appended σ.nregs thenKnown elseKnown).goto
    (emitClause_then_reserved valid expr) thenKnown
  obtain ⟨T₁, le₁, typed₁⟩ := keeps _ _ _ start.valid
    (.goto (emitClause_then_reserved valid expr)) (ok.mono start.nregs_le) inner entered
    (inside.mono le)
  refine ⟨T₁, le.trans le₁, ?_⟩
  exact (typed_br typed₁ ((le.trans le₁) _ _ merge)).goto
    ((emitClause_else_reserved emits valid inner).push _) (le₁ _ _ elseKnown)

theorem keeps_clauses {mergeBb : Nat} {clauses : List (Nat × Emit Item Unit)}
    (emits : ∀ c ∈ clauses, Emits c.2) (keeps : ∀ c ∈ clauses, Keeps ctx c.2) (valid : σ.Valid)
    (ok : CtxOk ctx σ.nregs) (returned : emitClauses mergeBb clauses σ = some ((), σ'))
    (typed : Typed discipline T σ (some (.plain .body ctx.cleanupStack))) (inside : CtxTyped T ctx)
    (merge : T mergeBb = some (.plain .body ctx.cleanupStack)) :
    ∃ T' : Entries Point, T.Le T' ∧ Typed discipline T' σ' (some (.plain .body ctx.cleanupStack)) := by
  induction clauses generalizing σ T with
  | nil =>
    obtain rfl : σ = σ' := by simpa [emitClauses] using returned
    exact ⟨T, .refl T, typed⟩
  | cons c rest ih =>
    obtain ⟨σ₁, first, remaining⟩ := seq_inv returned
    have ext := emitClause_emits mergeBb c.1 (emits c (by simp)) σ σ₁ valid first
    obtain ⟨T₁, le₁, typed₁⟩ := keeps_clause (emits c (by simp)) (keeps c (by simp)) valid ok first
      typed inside merge
    obtain ⟨T₂, le₂, typed₂⟩ := ih (fun c' member => emits c' (by simp [member]))
      (fun c' member => keeps c' (by simp [member])) ext.valid (ok.mono ext.nregs_le) remaining typed₁
      (inside.mono le₁) (le₁ _ _ merge)
    exact ⟨T₂, le₁.trans le₂, typed₂⟩

theorem disciplined_if (expr : Nat) {thenStmts : Emitter} {elsifs : List (Nat × Emitter)}
    {elseStmts : Emitter} (thens : Disciplined thenStmts) (elses : Disciplined elseStmts)
    (clauses : ∀ c ∈ elsifs, Disciplined c.2) :
    Disciplined (uplEmitIf expr thenStmts elsifs elseStmts) where
  emits ctx := uplEmitIf_emits expr ctx (thens.emits ctx)
    (fun c member => (clauses c member).emits ctx) (elses.emits ctx)
  opens ctx := uplEmitIf_keepsOpen expr ctx (thens.emits ctx)
    (fun c member => (clauses c member).emits ctx) (elses.emits ctx)
  keeps ctx := by
    intro σ σ' T valid opened ok returned typed inside
    obtain ⟨σ₁, σ₂, σ₃, h₁, h₂, h₃, rfl⟩ := uplEmitIf_inv returned
    have emitsAll : ∀ c ∈ elsifs.map fun c => (c.1, c.2 ctx), Emits c.2 := by
      intro c member
      obtain ⟨c', inside, rfl⟩ := List.mem_map.mp member
      exact (clauses c' inside).emits ctx
    have keepsAll : ∀ c ∈ elsifs.map fun c => (c.1, c.2 ctx), Keeps ctx c.2 := by
      intro c member
      obtain ⟨c', inside, rfl⟩ := List.mem_map.mp member
      exact (clauses c' inside).keeps ctx
    have start : Extends σ σ.append := (Extends.refl valid).append
    have first := emitClause_emits _ _ (thens.emits ctx) _ _ start.valid h₁
    have chain := emitClauses_emits _ _ emitsAll _ _ first.valid h₂
    have open₁ := emitClause_keepsOpen _ _ (thens.emits ctx) _ _ start.valid opened h₁
    have open₂ := emitClauses_keepsOpen _ _ emitsAll _ _ first.valid open₁ h₂
    have merge : T.extend σ.nblocks [.plain .body ctx.cleanupStack] σ.nblocks = _ :=
      T.extend_new σ.nblocks 0 [.plain .body ctx.cleanupStack]
    have le := typed.le_extend [.plain .body ctx.cleanupStack]
    obtain ⟨T₁, le₁, typed₁⟩ := keeps_clause (thens.emits ctx) (thens.keeps ctx) start.valid ok h₁
      (typed.appendN valid [.plain .body ctx.cleanupStack]) (inside.mono le) merge
    obtain ⟨T₂, le₂, typed₂⟩ := keeps_clauses emitsAll keepsAll first.valid (ok.mono first.nregs_le) h₂
      typed₁ (inside.mono (le.trans le₁)) (le₁ _ _ merge)
    have okElse := ok.mono (Nat.le_trans first.nregs_le chain.nregs_le)
    obtain ⟨T₃, le₃, typed₃⟩ := elses.keeps ctx _ _ _ chain.valid open₂ okElse h₃ typed₂
      (inside.mono ((le.trans le₁).trans le₂))
    have known := (le₂.trans le₃) _ _ (le₁ _ _ merge)
    have reserved := (uplEmitIf_merge_reserved valid (thens.emits ctx)
      (fun c member => (clauses c member).emits ctx) (elses.emits ctx) h₁ h₂ h₃).2
    exact ⟨T₃, ((le.trans le₁).trans le₂).trans le₃,
      (typed_br typed₃ known).goto (reserved.push _) known⟩

theorem disciplined_clearTest (test : Option (Nat × Nat)) :
    Disciplined fun _ => emitClearTest test where
  emits _ := emitClearTest_emits test
  opens _ := emitClearTest_keepsOpen test
  keeps ctx := by
    rcases test with _ | ⟨varno, expr⟩
    · exact .pure ctx
    · exact .instr ctx rfl rfl

theorem disciplined_caseElse (haveElse : Bool) {elseStmts : Emitter} (elses : Disciplined elseStmts) :
    Disciplined (emitCaseElse haveElse elseStmts) where
  emits ctx := emitCaseElse_emits haveElse ctx (elses.emits ctx)
  opens ctx := by
    cases haveElse with
    | true => exact elses.opens ctx
    | false => exact KeepsOpen.instr _
  keeps ctx := by
    cases haveElse with
    | true => exact elses.keeps ctx
    | false => exact .instr ctx rfl rfl

theorem Disciplined.seq {first second : Emitter} (head : Disciplined first)
    (tail : Disciplined second) : Disciplined fun ctx => do first ctx; second ctx where
  emits ctx := (head.emits ctx).seq (tail.emits ctx)
  opens ctx := KeepsOpen.seq (head.emits ctx) (head.opens ctx) (tail.opens ctx)
  keeps ctx := Keeps.seq (head.emits ctx) (head.opens ctx) (head.keeps ctx) (tail.keeps ctx)

theorem typed_caseTest {test : Option (Nat × Nat)} (opened : Open σ)
    (returned : emitCaseTest test σ = some ((), σ'))
    (typed : Typed discipline T σ (some (.plain .body held))) :
    Open σ' ∧ Typed discipline T σ' (some (.plain .body held)) := by
  rcases test with _ | ⟨varno, expr⟩
  · obtain rfl : σ = σ' := by simpa [emitCaseTest] using returned
    exact ⟨opened, typed⟩
  · obtain rfl : σ.push _ = σ' := by simpa [emitCaseTest] using returned
    exact ⟨.push_instr _ _, typed_quiet typed rfl rfl⟩

theorem disciplined_case (test : Option (Nat × Nat)) (haveElse : Bool)
    {whens : List (Nat × Emitter)} {elseStmts : Emitter} (clauses : ∀ c ∈ whens, Disciplined c.2)
    (elses : Disciplined elseStmts) : Disciplined (uplEmitCase test whens haveElse elseStmts) where
  emits ctx := uplEmitCase_emits test haveElse ctx (fun c member => (clauses c member).emits ctx)
    (elses.emits ctx)
  opens ctx := uplEmitCase_keepsOpen test haveElse ctx
    (fun c member => (clauses c member).emits ctx) (elses.emits ctx)
  keeps ctx := by
    intro σ σ' T valid opened ok returned typed inside
    obtain ⟨σ₁, σ₂, σ₃, σ₄, h₁, h₂, h₃, h₄, rfl⟩ := uplEmitCase_inv returned
    have cleared (c : Nat × Emitter) (member : c ∈ whens) :=
      (disciplined_clearTest test).seq (clauses c member)
    have emitsAll : ∀ c ∈ whens.map fun c => (c.1, do emitClearTest test; c.2 ctx), Emits c.2 := by
      intro c member
      obtain ⟨c', inside, rfl⟩ := List.mem_map.mp member
      exact (cleared c' inside).emits ctx
    have keepsAll : ∀ c ∈ whens.map fun c => (c.1, do emitClearTest test; c.2 ctx),
        Keeps ctx c.2 := by
      intro c member
      obtain ⟨c', inside, rfl⟩ := List.mem_map.mp member
      exact (cleared c' inside).keeps ctx
    have start : Extends σ σ.append := (Extends.refl valid).append
    have first := emitCaseTest_emits test _ _ start.valid h₁
    have chain := emitClauses_emits _ _ emitsAll _ _ first.valid h₂
    have le := typed.le_extend [.plain .body ctx.cleanupStack]
    have merge : T.extend σ.nblocks [.plain .body ctx.cleanupStack] σ.nblocks = _ :=
      T.extend_new σ.nblocks 0 [.plain .body ctx.cleanupStack]
    have open₀ : Open σ.append := opened
    obtain ⟨open₁, typed₁⟩ := typed_caseTest open₀ h₁ (typed.appendN valid [.plain .body ctx.cleanupStack])
    obtain ⟨T₂, le₂, typed₂⟩ := keeps_clauses emitsAll keepsAll first.valid (ok.mono first.nregs_le) h₂
      typed₁ (inside.mono le) merge
    have open₂ := emitClauses_keepsOpen _ _ emitsAll _ _ first.valid open₁ h₂
    have okElse := ok.mono (Nat.le_trans first.nregs_le chain.nregs_le)
    have rest : (do emitClearTest test; emitCaseElse haveElse elseStmts ctx) σ₂ = some ((), σ₄) := by
      rw [Emit.bind_run, h₃, Option.bind_some]
      exact h₄
    obtain ⟨T₃, le₃, typed₃⟩ := ((disciplined_clearTest test).seq
      (disciplined_caseElse haveElse elses)).keeps ctx _ _ _ chain.valid open₂ okElse rest typed₂
      (inside.mono (le.trans le₂))
    have known := (le₂.trans le₃) _ _ merge
    have reserved := (uplEmitCase_merge_reserved valid (fun c member => (clauses c member).emits ctx)
      (elses.emits ctx) h₁ h₂ h₃ h₄).2
    exact ⟨T₃, (le.trans le₂).trans le₃, (typed_br typed₃ known).goto (reserved.push _) known⟩

/-! ### Loops -/

/-- A loop around a statement whose exit and continue blocks hold what the
statement's context holds. -/
theorem CtxTyped.pushLoop (inside : CtxTyped T ctx) (label : Option Nat) {continueBb exitBb : Nat}
    (continues : T continueBb = some (.plain .body ctx.cleanupStack))
    (exits : T exitBb = some (.plain .body ctx.cleanupStack)) :
    CtxTyped T (uplPushLoop ctx label continueBb exitBb) where
  returns := inside.returns
  exits info member := by
    rcases List.mem_cons.mp member with rfl | outer
    · simpa [Ctx.heldAt, uplPushLoop, Ctx.cleanupDepth] using exits
    · exact inside.exits info outer
  continues info member b eq := by
    rcases List.mem_cons.mp member with rfl | outer
    · obtain rfl := Option.some.inj eq
      simpa [Ctx.heldAt, uplPushLoop, Ctx.cleanupDepth] using continues
    · exact inside.continues info outer b eq

theorem disciplined_loop (label : Option Nat) {body : Emitter} (inner : Disciplined body) :
    Disciplined (uplEmitLoop label body) where
  emits ctx := uplEmitLoop_emits label ctx inner.emits
  opens ctx := uplEmitLoop_keepsOpen label ctx inner.emits
  keeps ctx := by
    intro σ σ' T valid _ ok returned typed inside
    obtain ⟨σ₁, emitted, rfl⟩ := uplEmitLoop_inv returned
    have start := loopBody_extends valid
    have ext := inner.emits _ _ _ start.valid emitted
    let own : List Point := [.plain .body ctx.cleanupStack, .plain .body ctx.cleanupStack]
    have le : T.Le (T.extend σ.nblocks own) := typed.le_extend own
    have body₀ : T.extend σ.nblocks own σ.nblocks = _ := T.extend_new σ.nblocks 0 own
    have exit₀ : T.extend σ.nblocks own (σ.nblocks + 1) = _ := T.extend_new σ.nblocks 1 own
    have bodyReserved : (σ.append.append.push (.br σ.nblocks)).Reserved σ.nblocks :=
      (Reserved.appendedN (b := σ.nblocks) valid 2 (Nat.le_refl _) (by omega)).push _
    have entered := (typed_br (typed.appendN valid own) body₀).goto bodyReserved body₀
    obtain ⟨T₁, le₁, typed₁⟩ := inner.keeps _ _ _ _ start.valid (.goto bodyReserved)
      ((ok.mono start.nregs_le).pushLoop label _ _) emitted entered
      ((inside.mono le).pushLoop label body₀ exit₀)
    exact ⟨T₁, le.trans le₁, (typed_br typed₁ (le₁ _ _ body₀)).goto
      (((loopBody_exit_reserved valid).survives ext).push _) (le₁ _ _ exit₀)⟩

theorem disciplined_condLoop (label : Option Nat) (expr : Nat) (testAtTop : Bool) {body : Emitter}
    (inner : Disciplined body) : Disciplined (uplEmitCondLoop label expr testAtTop body) where
  emits ctx := uplEmitCondLoop_emits label expr testAtTop ctx inner.emits
  opens ctx := uplEmitCondLoop_keepsOpen label expr testAtTop ctx inner.emits
  keeps ctx := by
    intro σ σ' T valid _ ok returned typed inside
    let own : List Point :=
      [.plain .body ctx.cleanupStack, .plain .body ctx.cleanupStack, .plain .body ctx.cleanupStack]
    have le : T.Le (T.extend σ.nblocks own) := typed.le_extend own
    have cond₀ : T.extend σ.nblocks own σ.nblocks = _ := T.extend_new σ.nblocks 0 own
    have body₀ : T.extend σ.nblocks own (σ.nblocks + 1) = _ := T.extend_new σ.nblocks 1 own
    have exit₀ : T.extend σ.nblocks own (σ.nblocks + 2) = _ := T.extend_new σ.nblocks 2 own
    have appended : Typed discipline (T.extend σ.nblocks own) σ.append.append.append _ :=
      typed.appendN valid own
    cases testAtTop with
    | true =>
      obtain ⟨σ₁, emitted, rfl⟩ := uplEmitWhile_inv returned
      have start := whileBody_extends valid expr
      have ext := inner.emits _ _ _ start.valid emitted
      have condReserved := (condLoop_reserved valid 0 (by omega)).push (.br σ.nblocks)
      have bodyReserved := (((((condLoop_reserved valid 1 (by omega)).push (.br σ.nblocks)).goto
        σ.nblocks (by omega)).fresh.push (.instr (.evalBool σ.nregs expr))).push
        (.condBr σ.nregs (σ.nblocks + 1) (σ.nblocks + 2)))
      have tested := typed_write ((typed_br appended cond₀).goto condReserved cond₀).fresh
        (i := .evalBool σ.nregs expr) rfl rfl (ok.spare (Nat.le_refl _))
      have entered := (typed_condBr tested σ.nregs body₀ exit₀).goto bodyReserved body₀
      obtain ⟨T₁, le₁, typed₁⟩ := inner.keeps _ _ _ _ start.valid (.goto bodyReserved)
        ((ok.mono start.nregs_le).pushLoop label _ _) emitted entered
        ((inside.mono le).pushLoop label cond₀ exit₀)
      exact ⟨T₁, le.trans le₁, (typed_br typed₁ (le₁ _ _ cond₀)).goto
        (((whileBody_exit_reserved valid expr).survives ext).push _) (le₁ _ _ exit₀)⟩
    | false =>
      obtain ⟨σ₁, emitted, rfl⟩ := uplEmitRepeat_inv returned
      have start := repeatBody_extends valid
      have ext := inner.emits _ _ _ start.valid emitted
      have bodyReserved := (condLoop_reserved valid 1 (by omega)).push (.br (σ.nblocks + 1))
      have entered := (typed_br appended body₀).goto bodyReserved body₀
      obtain ⟨T₁, le₁, typed₁⟩ := inner.keeps _ _ _ _ start.valid (.goto bodyReserved)
        ((ok.mono start.nregs_le).pushLoop label _ _) emitted entered
        ((inside.mono le).pushLoop label cond₀ exit₀)
      have testedAt := (typed_br typed₁ (le₁ _ _ cond₀)).goto
        (((repeatBody_reserved valid).1.survives ext).push _) (le₁ _ _ cond₀)
      have tested := typed_write testedAt.fresh (i := .evalBool σ₁.nregs expr) rfl rfl
        ((ok.mono start.nregs_le).spare ext.nregs_le)
      exact ⟨T₁, le.trans le₁, (typed_condBr tested σ₁.nregs (le₁ _ _ exit₀) (le₁ _ _ body₀)).goto
        (repeatTest_exit_reserved ((repeatBody_reserved valid).2.survives ext) expr) (le₁ _ _ exit₀)⟩

/-! ### Integer FOR -/

theorem typed_foriCond (typed : Typed discipline T σ (some (.plain .body held)))
    (spare : ∀ r, σ.nregs ≤ r → Spare held r) (reverse : Bool) (loopVal upper : Nat)
    {bodyBb exitBb : Nat} (body : T bodyBb = some (.plain .body held)) (exits : T exitBb = some (.plain .body held)) :
    Typed discipline T (foriCond σ reverse loopVal upper bodyBb exitBb) none := by
  have moved := typed_write typed.fresh (i := .move σ.nregs loopVal) rfl rfl (spare _ (Nat.le_refl _))
  have tested := typed_write moved.fresh (i := foriTest reverse (σ.nregs + 1) σ.nregs upper)
    (by cases reverse <;> rfl) (by cases reverse <;> rfl) (spare (σ.nregs + 1) (by omega))
  exact typed_condBr tested _ exits body

/-- The step block and the block that stores the next value. -/
theorem typed_foriStore (valid : σ.Valid) (typed : Typed discipline T σ (some (.plain .body held)))
    (spare : ∀ r, σ.nregs ≤ r → Spare held r) (reverse : Bool) (loopVal step : Nat)
    {condBb exitBb : Nat} (slot : Spare held loopVal) (cond : T condBb = some (.plain .body held))
    (exits : T exitBb = some (.plain .body held)) :
    T.Le (T.extend σ.nblocks [.plain .body held]) ∧
      Typed discipline (T.extend σ.nblocks [.plain .body held])
        (foriStore σ reverse loopVal step condBb exitBb) none := by
  have moved := typed_write typed.fresh (i := .move σ.nregs loopVal) rfl rfl (spare _ (Nat.le_refl _))
  have le : T.Le (T.extend σ.nblocks [.plain .body held]) := moved.le_extend [.plain .body held]
  have store : T.extend σ.nblocks [.plain .body held] σ.nblocks = _ := T.extend_new σ.nblocks 0 [.plain .body held]
  have validMove := ((Extends.refl valid).fresh.push (.instr (.move σ.nregs loopVal))).valid
  have appended := moved.appendN validMove [.plain .body held]
  have stepped := typed_write appended.fresh (i := foriNext reverse (σ.nregs + 1) σ.nregs step)
    (by cases reverse <;> rfl) (by cases reverse <;> rfl) (spare (σ.nregs + 1) (by omega))
  have compared := typed_write stepped.fresh
    (i := foriOverflow reverse (σ.nregs + 2) (σ.nregs + 1) σ.nregs)
    (by cases reverse <;> rfl) (by cases reverse <;> rfl) (spare (σ.nregs + 2) (by omega))
  have branched := typed_condBr compared (σ.nregs + 2) (le _ _ exits) store
  have reserved : (foriCheck σ reverse loopVal step exitBb).Reserved σ.nblocks :=
    ((((Reserved.appended validMove).fresh.push _).fresh.push _).push _)
  have stored := typed_write (branched.goto reserved store) (i := .move loopVal (σ.nregs + 1)) rfl rfl
    slot
  exact ⟨le, typed_br stored (le _ _ cond)⟩

theorem typed_foundExit (typed : Typed discipline T σ (some (.plain .body held)))
    (spare : Spare held σ.nregs) (found : Nat) :
    Typed discipline T (foundExit σ found) (some (.plain .body held)) :=
  typed_quiet (typed_write typed.fresh (i := .move σ.nregs found) rfl rfl spare) rfl rfl

/-- The bounds, the two slots and the four blocks of a FOR loop. -/
theorem typed_foriSetup (valid : σ.Valid) (typed : Typed discipline T σ (some (.plain .body held)))
    (spare : ∀ r, σ.nregs ≤ r → Spare held r) (lower upper : Nat) (step : Option Nat) :
    T.Le (T.extend σ.nblocks (List.replicate 4 (.plain .body held))) ∧
      Typed discipline (T.extend σ.nblocks (List.replicate 4 (.plain .body held)))
        (foriSetup σ lower upper step) none := by
  have lower' := typed_write typed.fresh (i := .evalInt σ.nregs lower) rfl rfl (spare _ (Nat.le_refl _))
  have upper' := typed_write lower'.fresh (i := .evalInt (σ.nregs + 1) upper) rfl rfl
    (spare (σ.nregs + 1) (by omega))
  have step' := typed_write upper'.fresh (i := stepInstrOf step (σ.nregs + 2))
    (by cases step <;> rfl) (by cases step <;> rfl) (spare (σ.nregs + 2) (by omega))
  have value := typed_write step'.fresh.fresh (i := .move (σ.nregs + 3) σ.nregs) rfl rfl
    (spare (σ.nregs + 3) (by omega))
  have found := typed_write value (i := .const (σ.nregs + 4) (.bool false)) rfl rfl
    (spare (σ.nregs + 4) (by omega))
  have before := ((((((Extends.refl valid).fresh.push (.instr (.evalInt σ.nregs lower))).fresh.push
    (.instr (.evalInt (σ.nregs + 1) upper))).fresh.push
    (.instr (stepInstrOf step (σ.nregs + 2)))).fresh.fresh.push
    (.instr (.move (σ.nregs + 3) σ.nregs))).push (.instr (.const (σ.nregs + 4) (.bool false))))
  have cond : T.extend σ.nblocks (List.replicate 4 (.plain .body held)) σ.nblocks = _ :=
    T.extend_new σ.nblocks 0 (List.replicate 4 (.plain .body held))
  exact ⟨found.le_extend _, typed_br (found.appendN before.valid (List.replicate 4 (.plain .body held))) cond⟩

theorem disciplined_fori (label : Option Nat) (var lower upper : Nat) (step : Option Nat)
    (reverse : Bool) {body : Emitter} (inner : Disciplined body) :
    Disciplined (uplEmitFori label var lower upper step reverse body) where
  emits ctx := uplEmitFori_emits label var lower upper step reverse ctx inner.emits
  opens ctx := uplEmitFori_keepsOpen label var lower upper step reverse ctx
  keeps ctx := by
    intro σ σ' T valid _ ok returned typed inside
    obtain ⟨σ₁, emitted, rfl⟩ := uplEmitFori_inv returned
    have spare (r : Nat) (le : σ.nregs ≤ r) := ok.spare le
    obtain ⟨le, setup⟩ := typed_foriSetup valid typed spare lower upper step
    let own : Entries Point := T.extend σ.nblocks (List.replicate 4 (.plain .body ctx.cleanupStack))
    have known (k : Nat) (lt : k < 4) : own (σ.nblocks + k) = some (.plain .body ctx.cleanupStack) := by
      simp only [own, Entries.extend_new, List.getElem?_replicate, if_pos lt]
    have condReserved := foriSetup_reserved valid lower upper step 0 (by omega)
    have bodyReserved := (((((foriSetup_reserved valid lower upper step 1 (by omega)).goto σ.nblocks
      (by omega)).fresh.push (.instr (.move (σ.nregs + 5) (σ.nregs + 3)))).fresh.push
      (.instr (foriTest reverse (σ.nregs + 6) (σ.nregs + 5) (σ.nregs + 1)))).push
      (.condBr (σ.nregs + 6) (σ.nblocks + 3) (σ.nblocks + 1)))
    have tested := typed_foriCond (setup.goto condReserved (known 0 (by omega)))
      (fun r above => spare r (by simp [foriSetup] at above; omega)) reverse (σ.nregs + 3)
      (σ.nregs + 1) (known 1 (by omega)) (known 3 (by omega))
    have assigned := typed_quiet (i := .assignInt var (σ.nregs + 5)) (typed_write
      (i := .const (σ.nregs + 4) (.bool true)) (tested.goto bodyReserved (known 1 (by omega))) rfl rfl
      (spare (σ.nregs + 4) (by omega))) rfl rfl
    have start := foriBody_extends valid var lower upper step reverse
    have ext := inner.emits _ _ _ start.valid emitted
    obtain ⟨T₁, le₁, typed₁⟩ := inner.keeps _ _ _ _ start.valid (.push_instr _ _)
      ((ok.mono start.nregs_le).pushLoop label _ _) emitted assigned
      ((inside.mono le).pushLoop label (known 2 (by omega)) (known 3 (by omega)))
    have reserved (k : Nat) (lt : k < 4) (two : 2 ≤ k) :=
      ((foriBody_reserved valid var lower upper step reverse k lt two).survives ext)
    have later (k : Nat) (lt : k < 4) := le₁ _ _ (known k lt)
    have stepAt := (typed_br typed₁ (later 2 (by omega))).goto ((reserved 2 (by omega) (by omega)).push _)
      (later 2 (by omega))
    have stepValid : ((σ₁.push (.br (σ.nblocks + 2))).goto (σ.nblocks + 2)).Valid :=
      ⟨(reserved 2 (by omega) (by omega)).born, ((Extends.refl ext.valid).push _).valid.unborn⟩
    have above : σ.nregs ≤ σ₁.nregs := Nat.le_trans start.nregs_le ext.nregs_le
    obtain ⟨le₂, stored⟩ := typed_foriStore stepValid stepAt
      (fun r more => spare r (Nat.le_trans above more)) reverse (σ.nregs + 3) (σ.nregs + 2)
      (spare (σ.nregs + 3) (by omega)) (later 0 (by omega)) (later 3 (by omega))
    have exitAt := stored.goto (foriTail_exit_reserved (reserved 3 (by omega) (by omega)) reverse)
      (le₂ _ _ (later 3 (by omega)))
    refine ⟨_, (le.trans le₁).trans le₂, typed_foundExit exitAt (spare _ ?_) _⟩
    simp only [goto_nregs, foriStore, foriCheck, push_nregs, fresh_nregs, append_nregs]
    omega

/-! ### Jumps and RETURN -/

theorem uplFindLoop_mem {infos : List LoopInfo} {label : Option Nat} {info : LoopInfo}
    (found : uplFindLoop infos label = some info) : info ∈ infos := by
  induction infos with
  | nil => cases found
  | cons first rest ih =>
    unfold uplFindLoop at found
    split at found
    all_goals
      split at found
      · obtain rfl := Option.some.inj found
        exact List.mem_cons_self
      · exact List.mem_cons_of_mem _ (ih found)

/-- The releases of a jump leave what its target holds. -/
theorem typed_releases {cleanups : List Cleanup}
    (typed : Typed discipline T σ (some (.plain .body (cleanups ++ held)))) :
    Typed discipline T (σ.pushAll (cleanups.map fun c => .instr c.release)) (some (.plain .body held)) := by
  induction cleanups generalizing σ with
  | nil => exact typed
  | cons c rest ih => exact ih (typed_release typed)

theorem typed_unwind (typed : Typed discipline T σ (some (.plain .body ctx.cleanupStack)))
    (info : LoopInfo) :
    Typed discipline T (σ.pushAll (unwindItems ctx info.cleanupDepth)) (some (.plain .body (ctx.heldAt info))) := by
  refine typed_releases ?_
  rw [Ctx.cleanupDepth, Ctx.heldAt, List.take_append_drop]
  exact typed

theorem CtxTyped.target (inside : CtxTyped T ctx) {label : Option Nat} {isExit : Bool}
    {info : LoopInfo} {targetBb : Nat} (resolved : Resolved ctx label isExit info targetBb) :
    T targetBb = some (.plain .body (ctx.heldAt info)) := by
  have member := uplFindLoop_mem resolved.found
  have target := resolved.target
  cases isExit with
  | true =>
    obtain rfl := Option.some.inj target
    exact inside.exits info member
  | false => exact inside.continues info member targetBb target

theorem disciplined_exit (label : Option Nat) (isExit : Bool) (cond : Option Nat) :
    Disciplined (uplEmitLoopExit label isExit cond) where
  emits ctx := uplEmitLoopExit_emits label isExit cond ctx
  opens ctx := uplEmitLoopExit_keepsOpen label isExit cond ctx
  keeps ctx := by
    intro σ σ' T valid opened ok returned typed inside
    obtain ⟨info, targetBb, resolved⟩ := uplEmitLoopExit_resolved returned
    have eq := uplEmitLoopExit_eq resolved returned
    have target := inside.target resolved
    cases cond with
    | none =>
      dsimp only at eq
      subst eq
      -- An EXIT without WHEN unwinds and jumps; what follows it is dead code.
      have jumped := typed_br (typed_unwind typed info) target
      have before := ((Extends.refl valid).pushAll (unwindItems ctx info.cleanupDepth)).push
        (.br targetBb)
      have appended := jumped.appendN before.valid [.plain .body ctx.cleanupStack]
      simp only [push_nblocks, pushAll_nblocks] at appended
      have dead : T.extend σ.nblocks [.plain .body ctx.cleanupStack] σ.nblocks = _ :=
        T.extend_new σ.nblocks 0 [.plain .body ctx.cleanupStack]
      have reserved := Reserved.appended before.valid
      simp only [push_nblocks, pushAll_nblocks] at reserved
      exact ⟨_, typed.le_extend _, appended.goto reserved dead⟩
    | some expr =>
      -- With WHEN the next statement begins at the block to skip to.
      have skipReserved := ((Reserved.appended valid).fresh).push (.instr (.evalBool σ.nregs expr))
      let own : List Point := [.plain .body ctx.cleanupStack, .plain .body ctx.cleanupStack]
      have skip₁ : T.extend σ.nblocks [.plain .body ctx.cleanupStack] σ.nblocks = _ :=
        T.extend_new σ.nblocks 0 [.plain .body ctx.cleanupStack]
      have skip₂ : T.extend σ.nblocks own σ.nblocks = _ := T.extend_new σ.nblocks 0 own
      have unwind₂ : T.extend σ.nblocks own (σ.nblocks + 1) = _ := T.extend_new σ.nblocks 1 own
      dsimp only at eq
      split at eq
      next shallower =>
        subst eq
        -- Frames lie between: the branch goes to a block of its own that unwinds them.
        have le : T.Le (T.extend σ.nblocks own) := typed.le_extend own
        have appended : Typed discipline (T.extend σ.nblocks own) (σ.appendN 2).fresh _ :=
          (typed.appendN valid own).fresh
        have tested := typed_write appended (i := .evalBool σ.nregs expr) rfl rfl
          (ok.spare (Nat.le_refl _))
        have unwindReserved : ((σ.append.fresh.push (.instr (.evalBool σ.nregs expr))).append.push
            (.condBr σ.nregs (σ.nblocks + 1) σ.nblocks)).Reserved (σ.nblocks + 1) :=
          (Reserved.appended ((Extends.refl valid).append.fresh.push _).valid).push _
        have branched : Typed discipline (T.extend σ.nblocks own)
            ((σ.append.fresh.push (.instr (.evalBool σ.nregs expr))).append.push
              (.condBr σ.nregs (σ.nblocks + 1) σ.nblocks)) none :=
          typed_condBr tested σ.nregs unwind₂ skip₂
        have jumped := typed_br (typed_unwind (branched.goto unwindReserved unwind₂) info)
          (le _ _ target)
        exact ⟨_, le, jumped.goto
          ((((skipReserved.append.push _).goto _ (by omega)).pushAll _).push _) skip₂⟩
      next deep =>
        subst eq
        have le : T.Le (T.extend σ.nblocks [.plain .body ctx.cleanupStack]) := typed.le_extend _
        -- No frame lies between, so the branch goes to the target itself.
        have depth : ctx.heldAt info = ctx.cleanupStack := by
          have := ok.depths info (uplFindLoop_mem resolved.found)
          rw [Ctx.heldAt]
          rw [Ctx.cleanupDepth] at deep
          have zero : ctx.cleanupStack.length - info.cleanupDepth = 0 := by omega
          rw [zero, List.drop_zero]
        rw [depth] at target
        have tested := typed_write (typed.appendN valid [.plain .body ctx.cleanupStack]).fresh
          (i := .evalBool σ.nregs expr) rfl rfl (ok.spare (Nat.le_refl _))
        exact ⟨_, le, (typed_condBr tested σ.nregs (le _ _ target) skip₁).goto
          (skipReserved.push _) skip₁⟩

theorem disciplined_return (id : Nat) : Disciplined (uplEmitReturn id) where
  emits ctx := uplEmitReturn_emits id ctx
  opens ctx := uplEmitReturn_keepsOpen id ctx
  keeps ctx := by
    intro σ σ' T valid _ ok returned typed inside
    rw [uplEmitReturn_run] at returned
    obtain rfl := (Prod.mk.inj (Option.some.inj returned)).2
    have stored : Typed discipline T ((σ.push (.instr (.call (.execReturn id)))).push
        (.instr .storeRc)) (some (.plain .leaving ctx.cleanupStack)) :=
      (typed.push Flows.execReturn).push Flows.storeRc
    have left : Typed discipline T _ none :=
      stored.push (Flows.br inside.returns (.inl ⟨rfl, nofun⟩))
    have before := (((Extends.refl valid).push (.instr (.call (.execReturn id)))).push
      (.instr .storeRc)).push (.br ctx.returnBb)
    have dead : T.extend σ.nblocks [.plain .body ctx.cleanupStack] σ.nblocks = _ :=
      T.extend_new σ.nblocks 0 [.plain .body ctx.cleanupStack]
    exact ⟨_, typed.le_extend _, (left.appendN before.valid
      [.plain .body ctx.cleanupStack]).goto (Reserved.appended before.valid) dead⟩

/-! ### Blocks -/

theorem CtxTyped.pushLabel (inside : CtxTyped T ctx) (label : Option Nat) {exitBb : Nat}
    (exits : T exitBb = some (.plain .body ctx.cleanupStack)) : CtxTyped T (pushLabel ctx label exitBb) := by
  cases label with
  | none => exact inside
  | some l =>
    refine ⟨inside.returns, fun info member => ?_, fun info member b eq => ?_⟩
    · rcases List.mem_cons.mp member with rfl | outer
      · simpa [Ctx.heldAt, Uplpgsql.pushLabel, uplPushBlockLabel, Ctx.cleanupDepth] using exits
      · exact inside.exits info outer
    · rcases List.mem_cons.mp member with rfl | outer
      · cases eq
      · exact inside.continues info outer b eq

theorem disciplined_block (label : Option Nat) (initvars : List Nat) {body : Emitter}
    (inner : Disciplined body) : Disciplined (compileBlock label initvars body) where
  emits ctx := compileBlock_emits label initvars ctx inner.emits
  opens ctx := compileBlock_keepsOpen label initvars ctx inner.emits inner.opens
  keeps ctx := by
    intro σ σ' T valid opened ok returned typed inside
    have start := (Extends.refl valid).pushAll (initItems initvars)
    have ready := typed_initVars typed initvars
    have openStart := opened.pushAll_init initvars
    cases label with
    | none =>
      exact inner.keeps ctx _ _ T start.valid openStart (ok.mono start.nregs_le)
        (compileBlock_inv returned) ready inside
    | some l =>
      obtain ⟨σ₁, emitted, rfl⟩ := compileBlock_label_inv returned
      have ext := inner.emits _ _ _ start.append.valid emitted
      have openEnd := inner.opens _ _ _ start.append.valid openStart emitted
      have reserved := (Reserved.appended start.valid).survives ext
      rw [pushAll_nblocks] at reserved
      have ends : T.extend σ.nblocks [.plain .body ctx.cleanupStack] σ.nblocks = _ :=
        T.extend_new σ.nblocks 0 [.plain .body ctx.cleanupStack]
      have le : T.Le (T.extend σ.nblocks [.plain .body ctx.cleanupStack]) := typed.le_extend _
      have appended := ready.appendN start.valid [.plain .body ctx.cleanupStack]
      rw [pushAll_nblocks] at appended
      obtain ⟨T₁, le₁, typed₁⟩ := inner.keeps _ _ _ _ start.append.valid openStart
        ((ok.mono start.append.nregs_le).pushLabel (some l) σ.nblocks) emitted appended
        ((inside.mono le).pushLabel (some l) ends)
      rw [blockEnd_open openEnd]
      exact ⟨T₁, le.trans le₁, (typed_br typed₁ (le₁ _ _ ends)).goto (reserved.push _) (le₁ _ _ ends)⟩

/-! ### Row loops and blocks with handlers -/

/-- Inside a construct that holds a resource of its own. -/
theorem CtxTyped.pushCleanup (inside : CtxTyped T ctx) (ok : ∀ info ∈ ctx.loopStack,
      info.cleanupDepth ≤ ctx.cleanupStack.length) {c : Cleanup} {padBb : Nat}
    (returns : T padBb = some (.plain .leaving (c :: ctx.cleanupStack))) :
    CtxTyped T (uplPushCleanup { ctx with returnBb := padBb } c) := by
  have same (info : LoopInfo) (member : info ∈ ctx.loopStack) :
      (uplPushCleanup { ctx with returnBb := padBb } c).heldAt info = ctx.heldAt info := by
    have deep := ok info member
    have more : (c :: ctx.cleanupStack).length - info.cleanupDepth =
        ctx.cleanupStack.length - info.cleanupDepth + 1 := by simp only [List.length_cons]; omega
    simp only [Ctx.heldAt, uplPushCleanup, more, List.drop_succ_cons]
  refine ⟨returns, fun info member => ?_, fun info member b eq => ?_⟩
  · rw [same info member]
    exact inside.exits info member
  · rw [same info member]
    exact inside.continues info member b eq

/-- A landing pad releases one cleanup and goes on where it is not held. -/
theorem typed_pad {p : Option Point} {c : Cleanup} {padBb target : Nat} {phase : Phase}
    (typed : Typed discipline T σ p) (reserved : σ.Reserved padBb)
    (pads : T padBb = some (.plain phase (c :: held))) (goes : T target = some (.plain phase held))
    (settled : phase ≠ .returned) :
    Typed discipline T (pad σ padBb c.release target) none :=
  ((typed.goto reserved pads).push (Flows.release c settled)).push
    (Flows.br goes (.inl ⟨rfl, settled⟩))

theorem disciplined_forq (kind : ForKind) (id : Nat) (label : Option Nat) {body : Emitter}
    (inner : Disciplined body) : Disciplined (compileForq kind label id body) where
  emits ctx := compileForq_emits kind id label ctx inner.emits
  opens ctx := compileForq_keepsOpen kind id label ctx inner.emits
  keeps ctx := by
    intro σ σ' T valid _ ok returned typed inside
    obtain ⟨σ₁, emitted, rfl⟩ := compileForq_inv kind id returned
    have spare (r : Nat) (le : σ.nregs ≤ r) := ok.spare le
    -- The portal is held in the condition, body, exit and return blocks.
    let portal : Cleanup := .closePortal kind id σ.nregs
    have spare' (r : Nat) (lt : σ.nregs < r) : Spare (portal :: ctx.cleanupStack) r := by
      intro c member
      rcases List.mem_cons.mp member with rfl | outer
      · exact Nat.ne_of_lt lt
      · exact spare r (Nat.le_of_lt lt) c outer
    let inLoop : Point := .plain .body (portal :: ctx.cleanupStack)
    let own : List Point := [inLoop, inLoop, inLoop, .plain .leaving (portal :: ctx.cleanupStack),
      .plain .body ctx.cleanupStack]
    have opened : Typed discipline T (σ.fresh.push (.instr (.openPortal σ.nregs kind id))) _ :=
      typed.fresh.push (Flows.openPortal (spare _ (Nat.le_refl _)))
    have flagged := typed_write opened.fresh (i := .const (σ.nregs + 1) (.bool false)) rfl rfl
      (spare' (σ.nregs + 1) (by omega))
    have before := (((Extends.refl valid).fresh.push (.instr (.openPortal σ.nregs kind id))).fresh.push
      (.instr (.const (σ.nregs + 1) (.bool false))))
    have le : T.Le (T.extend σ.nblocks own) := flagged.le_extend own
    have cond₀ : T.extend σ.nblocks own σ.nblocks = some inLoop := T.extend_new σ.nblocks 0 own
    have body₀ : T.extend σ.nblocks own (σ.nblocks + 1) = some inLoop := T.extend_new σ.nblocks 1 own
    have exit₀ : T.extend σ.nblocks own (σ.nblocks + 2) = some inLoop := T.extend_new σ.nblocks 2 own
    have ret₀ : T.extend σ.nblocks own (σ.nblocks + 3) =
        some (.plain .leaving (portal :: ctx.cleanupStack)) := T.extend_new σ.nblocks 3 own
    have cont₀ : T.extend σ.nblocks own (σ.nblocks + 4) = some (.plain .body ctx.cleanupStack) :=
      T.extend_new σ.nblocks 4 own
    have setup : Typed discipline (T.extend σ.nblocks own) (forqSetup kind id σ) none :=
      typed_br (flagged.appendN before.valid own) cond₀
    have fetched := typed_write (setup.goto (forqSetup_reserved kind id valid 0 (by omega)) cond₀).fresh
      (i := .fetchRow (σ.nregs + 2) kind id σ.nregs) rfl rfl (spare' (σ.nregs + 2) (by omega))
    have tested : Typed discipline (T.extend σ.nblocks own) (forqFetch kind id σ) none :=
      typed_condBr fetched (σ.nregs + 2) body₀ exit₀
    have entered := typed_write
      (tested.goto (forqFetch_reserved kind id valid 1 (by omega) (by omega)) body₀)
      (i := .const (σ.nregs + 1) (.bool true)) rfl rfl (spare' (σ.nregs + 1) (by omega))
    have start := forqBody_extends kind id valid
    have ext := inner.emits _ _ _ start.valid emitted
    have okBody : CtxOk (forqCtx kind id ctx label σ) (forqBody kind id σ).nregs :=
      ((ok.mono start.nregs_le).pushCleanup (x := portal)
        (show σ.nregs < σ.nregs + 1 + 1 + 1 by omega) (σ.nblocks + 3)).pushLoop label σ.nblocks
        (σ.nblocks + 2)
    obtain ⟨T₁, le₁, typed₁⟩ := inner.keeps _ _ _ _ start.valid (.push_instr _ _) okBody emitted entered
      ((((inside.mono le).pushCleanup ok.depths ret₀).pushLoop label cond₀ exit₀))
    have reserved (k : Nat) (lt : k < 5) (one : 1 < k) :=
      (forqBody_reserved kind id valid k lt one).survives ext
    have again := typed_br typed₁ (le₁ _ _ cond₀)
    have padded : Typed discipline T₁ (forqPads kind id σ σ₁ ctx) none :=
      typed_pad (c := portal) again ((reserved 3 (by omega) (by omega)).push _) (le₁ _ _ ret₀)
        ((le.trans le₁) _ _ inside.returns) nofun
    have exitAt := padded.goto
      (forqPads_reserved kind id ctx (reserved 2 (by omega) (by omega)) (by omega)) (le₁ _ _ exit₀)
    have closed : Typed discipline T₁ (((forqPads kind id σ σ₁ ctx).goto (σ.nblocks + 2)).push
        (.instr (.closePortal kind id σ.nregs))) (some (.plain .body ctx.cleanupStack)) :=
      typed_release (c := portal) exitAt
    have found := typed_foundExit closed (spare _ (Nat.le_trans start.nregs_le ext.nregs_le))
      (σ.nregs + 1)
    exact ⟨T₁, le.trans le₁, (typed_br found (le₁ _ _ cont₀)).goto
      (forqEnd_reserved kind id ctx (reserved 4 (by omega) (by omega))) (le₁ _ _ cont₀)⟩

/-- The handler bodies, one after the other, each in its own block. -/
theorem typed_handlers {hctx : Ctx} {frame afterBb : Nat} {handlers : List (Nat × Emit Item Unit)}
    {p : Option Point} (stack : hctx.cleanupStack = .handlerDone frame :: held) (valid : σ.Valid)
    (ok : CtxOk hctx σ.nregs) (emits : ∀ h ∈ handlers, Emits h.2)
    (keeps : ∀ h ∈ handlers, Keeps hctx h.2) (reserved : ∀ h ∈ handlers, σ.Reserved h.1)
    (distinct : (handlers.map (·.1)).Nodup)
    (returned : emitHandlers frame afterBb handlers σ = some ((), σ'))
    (typed : Typed discipline T σ p) (inside : CtxTyped T hctx)
    (known : ∀ h ∈ handlers, T h.1 = some (.selected frame held))
    (after : T afterBb = some (.plain .body held)) :
    ∃ (T' : Entries Point) (p' : Option Point), T.Le T' ∧ Typed discipline T' σ' p' := by
  induction handlers generalizing σ T p with
  | nil =>
    obtain rfl : σ = σ' := by simpa [emitHandlers] using returned
    exact ⟨T, p, .refl T, typed⟩
  | cons h rest ih =>
    obtain ⟨σ₁, inner, remaining⟩ := emitHandlers_inv returned
    have start : ((σ.goto h.1).push (.instr .setHandlerVars)).Valid :=
      ((Extends.refl (σ := σ.goto h.1) ⟨(reserved h (by simp)).born, valid.unborn⟩).push _).valid
    have body := emits h (by simp) _ _ start inner
    have handling : Typed discipline T ((σ.goto h.1).push (.instr .setHandlerVars))
        (some (.plain .body hctx.cleanupStack)) := by
      rw [stack]
      exact (typed.goto (reserved h (by simp)) (known h (by simp))).push Flows.setHandlerVars
    obtain ⟨T₁, le₁, typed₁⟩ := keeps h (by simp) _ _ _ start (.push_instr _ _) ok inner handling inside
    rw [stack] at typed₁
    have done : Typed discipline T₁ ((σ₁.push (.instr (.handlerDone frame))).push (.br afterBb)) none :=
      typed_br (typed_release (c := .handlerDone frame) typed₁) (le₁ _ _ after)
    rw [List.map_cons, List.nodup_cons] at distinct
    obtain ⟨T₂, p₂, le₂, typed₂⟩ := ih (((Extends.refl body.valid).push _).push _).valid
      (ok.mono body.nregs_le) (fun h' member => emits h' (by simp [member]))
      (fun h' member => keeps h' (by simp [member]))
      (fun h' member => by
        have ne : h'.1 ≠ h.1 := fun same =>
          distinct.1 (same ▸ List.mem_map_of_mem (f := (·.1)) member)
        exact ((((((reserved h' (by simp [member])).goto _ ne).push _).survives body).push _).push _))
      distinct.2 remaining done (inside.mono le₁) (fun h' member => le₁ _ _ (known h' (by simp [member])))
      (le₁ _ _ after)
    exact ⟨T₂, p₂, le₁.trans le₂, typed₂⟩

/-- The entry points of the eight blocks of a block with handlers. -/
def excPoints (σ : Builder Item) (held : List Cleanup) : List Point :=
  [.ready σ.nregs (σ.nblocks + 1) held, .caught σ.nregs held, .plain .body (.tryExit σ.nregs :: held),
    .plain .leaving (.tryExit σ.nregs :: held), .plain .leaving (.handlerDone σ.nregs :: held),
    .plain .body (.handlerDone σ.nregs :: held), .plain .body held, .selected σ.nregs held]

theorem typed_excTry (valid : σ.Valid) (typed : Typed discipline T σ (some (.plain .body held)))
    (spare : Spare held σ.nregs) (initvars : List Nat) :
    T.Le (T.extend σ.nblocks (excPoints σ held)) ∧
      Typed discipline (T.extend σ.nblocks (excPoints σ held)) (excTry σ initvars)
        (some (.plain .body (.tryExit σ.nregs :: held))) := by
  have tries : T.extend σ.nblocks (excPoints σ held) σ.nblocks = _ :=
    T.extend_new σ.nblocks 0 (excPoints σ held)
  have catches : T.extend σ.nblocks (excPoints σ held) (σ.nblocks + 1) = _ :=
    T.extend_new σ.nblocks 1 (excPoints σ held)
  have pushed : Typed discipline (T.extend σ.nblocks (excPoints σ held))
      ((σ.appendN 8).fresh.push (.instr (.pushFrame σ.nregs))) (some (.pushed σ.nregs held)) :=
    (typed.appendN valid (excPoints σ held)).fresh.push (Flows.pushFrame spare)
  have jumps : Typed discipline (T.extend σ.nblocks (excPoints σ held)) (excStart σ) none :=
    pushed.push (Flows.sigsetjmp tries catches)
  have armed : Typed discipline (T.extend σ.nblocks (excPoints σ held))
      (((excStart σ).goto σ.nblocks).push (.instr (.arm σ.nregs)))
      (some (.plain .body (.tryExit σ.nregs :: held))) :=
    (jumps.goto (excStart_reserved valid 0 (by omega)) tries).push (Flows.arm catches)
  exact ⟨typed.le_extend _, typed_initVars armed initvars⟩

/-- The catch block and the switch over the handlers. -/
theorem typed_excCatch {τ : Builder Item} {p : Option Point} (ext : Extends σ τ)
    (born : σ.nblocks + 8 ≤ τ.nblocks) (more : σ.nregs < τ.nregs) (typed : Typed discipline T τ p)
    (spare : ∀ r, σ.nregs ≤ r → Spare held r) (reserved : τ.Reserved (σ.nblocks + 1))
    (handlers : List (List Condition))
    (catches : T (σ.nblocks + 1) = some (.caught σ.nregs held))
    (rethrows : T (σ.nblocks + 7) = some (.selected σ.nregs held)) :
    T.Le (T.extend τ.nblocks (List.replicate handlers.length (.selected σ.nregs held))) ∧
      Typed discipline (T.extend τ.nblocks (List.replicate handlers.length (.selected σ.nregs held)))
        (excCatch σ τ handlers) none := by
  have spareIdx : Spare (.handlerDone σ.nregs :: held) τ.nregs := by
    intro c member
    rcases List.mem_cons.mp member with rfl | outer
    · exact Nat.ne_of_lt more
    · exact spare τ.nregs (Nat.le_of_lt more) c outer
  have caught : Typed discipline T (excCatchCall σ τ handlers) (some (.selected σ.nregs held)) :=
    (typed.goto reserved catches).fresh.push (Flows.catchError spareIdx)
  have before : Extends σ (excCatchCall σ τ handlers) :=
    ((ext.goto _ (by simp) (by omega)).fresh).push _
  have le : T.Le (T.extend τ.nblocks (List.replicate handlers.length (.selected σ.nregs held))) :=
    caught.le_extend _
  have appended := caught.appendN before.valid
    (List.replicate handlers.length (.selected σ.nregs held))
  rw [List.length_replicate] at appended
  refine ⟨le, appended.push (Flows.switch fun b member => ?_)⟩
  rcases List.mem_cons.mp member with rfl | inside
  · exact le _ _ rethrows
  · obtain ⟨k, lt, rfl⟩ := List.mem_range'.mp inside
    rw [Nat.one_mul]
    exact (Entries.extend_new T τ.nblocks k _).trans (by
      rw [List.getElem?_replicate, if_pos lt])

theorem disciplined_blockExceptions (label : Option Nat) (initvars : List Nat) {body : Emitter}
    {handlers : List (List Condition × Emitter)} (inner : Disciplined body)
    (actions : ∀ h ∈ handlers, Disciplined h.2) :
    Disciplined (compileBlockExceptions label initvars body handlers) where
  emits ctx := compileBlockExceptions_emits label initvars ctx inner.emits
    fun h member => (actions h member).emits
  opens ctx := compileBlockExceptions_keepsOpen label initvars ctx inner.emits
    fun h member => (actions h member).emits
  keeps ctx := by
    intro σ σ' T valid _ ok returned typed inside
    obtain ⟨σ₁, σ₂, emitted, hands, rfl⟩ := compileBlockExceptions_inv returned
    have layout := compileBlockExceptions_layout valid inner.emits
      (fun h member => (actions h member).emits) emitted hands
    have spare (r : Nat) (le : σ.nregs ≤ r) := ok.spare le
    obtain ⟨le, entered⟩ := typed_excTry valid typed (spare _ (Nat.le_refl _)) initvars
    have known (k : Nat) := T.extend_new σ.nblocks k (excPoints σ ctx.cleanupStack)
    have ownReg : σ.nregs < (excTry σ initvars).nregs := by
      rw [excTry, pushAll_nregs]
      exact Nat.lt_succ_self _
    have okTry : CtxOk (tryCtx ctx label σ) (excTry σ initvars).nregs :=
      ((ok.mono layout.start.nregs_le).pushCleanup (x := .tryExit σ.nregs) ownReg
        (σ.nblocks + 3)).pushLabel label (σ.nblocks + 2)
    have stackTry : (tryCtx ctx label σ).cleanupStack = .tryExit σ.nregs :: ctx.cleanupStack :=
      pushLabel_cleanupStack ..
    rw [← stackTry] at entered
    obtain ⟨T₁, le₁, typed₁⟩ := inner.keeps (tryCtx ctx label σ) _ _ _ layout.start.valid
      (excTry_open initvars) okTry emitted entered
      (((inside.mono le).pushCleanup ok.depths (c := .tryExit σ.nregs) (known 3)).pushLabel label
        (known 2))
    rw [stackTry] at typed₁
    have known₁ (k : Nat) {q : Point} (eq : (excPoints σ ctx.cleanupStack)[k]? = some q) :
        T₁ (σ.nblocks + k) = some q := le₁ _ _ ((known k).trans eq)
    -- The two pads of the try body.
    have left := typed_br typed₁ (known₁ 2 rfl)
    have padReturn := typed_pad (c := .tryExit σ.nregs) left
      ((layout.reserved₁ 3 (by omega) (by omega)).push _) (known₁ 3 rfl)
      ((le.trans le₁) _ _ inside.returns) (by rintro ⟨⟩)
    have pads : Typed discipline T₁ (excPads σ σ₁ ctx) none :=
      typed_pad (c := .tryExit σ.nregs) padReturn
        (pad_reserved ((layout.reserved₁ 2 (by omega) (by omega)).push _) (by omega) _ _)
        (known₁ 2 rfl) (known₁ 6 rfl) (by rintro ⟨⟩)
    have moreRegs : σ.nregs < (excPads σ σ₁ ctx).nregs := by
      simp only [excPads, pad_nregs, push_nregs]
      exact Nat.lt_of_lt_of_le ownReg layout.body.nregs_le
    obtain ⟨le₂, switched⟩ := typed_excCatch layout.pads layout.born moreRegs pads spare
      (excPads_reserved (layout.reserved₁ 1 (by omega) (by omega)) (by omega) (by omega) ctx)
      (handlers.map (·.1)) (known₁ 1 rfl) (known₁ 7 rfl)
    have known₂ (k : Nat) {q : Point} (eq : (excPoints σ ctx.cleanupStack)[k]? = some q) :=
      le₂ _ _ (known₁ k eq)
    -- The handlers.
    have okHandler : CtxOk (handlerCtx ctx label σ)
        (excCatch σ (excPads σ σ₁ ctx) (handlers.map (·.1))).nregs :=
      ((ok.mono layout.catch_.nregs_le).pushCleanup (x := .handlerDone σ.nregs)
        (Nat.lt_succ_of_lt moreRegs) (σ.nblocks + 4)).pushLabel label (σ.nblocks + 5)
    have stackHandler : (handlerCtx ctx label σ).cleanupStack =
        .handlerDone σ.nregs :: ctx.cleanupStack := pushLabel_cleanupStack ..
    have typedHandler := (((inside.mono (le.trans le₁)).mono le₂).pushCleanup ok.depths
      (c := .handlerDone σ.nregs) (known₂ 4 rfl)).pushLabel label (known₂ 5 rfl)
    obtain ⟨T₃, p₃, le₃, handled⟩ := typed_handlers stackHandler layout.catch_.valid okHandler
      (fun h member => by
        obtain ⟨-, -, g, inside, eq⟩ := excHandlers_own handlers _ h member
        rw [eq]
        exact (actions g inside).emits _)
      (fun h member => by
        obtain ⟨-, -, g, inside, eq⟩ := excHandlers_own handlers _ h member
        rw [eq]
        exact (actions g inside).keeps _)
      (fun h member => by
        obtain ⟨above, below, -⟩ := excHandlers_own handlers _ h member
        exact excCatch_handler_reserved layout.pads layout.born (handlers.map (·.1)) above
          (by rw [List.length_map]; exact below))
      (by
        rw [List.map_fst_zip (by simp)]
        exact List.nodup_range')
      hands switched typedHandler
      (fun h member => by
        obtain ⟨above, below, -⟩ := excHandlers_own handlers _ h member
        obtain ⟨k, eq⟩ := Nat.exists_eq_add_of_le above
        rw [eq]
        exact (Entries.extend_new T₁ σ₁.nblocks k _).trans (by
          rw [List.getElem?_replicate, if_pos (by rw [List.length_map]; omega)]))
      (known₂ 6 rfl)
    have known₃ (k : Nat) {q : Point} (eq : (excPoints σ ctx.cleanupStack)[k]? = some q) :=
      le₃ _ _ (known₂ k eq)
    have all : T.Le T₃ := ((le.trans le₁).trans le₂).trans le₃
    -- The two pads of the handlers, and the rethrow block.
    have handlerReturn := typed_pad (c := .handlerDone σ.nregs) handled
      (layout.reserved₂ 4 (by omega) (by omega)) (known₃ 4 rfl) (all _ _ inside.returns) (by rintro ⟨⟩)
    have handlerExit := typed_pad (c := .handlerDone σ.nregs) handlerReturn
      (pad_reserved (layout.reserved₂ 5 (by omega) (by omega)) (by omega) _ _) (known₃ 5 rfl)
      (known₃ 6 rfl) (by rintro ⟨⟩)
    have rethrown := ((handlerExit.goto (pad_reserved (pad_reserved
      (layout.reserved₂ 7 (by omega) (by omega)) (by omega) _ _) (by omega) _ _) (known₃ 7 rfl)).push
      Flows.rethrow).pushDead .unreachable
    exact ⟨T₃, all, rethrown.goto
      (excEnd_reserved (layout.reserved₂ 6 (by omega) (by omega)) ctx) (known₃ 6 rfl)⟩

/-! ### The induction over statements -/

theorem disciplined_instr {i : Instr} (quiet : i.quiet = true) (silent : i.dst = none) :
    Disciplined fun _ => instr i where
  emits _ := .instr i
  opens _ := .instr i
  keeps ctx := .instr ctx quiet silent

mutual

theorem Stmt.compile_disciplined (st : Stmt) : Disciplined st.compile := by
  cases st with
  | leaf id => exact disciplined_instr rfl rfl
  | block label initvars body => exact disciplined_block label initvars body.compile_disciplined
  | blockExceptions label initvars body exceptions =>
    exact disciplined_blockExceptions label initvars body.compile_disciplined
      exceptions.compile_disciplined
  | cond expr thenBody elsifs elseBody =>
    exact disciplined_if expr thenBody.compile_disciplined elseBody.compile_disciplined
      elsifs.compile_disciplined
  | case test whens haveElse elseStmts =>
    exact disciplined_case test haveElse whens.compile_disciplined elseStmts.compile_disciplined
  | condLoop label expr testAtTop body =>
    exact disciplined_condLoop label expr testAtTop body.compile_disciplined
  | loop label body => exact disciplined_loop label body.compile_disciplined
  | fori label var lower upper step reverse body =>
    exact disciplined_fori label var lower upper step reverse body.compile_disciplined
  | forq kind label id body => exact disciplined_forq kind id label body.compile_disciplined
  | foreachA label id body => exact disciplined_instr rfl rfl
  | exit isExit label cond => exact disciplined_exit label isExit cond
  | ret id => exact disciplined_return id

theorem Stmts.compile_disciplined (ss : Stmts) : Disciplined ss.compile := by
  cases ss with
  | nil => exact ⟨fun _ => Emits.pure, fun _ => KeepsOpen.pure, fun ctx => Keeps.pure ctx⟩
  | cons head tail => exact head.compile_disciplined.seq tail.compile_disciplined

theorem Whens.compile_disciplined (ws : Whens) : ∀ c ∈ ws.compile, Disciplined c.2 := by
  cases ws with
  | nil => exact fun _ member => nomatch member
  | cons expr body rest =>
    intro c member
    rcases List.mem_cons.mp member with rfl | inside
    · exact body.compile_disciplined
    · exact rest.compile_disciplined c inside

theorem Exceptions.compile_disciplined (es : Exceptions) : ∀ h ∈ es.compile, Disciplined h.2 := by
  cases es with
  | nil => exact fun _ member => nomatch member
  | cons conditions action rest =>
    intro h member
    rcases List.mem_cons.mp member with rfl | inside
    · exact action.compile_disciplined
    · exact rest.compile_disciplined h inside

end

/-- The code of a compiled function is checked, with nothing held at its entry. -/
theorem compileFunction_checked {action : Stmt} {code : Nat → List Item}
    (compiled : compileFunction action = some code) :
    ∃ T : Entries Point, T entryBb = some (.plain .body []) ∧ Checked discipline T code := by
  obtain ⟨⟨_, σ'⟩, emitted, rfl⟩ := Option.map_eq_some_iff.mp compiled
  simp only [emitFunction, Emit.bind_run, br_run, Emit.positionAtEnd_run, Emit.item_run,
    Option.bind_some, Option.bind_eq_some_iff, Prod.exists, Option.some.injEq, Prod.mk.injEq,
    true_and] at emitted
  obtain ⟨_, σ₁, inner, rfl⟩ := emitted
  let T : Entries Point := fun b =>
    if b = entryBb then some (.plain .body []) else if b = returnBb then some (.plain .leaving []) else none
  have valid : (start Item 2).Valid := ⟨by simp [start], fun _ _ => rfl⟩
  have typed : Typed discipline T (start Item 2) (some (.plain .body [])) := by
    refine ⟨fun b q known => ⟨some q, .nil _, fun same => ?_⟩, rfl, fun b above => ?_⟩
    · have here : b = entryBb := same
      simpa only [T, if_pos here] using known.symm
    · have beyond : 2 ≤ b := above
      have notEntry : ¬ b = entryBb := fun same => by rw [same] at beyond; cases beyond
      have notReturn : ¬ b = returnBb := by simp only [returnBb]; omega
      simp only [T, if_neg notEntry, if_neg notReturn]
  have ok : CtxOk functionCtx (start Item 2).nregs := ⟨by simp [functionCtx], by simp [functionCtx]⟩
  have disciplined := action.compile_disciplined
  have ext := disciplined.emits functionCtx _ _ valid inner
  obtain ⟨T₁, le₁, typed₁⟩ := disciplined.keeps functionCtx _ _ T valid rfl ok inner typed
    ⟨rfl, fun _ member => (nomatch member), fun _ member => (nomatch member)⟩
  have startReturn : (start Item 2).Reserved returnBb :=
    ⟨by simp [start, returnBb], by simp [start, returnBb], rfl⟩
  have known : T₁ returnBb = some (.plain .leaving []) := le₁ _ _ rfl
  have fellOff : Typed discipline T₁ (σ₁.push (.br returnBb)) none :=
    typed₁.push (Flows.br known (.inr ⟨rfl, rfl⟩))
  have finished := (fellOff.goto ((startReturn.survives ext).push _) known).push Flows.ret
  exact ⟨T₁, le₁ _ _ rfl, finished.toChecked⟩

end Uplpgsql
