import Uplpgsql.Compile.Stmts

/-!
# Layout of the emitted code

What each emitter leaves in the builder, as an equation or as an inversion that
names the builder states before and after each sub-statement, and that it
leaves alone the blocks it was not given.
-/

namespace Uplpgsql

open Lib.Blocks Emit Builder

variable {σ σ' : Builder Item}

/-- An emitter writes into the current block and into blocks of its own. -/
def Emits (m : Emit Item Unit) : Prop :=
  ∀ σ σ', σ.Valid → m σ = some ((), σ') → Extends σ σ'

/-- The current block still lacks its terminator. -/
def Open (σ : Builder Item) : Prop :=
  ((σ.code σ.cur).getLast?.map Item.isTerminator).getD false = false

/-- A statement is compiled into an open block and leaves one behind. -/
def KeepsOpen (m : Emit Item Unit) : Prop :=
  ∀ σ σ', σ.Valid → Open σ → m σ = some ((), σ') → Open σ'

theorem Open.push_instr (σ : Builder Item) (i : Instr) : Open (σ.push (.instr i)) := by
  simp [Open, push_code_self, Item.isTerminator]

theorem Open.goto {b : Nat} (reserved : σ.Reserved b) : Open (σ.goto b) := by
  simp [Open, reserved.empty]

/-! ### Straight-line code -/

@[simp] theorem instr_run (i : Instr) : instr i σ = some ((), σ.push (.instr i)) := rfl

@[simp] theorem br_run (target : Nat) : br target σ = some ((), σ.push (.br target)) := rfl

@[simp] theorem condBr_run (cond thenBb elseBb : Nat) :
    condBr cond thenBb elseBb σ = some ((), σ.push (.condBr cond thenBb elseBb)) := rfl

@[simp] theorem uplEvalBool_run (expr : Nat) :
    uplEvalBool expr σ = some (σ.nregs, σ.fresh.push (.instr (.evalBool σ.nregs expr))) := rfl

@[simp] theorem rtEvalInt_run (expr : Nat) :
    rtEvalInt expr σ = some (σ.nregs, σ.fresh.push (.instr (.evalInt σ.nregs expr))) := rfl

/-- The call that yields the BY value. -/
def stepInstrOf (step : Option Nat) (dst : Nat) : Instr :=
  match step with
  | some expr => .evalInt dst expr
  | none => .const dst (.int 1)

@[simp] theorem rtEvalStep_run (step : Option Nat) :
    rtEvalStep step σ = some (σ.nregs, σ.fresh.push (.instr (stepInstrOf step σ.nregs))) := by
  cases step <;> rfl

@[simp] theorem emitPad_run (padBb : Nat) (i : Instr) (target : Nat) :
    emitPad padBb i target σ =
      some ((), ((σ.goto padBb).push (.instr i)).push (.br target)) := rfl

@[simp] theorem instrs_run (is : List Instr) (σ : Builder Item) :
    instrs is σ = some ((), σ.pushAll (is.map .instr)) := by
  induction is generalizing σ with
  | nil => rfl
  | cons i is ih => simp [instrs, ih]

@[simp] theorem emitInitVars_run (initvars : List Nat) :
    emitInitVars initvars σ =
      some ((), σ.pushAll (initvars.map fun dno => .instr (.call (.initVar dno)))) := by
  simp [emitInitVars, Function.comp_def]

@[simp] theorem emitSetFound_run (found : Nat) :
    emitSetFound found σ =
      some ((), (σ.fresh.push (.instr (.move σ.nregs found))).push (.instr (.setFound σ.nregs))) :=
  rfl

@[simp] theorem appendBlocks_run (n : Nat) (σ : Builder Item) :
    appendBlocks n σ = some (List.range' σ.nblocks n, σ.appendN n) := by
  induction n generalizing σ with
  | zero => rfl
  | succ n ih =>
    simp only [appendBlocks, bind_run, appendBlock_run, Option.bind_some, ih, pure_run,
      append_nblocks, List.range'_succ]
    simp only [append, appendN, Nat.add_assoc, Nat.add_comm 1 n]

theorem emitClearTest_emits (test : Option (Nat × Nat)) : Emits (emitClearTest test) := by
  intro σ σ' valid returned
  rcases test with _ | ⟨varno, expr⟩
  · obtain rfl : σ = σ' := by simpa [emitClearTest] using returned
    exact .refl valid
  · obtain rfl : σ.push _ = σ' := by simpa [emitClearTest] using returned
    exact (Extends.refl valid).push _

theorem emitCaseTest_emits (test : Option (Nat × Nat)) : Emits (emitCaseTest test) := by
  intro σ σ' valid returned
  rcases test with _ | ⟨varno, expr⟩
  · obtain rfl : σ = σ' := by simpa [emitCaseTest] using returned
    exact .refl valid
  · obtain rfl : σ.push _ = σ' := by simpa [emitCaseTest] using returned
    exact (Extends.refl valid).push _

theorem emitClearTest_keepsOpen (test : Option (Nat × Nat)) : KeepsOpen (emitClearTest test) := by
  intro σ σ' _ opened returned
  rcases test with _ | ⟨varno, expr⟩
  · obtain rfl : σ = σ' := by simpa [emitClearTest] using returned
    exact opened
  · obtain rfl : σ.push _ = σ' := by simpa [emitClearTest] using returned
    exact .push_instr _ _

theorem KeepsOpen.instr (i : Instr) : KeepsOpen (instr i) := by
  intro σ σ' _ _ returned
  obtain rfl : σ.push _ = σ' := by simpa using returned
  exact .push_instr _ _

theorem KeepsOpen.pure : KeepsOpen (Pure.pure ()) := by
  intro σ σ' _ opened returned
  obtain rfl : σ = σ' := by simpa using returned
  exact opened

theorem Emits.instr (i : Instr) : Emits (instr i) := by
  intro σ σ' valid returned
  obtain rfl : σ.push _ = σ' := by simpa using returned
  exact (Extends.refl valid).push _

theorem Emits.pure : Emits (Pure.pure ()) := by
  intro σ σ' valid returned
  obtain rfl : σ = σ' := by simpa using returned
  exact .refl valid

/-! ### Sequences -/

theorem seq_inv {m k : Emit Item Unit} (returned : (do m; k) σ = some ((), σ')) :
    ∃ σ₁, m σ = some ((), σ₁) ∧ k σ₁ = some ((), σ') := by
  simp only [bind_run, Option.bind_eq_some_iff, Prod.exists] at returned
  obtain ⟨_, σ₁, before, after⟩ := returned
  exact ⟨σ₁, before, after⟩

theorem Emits.seq {m k : Emit Item Unit} (first : Emits m) (second : Emits k) :
    Emits (do m; k) := by
  intro σ σ' valid returned
  obtain ⟨σ₁, before, after⟩ := seq_inv returned
  have ext := first σ σ₁ valid before
  exact ext.trans (second σ₁ σ' ext.valid after)

theorem KeepsOpen.seq {m k : Emit Item Unit} (emits : Emits m) (first : KeepsOpen m)
    (second : KeepsOpen k) : KeepsOpen (do m; k) := by
  intro σ σ' valid opened returned
  obtain ⟨σ₁, before, after⟩ := seq_inv returned
  exact second σ₁ σ' (emits σ σ₁ valid before).valid (first σ σ₁ valid opened before) after

/-! ### IF and CASE -/

/-- The builder at the start of a clause's body. -/
def clauseThen (σ : Builder Item) (expr : Nat) : Builder Item :=
  ((σ.fresh.push (.instr (.evalBool σ.nregs expr))).append.append.push
    (.condBr σ.nregs σ.nblocks (σ.nblocks + 1))).goto σ.nblocks

theorem clauseThen_extends (valid : σ.Valid) (expr : Nat) : Extends σ (clauseThen σ expr) := by
  unfold clauseThen
  exact ((((Extends.refl valid).fresh.push _).append.append).push _).goto _ (by simp)
    (by simp only [push_nblocks, append_nblocks, fresh_nblocks]; omega)

theorem emitClause_inv {mergeBb expr : Nat} {body : Emit Item Unit}
    (returned : emitClause mergeBb expr body σ = some ((), σ')) :
    ∃ σ₁, body (clauseThen σ expr) = some ((), σ₁) ∧
      σ' = (σ₁.push (.br mergeBb)).goto (σ.nblocks + 1) := by
  simp only [emitClause, bind_run, uplEvalBool_run, appendBlock_run, condBr_run, positionAtEnd_run,
    br_run, Option.bind_some, Option.bind_eq_some_iff, Prod.exists, Option.some.injEq,
    Prod.mk.injEq, true_and] at returned
  obtain ⟨_, σ₁, inner, rfl⟩ := returned
  exact ⟨σ₁, inner, rfl⟩

theorem emitClause_emits (mergeBb expr : Nat) {body : Emit Item Unit} (emits : Emits body) :
    Emits (emitClause mergeBb expr body) := by
  intro σ σ' valid returned
  obtain ⟨σ₁, inner, rfl⟩ := emitClause_inv returned
  have start := clauseThen_extends valid expr
  have ext := emits _ _ start.valid inner
  have := ext.nblocks_le
  exact ((start.trans ext).push _).goto _ (by simp) (by simp [clauseThen] at *; omega)

/-- The test of the next clause starts in an empty block. -/
theorem emitClause_else_reserved {expr : Nat} {body : Emit Item Unit} {σ₁ : Builder Item}
    (emits : Emits body) (valid : σ.Valid) (inner : body (clauseThen σ expr) = some ((), σ₁)) :
    σ₁.Reserved (σ.nblocks + 1) := by
  have start := clauseThen_extends valid expr
  refine Reserved.survives ?_ (emits _ _ start.valid inner)
  have appended : ((σ.fresh.push (.instr (.evalBool σ.nregs expr))).append.append).Reserved
      (σ.nblocks + 1) := .appended ((Extends.refl valid).fresh.push _).append.valid
  exact (appended.push _).goto _ (by omega)

theorem emitClause_then_reserved (valid : σ.Valid) (expr : Nat) :
    (((σ.fresh.push (.instr (.evalBool σ.nregs expr))).append.append).push
      (.condBr σ.nregs σ.nblocks (σ.nblocks + 1))).Reserved σ.nblocks :=
  (Reserved.appended ((Extends.refl valid).fresh.push _).valid).append.push _

theorem emitClauses_emits (mergeBb : Nat) (clauses : List (Nat × Emit Item Unit))
    (emits : ∀ clause ∈ clauses, Emits clause.2) : Emits (emitClauses mergeBb clauses) := by
  induction clauses with
  | nil => exact Emits.pure
  | cons clause rest ih =>
    exact (emitClause_emits mergeBb clause.1 (emits clause (by simp))).seq
      (ih fun c member => emits c (by simp [member]))

theorem emitClause_keepsOpen (mergeBb expr : Nat) {body : Emit Item Unit} (emits : Emits body) :
    KeepsOpen (emitClause mergeBb expr body) := by
  intro σ σ' valid _ returned
  obtain ⟨σ₁, inner, rfl⟩ := emitClause_inv returned
  exact .goto ((emitClause_else_reserved emits valid inner).push _)

theorem emitClauses_keepsOpen (mergeBb : Nat) (clauses : List (Nat × Emit Item Unit))
    (emits : ∀ clause ∈ clauses, Emits clause.2) : KeepsOpen (emitClauses mergeBb clauses) := by
  induction clauses with
  | nil => exact KeepsOpen.pure
  | cons clause rest ih =>
    have emitsFirst := emits clause (by simp)
    exact .seq (emitClause_emits mergeBb clause.1 emitsFirst)
      (emitClause_keepsOpen mergeBb clause.1 emitsFirst) (ih fun c member => emits c (by simp [member]))

theorem uplEmitIf_inv {expr : Nat} {thenStmts : Emitter} {elsifs : List (Nat × Emitter)}
    {elseStmts : Emitter} {ctx : Ctx}
    (returned : uplEmitIf expr thenStmts elsifs elseStmts ctx σ = some ((), σ')) :
    ∃ σ₁ σ₂ σ₃, emitClause σ.nblocks expr (thenStmts ctx) σ.append = some ((), σ₁) ∧
      emitClauses σ.nblocks (elsifs.map fun c => (c.1, c.2 ctx)) σ₁ = some ((), σ₂) ∧
      elseStmts ctx σ₂ = some ((), σ₃) ∧ σ' = (σ₃.push (.br σ.nblocks)).goto σ.nblocks := by
  simp only [uplEmitIf, bind_run, appendBlock_run, positionAtEnd_run, br_run, Option.bind_some,
    Option.bind_eq_some_iff, Prod.exists, Option.some.injEq, Prod.mk.injEq, true_and] at returned
  obtain ⟨_, σ₁, h₁, _, σ₂, h₂, _, σ₃, h₃, rfl⟩ := returned
  exact ⟨σ₁, σ₂, σ₃, h₁, h₂, h₃, rfl⟩

/-- The merge block of an IF is still empty when everything before it is done. -/
theorem uplEmitIf_merge_reserved {expr : Nat} {thenStmts : Emitter} {elsifs : List (Nat × Emitter)}
    {elseStmts : Emitter} {ctx : Ctx} {σ₁ σ₂ σ₃ : Builder Item} (valid : σ.Valid)
    (emitsThen : Emits (thenStmts ctx)) (emitsElsif : ∀ c ∈ elsifs, Emits (c.2 ctx))
    (emitsElse : Emits (elseStmts ctx))
    (h₁ : emitClause σ.nblocks expr (thenStmts ctx) σ.append = some ((), σ₁))
    (h₂ : emitClauses σ.nblocks (elsifs.map fun c => (c.1, c.2 ctx)) σ₁ = some ((), σ₂))
    (h₃ : elseStmts ctx σ₂ = some ((), σ₃)) :
    Extends σ.append σ₃ ∧ σ₃.Reserved σ.nblocks := by
  have start : Extends σ σ.append := (Extends.refl valid).append
  have first := emitClause_emits _ _ emitsThen _ _ start.valid h₁
  have chain := emitClauses_emits _ _ (by
    intro clause member
    obtain ⟨c, inside, rfl⟩ := List.mem_map.mp member
    exact emitsElsif c inside) _ _ first.valid h₂
  have last := emitsElse _ _ chain.valid h₃
  have whole := (first.trans chain).trans last
  exact ⟨whole, (Reserved.appended valid).survives whole⟩

theorem uplEmitIf_emits (expr : Nat) {thenStmts : Emitter} {elsifs : List (Nat × Emitter)}
    {elseStmts : Emitter} (ctx : Ctx) (emitsThen : Emits (thenStmts ctx))
    (emitsElsif : ∀ c ∈ elsifs, Emits (c.2 ctx)) (emitsElse : Emits (elseStmts ctx)) :
    Emits (uplEmitIf expr thenStmts elsifs elseStmts ctx) := by
  intro σ σ' valid returned
  obtain ⟨σ₁, σ₂, σ₃, h₁, h₂, h₃, rfl⟩ := uplEmitIf_inv returned
  have start : Extends σ σ.append := (Extends.refl valid).append
  obtain ⟨whole, merge⟩ := uplEmitIf_merge_reserved valid emitsThen emitsElsif emitsElse h₁ h₂ h₃
  exact ((start.trans whole).push _).goto _ (by simp) merge.born

theorem uplEmitIf_keepsOpen (expr : Nat) {thenStmts : Emitter} {elsifs : List (Nat × Emitter)}
    {elseStmts : Emitter} (ctx : Ctx) (emitsThen : Emits (thenStmts ctx))
    (emitsElsif : ∀ c ∈ elsifs, Emits (c.2 ctx)) (emitsElse : Emits (elseStmts ctx)) :
    KeepsOpen (uplEmitIf expr thenStmts elsifs elseStmts ctx) := by
  intro σ σ' valid _ returned
  obtain ⟨σ₁, σ₂, σ₃, h₁, h₂, h₃, rfl⟩ := uplEmitIf_inv returned
  exact .goto ((uplEmitIf_merge_reserved valid emitsThen emitsElsif emitsElse h₁ h₂ h₃).2.push _)

theorem uplEmitCase_inv {test : Option (Nat × Nat)} {whens : List (Nat × Emitter)} {haveElse : Bool}
    {elseStmts : Emitter} {ctx : Ctx}
    (returned : uplEmitCase test whens haveElse elseStmts ctx σ = some ((), σ')) :
    ∃ σ₁ σ₂ σ₃ σ₄, emitCaseTest test σ.append = some ((), σ₁) ∧
      emitClauses σ.nblocks (whens.map fun c => (c.1, do emitClearTest test; c.2 ctx)) σ₁ =
        some ((), σ₂) ∧
      emitClearTest test σ₂ = some ((), σ₃) ∧
      emitCaseElse haveElse elseStmts ctx σ₃ = some ((), σ₄) ∧
      σ' = (σ₄.push (.br σ.nblocks)).goto σ.nblocks := by
  simp only [uplEmitCase, bind_run, appendBlock_run, positionAtEnd_run, br_run, Option.bind_some,
    Option.bind_eq_some_iff, Prod.exists, Option.some.injEq, Prod.mk.injEq, true_and] at returned
  obtain ⟨_, σ₁, h₁, _, σ₂, h₂, _, σ₃, h₃, _, σ₄, h₄, rfl⟩ := returned
  exact ⟨σ₁, σ₂, σ₃, σ₄, h₁, h₂, h₃, h₄, rfl⟩

theorem emitCaseElse_emits (haveElse : Bool) {elseStmts : Emitter} (ctx : Ctx)
    (emits : Emits (elseStmts ctx)) : Emits (emitCaseElse haveElse elseStmts ctx) := by
  unfold emitCaseElse
  split
  · exact emits
  · exact Emits.instr _

theorem uplEmitCase_merge_reserved {test : Option (Nat × Nat)} {whens : List (Nat × Emitter)}
    {haveElse : Bool} {elseStmts : Emitter} {ctx : Ctx} {σ₁ σ₂ σ₃ σ₄ : Builder Item}
    (valid : σ.Valid) (emitsWhen : ∀ c ∈ whens, Emits (c.2 ctx)) (emitsElse : Emits (elseStmts ctx))
    (h₁ : emitCaseTest test σ.append = some ((), σ₁))
    (h₂ : emitClauses σ.nblocks (whens.map fun c => (c.1, do emitClearTest test; c.2 ctx)) σ₁ =
      some ((), σ₂))
    (h₃ : emitClearTest test σ₂ = some ((), σ₃))
    (h₄ : emitCaseElse haveElse elseStmts ctx σ₃ = some ((), σ₄)) :
    Extends σ.append σ₄ ∧ σ₄.Reserved σ.nblocks := by
  have start : Extends σ σ.append := (Extends.refl valid).append
  have first := emitCaseTest_emits test _ _ start.valid h₁
  have chain := emitClauses_emits _ _ (by
    intro clause member
    obtain ⟨c, inside, rfl⟩ := List.mem_map.mp member
    exact (emitClearTest_emits test).seq (emitsWhen c inside)) _ _ first.valid h₂
  have clear := emitClearTest_emits test _ _ chain.valid h₃
  have last := emitCaseElse_emits haveElse ctx emitsElse _ _ clear.valid h₄
  have whole := ((first.trans chain).trans clear).trans last
  exact ⟨whole, (Reserved.appended valid).survives whole⟩

theorem uplEmitCase_keepsOpen (test : Option (Nat × Nat)) {whens : List (Nat × Emitter)}
    (haveElse : Bool) {elseStmts : Emitter} (ctx : Ctx) (emitsWhen : ∀ c ∈ whens, Emits (c.2 ctx))
    (emitsElse : Emits (elseStmts ctx)) :
    KeepsOpen (uplEmitCase test whens haveElse elseStmts ctx) := by
  intro σ σ' valid _ returned
  obtain ⟨σ₁, σ₂, σ₃, σ₄, h₁, h₂, h₃, h₄, rfl⟩ := uplEmitCase_inv returned
  exact .goto ((uplEmitCase_merge_reserved valid emitsWhen emitsElse h₁ h₂ h₃ h₄).2.push _)

theorem uplEmitCase_emits (test : Option (Nat × Nat)) {whens : List (Nat × Emitter)}
    (haveElse : Bool) {elseStmts : Emitter} (ctx : Ctx) (emitsWhen : ∀ c ∈ whens, Emits (c.2 ctx))
    (emitsElse : Emits (elseStmts ctx)) :
    Emits (uplEmitCase test whens haveElse elseStmts ctx) := by
  intro σ σ' valid returned
  obtain ⟨σ₁, σ₂, σ₃, σ₄, h₁, h₂, h₃, h₄, rfl⟩ := uplEmitCase_inv returned
  have start : Extends σ σ.append := (Extends.refl valid).append
  obtain ⟨whole, merge⟩ := uplEmitCase_merge_reserved valid emitsWhen emitsElse h₁ h₂ h₃ h₄
  exact ((start.trans whole).push _).goto _ (by simp) merge.born

/-! ### Loops -/

/-- The builder at the start of a WHILE body. -/
def whileBody (σ : Builder Item) (expr : Nat) : Builder Item :=
  (((((σ.append.append.append.push (.br σ.nblocks)).goto σ.nblocks).fresh.push
    (.instr (.evalBool σ.nregs expr))).push
    (.condBr σ.nregs (σ.nblocks + 1) (σ.nblocks + 2))).goto (σ.nblocks + 1))

/-- The builder at the start of a REPEAT body. -/
def repeatBody (σ : Builder Item) : Builder Item :=
  (σ.append.append.append.push (.br (σ.nblocks + 1))).goto (σ.nblocks + 1)

/-- The builder after the test of a REPEAT. -/
def repeatTest (σ σ₁ : Builder Item) (expr : Nat) : Builder Item :=
  ((((σ₁.push (.br σ.nblocks)).goto σ.nblocks).fresh.push
    (.instr (.evalBool σ₁.nregs expr))).push
    (.condBr σ₁.nregs (σ.nblocks + 2) (σ.nblocks + 1)))

theorem whileBody_extends (valid : σ.Valid) (expr : Nat) : Extends σ (whileBody σ expr) := by
  unfold whileBody
  exact ((((((Extends.refl valid).append.append.append.push _).goto _ (by simp)
    (by simp; omega)).fresh.push _).push _).goto _ (by simp) (by simp))

theorem repeatBody_extends (valid : σ.Valid) : Extends σ (repeatBody σ) := by
  unfold repeatBody
  exact ((Extends.refl valid).append.append.append.push _).goto _ (by simp) (by simp)

/-- The three blocks of a conditional loop are set aside before anything else. -/
theorem condLoop_reserved (valid : σ.Valid) (k : Nat) (lt : k < 3) :
    (σ.append.append.append).Reserved (σ.nblocks + k) :=
  .appendedN valid 3 (Nat.le_add_right _ _) (by omega)

theorem whileBody_exit_reserved (valid : σ.Valid) (expr : Nat) :
    (whileBody σ expr).Reserved (σ.nblocks + 2) :=
  (((((condLoop_reserved valid 2 (by omega)).push _).goto _ (by omega)).fresh.push _).push _).goto _
    (by omega)

theorem repeatBody_reserved (valid : σ.Valid) :
    (repeatBody σ).Reserved σ.nblocks ∧ (repeatBody σ).Reserved (σ.nblocks + 2) :=
  ⟨((condLoop_reserved valid 0 (by omega)).push _).goto _ (by omega),
    ((condLoop_reserved valid 2 (by omega)).push _).goto _ (by omega)⟩

theorem repeatTest_exit_reserved {σ₁ : Builder Item} (reserved : σ₁.Reserved (σ.nblocks + 2))
    (expr : Nat) : (repeatTest σ σ₁ expr).Reserved (σ.nblocks + 2) :=
  (((reserved.push _).goto _ (by omega)).fresh.push _).push _

theorem uplEmitWhile_inv {label : Option Nat} {expr : Nat} {body : Emitter} {ctx : Ctx}
    (returned : uplEmitCondLoop label expr true body ctx σ = some ((), σ')) :
    ∃ σ₁, body (uplPushLoop ctx label σ.nblocks (σ.nblocks + 2)) (whileBody σ expr) =
        some ((), σ₁) ∧
      σ' = (σ₁.push (.br σ.nblocks)).goto (σ.nblocks + 2) := by
  simp only [uplEmitCondLoop, ite_true, bind_run, appendBlock_run, positionAtEnd_run, br_run,
    condBr_run, uplEvalBool_run, Option.bind_some, Option.bind_eq_some_iff, Prod.exists,
    Option.some.injEq, Prod.mk.injEq, true_and] at returned
  obtain ⟨_, σ₁, inner, rfl⟩ := returned
  exact ⟨σ₁, inner, rfl⟩

theorem uplEmitRepeat_inv {label : Option Nat} {expr : Nat} {body : Emitter} {ctx : Ctx}
    (returned : uplEmitCondLoop label expr false body ctx σ = some ((), σ')) :
    ∃ σ₁, body (uplPushLoop ctx label σ.nblocks (σ.nblocks + 2)) (repeatBody σ) =
        some ((), σ₁) ∧
      σ' = (repeatTest σ σ₁ expr).goto (σ.nblocks + 2) := by
  simp only [uplEmitCondLoop, Bool.false_eq_true, ite_false, bind_run, appendBlock_run,
    positionAtEnd_run, br_run, condBr_run, uplEvalBool_run, Option.bind_some,
    Option.bind_eq_some_iff, Prod.exists, Option.some.injEq, Prod.mk.injEq, true_and] at returned
  obtain ⟨_, σ₁, inner, rfl⟩ := returned
  exact ⟨σ₁, inner, rfl⟩

theorem uplEmitCondLoop_emits (label : Option Nat) (expr : Nat) (testAtTop : Bool) {body : Emitter}
    (ctx : Ctx) (emits : ∀ ctx, Emits (body ctx)) :
    Emits (uplEmitCondLoop label expr testAtTop body ctx) := by
  intro σ σ' valid returned
  cases testAtTop with
  | true =>
    obtain ⟨σ₁, inner, rfl⟩ := uplEmitWhile_inv returned
    have start := whileBody_extends valid expr
    have ext := emits _ _ _ start.valid inner
    have le := ext.nblocks_le
    exact ((start.trans ext).push _).goto _ (by simp) (by simp [whileBody] at *; omega)
  | false =>
    obtain ⟨σ₁, inner, rfl⟩ := uplEmitRepeat_inv returned
    have start := repeatBody_extends valid
    have ext := emits _ _ _ start.valid inner
    have le := ext.nblocks_le
    simp only [repeatBody, goto_nblocks, push_nblocks, append_nblocks] at le
    unfold repeatTest
    exact ((((((start.trans ext).push _).goto _ (by simp) (by simp; omega)).fresh.push _).push
      _).goto _ (by simp) (by simp; omega))

theorem uplEmitCondLoop_keepsOpen (label : Option Nat) (expr : Nat) (testAtTop : Bool)
    {body : Emitter} (ctx : Ctx) (emits : ∀ ctx, Emits (body ctx)) :
    KeepsOpen (uplEmitCondLoop label expr testAtTop body ctx) := by
  intro σ σ' valid _ returned
  cases testAtTop with
  | true =>
    obtain ⟨σ₁, inner, rfl⟩ := uplEmitWhile_inv returned
    have ext := emits _ _ _ (whileBody_extends valid expr).valid inner
    exact .goto (((whileBody_exit_reserved valid expr).survives ext).push _)
  | false =>
    obtain ⟨σ₁, inner, rfl⟩ := uplEmitRepeat_inv returned
    have ext := emits _ _ _ (repeatBody_extends valid).valid inner
    exact .goto (repeatTest_exit_reserved ((repeatBody_reserved valid).2.survives ext) expr)

def loopBody (σ : Builder Item) : Builder Item :=
  (σ.append.append.push (.br σ.nblocks)).goto σ.nblocks

theorem loopBody_extends (valid : σ.Valid) : Extends σ (loopBody σ) := by
  unfold loopBody
  exact ((Extends.refl valid).append.append.push _).goto _ (by simp)
    (by simp only [push_nblocks, append_nblocks]; omega)

theorem uplEmitLoop_inv {label : Option Nat} {body : Emitter} {ctx : Ctx}
    (returned : uplEmitLoop label body ctx σ = some ((), σ')) :
    ∃ σ₁, body (uplPushLoop ctx label σ.nblocks (σ.nblocks + 1)) (loopBody σ) = some ((), σ₁) ∧
      σ' = (σ₁.push (.br σ.nblocks)).goto (σ.nblocks + 1) := by
  simp only [uplEmitLoop, bind_run, appendBlock_run, positionAtEnd_run, br_run, Option.bind_some,
    Option.bind_eq_some_iff, Prod.exists, Option.some.injEq, Prod.mk.injEq, true_and] at returned
  obtain ⟨_, σ₁, inner, rfl⟩ := returned
  exact ⟨σ₁, inner, rfl⟩

theorem loopBody_exit_reserved (valid : σ.Valid) : (loopBody σ).Reserved (σ.nblocks + 1) :=
  ((Reserved.appendedN valid 2 (by omega) (by omega)).push _).goto _ (by omega)

theorem uplEmitLoop_keepsOpen (label : Option Nat) {body : Emitter} (ctx : Ctx)
    (emits : ∀ ctx, Emits (body ctx)) : KeepsOpen (uplEmitLoop label body ctx) := by
  intro σ σ' valid _ returned
  obtain ⟨σ₁, inner, rfl⟩ := uplEmitLoop_inv returned
  have ext := emits _ _ _ (loopBody_extends valid).valid inner
  exact .goto (((loopBody_exit_reserved valid).survives ext).push _)

theorem uplEmitLoop_emits (label : Option Nat) {body : Emitter} (ctx : Ctx)
    (emits : ∀ ctx, Emits (body ctx)) : Emits (uplEmitLoop label body ctx) := by
  intro σ σ' valid returned
  obtain ⟨σ₁, inner, rfl⟩ := uplEmitLoop_inv returned
  have start := loopBody_extends valid
  have ext := emits _ _ _ start.valid inner
  have le := ext.nblocks_le
  exact ((start.trans ext).push _).goto _ (by simp) (by simp [loopBody] at *; omega)

/-! ### Integer FOR -/

/-- After the bounds, the two slots and the branch into the loop. The registers
are, from the first: lower, upper and step value, loop value, found. -/
def foriSetup (σ : Builder Item) (lower upper : Nat) (step : Option Nat) : Builder Item :=
  ((((((σ.fresh.push (.instr (.evalInt σ.nregs lower))).fresh.push
    (.instr (.evalInt (σ.nregs + 1) upper))).fresh.push
    (.instr (stepInstrOf step (σ.nregs + 2)))).fresh.fresh.push
    (.instr (.move (σ.nregs + 3) σ.nregs))).push
    (.instr (.const (σ.nregs + 4) (.bool false)))).append.append.append.append.push (.br σ.nblocks))

def foriTest (reverse : Bool) (dst cur upper : Nat) : Instr :=
  if reverse then .icmpSlt dst cur upper else .icmpSgt dst cur upper

/-- After the condition block. -/
def foriCond (σ : Builder Item) (reverse : Bool) (loopVal upper bodyBb exitBb : Nat) :
    Builder Item :=
  ((σ.fresh.push (.instr (.move σ.nregs loopVal))).fresh.push
    (.instr (foriTest reverse (σ.nregs + 1) σ.nregs upper))).push
    (.condBr (σ.nregs + 1) exitBb bodyBb)

@[simp] theorem emitForiCond_run (reverse : Bool) (loopVal upper bodyBb exitBb : Nat) :
    emitForiCond reverse loopVal upper bodyBb exitBb σ =
      some (σ.nregs, foriCond σ reverse loopVal upper bodyBb exitBb) := rfl

def foriNext (reverse : Bool) (dst cur step : Nat) : Instr :=
  if reverse then .sub dst cur step else .add dst cur step

def foriOverflow (reverse : Bool) (dst next cur : Nat) : Instr :=
  if reverse then .icmpSgt dst next cur else .icmpSlt dst next cur

/-- After the overflow test of the step block; the new block stores the value. -/
def foriCheck (σ : Builder Item) (reverse : Bool) (loopVal step exitBb : Nat) : Builder Item :=
  ((((σ.fresh.push (.instr (.move σ.nregs loopVal))).append.fresh.push
    (.instr (foriNext reverse (σ.nregs + 1) σ.nregs step))).fresh.push
    (.instr (foriOverflow reverse (σ.nregs + 2) (σ.nregs + 1) σ.nregs))).push
    (.condBr (σ.nregs + 2) exitBb σ.nblocks))

def foriStore (σ : Builder Item) (reverse : Bool) (loopVal step condBb exitBb : Nat) :
    Builder Item :=
  (((foriCheck σ reverse loopVal step exitBb).goto σ.nblocks).push
    (.instr (.move loopVal (σ.nregs + 1)))).push (.br condBb)

@[simp] theorem emitForiStep_run (reverse : Bool) (loopVal step condBb exitBb : Nat) :
    emitForiStep reverse loopVal step condBb exitBb σ =
      some ((), foriStore σ reverse loopVal step condBb exitBb) := rfl

/-- The builder at the start of the statements of a FOR body. -/
def foriBody (σ : Builder Item) (var lower upper : Nat) (step : Option Nat) (reverse : Bool) :
    Builder Item :=
  (((foriCond ((foriSetup σ lower upper step).goto σ.nblocks) reverse (σ.nregs + 3) (σ.nregs + 1)
    (σ.nblocks + 1) (σ.nblocks + 3)).goto (σ.nblocks + 1)).push
    (.instr (.const (σ.nregs + 4) (.bool true)))).push (.instr (.assignInt var (σ.nregs + 5)))

/-- The builder after the step and store blocks. -/
def foriTail (σ σ₁ : Builder Item) (reverse : Bool) : Builder Item :=
  foriStore ((σ₁.push (.br (σ.nblocks + 2))).goto (σ.nblocks + 2)) reverse (σ.nregs + 3)
    (σ.nregs + 2) σ.nblocks (σ.nblocks + 3)

/-- The builder after the exit block. -/
def foundExit (σ : Builder Item) (found : Nat) : Builder Item :=
  (σ.fresh.push (.instr (.move σ.nregs found))).push (.instr (.setFound σ.nregs))

theorem uplEmitFori_inv {label : Option Nat} {var lower upper : Nat} {step : Option Nat}
    {reverse : Bool} {body : Emitter} {ctx : Ctx}
    (returned : uplEmitFori label var lower upper step reverse body ctx σ = some ((), σ')) :
    ∃ σ₁, body (uplPushLoop ctx label (σ.nblocks + 2) (σ.nblocks + 3))
        (foriBody σ var lower upper step reverse) = some ((), σ₁) ∧
      σ' = foundExit ((foriTail σ σ₁ reverse).goto (σ.nblocks + 3)) (σ.nregs + 4) := by
  simp only [uplEmitFori, bind_run, appendBlock_run, positionAtEnd_run, br_run, rtEvalInt_run,
    rtEvalStep_run, newReg_run, instr_run, emitForiCond_run, emitForiStep_run, emitSetFound_run,
    Option.bind_some, Option.bind_eq_some_iff, Prod.exists, Option.some.injEq, Prod.mk.injEq,
    true_and] at returned
  obtain ⟨_, σ₁, inner, rfl⟩ := returned
  exact ⟨σ₁, inner, rfl⟩

theorem foriSetup_extends (valid : σ.Valid) (lower upper : Nat) (step : Option Nat) :
    Extends σ (foriSetup σ lower upper step) := by
  unfold foriSetup
  exact (((((((Extends.refl valid).fresh.push _).fresh.push _).fresh.push _).fresh.fresh.push
    _).push _).append.append.append.append.push _)

theorem foriCond_extends {σ₀ : Builder Item} (ext : Extends σ₀ σ) (reverse : Bool)
    (loopVal upper bodyBb exitBb : Nat) :
    Extends σ₀ (foriCond σ reverse loopVal upper bodyBb exitBb) := by
  unfold foriCond
  exact ((ext.fresh.push _).fresh.push _).push _

theorem foriBody_extends (valid : σ.Valid) (var lower upper : Nat) (step : Option Nat)
    (reverse : Bool) : Extends σ (foriBody σ var lower upper step reverse) := by
  unfold foriBody
  have setup := foriSetup_extends valid lower upper step
  have cond := foriCond_extends (setup.goto σ.nblocks (by simp) (by simp [foriSetup]; omega))
    reverse (σ.nregs + 3) (σ.nregs + 1) (σ.nblocks + 1) (σ.nblocks + 3)
  exact ((cond.goto _ (by simp) (by simp [foriCond, foriSetup])).push _).push _

theorem foriStore_extends {σ₀ : Builder Item} (ext : Extends σ₀ σ) (reverse : Bool)
    (loopVal step condBb exitBb : Nat) :
    Extends σ₀ (foriStore σ reverse loopVal step condBb exitBb) := by
  have le := ext.nblocks_le
  unfold foriStore foriCheck
  exact ((((((ext.fresh.push _).append.fresh.push _).fresh.push _).push _).goto _ le
    (by simp)).push _).push _

theorem foriTail_extends {σ₁ : Builder Item} (ext : Extends σ σ₁)
    (born : σ.nblocks + 3 < σ₁.nblocks) (reverse : Bool) : Extends σ (foriTail σ σ₁ reverse) := by
  unfold foriTail
  exact foriStore_extends ((ext.push _).goto _ (by simp) (by simp; omega)) reverse _ _ _ _

theorem foundExit_extends {σ₀ : Builder Item} (ext : Extends σ₀ σ) (found : Nat) :
    Extends σ₀ (foundExit σ found) := by
  unfold foundExit
  exact (ext.fresh.push _).push _

theorem foriBody_nblocks (σ : Builder Item) (var lower upper : Nat) (step : Option Nat)
    (reverse : Bool) : (foriBody σ var lower upper step reverse).nblocks = σ.nblocks + 4 := rfl

/-- The four blocks of a FOR loop are empty until they are positioned at. -/
theorem foriSetup_reserved (valid : σ.Valid) (lower upper : Nat) (step : Option Nat) (k : Nat)
    (lt : k < 4) : (foriSetup σ lower upper step).Reserved (σ.nblocks + k) := by
  have before := ((((((Extends.refl valid).fresh.push (.instr (.evalInt σ.nregs lower))).fresh.push
    (.instr (.evalInt (σ.nregs + 1) upper))).fresh.push
    (.instr (stepInstrOf step (σ.nregs + 2)))).fresh.fresh.push
    (.instr (.move (σ.nregs + 3) σ.nregs))).push (.instr (.const (σ.nregs + 4) (.bool false))))
  exact (Reserved.appendedN before.valid 4 (Nat.le_add_right σ.nblocks k)
    (by simp only [push_nblocks, fresh_nblocks]; omega)).push _

theorem foriBody_reserved (valid : σ.Valid) (var lower upper : Nat) (step : Option Nat)
    (reverse : Bool) (k : Nat) (lt : k < 4) (two : 2 ≤ k) :
    (foriBody σ var lower upper step reverse).Reserved (σ.nblocks + k) := by
  have setup := (foriSetup_reserved valid lower upper step k lt).goto σ.nblocks (by omega)
  exact ((((((setup.fresh.push _).fresh.push _).push _).goto _ (by omega)).push _).push _)

theorem foriTail_exit_reserved {σ₁ : Builder Item} (reserved : σ₁.Reserved (σ.nblocks + 3))
    (reverse : Bool) : (foriTail σ σ₁ reverse).Reserved (σ.nblocks + 3) := by
  have step := (reserved.push (.br (σ.nblocks + 2))).goto (σ.nblocks + 2) (by omega)
  have born := reserved.born
  exact (((((((step.fresh.push _).append.fresh.push _).fresh.push _).push _).goto _
    (by simp; omega)).push _).push _)

theorem uplEmitFori_keepsOpen (label : Option Nat) (var lower upper : Nat) (step : Option Nat)
    (reverse : Bool) {body : Emitter} (ctx : Ctx) :
    KeepsOpen (uplEmitFori label var lower upper step reverse body ctx) := by
  intro σ σ' _ _ returned
  obtain ⟨σ₁, _, rfl⟩ := uplEmitFori_inv returned
  exact .push_instr _ _

theorem uplEmitFori_emits (label : Option Nat) (var lower upper : Nat) (step : Option Nat)
    (reverse : Bool) {body : Emitter} (ctx : Ctx) (emits : ∀ ctx, Emits (body ctx)) :
    Emits (uplEmitFori label var lower upper step reverse body ctx) := by
  intro σ σ' valid returned
  obtain ⟨σ₁, inner, rfl⟩ := uplEmitFori_inv returned
  have start := foriBody_extends valid var lower upper step reverse
  have ext := emits _ _ _ start.valid inner
  have le := ext.nblocks_le
  rw [foriBody_nblocks] at le
  have tail := foriTail_extends (start.trans ext) (by omega) reverse
  exact foundExit_extends (tail.goto _ (by simp)
    (by simp [foriTail, foriStore, foriCheck]; omega)) _

/-! ### Jumps and RETURN -/

/-- The release calls of a jump, as items. -/
def unwindItems (ctx : Ctx) (targetDepth : Nat) : List Item :=
  (ctx.cleanupStack.take (ctx.cleanupDepth - targetDepth)).map fun c => .instr c.release

@[simp] theorem uplEmitCleanupUnwind_run (ctx : Ctx) (targetDepth : Nat) :
    uplEmitCleanupUnwind ctx targetDepth σ =
      some ((), σ.pushAll (unwindItems ctx targetDepth)) := by
  simp [uplEmitCleanupUnwind, unwindItems, Function.comp_def]

/-- What a jump resolves to at compile time. -/
structure Resolved (ctx : Ctx) (label : Option Nat) (isExit : Bool) (info : LoopInfo)
    (targetBb : Nat) : Prop where
  found : uplFindLoop ctx.loopStack label = some info
  target : jumpTarget isExit info = some targetBb

theorem uplEmitLoopExit_resolved {label : Option Nat} {isExit : Bool} {cond : Option Nat} {ctx : Ctx}
    (returned : uplEmitLoopExit label isExit cond ctx σ = some ((), σ')) :
    ∃ info targetBb, Resolved ctx label isExit info targetBb := by
  cases found : uplFindLoop ctx.loopStack label with
  | none => simp [uplEmitLoopExit, found] at returned
  | some info =>
    cases target : jumpTarget isExit info with
    | none => simp [uplEmitLoopExit, found, target] at returned
    | some targetBb => exact ⟨info, targetBb, found, target⟩

/-- The guard of `uplEmitLoopExit` only repeats that the target has a block. -/
theorem uplEmitLoopExit_eq {label : Option Nat} {isExit : Bool} {cond : Option Nat} {ctx : Ctx}
    {info : LoopInfo} {targetBb : Nat} (resolved : Resolved ctx label isExit info targetBb)
    (returned : uplEmitLoopExit label isExit cond ctx σ = some ((), σ')) :
    match cond with
    | none =>
      σ' = ((σ.pushAll (unwindItems ctx info.cleanupDepth)).push (.br targetBb)).append.goto σ.nblocks
    | some expr =>
      let σ₁ := σ.append.fresh.push (.instr (.evalBool σ.nregs expr))
      if info.cleanupDepth < ctx.cleanupDepth then
        σ' = ((((σ₁.append.push (.condBr σ.nregs (σ.nblocks + 1) σ.nblocks)).goto
          (σ.nblocks + 1)).pushAll (unwindItems ctx info.cleanupDepth)).push
          (.br targetBb)).goto σ.nblocks
      else σ' = (σ₁.push (.condBr σ.nregs targetBb σ.nblocks)).goto σ.nblocks := by
  unfold uplEmitLoopExit at returned
  rw [resolved.found] at returned
  dsimp only at returned
  split at returned
  next => simp at returned
  next =>
    rw [resolved.target] at returned
    cases cond with
    | none =>
      simp only [bind_run, uplEmitCleanupUnwind_run, br_run, appendBlock_run, positionAtEnd_run,
        Option.bind_some, Option.some.injEq, Prod.mk.injEq, true_and, push_nblocks,
        pushAll_nblocks] at returned
      exact returned.symm
    | some expr =>
      dsimp only at returned ⊢
      split at returned
      next shallower =>
        rw [if_pos shallower]
        simp only [bind_run, uplEvalBool_run, uplEmitCleanupUnwind_run, br_run, condBr_run,
          appendBlock_run, positionAtEnd_run, Option.bind_some, Option.some.injEq, Prod.mk.injEq,
          true_and] at returned
        exact returned.symm
      next deep =>
        rw [if_neg deep]
        simp only [bind_run, uplEvalBool_run, condBr_run, appendBlock_run, positionAtEnd_run,
          Option.bind_some, Option.some.injEq, Prod.mk.injEq, true_and] at returned
        exact returned.symm

theorem uplEmitLoopExit_emits (label : Option Nat) (isExit : Bool) (cond : Option Nat) (ctx : Ctx) :
    Emits (uplEmitLoopExit label isExit cond ctx) := by
  intro σ σ' valid returned
  obtain ⟨info, targetBb, resolved⟩ := uplEmitLoopExit_resolved returned
  have eq := uplEmitLoopExit_eq resolved returned
  have start := Extends.refl valid
  cases cond with
  | none =>
    dsimp only at eq
    subst eq
    exact ((start.pushAll _).push _).append.goto _ (by simp) (by simp)
  | some expr =>
    dsimp only at eq
    split at eq
    next =>
      subst eq
      exact (((((start.append.fresh.push _).append.push _).goto _ (by simp) (by simp)).pushAll
        _).push _).goto _ (by simp) (by
          simp only [push_nblocks, append_nblocks, fresh_nblocks, pushAll_nblocks, goto_nblocks]; omega)
    next =>
      subst eq
      exact ((start.append.fresh.push _).push _).goto _ (by simp) (by simp)

theorem uplEmitLoopExit_keepsOpen (label : Option Nat) (isExit : Bool) (cond : Option Nat)
    (ctx : Ctx) : KeepsOpen (uplEmitLoopExit label isExit cond ctx) := by
  intro σ σ' valid _ returned
  obtain ⟨info, targetBb, resolved⟩ := uplEmitLoopExit_resolved returned
  have eq := uplEmitLoopExit_eq resolved returned
  cases cond with
  | none =>
    dsimp only at eq
    subst eq
    have before := ((Extends.refl valid).pushAll (unwindItems ctx info.cleanupDepth)).push
      (.br targetBb)
    exact .goto (by simpa using Reserved.appended before.valid)
  | some expr =>
    have skip := ((Reserved.appended valid).fresh).push (.instr (.evalBool σ.nregs expr))
    dsimp only at eq
    split at eq
    next =>
      subst eq
      exact .goto (((((skip.append).push _).goto _ (by omega)).pushAll _).push _)
    next =>
      subst eq
      exact .goto (skip.push _)

theorem uplEmitReturn_run (id : Nat) (ctx : Ctx) :
    uplEmitReturn id ctx σ =
      some ((), (((σ.push (.instr (.call (.execReturn id)))).push (.instr .storeRc)).push
        (.br ctx.returnBb)).append.goto σ.nblocks) := rfl

theorem uplEmitReturn_emits (id : Nat) (ctx : Ctx) : Emits (uplEmitReturn id ctx) := by
  intro σ σ' valid returned
  rw [uplEmitReturn_run] at returned
  obtain rfl := (Prod.mk.inj (Option.some.inj returned)).2
  exact (((((Extends.refl valid).push _).push _).push _).append).goto _ (by simp) (by simp)

theorem uplEmitReturn_keepsOpen (id : Nat) (ctx : Ctx) : KeepsOpen (uplEmitReturn id ctx) := by
  intro σ σ' valid _ returned
  rw [uplEmitReturn_run] at returned
  obtain rfl := (Prod.mk.inj (Option.some.inj returned)).2
  have before := (((Extends.refl valid).push (.instr (.call (.execReturn id)))).push
    (.instr .storeRc)).push (.br ctx.returnBb)
  exact .goto (Reserved.appended before.valid)

end Uplpgsql
