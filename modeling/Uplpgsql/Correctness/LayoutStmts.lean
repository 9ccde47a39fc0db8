import Uplpgsql.Correctness.Layout

/-!
# Layout of blocks, handlers and row loops

The second half of the layout lemmas: the constructs that hold a resource, and
the statement dispatch.
-/

namespace Uplpgsql

open Lib.Blocks Emit Builder

variable {σ σ' : Builder Item}

def initItems (initvars : List Nat) : List Item :=
  initvars.map fun dno => .instr (.call (.initVar dno))

theorem Open.pushAll_init (opened : Open σ) (initvars : List Nat) :
    Open (σ.pushAll (initItems initvars)) := by
  induction initvars generalizing σ with
  | nil => exact opened
  | cons dno rest ih => exact ih (.push_instr σ _)

/-! ### Blocks without handlers -/

theorem compileBlock_inv {initvars : List Nat} {body : Emitter} {ctx : Ctx}
    (returned : compileBlock none initvars body ctx σ = some ((), σ')) :
    body ctx (σ.pushAll (initItems initvars)) = some ((), σ') := by
  simpa [compileBlock, initItems] using returned

/-- The end of a labelled block: a branch to `endBb` unless there is one already. -/
def blockEnd (σ₁ : Builder Item) (endBb : Nat) : Builder Item :=
  if ((σ₁.code σ₁.cur).getLast?.map Item.isTerminator).getD false then σ₁
  else σ₁.push (.br endBb)

theorem blockEnd_open {σ₁ : Builder Item} (opened : Open σ₁) (endBb : Nat) :
    blockEnd σ₁ endBb = σ₁.push (.br endBb) := by
  unfold blockEnd
  rw [opened]
  rfl

theorem compileBlock_label_inv {l : Nat} {initvars : List Nat} {body : Emitter} {ctx : Ctx}
    (returned : compileBlock (some l) initvars body ctx σ = some ((), σ')) :
    ∃ σ₁, body (uplPushBlockLabel ctx (some l) σ.nblocks)
        (σ.pushAll (initItems initvars)).append = some ((), σ₁) ∧
      σ' = (blockEnd σ₁ σ.nblocks).goto σ.nblocks := by
  simp only [compileBlock, bind_run, emitInitVars_run, appendBlock_run, Option.bind_some,
    Option.bind_eq_some_iff, Prod.exists, pushAll_nblocks] at returned
  obtain ⟨_, σ₁, inner, terminated, τ, check, rest⟩ := returned
  obtain ⟨rfl, rfl⟩ := Prod.mk.inj (Option.some.inj check)
  refine ⟨σ₁, inner, ?_⟩
  unfold blockEnd
  generalize ((σ₁.code σ₁.cur).getLast?.map Item.isTerminator).getD false = terminated at rest ⊢
  cases terminated with
  | true => exact (Prod.mk.inj (Option.some.inj rest)).2.symm
  | false => exact (Prod.mk.inj (Option.some.inj rest)).2.symm

theorem blockEnd_extends {σ₁ σ₀ : Builder Item} (ext : Extends σ₀ σ₁) (endBb : Nat) :
    Extends σ₀ (blockEnd σ₁ endBb) := by
  unfold blockEnd
  split
  · exact ext
  · exact ext.push _

theorem compileBlock_emits (label : Option Nat) (initvars : List Nat) {body : Emitter} (ctx : Ctx)
    (emits : ∀ ctx, Emits (body ctx)) : Emits (compileBlock label initvars body ctx) := by
  intro σ σ' valid returned
  have start := (Extends.refl valid).pushAll (initItems initvars)
  cases label with
  | none => exact start.trans (emits _ _ _ start.valid (compileBlock_inv returned))
  | some l =>
    obtain ⟨σ₁, inner, rfl⟩ := compileBlock_label_inv returned
    have ext := emits _ _ _ start.append.valid inner
    have le := ext.nblocks_le
    have ends := blockEnd_extends (start.append.trans ext) σ.nblocks
    refine ends.goto _ (by simp) (Nat.lt_of_lt_of_le ?_ (blockEnd_extends (.refl ext.valid) _).nblocks_le)
    exact Nat.lt_of_lt_of_le (by simp) le

theorem compileBlock_keepsOpen (label : Option Nat) (initvars : List Nat) {body : Emitter}
    (ctx : Ctx) (emits : ∀ ctx, Emits (body ctx)) (keeps : ∀ ctx, KeepsOpen (body ctx)) :
    KeepsOpen (compileBlock label initvars body ctx) := by
  intro σ σ' valid opened returned
  have start := (Extends.refl valid).pushAll (initItems initvars)
  cases label with
  | none => exact keeps _ _ _ start.valid (opened.pushAll_init initvars) (compileBlock_inv returned)
  | some l =>
    obtain ⟨σ₁, inner, rfl⟩ := compileBlock_label_inv returned
    have ext := emits _ _ _ start.append.valid inner
    have reserved := (Reserved.appended start.valid).survives ext
    rw [pushAll_nblocks] at reserved
    have openEnd : Open σ₁ := keeps _ _ _ start.append.valid (opened.pushAll_init initvars) inner
    rw [blockEnd_open openEnd]
    exact .goto (reserved.push _)

/-! ### Blocks with handlers -/

/-- After `sigsetjmp`. The eight blocks, from the first, are: try, catch, try
exit, return, handler return, handler exit, after, rethrow. -/
def excStart (σ : Builder Item) : Builder Item :=
  ((σ.appendN 8).fresh.push (.instr (.pushFrame σ.nregs))).push
    (.sigsetjmp σ.nregs σ.nblocks (σ.nblocks + 1))

/-- The builder at the start of the try body. -/
def excTry (σ : Builder Item) (initvars : List Nat) : Builder Item :=
  (((excStart σ).goto σ.nblocks).push (.instr (.arm σ.nregs))).pushAll (initItems initvars)

/-- A landing pad. -/
def pad (σ : Builder Item) (padBb : Nat) (i : Instr) (target : Nat) : Builder Item :=
  ((σ.goto padBb).push (.instr i)).push (.br target)

def excPads (σ σ₁ : Builder Item) (ctx : Ctx) : Builder Item :=
  pad (pad (σ₁.push (.br (σ.nblocks + 2))) (σ.nblocks + 3) (.tryExit σ.nregs) ctx.returnBb)
    (σ.nblocks + 2) (.tryExit σ.nregs) (σ.nblocks + 6)

/-- After the call of the catch helper. -/
def excCatchCall (σ τ : Builder Item) (handlers : List (List Condition)) : Builder Item :=
  (τ.goto (σ.nblocks + 1)).fresh.push (.instr (.catchError τ.nregs σ.nregs handlers))

/-- After the switch over the handlers. -/
def excCatch (σ τ : Builder Item) (handlers : List (List Condition)) : Builder Item :=
  ((excCatchCall σ τ handlers).appendN handlers.length).push
    (.switch τ.nregs (List.range' τ.nblocks handlers.length) (σ.nblocks + 7))

/-- After the rethrow block, at the end. -/
def excEnd (σ σ₂ : Builder Item) (ctx : Ctx) : Builder Item :=
  (((pad (pad σ₂ (σ.nblocks + 4) (.handlerDone σ.nregs) ctx.returnBb) (σ.nblocks + 5)
    (.handlerDone σ.nregs) (σ.nblocks + 6)).goto (σ.nblocks + 7)).push
    (.instr (.rethrow σ.nregs))).push .unreachable

/-- The context of the try body. -/
def tryCtx (ctx : Ctx) (label : Option Nat) (σ : Builder Item) : Ctx :=
  pushLabel (uplPushCleanup { ctx with returnBb := σ.nblocks + 3 } (.tryExit σ.nregs)) label
    (σ.nblocks + 2)

/-- The context of the handler bodies. -/
def handlerCtx (ctx : Ctx) (label : Option Nat) (σ : Builder Item) : Ctx :=
  pushLabel (uplPushCleanup { ctx with returnBb := σ.nblocks + 4 } (.handlerDone σ.nregs)) label
    (σ.nblocks + 5)

theorem compileBlockExceptions_inv {label : Option Nat} {initvars : List Nat} {body : Emitter}
    {handlers : List (List Condition × Emitter)} {ctx : Ctx}
    (returned : compileBlockExceptions label initvars body handlers ctx σ = some ((), σ')) :
    ∃ σ₁ σ₂, body (tryCtx ctx label σ) (excTry σ initvars) = some ((), σ₁) ∧
      emitHandlers σ.nregs (σ.nblocks + 6)
        ((List.range' σ₁.nblocks handlers.length).zip
          (handlers.map fun h => h.2 (handlerCtx ctx label σ)))
        (excCatch σ (excPads σ σ₁ ctx) (handlers.map (·.1))) = some ((), σ₂) ∧
      σ' = (excEnd σ σ₂ ctx).goto (σ.nblocks + 6) := by
  simp only [compileBlockExceptions, bind_run, appendBlock_run, newReg_run, instr_run, item_run,
    positionAtEnd_run, emitInitVars_run, br_run, emitPad_run, appendBlocks_run, Option.bind_some,
    Option.bind_eq_some_iff, Prod.exists, Option.some.injEq, Prod.mk.injEq, true_and] at returned
  obtain ⟨_, σ₁, inner, _, σ₂, hands, rfl⟩ := returned
  refine ⟨σ₁, σ₂, inner, ?_, rfl⟩
  rw [← hands, excCatch, List.length_map]
  rfl

theorem emitHandlers_inv {frame afterBb handlerBb : Nat} {action : Emit Item Unit}
    {rest : List (Nat × Emit Item Unit)}
    (returned : emitHandlers frame afterBb ((handlerBb, action) :: rest) σ = some ((), σ')) :
    ∃ σ₁, action ((σ.goto handlerBb).push (.instr .setHandlerVars)) = some ((), σ₁) ∧
      emitHandlers frame afterBb rest
        ((σ₁.push (.instr (.handlerDone frame))).push (.br afterBb)) = some ((), σ') := by
  simp only [emitHandlers, bind_run, positionAtEnd_run, instr_run, br_run, Option.bind_some,
    Option.bind_eq_some_iff, Prod.exists] at returned
  obtain ⟨_, σ₁, inner, remaining⟩ := returned
  exact ⟨σ₁, inner, remaining⟩

theorem emitHandlers_extends {σ₀ : Builder Item} {frame afterBb : Nat}
    {handlers : List (Nat × Emit Item Unit)} (ext : Extends σ₀ σ)
    (emits : ∀ h ∈ handlers, Emits h.2)
    (own : ∀ h ∈ handlers, σ₀.nblocks ≤ h.1 ∧ h.1 < σ.nblocks)
    (returned : emitHandlers frame afterBb handlers σ = some ((), σ')) : Extends σ₀ σ' := by
  induction handlers generalizing σ with
  | nil =>
    obtain rfl : σ = σ' := by simpa [emitHandlers] using returned
    exact ext
  | cons h rest ih =>
    obtain ⟨σ₁, inner, remaining⟩ := emitHandlers_inv returned
    obtain ⟨le, lt⟩ := own h (by simp)
    have start := (ext.goto h.1 le lt).push (.instr .setHandlerVars)
    have body := emits h (by simp) _ _ start.valid inner
    refine ih ((start.trans body).push _ |>.push _) (fun h' member => emits h' (by simp [member]))
      (fun h' member => ?_) remaining
    have bound := own h' (by simp [member])
    have grow := body.nblocks_le
    simp only [push_nblocks, goto_nblocks] at grow ⊢
    omega

/-- Blocks set aside by the caller, and the handlers' own, stay set aside. -/
theorem emitHandlers_reserved {frame afterBb b : Nat} {handlers : List (Nat × Emit Item Unit)}
    (valid : σ.Valid) (reserved : σ.Reserved b) (emits : ∀ h ∈ handlers, Emits h.2)
    (own : ∀ h ∈ handlers, h.1 < σ.nblocks) (ne : ∀ h ∈ handlers, b ≠ h.1)
    (returned : emitHandlers frame afterBb handlers σ = some ((), σ')) : σ'.Reserved b := by
  induction handlers generalizing σ with
  | nil =>
    obtain rfl : σ = σ' := by simpa [emitHandlers] using returned
    exact reserved
  | cons h rest ih =>
    obtain ⟨σ₁, inner, remaining⟩ := emitHandlers_inv returned
    have start : ((σ.goto h.1).push (.instr .setHandlerVars)).Valid :=
      ((Extends.refl (σ := σ.goto h.1) ⟨own h (by simp), valid.unborn⟩).push _).valid
    have body := emits h (by simp) _ _ start inner
    have kept := ((reserved.goto h.1 (ne h (by simp))).push (.instr .setHandlerVars)).survives body
    refine ih (((Extends.refl body.valid).push _).push _).valid ((kept.push _).push _)
      (fun h' member => emits h' (by simp [member])) (fun h' member => ?_)
      (fun h' member => ne h' (by simp [member])) remaining
    have bound := own h' (by simp [member])
    have grow := body.nblocks_le
    simp only [push_nblocks, goto_nblocks] at grow ⊢
    omega

theorem emitHandlers_laid {frame afterBb : Nat} {handlers : List (Nat × Emit Item Unit)}
    {code : Nat → List Item} (valid : σ.Valid) (emits : ∀ h ∈ handlers, Emits h.2)
    (own : ∀ h ∈ handlers, h.1 < σ.nblocks)
    (returned : emitHandlers frame afterBb handlers σ = some ((), σ')) (laid : σ'.Laid code) :
    σ.Laid code := by
  induction handlers generalizing σ with
  | nil =>
    obtain rfl : σ = σ' := by simpa [emitHandlers] using returned
    exact laid
  | cons h rest ih =>
    obtain ⟨σ₁, inner, remaining⟩ := emitHandlers_inv returned
    have start : ((σ.goto h.1).push (.instr .setHandlerVars)).Valid :=
      ((Extends.refl (σ := σ.goto h.1) ⟨own h (by simp), valid.unborn⟩).push _).valid
    have body := emits h (by simp) _ _ start inner
    have laidRest := ih (((Extends.refl body.valid).push _).push _).valid
      (fun h' member => emits h' (by simp [member]))
      (fun h' member => Nat.lt_of_lt_of_le (own h' (by simp [member])) body.nblocks_le) remaining
    exact Laid.of_push (σ := σ.goto h.1) (laidRest.of_push.of_push.of_extends body)

/-- Every handler is emitted at its own block. -/
theorem emitHandlers_each {frame afterBb : Nat} {handlers : List (Nat × Emit Item Unit)}
    {code : Nat → List Item} {h : Nat × Emit Item Unit} (valid : σ.Valid)
    (emits : ∀ h ∈ handlers, Emits h.2) (reserved : ∀ h ∈ handlers, σ.Reserved h.1)
    (distinct : (handlers.map (·.1)).Nodup)
    (returned : emitHandlers frame afterBb handlers σ = some ((), σ')) (laid : σ'.Laid code)
    (member : h ∈ handlers) :
    ∃ τ τ₁ : Builder Item, τ.Valid ∧ τ.Reserved h.1 ∧ σ.nregs ≤ τ.nregs ∧
      h.2 ((τ.goto h.1).push (.instr .setHandlerVars)) = some ((), τ₁) ∧
      ((τ₁.push (.instr (.handlerDone frame))).push (.br afterBb)).Laid code := by
  induction handlers generalizing σ with
  | nil => cases member
  | cons first rest ih =>
    obtain ⟨σ₁, inner, remaining⟩ := emitHandlers_inv returned
    have start : ((σ.goto first.1).push (.instr .setHandlerVars)).Valid :=
      ((Extends.refl (σ := σ.goto first.1) ⟨(reserved first (by simp)).born, valid.unborn⟩).push
        _).valid
    have body := emits first (by simp) _ _ start inner
    have validRest := (((Extends.refl body.valid).push (.instr (.handlerDone frame))).push
      (.br afterBb)).valid
    have emitsRest : ∀ h' ∈ rest, Emits h'.2 := fun h' inside => emits h' (by simp [inside])
    rw [List.map_cons, List.nodup_cons] at distinct
    have reservedRest : ∀ h' ∈ rest, ((σ₁.push (.instr (.handlerDone frame))).push
        (.br afterBb)).Reserved h'.1 := by
      intro h' inside
      have ne : h'.1 ≠ first.1 := fun same =>
        distinct.1 (same ▸ List.mem_map_of_mem (f := (·.1)) inside)
      exact ((((((reserved h' (by simp [inside])).goto _ ne).push _).survives body).push _).push _)
    rcases List.mem_cons.mp member with rfl | inside
    · exact ⟨σ, σ₁, valid, reserved h (by simp), Nat.le_refl _, inner,
        emitHandlers_laid validRest emitsRest (fun h' inside => (reservedRest h' inside).born)
          remaining laid⟩
    · obtain ⟨τ, τ₁, validτ, reservedτ, le, emitted, laidτ⟩ :=
        ih validRest emitsRest reservedRest distinct.2 remaining inside
      exact ⟨τ, τ₁, validτ, reservedτ, le_trans body.nregs_le le, emitted, laidτ⟩

section Exceptions

variable {σ₁ σ₂ τ : Builder Item}

theorem pad_nblocks (σ : Builder Item) (padBb : Nat) (i : Instr) (target : Nat) :
    (pad σ padBb i target).nblocks = σ.nblocks := rfl

theorem pad_nregs (σ : Builder Item) (padBb : Nat) (i : Instr) (target : Nat) :
    (pad σ padBb i target).nregs = σ.nregs := rfl

theorem pad_laid {padBb : Nat} {i : Instr} {target : Nat} {code : Nat → List Item}
    (laid : (pad σ padBb i target).Laid code) : σ.Laid code :=
  laid.of_push.of_push.of_goto

theorem pad_extends {σ₀ : Builder Item} (ext : Extends σ₀ σ) {padBb : Nat}
    (own : σ₀.nblocks ≤ padBb) (born : padBb < σ.nblocks) (i : Instr) (target : Nat) :
    Extends σ₀ (pad σ padBb i target) :=
  ((ext.goto padBb own born).push _).push _

theorem pad_reserved {b padBb : Nat} (reserved : σ.Reserved b) (ne : b ≠ padBb) (i : Instr)
    (target : Nat) : (pad σ padBb i target).Reserved b :=
  ((reserved.goto padBb ne).push _).push _

theorem excStart_extends (valid : σ.Valid) : Extends σ (excStart σ) :=
  ((((Extends.refl valid).appendN 8).fresh.push _).push _)

theorem excStart_reserved (valid : σ.Valid) (k : Nat) (lt : k < 8) :
    (excStart σ).Reserved (σ.nblocks + k) :=
  (((Reserved.appendedN valid 8 (Nat.le_add_right _ _) (by omega)).fresh.push _).push _)

theorem excTry_extends (valid : σ.Valid) (initvars : List Nat) : Extends σ (excTry σ initvars) :=
  ((((excStart_extends valid).goto _ (Nat.le_refl _) (by simp [excStart])).push _).pushAll _)

theorem excTry_reserved (valid : σ.Valid) (initvars : List Nat) (k : Nat) (lt : k < 8)
    (pos : 0 < k) : (excTry σ initvars).Reserved (σ.nblocks + k) :=
  ((((excStart_reserved valid k lt).goto _ (by omega)).push _).pushAll _)

theorem excTry_open (initvars : List Nat) : Open (excTry σ initvars) :=
  Open.pushAll_init (.push_instr _ _) initvars

theorem excPads_extends (ext : Extends σ σ₁) (born : σ.nblocks + 8 ≤ σ₁.nblocks) (ctx : Ctx) :
    Extends σ (excPads σ σ₁ ctx) :=
  pad_extends (pad_extends (ext.push _) (by simp) (by simp; omega) _ _) (by simp)
    (by rw [pad_nblocks, push_nblocks]; omega) _ _

theorem excPads_reserved {b : Nat} (reserved : σ₁.Reserved b) (ne₂ : b ≠ σ.nblocks + 2)
    (ne₃ : b ≠ σ.nblocks + 3) (ctx : Ctx) : (excPads σ σ₁ ctx).Reserved b :=
  pad_reserved (pad_reserved (reserved.push _) ne₃ _ _) ne₂ _ _

theorem excCatch_extends (ext : Extends σ τ) (born : σ.nblocks + 8 ≤ τ.nblocks)
    (handlers : List (List Condition)) : Extends σ (excCatch σ τ handlers) :=
  (((((ext.goto _ (by simp) (by omega)).fresh).push _).appendN _).push _)

theorem excCatch_reserved {b : Nat} (reserved : τ.Reserved b) (ne : b ≠ σ.nblocks + 1)
    (handlers : List (List Condition)) : (excCatch σ τ handlers).Reserved b :=
  ((((reserved.goto _ ne).fresh.push _).appendN _).push _)

/-- The handlers' blocks are set aside when the switch over them is built. -/
theorem excCatch_handler_reserved (ext : Extends σ τ) (born : σ.nblocks + 8 ≤ τ.nblocks)
    (handlers : List (List Condition)) {b : Nat} (le : τ.nblocks ≤ b)
    (lt : b < τ.nblocks + handlers.length) : (excCatch σ τ handlers).Reserved b := by
  have before : Extends σ (excCatchCall σ τ handlers) :=
    (((ext.goto _ (by simp) (by omega)).fresh).push _)
  exact (Reserved.appendedN before.valid handlers.length le lt).push _

theorem excCatch_nblocks (σ τ : Builder Item) (handlers : List (List Condition)) :
    (excCatch σ τ handlers).nblocks = τ.nblocks + handlers.length := rfl

theorem excEnd_extends (ext : Extends σ σ₂) (born : σ.nblocks + 8 ≤ σ₂.nblocks) (ctx : Ctx) :
    Extends σ (excEnd σ σ₂ ctx) := by
  have first : Extends σ (pad σ₂ (σ.nblocks + 4) (.handlerDone σ.nregs) ctx.returnBb) :=
    pad_extends ext (by simp) (by omega) _ _
  have pads : Extends σ (pad (pad σ₂ (σ.nblocks + 4) (.handlerDone σ.nregs) ctx.returnBb)
      (σ.nblocks + 5) (.handlerDone σ.nregs) (σ.nblocks + 6)) :=
    pad_extends first (by simp) (by rw [pad_nblocks]; omega) _ _
  exact (((pads.goto (σ.nblocks + 7) (by simp) (by simp only [pad_nblocks]; omega)).push _).push _)

theorem excEnd_reserved (reserved : σ₂.Reserved (σ.nblocks + 6)) (ctx : Ctx) :
    (excEnd σ σ₂ ctx).Reserved (σ.nblocks + 6) :=
  ((((pad_reserved (pad_reserved reserved (by omega) _ _) (by omega) _ _).goto _
    (by omega)).push _).push _)

/-- Everything the proofs about a block with handlers need to know about the
builder states in between. -/
structure ExcLayout (σ σ₁ σ₂ : Builder Item) (ctx : Ctx) (initvars : List Nat)
    (handlers : List (List Condition)) : Prop where
  start : Extends σ (excTry σ initvars)
  body : Extends (excTry σ initvars) σ₁
  pads : Extends σ (excPads σ σ₁ ctx)
  catch_ : Extends σ (excCatch σ (excPads σ σ₁ ctx) handlers)
  hands : Extends σ σ₂
  ends : Extends σ (excEnd σ σ₂ ctx)
  born : σ.nblocks + 8 ≤ σ₁.nblocks
  reserved₁ : ∀ k, 0 < k → k < 8 → σ₁.Reserved (σ.nblocks + k)
  reserved₂ : ∀ k, 4 ≤ k → k < 8 → σ₂.Reserved (σ.nblocks + k)

theorem excHandlers_own (handlers : List (List Condition × Emitter)) (hctx : Ctx)
    (h : Nat × Emit Item Unit)
    (member : h ∈ (List.range' σ₁.nblocks handlers.length).zip (handlers.map fun h => h.2 hctx)) :
    σ₁.nblocks ≤ h.1 ∧ h.1 < σ₁.nblocks + handlers.length ∧ ∃ g ∈ handlers, h.2 = g.2 hctx := by
  have range := (List.of_mem_zip member).1
  obtain ⟨g, inside, eq⟩ := List.mem_map.mp (List.of_mem_zip member).2
  rw [List.mem_range'_1] at range
  exact ⟨range.1, range.2, g, inside, eq.symm⟩

theorem compileBlockExceptions_layout {label : Option Nat} {initvars : List Nat} {body : Emitter}
    {handlers : List (List Condition × Emitter)} {ctx : Ctx} (valid : σ.Valid)
    (emits : ∀ ctx, Emits (body ctx)) (emitsHandler : ∀ h ∈ handlers, ∀ ctx, Emits (h.2 ctx))
    (inner : body (tryCtx ctx label σ) (excTry σ initvars) = some ((), σ₁))
    (hands : emitHandlers σ.nregs (σ.nblocks + 6)
      ((List.range' σ₁.nblocks handlers.length).zip
        (handlers.map fun h => h.2 (handlerCtx ctx label σ)))
      (excCatch σ (excPads σ σ₁ ctx) (handlers.map (·.1))) = some ((), σ₂)) :
    ExcLayout σ σ₁ σ₂ ctx initvars (handlers.map (·.1)) := by
  have start := excTry_extends valid initvars
  have bodyExt := emits _ _ _ start.valid inner
  have born : σ.nblocks + 8 ≤ σ₁.nblocks := by
    have le := bodyExt.nblocks_le
    simpa [excTry, excStart] using le
  have pads := excPads_extends (start.trans bodyExt) born ctx
  have catchExt := excCatch_extends pads born (handlers.map (·.1))
  have emitsAll : ∀ h ∈ (List.range' σ₁.nblocks handlers.length).zip
      (handlers.map fun h => h.2 (handlerCtx ctx label σ)), Emits h.2 := by
    intro h member
    obtain ⟨-, -, g, inside, eq⟩ := excHandlers_own handlers _ h member
    rw [eq]
    exact emitsHandler g inside _
  have blocks : (excCatch σ (excPads σ σ₁ ctx) (handlers.map (·.1))).nblocks =
      σ₁.nblocks + handlers.length := by
    rw [excCatch_nblocks, List.length_map]
    rfl
  have handsExt := emitHandlers_extends catchExt emitsAll (fun h member => by
    obtain ⟨le, lt, -⟩ := excHandlers_own handlers _ h member
    exact ⟨by omega, by rw [blocks]; omega⟩) hands
  have reserved₁ : ∀ k, 0 < k → k < 8 → σ₁.Reserved (σ.nblocks + k) := fun k pos lt =>
    (excTry_reserved valid initvars k lt pos).survives bodyExt
  have reserved₂ : ∀ k, 4 ≤ k → k < 8 → σ₂.Reserved (σ.nblocks + k) := by
    intro k four lt
    have padded : (excPads σ σ₁ ctx).Reserved (σ.nblocks + k) :=
      excPads_reserved (reserved₁ k (by omega) lt) (by omega) (by omega) ctx
    have caught : (excCatch σ (excPads σ σ₁ ctx) (handlers.map (·.1))).Reserved (σ.nblocks + k) :=
      excCatch_reserved padded (by omega) (handlers.map (·.1))
    refine emitHandlers_reserved catchExt.valid caught emitsAll (fun h member => ?_)
      (fun h member => ?_) hands
    · obtain ⟨-, lt, -⟩ := excHandlers_own handlers _ h member
      rw [blocks]
      exact lt
    · obtain ⟨le, -, -⟩ := excHandlers_own handlers _ h member
      omega
  exact
    { start := start
      body := bodyExt
      pads := pads
      catch_ := catchExt
      hands := handsExt
      ends := excEnd_extends handsExt (by have := (reserved₂ 7 (by omega) (by omega)).born; omega) ctx
      born := born
      reserved₁ := reserved₁
      reserved₂ := reserved₂ }

theorem compileBlockExceptions_emits (label : Option Nat) (initvars : List Nat) {body : Emitter}
    {handlers : List (List Condition × Emitter)} (ctx : Ctx) (emits : ∀ ctx, Emits (body ctx))
    (emitsHandler : ∀ h ∈ handlers, ∀ ctx, Emits (h.2 ctx)) :
    Emits (compileBlockExceptions label initvars body handlers ctx) := by
  intro σ σ' valid returned
  obtain ⟨σ₁, σ₂, inner, hands, rfl⟩ := compileBlockExceptions_inv returned
  have layout := compileBlockExceptions_layout valid emits emitsHandler inner hands
  exact layout.ends.goto _ (by simp)
    (excEnd_reserved (layout.reserved₂ 6 (by omega) (by omega)) ctx).born

theorem compileBlockExceptions_keepsOpen (label : Option Nat) (initvars : List Nat)
    {body : Emitter} {handlers : List (List Condition × Emitter)} (ctx : Ctx)
    (emits : ∀ ctx, Emits (body ctx)) (emitsHandler : ∀ h ∈ handlers, ∀ ctx, Emits (h.2 ctx)) :
    KeepsOpen (compileBlockExceptions label initvars body handlers ctx) := by
  intro σ σ' valid _ returned
  obtain ⟨σ₁, σ₂, inner, hands, rfl⟩ := compileBlockExceptions_inv returned
  have layout := compileBlockExceptions_layout valid emits emitsHandler inner hands
  exact .goto (excEnd_reserved (layout.reserved₂ 6 (by omega) (by omega)) ctx)

end Exceptions

/-! ### Row loops -/

section Rows

variable {σ₁ : Builder Item} (kind : ForKind) (id : Nat)

/-- After the portal is open. The registers are the portal and the found flag;
the blocks are condition, body, exit, return and continuation. -/
def forqSetup (σ : Builder Item) : Builder Item :=
  ((((σ.fresh.push (.instr (.openPortal σ.nregs kind id))).fresh.push
    (.instr (.const (σ.nregs + 1) (.bool false)))).appendN 5).push (.br σ.nblocks))

/-- After the fetch of the next row. -/
def forqFetch (σ : Builder Item) : Builder Item :=
  (((forqSetup kind id σ).goto σ.nblocks).fresh.push
    (.instr (.fetchRow (σ.nregs + 2) kind id σ.nregs))).push
    (.condBr (σ.nregs + 2) (σ.nblocks + 1) (σ.nblocks + 2))

def forqBody (σ : Builder Item) : Builder Item :=
  ((forqFetch kind id σ).goto (σ.nblocks + 1)).push (.instr (.const (σ.nregs + 1) (.bool true)))

def forqPads (σ σ₁ : Builder Item) (ctx : Ctx) : Builder Item :=
  pad (σ₁.push (.br σ.nblocks)) (σ.nblocks + 3) (.closePortal kind id σ.nregs) ctx.returnBb

def forqEnd (σ σ₁ : Builder Item) (ctx : Ctx) : Builder Item :=
  (foundExit (((forqPads kind id σ σ₁ ctx).goto (σ.nblocks + 2)).push
    (.instr (.closePortal kind id σ.nregs))) (σ.nregs + 1)).push (.br (σ.nblocks + 4))

/-- The context of the body of a row loop. -/
def forqCtx (ctx : Ctx) (label : Option Nat) (σ : Builder Item) : Ctx :=
  uplPushLoop (uplPushCleanup { ctx with returnBb := σ.nblocks + 3 } (.closePortal kind id σ.nregs))
    label σ.nblocks (σ.nblocks + 2)

theorem compileForq_inv {label : Option Nat} {body : Emitter} {ctx : Ctx}
    (returned : compileForq kind label id body ctx σ = some ((), σ')) :
    ∃ σ₁, body (forqCtx kind id ctx label σ) (forqBody kind id σ) = some ((), σ₁) ∧
      σ' = (forqEnd kind id σ σ₁ ctx).goto (σ.nblocks + 4) := by
  simp only [compileForq, bind_run, appendBlock_run, newReg_run, instr_run, positionAtEnd_run,
    br_run, condBr_run, emitPad_run, emitSetFound_run, Option.bind_some, Option.bind_eq_some_iff,
    Prod.exists, Option.some.injEq, Prod.mk.injEq, true_and] at returned
  obtain ⟨_, σ₁, inner, rfl⟩ := returned
  exact ⟨σ₁, inner, rfl⟩

theorem forqSetup_extends (valid : σ.Valid) : Extends σ (forqSetup kind id σ) :=
  (((((Extends.refl valid).fresh.push _).fresh.push _).appendN 5).push _)

theorem forqSetup_reserved (valid : σ.Valid) (k : Nat) (lt : k < 5) :
    (forqSetup kind id σ).Reserved (σ.nblocks + k) := by
  have before := (((Extends.refl valid).fresh.push (.instr (.openPortal σ.nregs kind id))).fresh.push
    (.instr (.const (σ.nregs + 1) (.bool false))))
  exact (Reserved.appendedN before.valid 5 (Nat.le_add_right σ.nblocks k)
    (by simp only [push_nblocks, fresh_nblocks]; omega)).push _

theorem forqFetch_extends (valid : σ.Valid) : Extends σ (forqFetch kind id σ) :=
  ((((forqSetup_extends kind id valid).goto _ (Nat.le_refl _) (by simp [forqSetup])).fresh.push
    _).push _)

theorem forqFetch_reserved (valid : σ.Valid) (k : Nat) (lt : k < 5) (pos : 0 < k) :
    (forqFetch kind id σ).Reserved (σ.nblocks + k) :=
  ((((forqSetup_reserved kind id valid k lt).goto _ (by omega)).fresh.push _).push _)

theorem forqBody_extends (valid : σ.Valid) : Extends σ (forqBody kind id σ) :=
  (((forqFetch_extends kind id valid).goto _ (by simp) (by simp [forqFetch, forqSetup])).push _)

theorem forqBody_reserved (valid : σ.Valid) (k : Nat) (lt : k < 5) (one : 1 < k) :
    (forqBody kind id σ).Reserved (σ.nblocks + k) :=
  (((forqFetch_reserved kind id valid k lt (by omega)).goto _ (by omega)).push _)

theorem forqPads_reserved (ctx : Ctx) {b : Nat} (reserved : σ₁.Reserved b)
    (ne : b ≠ σ.nblocks + 3) : (forqPads kind id σ σ₁ ctx).Reserved b :=
  pad_reserved (reserved.push _) ne _ _

theorem forqEnd_reserved (ctx : Ctx) (reserved : σ₁.Reserved (σ.nblocks + 4)) :
    (forqEnd kind id σ σ₁ ctx).Reserved (σ.nblocks + 4) :=
  ((((((forqPads_reserved kind id ctx reserved (by omega)).goto _ (by omega)).push _).fresh.push
    _).push _).push _)

theorem forqEnd_extends (ctx : Ctx) (ext : Extends σ σ₁) (born : σ.nblocks + 5 ≤ σ₁.nblocks) :
    Extends σ (forqEnd kind id σ σ₁ ctx) := by
  have pads : Extends σ (forqPads kind id σ σ₁ ctx) :=
    pad_extends (ext.push _) (by simp) (by simp; omega) _ _
  exact (foundExit_extends ((pads.goto _ (by simp)
    (by rw [forqPads, pad_nblocks, push_nblocks]; omega)).push _) _).push _

theorem forqBody_born {label : Option Nat} {body : Emitter} {ctx : Ctx} (valid : σ.Valid)
    (emits : ∀ ctx, Emits (body ctx))
    (inner : body (forqCtx kind id ctx label σ) (forqBody kind id σ) = some ((), σ₁)) :
    σ.nblocks + 5 ≤ σ₁.nblocks := by
  have le := (emits _ _ _ (forqBody_extends kind id valid).valid inner).nblocks_le
  simpa [forqBody, forqFetch, forqSetup] using le

theorem compileForq_emits (label : Option Nat) {body : Emitter} (ctx : Ctx)
    (emits : ∀ ctx, Emits (body ctx)) : Emits (compileForq kind label id body ctx) := by
  intro σ σ' valid returned
  obtain ⟨σ₁, inner, rfl⟩ := compileForq_inv kind id returned
  have start := forqBody_extends kind id valid
  have ext := emits _ _ _ start.valid inner
  have ends := forqEnd_extends kind id ctx (start.trans ext) (forqBody_born kind id valid emits inner)
  exact ends.goto _ (by simp) (forqEnd_reserved kind id ctx
    ((forqBody_reserved kind id valid 4 (by omega) (by omega)).survives ext)).born

theorem compileForq_keepsOpen (label : Option Nat) {body : Emitter} (ctx : Ctx)
    (emits : ∀ ctx, Emits (body ctx)) : KeepsOpen (compileForq kind label id body ctx) := by
  intro σ σ' valid _ returned
  obtain ⟨σ₁, inner, rfl⟩ := compileForq_inv kind id returned
  have ext := emits _ _ _ (forqBody_extends kind id valid).valid inner
  exact .goto (forqEnd_reserved kind id ctx
    ((forqBody_reserved kind id valid 4 (by omega) (by omega)).survives ext))

end Rows

/-! ### The statement dispatch -/

mutual

theorem Stmt.compile_emits (s : Stmt) (ctx : Ctx) : Emits (s.compile ctx) := by
  cases s with
  | leaf id => exact Emits.instr _
  | block label initvars body => exact compileBlock_emits label initvars ctx body.compile_emits
  | blockExceptions label initvars body exceptions =>
    exact compileBlockExceptions_emits label initvars ctx body.compile_emits
      exceptions.compile_emits
  | cond expr thenBody elsifs elseBody =>
    exact uplEmitIf_emits expr ctx (thenBody.compile_emits ctx)
      (fun c member => elsifs.compile_emits c member ctx) (elseBody.compile_emits ctx)
  | case test whens haveElse elseStmts =>
    exact uplEmitCase_emits test haveElse ctx (fun c member => whens.compile_emits c member ctx)
      (elseStmts.compile_emits ctx)
  | condLoop label expr testAtTop body =>
    exact uplEmitCondLoop_emits label expr testAtTop ctx body.compile_emits
  | loop label body => exact uplEmitLoop_emits label ctx body.compile_emits
  | fori label var lower upper step reverse body =>
    exact uplEmitFori_emits label var lower upper step reverse ctx body.compile_emits
  | forq kind label id body => exact compileForq_emits kind id label ctx body.compile_emits
  | foreachA label id body => exact Emits.instr _
  | exit isExit label cond => exact uplEmitLoopExit_emits label isExit cond ctx
  | ret id => exact uplEmitReturn_emits id ctx

theorem Stmts.compile_emits (ss : Stmts) (ctx : Ctx) : Emits (ss.compile ctx) := by
  cases ss with
  | nil => exact Emits.pure
  | cons head tail => exact (head.compile_emits ctx).seq (tail.compile_emits ctx)

theorem Whens.compile_emits (ws : Whens) (c : Nat × Emitter) (member : c ∈ ws.compile) (ctx : Ctx) :
    Emits (c.2 ctx) := by
  cases ws with
  | nil => simp [Whens.compile] at member
  | cons expr body rest =>
    rcases List.mem_cons.mp member with rfl | inside
    · exact body.compile_emits ctx
    · exact rest.compile_emits c inside ctx

theorem Exceptions.compile_emits (es : Exceptions) (h : List Condition × Emitter)
    (member : h ∈ es.compile) (ctx : Ctx) : Emits (h.2 ctx) := by
  cases es with
  | nil => simp [Exceptions.compile] at member
  | cons conditions action rest =>
    rcases List.mem_cons.mp member with rfl | inside
    · exact action.compile_emits ctx
    · exact rest.compile_emits h inside ctx

end

mutual

theorem Stmt.compile_keepsOpen (s : Stmt) (ctx : Ctx) : KeepsOpen (s.compile ctx) := by
  cases s with
  | leaf id => exact KeepsOpen.instr _
  | block label initvars body =>
    exact compileBlock_keepsOpen label initvars ctx body.compile_emits body.compile_keepsOpen
  | blockExceptions label initvars body exceptions =>
    exact compileBlockExceptions_keepsOpen label initvars ctx body.compile_emits
      exceptions.compile_emits
  | cond expr thenBody elsifs elseBody =>
    exact uplEmitIf_keepsOpen expr ctx (thenBody.compile_emits ctx)
      (fun c member => elsifs.compile_emits c member ctx) (elseBody.compile_emits ctx)
  | case test whens haveElse elseStmts =>
    exact uplEmitCase_keepsOpen test haveElse ctx
      (fun c member => whens.compile_emits c member ctx) (elseStmts.compile_emits ctx)
  | condLoop label expr testAtTop body =>
    exact uplEmitCondLoop_keepsOpen label expr testAtTop ctx body.compile_emits
  | loop label body => exact uplEmitLoop_keepsOpen label ctx body.compile_emits
  | fori label var lower upper step reverse body =>
    exact uplEmitFori_keepsOpen label var lower upper step reverse ctx
  | forq kind label id body => exact compileForq_keepsOpen kind id label ctx body.compile_emits
  | foreachA label id body => exact KeepsOpen.instr _
  | exit isExit label cond => exact uplEmitLoopExit_keepsOpen label isExit cond ctx
  | ret id => exact uplEmitReturn_keepsOpen id ctx

theorem Stmts.compile_keepsOpen (ss : Stmts) (ctx : Ctx) : KeepsOpen (ss.compile ctx) := by
  cases ss with
  | nil => exact KeepsOpen.pure
  | cons head tail =>
    exact KeepsOpen.seq (head.compile_emits ctx) (head.compile_keepsOpen ctx)
      (tail.compile_keepsOpen ctx)

end

end Uplpgsql
