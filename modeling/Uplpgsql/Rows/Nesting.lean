import Mathlib.Logic.Equiv.List
import Mathlib.Tactic.DeriveEncodable
import Uplpgsql.Rows.Delivery

/-!
# Row loops within row loops

A row loop reaches its own cursor context and its own portal. To a loop around
it, it is a body that leaves contexts and portals alone.
-/

namespace Uplpgsql

open Lib.Iteration

variable {D V : Type}

/-- The context `h` and the portal `name` apart, contexts stay, and portals stay
that are spared. -/
structure World.Others (Spared : Nat → Prop) (h name : Nat) (w w' : World D V) : Prop where
  ctxs : ∀ h' c, h' ≠ h → w.ctxs h' = some c → w'.ctxs h' = some c
  portals : ∀ n p, n ≠ name → Spared n → w.portals n = some p → w'.portals n = some p

/-- And the context `h` is still there, for the portal `name`. -/
structure World.Outside (Spared : Nat → Prop) (h name : Nat) (w w' : World D V) : Prop
    extends World.Others Spared h name w w' where
  ctx : ∃ c, w'.ctxs h = some c ∧ c.portal = name

namespace World.Outside

variable {Spared : Nat → Prop} {h name : Nat} {w w₁ w₂ : World D V}

theorem refl {c : CursorCtx D} (ctx : w.ctxs h = some c) (portal : c.portal = name) :
    w.Outside Spared h name w :=
  ⟨⟨fun _ _ _ here => here, fun _ _ _ _ here => here⟩, c, ctx, portal⟩

theorem trans (first : w.Outside Spared h name w₁) (second : w₁.Outside Spared h name w₂) :
    w.Outside Spared h name w₂ where
  ctx := second.ctx
  ctxs h' c other here := second.ctxs h' c other (first.ctxs h' c other here)
  portals n p other spared here := second.portals n p other spared (first.portals n p other spared here)

theorem sameCursors (outside : w.Outside Spared h name w₁) (same : w₁.SameCursors w₂) :
    w.Outside Spared h name w₂ := by
  obtain ⟨portals, ctxs⟩ := same
  constructor
  · constructor
    · rw [ctxs]
      exact outside.ctxs
    · rw [portals]
      exact outside.portals
  · rw [ctxs]
    exact outside.ctx

theorem setCtx (outside : w.Outside Spared h name w₁) {c : CursorCtx D} (portal : c.portal = name) :
    w.Outside Spared h name (w₁.setCtx h c) where
  ctx := ⟨c, Function.update_self .., portal⟩
  ctxs h' c' other here := by
    simp only [World.setCtx, Function.update_of_ne other]
    exact outside.ctxs h' c' other here
  portals := outside.portals

theorem setPortal (outside : w.Outside Spared h name w₁) (p : Portal D) :
    w.Outside Spared h name (w₁.setPortal name p) where
  ctx := outside.ctx
  ctxs := outside.ctxs
  portals n p' other spared here := by
    simp only [World.setPortal, Function.update_of_ne other]
    exact outside.portals n p' other spared here

end World.Outside

/-! ### One call -/

section Calls

variable {types : RowTypes D} {atomic : Bool} {target : LoopTarget} {Spared : Nat → Prop} {h name : Nat}
  {c : CursorCtx D} {w w₁ : World D V}

theorem execMoveRow_sameCursors (types : RowTypes D) (target : LoopTarget) (tup : Option (Tuple D))
    (td : TupDesc) (w : World D V) : w.SameCursors (execMoveRow types target tup td w).world := by
  have own : execMoveRow types target tup td w = _ := execMoveRow_withCursors target tup td w w
  rw [own]
  cases execMoveRow types target tup td w <;> exact ⟨rfl, rfl⟩

theorem moveAndRemember_outside (matching : Bool) {tup : Tuple D} (outside : w.Outside Spared h name w₁)
    (portal : c.portal = name) :
    w.Outside Spared h name (moveAndRemember types target h c matching tup w₁).world := by
  have moved := outside.sameCursors (execMoveRow_sameCursors types target (some tup) c.tupdesc w₁)
  rw [moveAndRemember]
  cases eq : execMoveRow types target (some tup) c.tupdesc w₁ with
  | raise e w₂ =>
    rw [eq] at moved
    exact moved
  | ok u w₂ =>
    rw [eq] at moved
    cases target with
    | row varnos => exact moved
    | record dno rectypeid =>
      simp only
      split
      next => exact moved
      next => exact moved.setCtx portal

theorem expandedRecordSetTuple_sameCursors (types : RowTypes D) (dno rectypeid : Nat)
    (erh : ExpandedRecord D) (tup : Tuple D) (w : World D V) :
    w.SameCursors (expandedRecordSetTuple types dno rectypeid erh tup w).world := by
  rw [expandedRecordSetTuple]
  split <;> exact ⟨rfl, rfl⟩

theorem assignFromBatch_outside {tup : Tuple D} (ctx : w.ctxs h = some c) (portal : c.portal = name) :
    w.Outside Spared h name (assignFromBatch types target h c tup w).world := by
  have start : w.Outside Spared h name (w.setCtx h { c with batchIdx := c.batchIdx + 1 }) :=
    (World.Outside.refl ctx portal).setCtx portal
  cases target with
  | row varnos => exact moveAndRemember_outside c.batchTupdescsMatch start portal
  | record dno rectypeid =>
    simp only [assignFromBatch]
    split
    next => exact moveAndRemember_outside _ start portal
    next erh record =>
      split
      next =>
        have set := start.sameCursors (expandedRecordSetTuple_sameCursors types dno rectypeid erh tup _)
        split
        next e w₂ eq => rw [eq] at set; exact set
        next w₂ eq => rw [eq] at set; exact set
      next => exact moveAndRemember_outside _ start portal

theorem nextBatch_outside (ctx : w.ctxs h = some c) (portal : c.portal = name) :
    w.Outside Spared h name (nextBatch types atomic target h c w).world := by
  have start : w.Outside Spared h name w := .refl ctx portal
  rw [nextBatch, spiCursorFetch, portal]
  cases open_ : w.portals name with
  | none => exact start
  | some p =>
    simp only
    obtain ⟨vals, p'⟩ := p.fetch (fetchCount atomic c.vals.length)
    have fetched := start.setPortal p'
    cases vals with
    | nil =>
      have empty : w.Outside Spared h name ((w.setPortal name p').setCtx h
          { c with portal := name, vals := [], tupdesc := p.tupdesc, batchIdx := 0 }) := fetched.setCtx rfl
      have moved := empty.sameCursors (execMoveRow_sameCursors types target none p.tupdesc _)
      simp only
      split
      next e w₂ eq => rw [eq] at moved; exact moved
      next w₂ eq => rw [eq] at moved; exact moved
    | cons tup rest => exact moveAndRemember_outside true (fetched.setCtx rfl) rfl

theorem fetchCursorRow_outside (types : RowTypes D) (atomic : Bool) (target : LoopTarget)
    (ctx : w.ctxs h = some c) (portal : c.portal = name) :
    w.Outside Spared h name (fetchCursorRow types atomic target h w).world := by
  rw [fetchCursorRow, ctx]
  simp only
  split
  next => exact assignFromBatch_outside ctx portal
  next => exact nextBatch_outside ctx portal

end Calls

/-! ### Whole loops -/

section Loops

variable {types : RowTypes D} {atomic : Bool} {target : LoopTarget} {body : Body D V} {h name : Nat}

theorem Body.KeepsCtxs.outside (keeps : body.KeepsCtxs) {c : CursorCtx D} {w : World D V}
    (ctx : w.ctxs h = some c) (portal : c.portal = name) :
    w.Outside body.SparesPortal h name (body w).2 where
  ctx := ⟨c, keeps w h c ctx, portal⟩
  ctxs h' c' _ here := keeps w h' c' here
  portals _ p _ spares here := spares w p here

theorem rowRounds_outside (types : RowTypes D) (atomic : Bool) (target : LoopTarget)
    (keeps : body.KeepsCtxs) (fuel : Nat) {w : World D V} {c : CursorCtx D} (ctx : w.ctxs h = some c) (portal : c.portal = name) :
    w.Outside body.SparesPortal h name (rowRounds types atomic target body fuel h w).2.world := by
  refine loopN_invariant (fun s : RowState D V => w.Outside body.SparesPortal h name s.world)
    (fun r : Bool × LoopRun D V => w.Outside body.SparesPortal h name r.2.world)
    (fun _ outside => outside) ?_ fuel _ (.refl ctx portal)
  intro s outside
  obtain ⟨c, ctx, portal⟩ := outside.ctx
  have fetched := outside.trans (fetchCursorRow_outside types atomic target ctx portal)
  rw [rowRound]
  cases eq : fetchCursorRow types atomic target h s.world with
  | raise e w₁ =>
    rw [eq] at fetched
    exact fetched
  | ok r w₁ =>
    rw [eq] at fetched
    cases r with
    | none => exact fetched
    | some row =>
      obtain ⟨c, ctx, portal⟩ := fetched.ctx
      have ran := fetched.trans (keeps.outside ctx portal)
      simp only
      cases (body w₁).1 <;> exact ran

/-- Closing the loop's portal and freeing its context. -/
theorem World.Outside.closed {Spared : Nat → Prop} {w w₁ : World D V}
    (outside : w.Outside Spared h name w₁) : w.Others Spared h name (rtClosePortal h w₁) := by
  obtain ⟨c, ctx, portal⟩ := outside.ctx
  rw [rtClosePortal, ctx]
  constructor
  · intro h' c' other here
    simp only [World.freeCtx, World.dropPortal, Function.update_of_ne other]
    exact outside.ctxs h' c' other here
  · intro n p other spared here
    rw [← portal] at other
    simp only [World.freeCtx, World.dropPortal, Function.update_of_ne other]
    exact outside.portals n p (portal ▸ other) spared here

theorem rowLoop_others (types : RowTypes D) (atomic : Bool) (target : LoopTarget)
    (keeps : body.KeepsCtxs) (fuel : Nat) {w : World D V} {c : CursorCtx D} (ctx : w.ctxs h = some c) (portal : c.portal = name) :
    w.Others body.SparesPortal h name (rowLoop types atomic target body (rtClosePortal h) fuel h w).world := by
  have rounds := rowRounds_outside types atomic target keeps fuel ctx portal
  have closed := rounds.closed
  rw [rowLoop]
  simp only
  split
  · exact ⟨closed.ctxs, closed.portals⟩
  · exact ⟨closed.ctxs, closed.portals⟩
  · exact closed
  · exact rounds.toOthers
  · exact rounds.toOthers

/-- A query loop on new names leaves the old ones alone. -/
theorem compiledFors_others (types : RowTypes D) (atomic : Bool) (target : LoopTarget)
    (keeps : body.KeepsCtxs) (rows : List (Tuple D)) (td : TupDesc) (fuel : Nat) (w : World D V) :
    w.Others body.SparesPortal w.freshCtx w.freshPortal
      (compiledFors types atomic target body rows td fuel w).world := by
  have ctx : (openQueryCursor rows td w).ctxs w.freshCtx = some (.zero w.freshPortal td) :=
    Function.update_self ..
  have loop := rowLoop_others types atomic target keeps fuel ctx rfl
  constructor
  · intro h' c other here
    apply loop.ctxs h' c other
    simp only [openQueryCursor, World.setCtx, World.setPortal, Function.update_of_ne other]
    exact here
  · intro n p other spared here
    apply loop.portals n p other spared
    simp only [openQueryCursor, World.setCtx, World.setPortal, Function.update_of_ne other]
    exact here

theorem World.ctx_in_use {w : World D V} {c : CursorCtx D} (here : w.ctxs h = some c) : h ≠ w.freshCtx := by
  rintro rfl
  rw [w.ctxs_fresh _ (Nat.le_refl _)] at here
  cases here

theorem World.portal_in_use {w : World D V} {p : Portal D} (here : w.portals name = some p) :
    name ≠ w.freshPortal := by
  rintro rfl
  rw [w.portals_fresh _ (Nat.le_refl _)] at here
  cases here

/-! A loop over a bound cursor has the name in its cursor variable, or a new one. -/

theorem checkNotInUse_world (curname : Option Nat) (w : World D V) : (checkNotInUse curname w).world = w := by
  unfold checkNotInUse
  split
  · rfl
  · split <;> rfl

/-- Opening the cursor of a loop: its arguments and its query are evaluated, and
a portal is opened under a name that was not in use. -/
theorem execOpenForcCursor_ok {stmt : ForcStmt D V} {w w' : World D V} {td : TupDesc}
    (opened : execOpenForcCursor stmt w = .ok (name, td) w') :
    ∃ w₁ w₂ rows, stmt.setArgs w = .ok () w₁ ∧ stmt.cursorExplicitExpr w₁ = .ok (rows, td) w₂ ∧
      w₂.portals name = none ∧
      w' = if w.cursors stmt.curvar = none then
          (w₂.setPortal name (.opened rows td)).setCursor stmt.curvar (some name)
        else w₂.setPortal name (.opened rows td) := by
  rw [execOpenForcCursor] at opened
  split at opened
  next => cases opened
  next w₀ free =>
    obtain rfl : w = w₀ := by rw [← checkNotInUse_world (w.cursors stmt.curvar) w, free]; rfl
    split at opened
    next => cases opened
    next w₁ args =>
      split at opened
      next => cases opened
      next rows td' w₂ query =>
        refine ⟨w₁, w₂, rows, args, ?_⟩
        cases curname : w.cursors stmt.curvar with
        | none =>
          simp only [curname, spiCursorOpen, ForcStmt.storeName] at opened
          split at opened
          next => cases opened
          next stored =>
            split at stored
            next => cases stored
            next =>
              cases stored
              cases opened
              exact ⟨query, w₂.portals_fresh _ (Nat.le_refl _), rfl⟩
        | some given =>
          simp only [spiCursorOpen, ForcStmt.storeName, curname] at opened
          cases inUse : w₂.portals given with
          | some p => simp only [inUse, reduceCtorEq] at opened
          | none =>
            simp only [inUse, Res.ok.injEq, Prod.mk.injEq] at opened
            obtain ⟨⟨rfl, rfl⟩, rfl⟩ := opened
            exact ⟨query, inUse, rfl⟩

theorem execOpenForcCursor_portal {stmt : ForcStmt D V} {w w' : World D V} {td : TupDesc}
    (opened : execOpenForcCursor stmt w = .ok (name, td) w') :
    ∃ rows, w'.portals name = some (.opened rows td) := by
  obtain ⟨w₁, w₂, rows, -, -, -, rfl⟩ := execOpenForcCursor_ok opened
  refine ⟨rows, ?_⟩
  split
  · exact Function.update_self ..
  · exact Function.update_self ..

/-- Contexts stay, and portals stay that are spared. -/
structure World.Kept (Spared : Nat → Prop) (w w' : World D V) : Prop where
  ctxs : ∀ h c, w.ctxs h = some c → w'.ctxs h = some c
  portals : ∀ n p, Spared n → w.portals n = some p → w'.portals n = some p

theorem World.Kept.refl {Spared : Nat → Prop} {w : World D V} : w.Kept Spared w :=
  ⟨fun _ _ here => here, fun _ _ _ here => here⟩

theorem World.Kept.trans {Spared : Nat → Prop} {w w₁ w₂ : World D V} (first : w.Kept Spared w₁)
    (second : w₁.Kept Spared w₂) : w.Kept Spared w₂ where
  ctxs h c here := second.ctxs h c (first.ctxs h c here)
  portals n p spared here := second.portals n p spared (first.portals n p spared here)

/-- A portal under a name that was not in use. -/
theorem World.Kept.setPortal {Spared : Nat → Prop} {w w₁ : World D V} (kept : w.Kept Spared w₁)
    (unused : w₁.portals name = none) (p : Portal D) : w.Kept Spared (w₁.setPortal name p) where
  ctxs := kept.ctxs
  portals n p' spared here := by
    have here' := kept.portals n p' spared here
    have other : n ≠ name := by
      rintro rfl
      rw [unused] at here'
      cases here'
    simp only [World.setPortal, Function.update_of_ne other]
    exact here'

/-- The arguments and the query of a cursor are evaluated without touching contexts
and spared portals. -/
structure ForcStmt.Keeps (stmt : ForcStmt D V) (Spared : Nat → Prop) : Prop where
  args : ∀ w : World D V, w.Kept Spared (stmt.setArgs w).world
  query : ∀ w : World D V, w.Kept Spared (stmt.cursorExplicitExpr w).world

theorem execOpenForcCursor_kept {Spared : Nat → Prop} {stmt : ForcStmt D V} (keeps : stmt.Keeps Spared)
    (w : World D V) : w.Kept Spared (execOpenForcCursor stmt w).world := by
  rw [execOpenForcCursor]
  have unchanged := checkNotInUse_world (w.cursors stmt.curvar) w
  -- A cursor that is in use is an error, and nothing happens.
  cases free : checkNotInUse (w.cursors stmt.curvar) w with
  | raise e w₀ =>
    rw [free] at unchanged
    rw [← unchanged]
    exact .refl
  | ok u w₀ =>
    rw [free] at unchanged
    obtain rfl : w = w₀ := unchanged.symm
    simp only
    have first := keeps.args w
    cases args : stmt.setArgs w with
    | raise e w₁ =>
      rw [args] at first
      exact first
    | ok u w₁ =>
      rw [args] at first
      have second := first.trans (keeps.query w₁)
      simp only
      cases query : stmt.cursorExplicitExpr w₁ with
      | raise e w₂ =>
        rw [query] at second
        exact second
      | ok result w₂ =>
        rw [query] at second
        obtain ⟨rows, td⟩ := result
        -- The portal is a new one, under a generated name or the given one.
        cases w.cursors stmt.curvar with
        | none =>
          have opened := second.setPortal (w₂.portals_fresh _ (Nat.le_refl _)) (.opened rows td)
          simp only [spiCursorOpen, ForcStmt.storeName]
          by_cases const : stmt.isconst
          · rw [if_pos const]
            exact opened
          · rw [if_neg const]
            exact ⟨opened.ctxs, opened.portals⟩
        | some given =>
          simp only [spiCursorOpen, ForcStmt.storeName]
          cases inUse : w₂.portals given with
          | some p => exact second
          | none => exact second.setPortal inUse (.opened rows td)

theorem compiledForc_kept (keeps : body.KeepsCtxs) {stmt : ForcStmt D V}
    (quiet : stmt.Keeps body.SparesPortal) (fuel : Nat) (w : World D V) :
    w.Kept body.SparesPortal (compiledForc types atomic stmt body fuel w).world := by
  have start := execOpenForcCursor_kept quiet w
  rw [compiledForc]
  cases opened : execOpenForcCursor stmt w with
  | raise e w₁ =>
    rw [opened] at start
    exact start
  | ok result w₁ =>
    rw [opened] at start
    obtain ⟨name, td⟩ := result
    have loop := rowLoop_others types atomic stmt.var keeps fuel
      (show (w₁.setCtx w₁.freshCtx (.zero name td)).ctxs w₁.freshCtx = _ from Function.update_self ..) rfl
    constructor
    · intro h c here
      have here' : w₁.ctxs h = some c := start.ctxs h c here
      refine loop.ctxs h c (World.ctx_in_use here') ?_
      simp only [World.setCtx, Function.update_of_ne (World.ctx_in_use here')]
      exact here'
    · intro n p spared here
      -- The new portal has a name that was not in use.
      obtain ⟨w₀, w₂, rows, args, query, unused, -⟩ := execOpenForcCursor_ok opened
      have before : w.Kept body.SparesPortal w₂ := by
        have first := quiet.args w
        have second := quiet.query w₀
        rw [args] at first
        rw [query] at second
        exact first.trans second
      have other : n ≠ name := by
        rintro rfl
        have here' := before.portals n p spared here
        rw [unused] at here'
        cases here'
      exact loop.portals n p other spared (start.portals n p spared here)

theorem compiledFors_kept (keeps : body.KeepsCtxs) (rows : List (Tuple D)) (td : TupDesc) (fuel : Nat)
    (w : World D V) :
    w.Kept body.SparesPortal (compiledFors types atomic target body rows td fuel w).world := by
  have others := compiledFors_others types atomic target keeps rows td fuel w
  exact ⟨fun h c here => others.ctxs h c (World.ctx_in_use here) here,
    fun n p spared here => others.portals n p (World.portal_in_use here) spared here⟩

/-- A loop as a statement of a body around it; `after` says how that body goes on
when it ends. -/
def Body.ofLoop (loop : World D V → LoopRun D V) (after : LoopEnd → BodyEnd) : Body D V :=
  fun w => (after (loop w).how, (loop w).world)

theorem ofLoop_quiet {Spared : Nat → Prop} {loop : World D V → LoopRun D V} (after : LoopEnd → BodyEnd)
    (kept : ∀ w : World D V, w.Kept Spared (loop w).world) :
    (Body.ofLoop loop after).KeepsCtxs ∧ ∀ name, Spared name → (Body.ofLoop loop after).SparesPortal name :=
  ⟨fun w h c here => (kept w).ctxs h c here, fun name spared w p here => (kept w).portals name p spared here⟩

/-! ### Delivery -/

/-- Where the body always goes on and every row can be assigned, every row is
delivered. -/
theorem DeliversUntil.all {prefetch : Bool} {rows : List (Tuple D)} {td : TupDesc} {run : LoopRun D V}
    (delivers : DeliversUntil types prefetch target rows td name body run)
    (goesOn : ∀ w, (body w).1 = .next)
    (assignable : ∀ k e, k < rows.length → ¬MoveFails types target rows td V k e) :
    run.rounds.map Round.row = rows := by
  have bound := delivers.toDelivers.length_le
  have all : run.rounds.length = rows.length := by
    rcases delivers.early with done | ⟨w, leaves⟩ | ⟨e, fails⟩
    · exact (delivers.exhausted done).1
    · exact absurd (goesOn w) leaves
    · by_contra less
      exact assignable _ e (by omega) fails
  rw [delivers.inOrder, all, List.take_length]

/-- The calls of `uplpgsql_rt_fetch_cursor_row` in a loop on a new portal deliver
its rows in order, each once, with the assignments of `exec_move_row` and the
fetches of `exec_for_query`; and such a loop is again a body that leaves other
contexts and portals alone. -/
theorem rows_delivered_in_order (types : RowTypes D) (atomic : Bool) (target : LoopTarget) (body : Body D V)
    (rows : List (Tuple D)) (td : TupDesc) (fuel h name : Nat) (w : World D V)
    (keeps : body.KeepsCtxs) (spares : body.SparesPortal name)
    (ctx : w.ctxs h = some (.zero name td)) (portal : w.portals name = some (.opened rows td))
    (enough : rows.length < fuel) :
    DeliversUntil types atomic target rows td name body (rowRounds types atomic target body fuel h w).2 ∧
      DeliversUntil types atomic target rows td name body
        (execQueryRounds types atomic target body true fuel name w).2 ∧
      ((∀ w, (body w).1 = .next) → (∀ k e, k < rows.length → ¬MoveFails types target rows td V k e) →
        (rowRounds types atomic target body fuel h w).2.rounds.map Round.row = rows) ∧
      (∀ (target : LoopTarget) (query : World D V → List (Tuple D) × TupDesc) (bound : World D V → Nat) after,
        let nested := Body.ofLoop
          (fun w => compiledFors types atomic target body (query w).1 (query w).2 (bound w) w) after
        nested.KeepsCtxs ∧ ∀ name, body.SparesPortal name → nested.SparesPortal name) ∧
      ∀ (stmt : ForcStmt D V) (bound : World D V → Nat) after, stmt.Keeps body.SparesPortal →
        let nested := Body.ofLoop (fun w => compiledForc types atomic stmt body (bound w) w) after
        nested.KeepsCtxs ∧ ∀ name, body.SparesPortal name → nested.SparesPortal name := by
  have ready : w.Ready types atomic target rows td name h 0 :=
    ⟨_, _, 0, ctx, portal, ready_opened 0 (by decide) false, fun some => absurd rfl some⟩
  have compiled := rowRounds_delivers keeps spares enough ready
  have interpreted : DeliversUntil types (true && atomic) target rows td name body
      (execQueryRounds types atomic target body true fuel name w).2 :=
    execQueryRounds_delivers spares portal enough
  refine ⟨compiled, interpreted, compiled.all, ?_, ?_⟩
  · intro target query bound after
    exact ofLoop_quiet after fun w => compiledFors_kept keeps (query w).1 (query w).2 (bound w) w
  · intro stmt bound after quiet
    exact ofLoop_quiet after fun w => compiledForc_kept keeps quiet (bound w) w

end Loops

/-! ### A concrete loop -/

instance encodableChar : Encodable Char := .ofLeftInverse Char.toNat Char.ofNat Char.ofNat_toNat

deriving instance Encodable for Attribute

deriving instance Encodable for TupDesc

/-- Row types without casts and constraints. -/
def plainTypes : RowTypes Nat where
  desc id := (Encodable.decode (id.val - 2)).getD ⟨recordOid, []⟩
  typeId n := ⟨n + 2, Nat.succ_lt_succ (Nat.succ_pos n)⟩
  recordId td _ := ⟨Encodable.encode td + 2, Nat.succ_lt_succ (Nat.succ_pos _)⟩
  desc_recordId td _ := by
    rw [Nat.add_sub_cancel, Encodable.encodek]
    rfl
  coerceFields _ _ tup := .ok tup
  checkDomain _ _ := .ok ()
  assignValue _ value _ _ := .ok value
  strictMulti := false

/-- No variable is set and no portal is open. -/
def World.initial : World Nat Unit where
  recs _ := none
  scalars _ := none
  cursors _ := none
  found := false
  idCounter := 0
  portals _ := none
  freshPortal := 0
  ctxs _ := none
  freshCtx := 0
  rest := ()
  portals_fresh _ _ := rfl
  ctxs_fresh _ _ := rfl

/-- One column of type `int4`. -/
def int4Column : TupDesc := ⟨recordOid, [⟨23, -1, false, 4, 'i'⟩]⟩

/-- Rows with the numbers below `n`. -/
def int4Rows (n : Nat) : List (Tuple Nat) := (List.range n).map fun i => [some i]

/-- A body without statements. -/
def Body.skip : Body Nat Unit := fun w => (.next, w)

theorem rows_delivered_in_order_int4 :
    (rowRounds plainTypes true (.record 0 recordOid) Body.skip 62 0
      (openQueryCursor (int4Rows 61) int4Column World.initial)).2.rounds.map Round.row = int4Rows 61 := by
  have delivered := rows_delivered_in_order plainTypes true (.record 0 recordOid) Body.skip (int4Rows 61)
    int4Column 62 0 0 (openQueryCursor (int4Rows 61) int4Column World.initial)
    (fun _ _ _ here => here) (fun _ _ here => here) rfl rfl (by decide)
  refine delivered.2.2.1 (fun _ => rfl) ?_
  rintro k e inside ⟨w, w', fails⟩
  rw [List.getElem?_eq_getElem inside] at fails
  cases fails

end Uplpgsql
