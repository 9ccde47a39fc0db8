import Uplpgsql.Rows.Nesting

/-!
# The loop target after the loop

`exec_for_query` assigns nulls to the loop target only if there was no row at
all. The compiled loop learns that there is no row left from a call that assigns
them in any case, so it agrees with the interpreter only where that shows
nothing.
-/

namespace Uplpgsql

open Lib.Iteration

variable {D V : Type}

/-! ### Assigning nulls -/

/-- What a program sees of the target when `exec_move_row` has assigned it no row. -/
def nullValue (types : RowTypes D) (td : TupDesc) : LoopTarget → Except ErrorData (TargetValue D)
  | .record _ rectypeid =>
    .ok (.record (some (recordDesc types td rectypeid,
      (recordDesc types td rectypeid).attrs.map fun _ => none)))
  | .row varnos => do
    let values ← varnos.mapM fun dno => types.assignValue dno none unknownOid (-1)
    .ok (.fields values)

section Nulls

variable {types : RowTypes D} {target : LoopTarget} {td : TupDesc}

theorem mapM_ok {α β ε : Type} {f : α → Except ε β} {g : α → β} (xs : List α)
    (ok : ∀ x ∈ xs, f x = .ok (g x)) : xs.mapM f = .ok (xs.map g) := by
  induction xs with
  | nil => rfl
  | cons x xs ih =>
    rw [List.mapM_cons, ok x List.mem_cons_self, ih fun y mem => ok y (List.mem_cons_of_mem x mem)]
    rfl

/-- The variables of the list get what NULL is for them, others stay. -/
theorem moveFields_nulls {varnos : List Nat} {w w' : World D V}
    (moved : moveFields types false varnos [] w = .ok () w') (dno : Nat) :
    (dno ∈ varnos → types.assignValue dno none unknownOid (-1) = .ok (w'.scalars dno)) ∧
      (dno ∉ varnos → w'.scalars dno = w.scalars dno) := by
  induction varnos generalizing w with
  | nil =>
    cases moved
    exact ⟨by rintro ⟨⟩, fun _ => rfl⟩
  | cons var rest ih =>
    rw [moveFields, Bool.false_and, if_neg (by rintro ⟨⟩)] at moved
    cases assigned : types.assignValue var none unknownOid (-1) with
    | error e =>
      rw [assigned] at moved
      cases moved
    | ok value =>
      rw [assigned] at moved
      obtain ⟨inside, outside⟩ := ih moved
      by_cases later : dno ∈ rest
      · exact ⟨fun _ => inside later, fun no => absurd (List.mem_cons_of_mem var later) no⟩
      · have kept := outside later
        constructor
        · intro mem
          obtain rfl := (List.mem_cons.mp mem).resolve_right later
          simp only [kept, assigned, World.setScalar, Function.update_self]
        · intro no
          have other : dno ≠ var := fun same => no (same ▸ List.mem_cons_self)
          simp only [kept, World.setScalar, Function.update_of_ne other]

theorem moveFields_nulls_raise {varnos : List Nat} {w w' : World D V} {e : ErrorData}
    (raised : moveFields types false varnos [] w = .raise e w') :
    (varnos.mapM fun dno => types.assignValue dno none unknownOid (-1)) = .error e := by
  induction varnos generalizing w with
  | nil => cases raised
  | cons var rest ih =>
    rw [moveFields, Bool.false_and, if_neg (by rintro ⟨⟩)] at raised
    rw [List.mapM_cons]
    cases assigned : types.assignValue var none unknownOid (-1) with
    | error e' =>
      rw [assigned] at raised
      cases raised
      rfl
    | ok value =>
      rw [assigned] at raised
      rw [ih raised]
      rfl

theorem execMoveRow_none {w w' : World D V} (moved : execMoveRow types target none td w = .ok () w') :
    nullValue types td target = .ok (w'.value types target) := by
  cases target with
  | record dno rectypeid =>
    cases moved
    simp only [nullValue, World.value, World.setRec, Function.update_self, Option.map_some,
      desc_makeExpandedRecordForRec]
  | row varnos =>
    have values := mapM_ok varnos fun dno mem => (moveFields_nulls moved dno).1 mem
    rw [nullValue, values]
    rfl

theorem execMoveRow_none_raise {w w' : World D V} {e : ErrorData}
    (raised : execMoveRow types target none td w = .raise e w') : nullValue types td target = .error e := by
  cases target with
  | record dno rectypeid => cases raised
  | row varnos =>
    rw [nullValue, moveFields_nulls_raise raised]
    rfl

end Nulls

/-! ### The call that finds no row -/

/-- Nothing is left of the batch, and nothing behind the portal's position. -/
def World.NoRowLeft (h : Nat) (w : World D V) : Prop :=
  ∃ c p, w.ctxs h = some c ∧ c.vals.length ≤ c.batchIdx ∧ w.portals c.portal = some p ∧
    (p.atEnd = true ∨ p.rows.length ≤ p.portalPos)

/-- The body leaves the portal open. It is pinned, so it cannot be closed. -/
def Body.KeepsPinned (body : Body D V) (name : Nat) : Prop :=
  ∀ w p, w.portals name = some p → ∃ p', (body w).2.portals name = some p' ∧ p'.tupdesc = p.tupdesc

/-- The context `h` reads from the portal `name`, whose rows have the type `td`. -/
def World.Reads (h name : Nat) (td : TupDesc) (w : World D V) : Prop :=
  ∃ c p, w.ctxs h = some c ∧ c.portal = name ∧ w.portals name = some p ∧ p.tupdesc = td

section Call

variable {types : RowTypes D} {atomic : Bool} {target : LoopTarget} {td : TupDesc} {h name : Nat}
  {w w' : World D V}

theorem fetch_none_iff {p : Portal D} {count : Nat} (some : 0 < count) :
    (p.fetch count).1 = [] ↔ p.atEnd = true ∨ p.rows.length ≤ p.portalPos := by
  rw [Portal.fetch]
  split
  next ended => exact ⟨fun _ => .inl ended, fun _ => rfl⟩
  next on =>
    simp only [or_iff_right on, List.take_eq_nil_iff, List.drop_eq_nil_iff, Nat.ne_of_gt some, false_or]

theorem fetchCount_pos (atomic : Bool) (n : Nat) : 0 < fetchCount atomic n := by
  unfold fetchCount
  split
  · decide
  · split <;> decide

theorem moveAndRemember_some {c : CursorCtx D} {matching : Bool} {tup : Tuple D} {r : Option (Tuple D)}
    (assigned : moveAndRemember types target h c matching tup w = .ok r w') : r = some tup := by
  rw [moveAndRemember] at assigned
  split at assigned
  next => cases assigned
  next =>
    split at assigned
    next => cases assigned; rfl
    next =>
      split at assigned
      next => cases assigned; rfl
      next => cases assigned; rfl

theorem assignFromBatch_some {c : CursorCtx D} {tup : Tuple D} {r : Option (Tuple D)}
    (assigned : assignFromBatch types target h c tup w = .ok r w') : r = some tup := by
  cases target with
  | row varnos =>
    simp only [assignFromBatch] at assigned
    exact moveAndRemember_some assigned
  | record dno rectypeid =>
    simp only [assignFromBatch] at assigned
    split at assigned
    next => exact moveAndRemember_some assigned
    next =>
      split at assigned
      next =>
        split at assigned
        next => cases assigned
        next => cases assigned; rfl
      next => exact moveAndRemember_some assigned

theorem moveAndRemember_portals (c : CursorCtx D) (matching : Bool) (tup : Tuple D) (w : World D V) :
    (moveAndRemember types target h c matching tup w).world.portals = w.portals := by
  have moved := (execMoveRow_sameCursors types target (some tup) c.tupdesc w).1
  rw [moveAndRemember]
  split
  next e w₁ eq => rw [eq] at moved; exact moved
  next w₁ eq =>
    rw [eq] at moved
    split
    next => exact moved
    next =>
      split
      next => exact moved
      next => exact moved

theorem assignFromBatch_portals (c : CursorCtx D) (tup : Tuple D) (w : World D V) :
    (assignFromBatch types target h c tup w).world.portals = w.portals := by
  cases target with
  | row varnos =>
    simp only [assignFromBatch]
    exact moveAndRemember_portals _ _ tup _
  | record dno rectypeid =>
    simp only [assignFromBatch]
    split
    next => exact moveAndRemember_portals _ _ tup _
    next erh record =>
      split
      next =>
        have set := (expandedRecordSetTuple_sameCursors types dno rectypeid erh tup
          (w.setCtx h { c with batchIdx := c.batchIdx + 1 })).1
        split
        next e w₁ eq => rw [eq] at set; exact set
        next w₁ eq => rw [eq] at set; exact set
      next => exact moveAndRemember_portals _ _ tup _

/-- The portal moves on only when the batch is used up. -/
theorem fetchCursorRow_portal (types : RowTypes D) (atomic : Bool) (target : LoopTarget)
    {c : CursorCtx D} {p : Portal D} (ctx : w.ctxs h = some c) (portal : w.portals c.portal = some p) :
    (fetchCursorRow types atomic target h w).world.portals c.portal =
      some (if c.batchIdx < c.vals.length then p else (p.fetch (fetchCount atomic c.vals.length)).2) := by
  rw [fetchCursorRow, ctx]
  simp only
  split
  next tup here =>
    rw [if_pos (List.getElem?_eq_some_iff.mp here).1, assignFromBatch_portals, portal]
  next spent =>
    rw [if_neg (Nat.not_lt.mpr (List.getElem?_eq_none_iff.mp spent)), nextBatch, spiCursorFetch, portal]
    simp only
    split
    next e w₁ eq => cases eq
    next tupdesc w₁ eq =>
      injection eq with batch eq
      have moved := (execMoveRow_sameCursors types target none tupdesc
        (w₁.setCtx h { c with vals := [], tupdesc, batchIdx := 0 })).1
      split
      next e w₂ moves =>
        rw [moves] at moved
        simp only [Res.world] at moved ⊢
        rw [moved, ← eq]
        exact Function.update_self ..
      next w₂ moves =>
        rw [moves] at moved
        simp only [Res.world] at moved ⊢
        rw [moved, ← eq]
        exact Function.update_self ..
    next tup rest tupdesc w₁ eq =>
      injection eq with batch eq
      rw [assignFirst, moveAndRemember_portals, ← eq]
      exact Function.update_self ..

theorem fetch_tupdesc (p : Portal D) (count : Nat) : (p.fetch count).2.tupdesc = p.tupdesc := by
  rw [Portal.fetch]
  split <;> rfl

theorem World.Reads.fetched (reads : w.Reads h name td) {r : Option (Tuple D)}
    (fetched : fetchCursorRow types atomic target h w = .ok r w') : w'.Reads h name td := by
  obtain ⟨c, p, ctx, rfl, portal, rfl⟩ := reads
  have outside : w.Outside (fun _ => True) h c.portal (fetchCursorRow types atomic target h w).world :=
    fetchCursorRow_outside types atomic target ctx rfl
  have here := fetchCursorRow_portal types atomic target ctx portal
  rw [fetched] at outside here
  obtain ⟨c', ctx', same⟩ := outside.ctx
  refine ⟨c', _, ctx', same, here, ?_⟩
  split
  · rfl
  · exact fetch_tupdesc p _

theorem World.Reads.body {body : Body D V} (reads : w.Reads h name td) (keeps : body.KeepsCtxs)
    (pinned : body.KeepsPinned name) : (body w).2.Reads h name td := by
  obtain ⟨c, p, ctx, portal, here, rfl⟩ := reads
  obtain ⟨p', here', same⟩ := pinned w p here
  exact ⟨c, p', keeps w h c ctx, portal, here', same⟩

/-- The call finds no row exactly where none is left, and the target is null then. -/
theorem fetchCursorRow_none (reads : w.Reads h name td)
    (fetched : fetchCursorRow types atomic target h w = .ok none w') :
    w.NoRowLeft h ∧ nullValue types td target = .ok (w'.value types target) := by
  obtain ⟨c, p, ctx, rfl, portal, rfl⟩ := reads
  rw [fetchCursorRow, ctx] at fetched
  simp only at fetched
  split at fetched
  next => cases assignFromBatch_some fetched
  next spent =>
    rw [nextBatch, spiCursorFetch, portal] at fetched
    simp only at fetched
    cases batch : (p.fetch (fetchCount atomic c.vals.length)).1 with
    | nil =>
      simp only [batch] at fetched
      split at fetched
      next => cases fetched
      next moved =>
        cases fetched
        exact ⟨⟨c, p, ctx, List.getElem?_eq_none_iff.mp spent, portal,
          (fetch_none_iff (fetchCount_pos _ _)).mp batch⟩, execMoveRow_none moved⟩
    | cons tup rest =>
      simp only [batch] at fetched
      cases moveAndRemember_some fetched

/-- Where no row is left, the call assigns nulls. -/
theorem fetchCursorRow_noRowLeft (types : RowTypes D) (atomic : Bool) (target : LoopTarget)
    (reads : w.Reads h name td) (spent : w.NoRowLeft h) :
    (∃ w', fetchCursorRow types atomic target h w = .ok none w') ∨
      ∃ e w', fetchCursorRow types atomic target h w = .raise e w' ∧ nullValue types td target = .error e := by
  obtain ⟨c, p, ctx, rfl, portal, rfl⟩ := reads
  obtain ⟨c', p', ctx', past, portal', ended⟩ := spent
  obtain rfl : c = c' := Option.some.inj (ctx.symm.trans ctx')
  obtain rfl : p = p' := Option.some.inj (portal.symm.trans portal')
  have batch := (fetch_none_iff (fetchCount_pos atomic c.vals.length)).mpr ended
  rw [fetchCursorRow, ctx]
  simp only [List.getElem?_eq_none past]
  rw [nextBatch, spiCursorFetch, portal]
  simp only [batch]
  cases moved : execMoveRow types target none p.tupdesc
      ((w.setPortal c.portal (p.fetch (fetchCount atomic c.vals.length)).2).setCtx h
        { c with vals := [], tupdesc := p.tupdesc, batchIdx := 0 }) with
  | raise e w₁ => exact .inr ⟨e, w₁, rfl, execMoveRow_none_raise moved⟩
  | ok u w₁ => exact .inl ⟨w₁, rfl⟩

end Call

/-! ### The end of a loop -/

section Ends

variable (types : RowTypes D) (target : LoopTarget) (td : TupDesc) (body : Body D V)

/-- The statements after the loop find the target null if there was no row, and
otherwise as the last round left it. -/
def LoopRun.LeavesLast (run : LoopRun D V) : Prop :=
  match run.rounds.getLast? with
  | none =>
    match nullValue types td target with
    | .ok value => run.how = .exhausted ∧ run.world.value types target = value
    | .error e => run.how = .error e
  | some last => (run.how = .exhausted ∨ run.how = .exit) ∧
      run.world.value types target = last.exit.value types target

/-- A run whose world has the same target. -/
theorem LoopRun.LeavesLast.congr {types : RowTypes D} {target : LoopTarget} {td : TupDesc}
    {run : LoopRun D V} (leaves : run.LeavesLast types target td) {w : World D V} (same : w.value types target = run.world.value types target) :
    LoopRun.LeavesLast types target td { run with world := w } := by
  unfold LoopRun.LeavesLast at leaves ⊢
  rw [same]
  exact leaves

/-- The loop is over where the body has left it by EXIT, or where it went on and
no row is left. -/
def LoopRun.Over (h : Nat) (start : World D V) (run : LoopRun D V) : Prop :=
  match run.rounds.getLast? with
  | none => start.NoRowLeft h
  | some last => (body last.entry).1 = .exit ∨ ((body last.entry).1 = .next ∧ last.exit.NoRowLeft h)

/-- There was no row, or the last round ended by EXIT, or it left the target as
nulls would leave it. -/
def LoopRun.NullsHidden (run : LoopRun D V) : Prop :=
  ∀ last, run.rounds.getLast? = some last →
    (body last.entry).1 = .exit ∨ nullValue types td target = .ok (last.exit.value types target)

/-- Between two rounds: the last one went on, and the world is as it left it. -/
def BetweenRounds (start world : World D V) (rounds : List (Round D V)) : Prop :=
  match rounds.getLast? with
  | none => world = start
  | some last => world = last.exit ∧ (body last.entry).1 = .next

end Ends

section Compiled

variable {types : RowTypes D} {atomic : Bool} {target : LoopTarget} {td : TupDesc} {body : Body D V}
  {h name fuel : Nat} {w : World D V}

/-- The stop of a loop between rounds is about the world it stops in. -/
theorem BetweenRounds.ended {s : RowState D V} (between : BetweenRounds body w s.world s.rounds)
    {how : LoopEnd} {w' : World D V} (ended : LoopRun.Over body h w ⟨how, w', s.rounds⟩) :
    s.world.NoRowLeft h := by
  unfold BetweenRounds at between
  unfold LoopRun.Over at ended
  cases last : s.rounds.getLast? with
  | none =>
    simp only [last] at between ended
    rw [between]
    exact ended
  | some last =>
    simp only [last] at between ended
    rw [between.1]
    rcases ended with left | ⟨-, spent⟩
    · rw [between.2] at left
      cases left
    · exact spent

/-- The round that a body run from `entry` makes. -/
def Body.round (body : Body D V) (before : World D V) (row : Tuple D) (entry : World D V) : Round D V :=
  ⟨before, row, entry, (body entry).2⟩

theorem rowRound_again {s again : RowState D V} (eq : rowRound types atomic target body h s = .inl again) :
    ∃ row entry, fetchCursorRow types atomic target h s.world = .ok (some row) entry ∧
      (body entry).1 = .next ∧
      again = ⟨(body entry).2, true, s.rounds ++ [body.round s.world row entry]⟩ := by
  rw [rowRound] at eq
  split at eq
  next => cases eq
  next => cases eq
  next row entry fetched =>
    cases how : (body entry).1 with
    | next =>
      simp only [how, Sum.inl.injEq] at eq
      exact ⟨row, entry, fetched, how, eq.symm⟩
    | exit => simp only [how, reduceCtorEq] at eq
    | leave => simp only [how, reduceCtorEq] at eq
    | error e => simp only [how, reduceCtorEq] at eq

theorem rowRound_stop {s : RowState D V} {found : Bool} {run : LoopRun D V}
    (eq : rowRound types atomic target body h s = .inr (found, run)) :
    (∃ e w', fetchCursorRow types atomic target h s.world = .raise e w' ∧ run = ⟨.error e, w', s.rounds⟩) ∨
      (∃ w', fetchCursorRow types atomic target h s.world = .ok none w' ∧ run = ⟨.exhausted, w', s.rounds⟩) ∨
      ∃ row entry, fetchCursorRow types atomic target h s.world = .ok (some row) entry ∧
        (body entry).1 ≠ .next ∧
        run = ⟨(body entry).1.loopEnd, (body entry).2, s.rounds ++ [body.round s.world row entry]⟩ := by
  rw [rowRound] at eq
  split at eq
  next e w' fetched =>
    cases eq
    exact .inl ⟨e, w', fetched, rfl⟩
  next w' fetched =>
    cases eq
    exact .inr (.inl ⟨w', fetched, rfl⟩)
  next row entry fetched =>
    refine .inr (.inr ⟨row, entry, fetched, ?_⟩)
    cases how : (body entry).1 with
    | next => simp only [how, reduceCtorEq] at eq
    | exit =>
      simp only [how, Sum.inr.injEq, Prod.mk.injEq] at eq
      exact ⟨by rintro ⟨⟩, eq.2.symm⟩
    | leave =>
      simp only [how, Sum.inr.injEq, Prod.mk.injEq] at eq
      exact ⟨by rintro ⟨⟩, eq.2.symm⟩
    | error e =>
      simp only [how, Sum.inr.injEq, Prod.mk.injEq] at eq
      exact ⟨by rintro ⟨⟩, eq.2.symm⟩

/-- The rounds of a loop end in one that stops. -/
theorem rowRounds_stops (keeps : body.KeepsCtxs) (pinned : body.KeepsPinned name) (fuel : Nat)
    (reads : w.Reads h name td) :
    (rowRounds types atomic target body fuel h w).2.how = .spent ∨
      ∃ s : RowState D V, s.world.Reads h name td ∧ BetweenRounds body w s.world s.rounds ∧
        rowRound types atomic target body h s = .inr (rowRounds types atomic target body fuel h w) := by
  have step (s again : RowState D V)
      (here : s.world.Reads h name td ∧ BetweenRounds body w s.world s.rounds)
      (round : rowRound types atomic target body h s = .inl again) :
      again.world.Reads h name td ∧ BetweenRounds body w again.world again.rounds := by
    obtain ⟨row, entry, fetched, goesOn, rfl⟩ := rowRound_again round
    have read : entry.Reads h name td := here.1.fetched fetched
    refine ⟨read.body keeps pinned, ?_⟩
    unfold BetweenRounds
    rw [List.getLast?_concat]
    exact ⟨rfl, goesOn⟩
  rcases loopN_last _ step fuel ⟨w, false, []⟩ ⟨reads, rfl⟩ with ⟨s, -, spent⟩ | ⟨s, ⟨reads, between⟩, stop⟩
  · exact .inl (congrArg (·.2.how) spent)
  · exact .inr ⟨s, reads, between, stop⟩

/-- The rounds of the compiled loop leave the target as the interpreter does
exactly where the nulls they may assign do not show. -/
theorem rowRounds_target (keeps : body.KeepsCtxs) (pinned : body.KeepsPinned name) (reads : w.Reads h name td)
    {found : Bool} {run : LoopRun D V} (eq : rowRounds types atomic target body fuel h w = (found, run))
    (ends : run.how ≠ .spent) (ended : run.Over body h w) :
    run.LeavesLast types target td ↔ run.NullsHidden types target td body := by
  rcases rowRounds_stops keeps pinned fuel reads with spent | ⟨s, reads, between, stop⟩
  · rw [eq] at spent
    exact absurd spent ends
  · rw [eq] at stop
    unfold LoopRun.LeavesLast LoopRun.NullsHidden
    rcases rowRound_stop stop with ⟨e, w', raised, rfl⟩ | ⟨w', fetched, rfl⟩ | ⟨row, entry, -, leaves, rfl⟩
    · -- The nulls could not be assigned.
      have spent := between.ended ended
      have failed : nullValue types td target = .error e := by
        rcases fetchCursorRow_noRowLeft types atomic target reads spent with
          ⟨w₁, fine⟩ | ⟨e₁, w₁, same, failed⟩
        · rw [raised] at fine
          cases fine
        · rw [raised] at same
          cases same
          exact failed
      simp only [failed]
      cases last : s.rounds.getLast? with
      | none => simp
      | some last =>
        unfold BetweenRounds at between
        simp only [last] at between
        simp [between.2]
    · obtain ⟨-, null⟩ := fetchCursorRow_none reads fetched
      simp only [null]
      cases last : s.rounds.getLast? with
      | none => simp
      | some last =>
        unfold BetweenRounds at between
        simp only [last] at between
        simp [between.2]
    · unfold LoopRun.Over at ended
      simp only [List.getLast?_concat, Body.round] at ended ⊢
      rcases ended with left | ⟨next, -⟩
      · simp [left, BodyEnd.loopEnd]
      · exact absurd next leaves

/-- Closing the portal and setting FOUND do not change the target. -/
theorem rowLoop_target {close : World D V → World D V}
    (quiet : ∀ w : World D V, (close w).value types target = w.value types target)
    (keeps : body.KeepsCtxs) (pinned : body.KeepsPinned name) (reads : w.Reads h name td)
    (ends : (rowLoop types atomic target body close fuel h w).how ≠ .spent)
    (ended : (rowLoop types atomic target body close fuel h w).Over body h w) :
    (rowLoop types atomic target body close fuel h w).LeavesLast types target td ↔
      (rowLoop types atomic target body close fuel h w).NullsHidden types target td body := by
  obtain ⟨found, run, eq⟩ : ∃ found run, rowRounds types atomic target body fuel h w = (found, run) :=
    ⟨_, _, rfl⟩
  -- The loop is its rounds, but for a world with the same target.
  obtain ⟨w', same, loop⟩ : ∃ w', w'.value types target = run.world.value types target ∧
      rowLoop types atomic target body close fuel h w = { run with world := w' } := by
    rw [rowLoop, eq]
    simp only
    split
    · exact ⟨{ close run.world with found }, quiet run.world, rfl⟩
    · exact ⟨{ close run.world with found }, quiet run.world, rfl⟩
    · exact ⟨_, quiet run.world, rfl⟩
    · exact ⟨_, rfl, rfl⟩
    · exact ⟨_, rfl, rfl⟩
  rw [loop] at ends ended ⊢
  have rounds := rowRounds_target keeps pinned reads eq ends ended
  constructor
  · intro leaves
    exact rounds.mp (leaves.congr same.symm)
  · intro hidden
    exact (rounds.mpr hidden).congr same

end Compiled

section Interpreter

variable {types : RowTypes D} {target : LoopTarget} {td : TupDesc} {body : Body D V} {name : Nat}

/-- A run that ends by itself or by EXIT leaves what its last round left. -/
def LoopRun.EndsWithLast (types : RowTypes D) (target : LoopTarget) (run : LoopRun D V) : Prop :=
  run.how = .exhausted ∨ run.how = .exit →
    ∃ last, run.rounds.getLast? = some last ∧ run.world.value types target = last.exit.value types target

/-- After a round the target is as the round left it. -/
def QueryState.AfterRound (types : RowTypes D) (target : LoopTarget) (s : QueryState D V) : Prop :=
  ∃ last, s.rounds.getLast? = some last ∧ s.world.value types target = last.exit.value types target

theorem execBatch_target (td : TupDesc) (body : Body D V) (vals : List (Tuple D)) (s : QueryState D V)
    (after : vals = [] → s.AfterRound types target) :
    match execBatch types target body td vals s with
    | .inl s' => s'.AfterRound types target
    | .inr run => run.how ≠ .exhausted ∧ run.EndsWithLast types target := by
  induction vals generalizing s with
  | nil => exact after rfl
  | cons row rest ih =>
    rw [execBatch]
    cases execAssignRow types target td row s with
    | raise e w => exact ⟨by rintro ⟨⟩, by rintro (⟨⟨⟩⟩ | ⟨⟨⟩⟩)⟩
    | ok next entry =>
      simp only
      cases (body entry).1 with
      | next => exact ih _ fun _ => ⟨_, List.getLast?_concat, rfl⟩
      | exit => exact ⟨by rintro ⟨⟩, fun _ => ⟨_, List.getLast?_concat, rfl⟩⟩
      | leave => exact ⟨by rintro ⟨⟩, by rintro (⟨⟨⟩⟩ | ⟨⟨⟩⟩)⟩
      | error e => exact ⟨by rintro ⟨⟩, by rintro (⟨⟨⟩⟩ | ⟨⟨⟩⟩)⟩

theorem execBatches_target {prefetch : Bool} (fuel : Nat) (s : QueryState D V × List (Tuple D))
    (after : s.2 = [] → s.1.AfterRound types target) :
    (loopN (execBatches types target body prefetch name td) (fun s => ⟨.spent, s.1.world, s.1.rounds⟩)
      fuel s).EndsWithLast types target := by
  refine loopN_invariant (fun s : QueryState D V × List (Tuple D) => s.2 = [] → s.1.AfterRound types target)
    (LoopRun.EndsWithLast types target) ?_ ?_ fuel s after
  · rintro s - (ends | ends) <;> cases ends
  rintro ⟨s, vals⟩ after
  cases vals with
  | nil => exact fun _ => after rfl
  | cons row rest =>
    have batch := execBatch_target td body (row :: rest) s after
    simp only [execBatches]
    cases done : execBatch types target body td (row :: rest) s with
    | inr run =>
      rw [done] at batch
      exact batch.2
    | inl s' =>
      rw [done] at batch
      simp only [spiCursorFetch]
      cases s'.world.portals name with
      | none => rintro (⟨⟨⟩⟩ | ⟨⟨⟩⟩)
      | some p => exact fun _ => batch

theorem execQueryRounds_target {atomic prefetchOk : Bool} {fuel : Nat} {w : World D V} {p : Portal D}
    (portal : w.portals name = some p) (desc : p.tupdesc = td) {found : Bool} {run : LoopRun D V}
    (eq : execQueryRounds types atomic target body prefetchOk fuel name w = (found, run))
    (ends : run.how = .exhausted ∨ run.how = .exit) : run.LeavesLast types target td := by
  subst desc
  rw [execQueryRounds, spiCursorFetch, portal] at eq
  simp only at eq
  generalize p.fetch (if prefetchOk && atomic then 10 else 1) = fetched at eq
  obtain ⟨vals, p'⟩ := fetched
  unfold LoopRun.LeavesLast
  cases vals with
  | nil =>
    cases moved : execMoveRow types target none p.tupdesc (w.setPortal name p') with
    | raise e w' =>
      simp only [moved, Prod.mk.injEq] at eq
      obtain ⟨-, rfl⟩ := eq
      rcases ends with ends | ends <;> cases ends
    | ok u w' =>
      simp only [moved, Prod.mk.injEq] at eq
      obtain ⟨-, rfl⟩ := eq
      simp only [List.getLast?_nil, execMoveRow_none moved]
      exact ⟨trivial, trivial⟩
  | cons row rest =>
    simp only [Prod.mk.injEq] at eq
    obtain ⟨-, rfl⟩ := eq
    have first : (row :: rest = [] →
      QueryState.AfterRound types target ⟨w.setPortal name p', invalidTupledescIdentifier, true, []⟩) := by
      rintro ⟨⟩
    obtain ⟨last, isLast, same⟩ := execBatches_target fuel (_, row :: rest) first ends
    simp only [isLast]
    exact ⟨ends, same⟩

theorem execForQueryRows_target (types : RowTypes D) (atomic : Bool) (target : LoopTarget) (body : Body D V)
    (prefetchOk : Bool) (fuel : Nat) {w : World D V} {p : Portal D} (portal : w.portals name = some p)
    (desc : p.tupdesc = td)
    (ends : (execForQueryRows types atomic target body prefetchOk fuel name w).how = .exhausted ∨
      (execForQueryRows types atomic target body prefetchOk fuel name w).how = .exit) :
    (execForQueryRows types atomic target body prefetchOk fuel name w).LeavesLast types target td := by
  obtain ⟨found, run, eq⟩ :
      ∃ found run, execQueryRounds types atomic target body prefetchOk fuel name w = (found, run) :=
    ⟨_, _, rfl⟩
  rw [execForQueryRows, eq] at ends ⊢
  simp only at ends ⊢
  split at ends
  next how =>
    rw [how] at ends
    rcases ends with ends | ends <;> cases ends
  next how =>
    rw [how] at ends
    rcases ends with ends | ends <;> cases ends
  next => exact (execQueryRounds_target portal desc eq ends).congr rfl

end Interpreter

/-! ### The statements -/

theorem World.value_rtClosePortal (types : RowTypes D) (target : LoopTarget) (h : Nat) (w : World D V) :
    (rtClosePortal h w).value types target = w.value types target := by
  rw [rtClosePortal]
  split
  · rfl
  · rfl

/-- For FOR loops over a query and over a cursor, the compiled code leaves the
loop target as the interpreter does exactly where the nulls it may assign do not
show; the interpreter always leaves it so. -/
theorem loop_target_after_loop (types : RowTypes D) (atomic : Bool) (body : Body D V) (keeps : body.KeepsCtxs)
    (fuel : Nat) (w : World D V) :
    (∀ target rows td, body.KeepsPinned w.freshPortal →
        let run := compiledFors types atomic target body rows td fuel w
        run.how ≠ .spent → run.Over body w.freshCtx (openQueryCursor rows td w) →
          (run.LeavesLast types target td ↔ run.NullsHidden types target td body)) ∧
      (∀ stmt name td opened, execOpenForcCursor stmt w = .ok (name, td) opened → body.KeepsPinned name →
        let run := compiledForc types atomic stmt body fuel w
        run.how ≠ .spent → run.Over body opened.freshCtx (opened.setCtx opened.freshCtx (.zero name td)) →
          (run.LeavesLast types stmt.var td ↔ run.NullsHidden types stmt.var td body)) ∧
      (∀ target rows td,
        let run := execFors types atomic target body rows td fuel w
        run.how = .exhausted ∨ run.how = .exit → run.LeavesLast types target td) ∧
      ∀ stmt name td opened, execOpenForcCursor stmt w = .ok (name, td) opened →
        let run := execStmtForc types atomic stmt body fuel w
        run.how = .exhausted ∨ run.how = .exit → run.LeavesLast types stmt.var td := by
  refine ⟨?_, ?_, ?_, ?_⟩
  -- The compiled loops: closing the portal does not touch the target.
  · intro target rows td pinned run ends ended
    have reads : (openQueryCursor rows td w).Reads w.freshCtx w.freshPortal td :=
      ⟨_, _, Function.update_self .., rfl, Function.update_self .., rfl⟩
    exact rowLoop_target (World.value_rtClosePortal types target w.freshCtx) keeps pinned reads ends ended
  · intro stmt name td opened eq pinned run ends ended
    obtain ⟨rows, portal⟩ := execOpenForcCursor_portal eq
    have reads : (opened.setCtx opened.freshCtx (.zero name td)).Reads opened.freshCtx name td :=
      ⟨_, _, Function.update_self .., rfl, portal, rfl⟩
    have loop : run = rowLoop types atomic stmt.var body (rtCloseForcCursor opened.freshCtx) fuel
        opened.freshCtx (opened.setCtx opened.freshCtx (.zero name td)) := by
      simp only [run, compiledForc, eq]
    rw [loop] at ends ended ⊢
    exact rowLoop_target (World.value_rtClosePortal types stmt.var opened.freshCtx) keeps pinned reads ends ended
  -- The interpreted loops: the last row assigned is the one that the target has.
  · intro target rows td run ends
    have portal : (w.setPortal w.freshPortal (.opened rows td)).portals w.freshPortal = some (.opened rows td) :=
      Function.update_self ..
    have inner := execForQueryRows_target types atomic target body true fuel portal rfl
    simp only [run, execFors] at ends ⊢
    split at ends
    next how => exact inner ends
    next how => exact inner ends
    next => exact (inner ends).congr rfl
  · intro stmt name td opened eq run ends
    obtain ⟨rows, portal⟩ := execOpenForcCursor_portal eq
    have inner := execForQueryRows_target types atomic stmt.var body false fuel portal rfl
    simp only [run, execStmtForc, eq] at ends ⊢
    split at ends
    next how => exact inner ends
    next how => exact inner ends
    next =>
      refine (inner ends).congr ?_
      split <;> rfl

/-- A body that leaves the loop by EXIT. -/
def Body.exitLoop : Body Nat Unit := fun w => (.exit, w)

theorem loop_target_after_loop_exit :
    (compiledFors plainTypes true (.row [0]) Body.exitLoop (int4Rows 12) int4Column 2 World.initial).LeavesLast
      plainTypes (.row [0]) int4Column := by
  have settled := loop_target_after_loop plainTypes true Body.exitLoop (fun _ _ _ here => here) 2 World.initial
  refine (settled.1 (.row [0]) (int4Rows 12) int4Column (fun _ p here => ⟨p, here, rfl⟩) nofun (.inl rfl)).mpr ?_
  intro last isLast
  exact .inl rfl

/-- `FOR a IN SELECT 0 LOOP END LOOP` leaves `a` at NULL. -/
theorem compiledFors_nulls_target :
    (compiledFors plainTypes true (.row [0]) Body.skip (int4Rows 1) int4Column 3 World.initial).how = .exhausted ∧
      ¬(compiledFors plainTypes true (.row [0]) Body.skip (int4Rows 1) int4Column 3 World.initial).LeavesLast
        plainTypes (.row [0]) int4Column ∧
      (execFors plainTypes true (.row [0]) Body.skip (int4Rows 1) int4Column 3 World.initial).LeavesLast
        plainTypes (.row [0]) int4Column := by
  refine ⟨rfl, ?_, .inl rfl, rfl⟩
  rintro ⟨-, same⟩
  injection same with same
  injection same with same
  cases same

end Uplpgsql
