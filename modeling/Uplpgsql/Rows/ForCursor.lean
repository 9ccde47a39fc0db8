import Uplpgsql.Rows.AfterLoop

/-!
# Loops over a bound cursor

The body of such a loop can reach the portal through the cursor variable.
`exec_stmt_forc` fetches one row at a time, and sets the cursor variable back to
NULL if it was NULL before the loop. The compiled loop shares its fetches with
query loops, and its closing helper leaves the variable alone.
-/

namespace Uplpgsql

open Lib.Iteration

variable {D V : Type}

/-! ### The position of the portal -/

/-- The call that started the round moved the portal by one row, onto the row it
assigned. -/
def Round.OneRow (name : Nat) (r : Round D V) : Prop :=
  ∃ p p', r.before.portals name = some p ∧ r.entry.portals name = some p' ∧
    p.rows[p.portalPos]? = some r.row ∧ p'.portalPos = p.portalPos + 1 ∧ p'.atEnd = false

/-- The portal is on its `k`-th row. -/
def World.OnRow (name k : Nat) (w : World D V) : Prop :=
  ∃ p, w.portals name = some p ∧ p.portalPos = k ∧ p.atEnd = false

/-- Every row of the batch has been delivered. -/
def World.Idle (h : Nat) (w : World D V) : Prop := ∃ c, w.ctxs h = some c ∧ c.vals.length ≤ c.batchIdx

section Fetch

variable {types : RowTypes D} {target : LoopTarget} {h : Nat} {w w' : World D V} {c : CursorCtx D} {p : Portal D}

theorem moveAndRemember_ctx {matching : Bool} {tup : Tuple D} {r : Option (Tuple D)}
    (ctx : w.ctxs h = some c) (assigned : moveAndRemember types target h c matching tup w = .ok r w') :
    ∃ c', w'.ctxs h = some c' ∧ c.SameBatch c' := by
  rw [moveAndRemember] at assigned
  split at assigned
  next => cases assigned
  next w₁ moved =>
    have kept : w₁.ctxs h = some c := by
      rw [(execMoveRow_frame moved).2]
      exact ctx
    split at assigned
    next =>
      cases assigned
      exact ⟨c, kept, ⟨rfl, rfl, rfl, rfl⟩⟩
    next =>
      split at assigned
      next =>
        cases assigned
        exact ⟨c, kept, ⟨rfl, rfl, rfl, rfl⟩⟩
      next =>
        cases assigned
        exact ⟨_, Function.update_self .., ⟨rfl, rfl, rfl, rfl⟩⟩

theorem fetch_one {tup : Tuple D} {rest : List (Tuple D)} (batch : (p.fetch 1).1 = tup :: rest) :
    rest = [] ∧ p.rows[p.portalPos]? = some tup ∧ (p.fetch 1).2.portalPos = p.portalPos + 1 ∧
      (p.fetch 1).2.atEnd = false := by
  rw [Portal.fetch] at batch ⊢
  split at batch
  next => cases batch
  next on =>
    rw [if_neg on]
    simp only at batch ⊢
    have first := congrArg (·[0]?) batch
    have count := congrArg List.length batch
    simp only [List.length_take, List.length_cons] at count
    simp only [List.getElem?_take, List.getElem?_drop, List.getElem?_cons_zero] at first
    rw [batch]
    obtain rfl : rest = [] := List.eq_nil_of_length_eq_zero (by omega)
    exact ⟨rfl, first, rfl, rfl⟩

/-- Without prefetching a call moves the portal onto the row it assigns. -/
theorem fetchCursorRow_one {row : Tuple D} (ctx : w.ctxs h = some c) (idle : c.vals.length ≤ c.batchIdx)
    (portal : w.portals c.portal = some p)
    (fetched : fetchCursorRow types false target h w = .ok (some row) w') :
    p.rows[p.portalPos]? = some row ∧ w'.Idle h ∧
      ∃ p', w'.portals c.portal = some p' ∧ p'.portalPos = p.portalPos + 1 ∧ p'.atEnd = false := by
  have moves := fetchCursorRow_portal types false target ctx portal
  rw [if_neg (Nat.not_lt.mpr idle), fetched] at moves
  rw [fetchCursorRow, ctx] at fetched
  simp only [List.getElem?_eq_none idle] at fetched
  rw [nextBatch, spiCursorFetch, portal] at fetched
  simp only at fetched
  change _ = some (p.fetch 1).2 at moves
  have one : fetchCount false c.vals.length = 1 := rfl
  rw [one] at fetched
  cases batch : (p.fetch 1).1 with
  | nil =>
    simp only [batch] at fetched
    split at fetched <;> cases fetched
  | cons tup rest =>
    simp only [batch] at fetched
    obtain ⟨rfl, here, pos, on⟩ := fetch_one batch
    obtain rfl : row = tup := Option.some.inj (moveAndRemember_some fetched)
    obtain ⟨c', ctx', same⟩ := moveAndRemember_ctx (Function.update_self ..) fetched
    refine ⟨here, ⟨c', ctx', ?_⟩, _, moves, pos, on⟩
    rw [same.vals, same.idx]
    exact Nat.le_refl 1

end Fetch

/-! ### Without prefetching -/

section Rounds

variable {types : RowTypes D} {target : LoopTarget} {body : Body D V} {td : TupDesc} {rows : List (Tuple D)}
  {h name : Nat}

/-- The rounds so far each took one row; a body that leaves the portal alone had
it on the row of its round. -/
structure OneByOne (body : Body D V) (name : Nat) (rounds : List (Round D V)) : Prop where
  each : ∀ r ∈ rounds, r.OneRow name
  position : body.SparesPortal name →
    ∀ i (r : Round D V), rounds[i]? = some r → r.entry.OnRow name (i + 1)

theorem OneByOne.snoc {rounds : List (Round D V)} (before : OneByOne body name rounds) {r : Round D V}
    (one : r.OneRow name) (position : body.SparesPortal name → r.entry.OnRow name (rounds.length + 1)) :
    OneByOne body name (rounds ++ [r]) where
  each := by
    intro r' mem
    rcases List.mem_append.mp mem with old | new
    · exact before.each r' old
    · rw [List.mem_singleton.mp new]
      exact one
  position := by
    intro spares i r' here
    rw [List.getElem?_append] at here
    split at here
    next => exact before.position spares i r' here
    next past =>
      have last : i = rounds.length := by
        have bound := (List.getElem?_eq_some_iff.mp here).1
        simp only [List.length_singleton] at bound
        omega
      subst last
      simp only [Nat.sub_self, List.getElem?_cons_zero, Option.some.injEq] at here
      rw [← here]
      exact position spares

/-- Where the loop is between two rounds. -/
structure OneByOneState (body : Body D V) (h name : Nat) (td : TupDesc) (s : RowState D V) : Prop where
  reads : s.world.Reads h name td
  idle : s.world.Idle h
  rounds : OneByOne body name s.rounds
  position : body.SparesPortal name → ∃ p, s.world.portals name = some p ∧ p.portalPos = s.rounds.length

/-- One more row is assigned. -/
theorem OneByOneState.fetched {s : RowState D V} (state : OneByOneState body h name td s) {row : Tuple D}
    {entry : World D V} (fetched : fetchCursorRow types false target h s.world = .ok (some row) entry) :
    entry.Idle h ∧ OneByOne body name (s.rounds ++ [body.round s.world row entry]) ∧
      (body.SparesPortal name → entry.OnRow name (s.rounds.length + 1)) := by
  obtain ⟨c, p, ctx, rfl, portal, -⟩ := state.reads
  obtain ⟨c', ctx', idle⟩ := state.idle
  obtain rfl : c = c' := Option.some.inj (ctx.symm.trans ctx')
  obtain ⟨here, idle', p', portal', pos, on⟩ := fetchCursorRow_one ctx idle portal fetched
  have position (spares : body.SparesPortal c.portal) : entry.OnRow c.portal (s.rounds.length + 1) := by
    obtain ⟨p₁, portal₁, count⟩ := state.position spares
    obtain rfl : p = p₁ := Option.some.inj (portal.symm.trans portal₁)
    exact ⟨p', portal', by rw [pos, count], on⟩
  exact ⟨idle', state.rounds.snoc ⟨p, p', portal, portal', here, pos, on⟩ position, position⟩

theorem rowRounds_oneByOne (types : RowTypes D) (target : LoopTarget) (keeps : body.KeepsCtxs) (pinned : body.KeepsPinned name) (fuel : Nat)
    {w : World D V} (ctx : w.ctxs h = some (.zero name td)) (portal : w.portals name = some (.opened rows td)) :
    OneByOne body name (rowRounds types false target body fuel h w).2.rounds := by
  have start : OneByOneState body h name td ⟨w, false, []⟩ :=
    { reads := ⟨_, _, ctx, rfl, portal, rfl⟩
      idle := ⟨_, ctx, Nat.le_refl 0⟩
      rounds := ⟨nofun, fun _ => nofun⟩
      position := fun _ => ⟨_, portal, rfl⟩ }
  refine loopN_invariant (OneByOneState body h name td)
    (fun r : Bool × LoopRun D V => OneByOne body name r.2.rounds) (fun _ state => state.rounds) ?_ fuel _ start
  intro s state
  cases round : rowRound types false target body h s with
  | inl again =>
    obtain ⟨row, entry, fetched, -, rfl⟩ := rowRound_again round
    obtain ⟨⟨c, ctx, idle⟩, rounds, position⟩ := state.fetched fetched
    constructor
    · exact (state.reads.fetched fetched).body keeps pinned
    · exact ⟨c, keeps entry h c ctx, idle⟩
    · exact rounds
    · intro spares
      obtain ⟨p, portal, pos, -⟩ := position spares
      exact ⟨p, spares entry p portal, by rw [pos, List.length_append, List.length_singleton]⟩
  | inr stop =>
    rcases rowRound_stop round with ⟨e, w', -, eq⟩ | ⟨w', -, eq⟩ | ⟨row, entry, fetched, -, eq⟩
    · simp only [eq]
      exact state.rounds
    · simp only [eq]
      exact state.rounds
    · simp only [eq]
      exact (state.fetched fetched).2.1

/-! ### With prefetching -/

theorem rowRounds_first (body : Body D V) (fuel : Nat) {atomic : Bool} {w entry : World D V} {row : Tuple D}
    (fetched : fetchCursorRow types atomic target h w = .ok (some row) entry) :
    (rowRounds types atomic target body (fuel + 1) h w).2.rounds[0]? = some (body.round w row entry) := by
  have first {rounds more : List (Round D V)} (here : rounds[0]? = some (body.round w row entry)) :
      (rounds ++ more)[0]? = some (body.round w row entry) := by
    rw [List.getElem?_append_left (List.getElem?_eq_some_iff.mp here).1]
    exact here
  rw [rowRounds, loopN]
  cases round : rowRound types atomic target body h ⟨w, false, []⟩ with
  | inr stop =>
    rcases rowRound_stop round with ⟨e, w', raised, -⟩ | ⟨w', none, -⟩ | ⟨row', entry', same, -, eq⟩
    · rw [fetched] at raised
      cases raised
    · rw [fetched] at none
      cases none
    · rw [fetched] at same
      cases same
      simp only [eq, List.nil_append, List.getElem?_cons_zero]
  | inl again =>
    obtain ⟨row', entry', same, -, rfl⟩ := rowRound_again round
    rw [fetched] at same
    cases same
    refine loopN_invariant (fun s : RowState D V => s.rounds[0]? = some (body.round w row entry))
      (fun r : Bool × LoopRun D V => r.2.rounds[0]? = some (body.round w row entry)) (fun _ here => here) ?_ fuel _
      rfl
    intro s here
    cases round : rowRound types atomic target body h s with
    | inl again =>
      obtain ⟨row', entry', -, -, rfl⟩ := rowRound_again round
      exact first here
    | inr stop =>
      rcases rowRound_stop round with ⟨e, w', -, eq⟩ | ⟨w', -, eq⟩ | ⟨row', entry', -, -, eq⟩
      · simp only [eq]
        exact here
      · simp only [eq]
        exact here
      · simp only [eq]
        exact first here

theorem rowRounds_none {atomic : Bool} {fuel : Nat} {w : World D V}
    (none : ∀ row entry, fetchCursorRow types atomic target h w ≠ .ok (some row) entry) :
    (rowRounds types atomic target body (fuel + 1) h w).2.rounds = [] := by
  rw [rowRounds, loopN]
  cases round : rowRound types atomic target body h ⟨w, false, []⟩ with
  | inl again =>
    obtain ⟨row, entry, fetched, -⟩ := rowRound_again round
    exact absurd fetched (none row entry)
  | inr stop =>
    rcases rowRound_stop round with ⟨e, w', -, eq⟩ | ⟨w', -, eq⟩ | ⟨row, entry, fetched, -, -⟩
    · simp only [eq]
    · simp only [eq]
    · exact absurd fetched (none row entry)

/-- The first row of the portal can be assigned to the target. -/
def FirstAssignable (types : RowTypes D) (target : LoopTarget) (rows : List (Tuple D)) (td : TupDesc)
    (w : World D V) : Prop :=
  ∃ row moved, rows[0]? = some row ∧ execMoveRow types target (some row) td w = .ok () moved

theorem moveAndRemember_ok (types : RowTypes D) (target : LoopTarget) (h : Nat) (c : CursorCtx D)
    (matching : Bool) (tup : Tuple D) (w src : World D V) :
    (∃ row entry, moveAndRemember types target h c matching tup (w.withCursors src) = .ok (some row) entry) ↔
      ∃ moved, execMoveRow types target (some tup) c.tupdesc w = .ok () moved := by
  rw [moveAndRemember, execMoveRow_withCursors]
  cases moved : execMoveRow types target (some tup) c.tupdesc w with
  | raise e w₁ =>
    constructor
    · rintro ⟨row, entry, eq⟩
      cases eq
    · rintro ⟨w', eq⟩
      cases eq
  | ok u w₁ =>
    refine ⟨fun _ => ⟨w₁, rfl⟩, fun _ => ?_⟩
    simp only [Res.mapWorld]
    split
    next => exact ⟨_, _, rfl⟩
    next =>
      split
      next => exact ⟨_, _, rfl⟩
      next => exact ⟨_, _, rfl⟩

/-- The first call assigns the first row, if there is one that can be assigned. -/
theorem fetchCursorRow_first (atomic : Bool) {w : World D V} (ctx : w.ctxs h = some (.zero name td))
    (portal : w.portals name = some (.opened rows td)) :
    (∃ row entry, fetchCursorRow types atomic target h w = .ok (some row) entry) ↔
      FirstAssignable types target rows td w := by
  obtain ⟨n, size⟩ : ∃ n, fetchCount atomic 0 = n + 1 := Nat.exists_eq_add_one.mpr (fetchCount_pos atomic 0)
  rw [fetchCursorRow, ctx]
  simp only [CursorCtx.zero, List.getElem?_nil]
  rw [nextBatch, spiCursorFetch, portal]
  simp only [List.length_nil, size]
  cases rows with
  | nil =>
    constructor
    · rintro ⟨row, entry, fetched⟩
      simp only [Portal.fetch, Portal.opened, List.drop_nil, List.take_nil, Bool.false_eq_true, if_false] at fetched
      split at fetched <;> cases fetched
    · rintro ⟨row, moved, here, -⟩
      cases here
  | cons row rest =>
    have batch : ((Portal.opened (row :: rest) td).fetch (n + 1)).1 = row :: rest.take n := rfl
    simp only [batch]
    have first := moveAndRemember_ok types target h ⟨name, row :: rest.take n, td, 1, 0, false⟩ true row w
      ((w.setPortal name ((Portal.opened (row :: rest) td).fetch (n + 1)).2).setCtx h
        ⟨name, row :: rest.take n, td, 1, 0, false⟩)
    refine first.trans ?_
    constructor
    · rintro ⟨moved, eq⟩
      exact ⟨row, moved, rfl, eq⟩
    · rintro ⟨row', moved, here, eq⟩
      cases here
      exact ⟨moved, eq⟩

/-- Prefetching takes the portal past its first row. -/
theorem fetchCursorRow_prefetch {w entry : World D V} {row : Tuple D} (ctx : w.ctxs h = some (.zero name td))
    (portal : w.portals name = some (.opened rows td))
    (fetched : fetchCursorRow types true target h w = .ok (some row) entry) :
    ¬entry.OnRow name 1 := by
  have moves := fetchCursorRow_portal types true target ctx portal
  rw [fetched] at moves
  rintro ⟨p, here, pos, on⟩
  obtain rfl : _ = p := Option.some.inj (moves.symm.trans here)
  simp [CursorCtx.zero, Portal.fetch, Portal.opened, fetchCount] at pos on
  omega

/-- The portal is where the interpreter has it exactly where there is no
prefetching, or no round. -/
theorem rowRounds_position (keeps : body.KeepsCtxs) (pinned : body.KeepsPinned name) (atomic : Bool) (fuel : Nat)
    {w : World D V} (ctx : w.ctxs h = some (.zero name td)) (portal : w.portals name = some (.opened rows td))
    {rounds : List (Round D V)}
    (eq : (rowRounds types atomic target body (fuel + 1) h w).2.rounds = rounds) :
    ((∀ r ∈ rounds, r.OneRow name) ↔ (atomic = false ∨ ¬FirstAssignable types target rows td w)) ∧
      (body.SparesPortal name → ((∀ i (r : Round D V), rounds[i]? = some r → r.entry.OnRow name (i + 1)) ↔
        (atomic = false ∨ ¬FirstAssignable types target rows td w))) := by
  subst eq
  by_cases assignable : FirstAssignable types target rows td w
  · cases atomic with
    | false =>
      have one := rowRounds_oneByOne types target keeps pinned (fuel + 1) ctx portal
      exact ⟨⟨fun _ => .inl rfl, fun _ => one.each⟩, fun spares => ⟨fun _ => .inl rfl, fun _ => one.position spares⟩⟩
    | true =>
      -- The first round has the portal past its row.
      obtain ⟨row, entry, fetched⟩ := (fetchCursorRow_first true ctx portal).mpr assignable
      have first := rowRounds_first body fuel fetched
      have past := fetchCursorRow_prefetch ctx portal fetched
      have no : ¬(true = false ∨ ¬FirstAssignable types target rows td w) := by simp [assignable]
      refine ⟨iff_of_false ?_ no, fun _ => iff_of_false ?_ no⟩
      · intro each
        obtain ⟨p, p', before, here, -, pos, on⟩ := each _ (List.mem_of_getElem? first)
        obtain rfl : _ = p := Option.some.inj (portal.symm.trans before)
        exact past ⟨p', here, pos, on⟩
      · intro position
        exact past (position 0 _ first)
  · have none : (rowRounds types atomic target body (fuel + 1) h w).2.rounds = [] := by
      apply rowRounds_none
      intro row entry fetched
      exact assignable ((fetchCursorRow_first atomic ctx portal).mp ⟨row, entry, fetched⟩)
    rw [none]
    exact ⟨iff_of_true nofun (.inr assignable), fun _ => iff_of_true nofun (.inr assignable)⟩

end Rounds

/-! ### The cursor variable -/

section CursorVariable

variable {types : RowTypes D} {atomic : Bool} {h dno rectypeid : Nat} {w : World D V}

theorem execMoveRow_cursors (types : RowTypes D) (dno rectypeid : Nat) (tup : Option (Tuple D)) (td : TupDesc)
    (w : World D V) : (execMoveRow types (.record dno rectypeid) tup td w).world.cursors = w.cursors := by
  cases tup with
  | none => rfl
  | some tup =>
    rw [execMoveRow]
    split <;> rfl

theorem moveAndRemember_cursors (c : CursorCtx D) (matching : Bool) (tup : Tuple D) (w : World D V) :
    (moveAndRemember types (.record dno rectypeid) h c matching tup w).world.cursors = w.cursors := by
  have moved := execMoveRow_cursors types dno rectypeid (some tup) c.tupdesc w
  rw [moveAndRemember]
  split
  next e w₁ eq => rw [eq] at moved; exact moved
  next w₁ eq =>
    rw [eq] at moved
    simp only
    split
    next => exact moved
    next => exact moved

/-- Fetching into a record does not touch cursor variables. -/
theorem fetchCursorRow_cursors (types : RowTypes D) (atomic : Bool) (dno rectypeid h : Nat) (w : World D V) :
    (fetchCursorRow types atomic (.record dno rectypeid) h w).world.cursors = w.cursors := by
  rw [fetchCursorRow]
  split
  next => rfl
  next c ctx =>
    split
    next tup here =>
      simp only [assignFromBatch]
      split
      next => exact moveAndRemember_cursors _ _ tup _
      next erh record =>
        split
        next =>
          rw [expandedRecordSetTuple]
          cases types.checkDomain rectypeid tup <;> rfl
        next => exact moveAndRemember_cursors _ _ tup _
    next =>
      rw [nextBatch, spiCursorFetch]
      cases w.portals c.portal with
      | none => rfl
      | some p =>
        simp only
        cases (p.fetch (fetchCount atomic c.vals.length)).1 with
        | nil => exact execMoveRow_cursors types dno rectypeid none p.tupdesc _
        | cons tup rest => exact moveAndRemember_cursors _ _ tup _

/-- The world after the last round, or at the start. -/
def LoopRun.lastWorld (start : World D V) (run : LoopRun D V) : World D V :=
  match run.rounds.getLast? with
  | none => start
  | some last => last.exit

theorem BetweenRounds.lastWorld {body : Body D V} {start world w' : World D V} {rounds : List (Round D V)}
    (between : BetweenRounds body start world rounds) {how : LoopEnd} :
    LoopRun.lastWorld start ⟨how, w', rounds⟩ = world := by
  unfold BetweenRounds at between
  unfold LoopRun.lastWorld
  split at between
  next none => simp only [none, between]
  next last some => simp only [some, between.1]

/-- A loop into a record that ends in its function leaves the cursor variables as
the last round left them. -/
theorem rowLoop_cursors {body : Body D V} {name fuel : Nat} {td : TupDesc} {close : World D V → World D V}
    (quiet : ∀ w, (close w).cursors = w.cursors) (keeps : body.KeepsCtxs) (pinned : body.KeepsPinned name)
    (reads : w.Reads h name td) {run : LoopRun D V}
    (eq : rowLoop types atomic (.record dno rectypeid) body close fuel h w = run)
    (ends : run.how = .exhausted ∨ run.how = .exit ∨ run.how = .leave) :
    run.world.cursors = (run.lastWorld w).cursors := by
  obtain ⟨found, inner, rounds⟩ :
      ∃ found inner, rowRounds types atomic (.record dno rectypeid) body fuel h w = (found, inner) :=
    ⟨_, _, rfl⟩
  -- The rounds end so, and the closing does not matter.
  obtain ⟨w', same, rfl⟩ : ∃ w', w'.cursors = inner.world.cursors ∧ run = { inner with world := w' } := by
    rw [← eq, rowLoop, rounds]
    simp only
    split
    · exact ⟨{ close inner.world with found }, quiet inner.world, rfl⟩
    · exact ⟨{ close inner.world with found }, quiet inner.world, rfl⟩
    · exact ⟨_, quiet inner.world, rfl⟩
    · exact ⟨_, rfl, rfl⟩
    · exact ⟨_, rfl, rfl⟩
  simp only at ends ⊢
  rw [same]
  rcases rowRounds_stops keeps pinned fuel reads with spent | ⟨s, -, between, stop⟩
  · rw [rounds] at spent
    rw [spent] at ends
    rcases ends with ends | ends | ends <;> cases ends
  · rw [rounds] at stop
    rcases rowRound_stop stop with ⟨e, w₁, -, rfl⟩ | ⟨w₁, fetched, rfl⟩ | ⟨row, entry, -, -, rfl⟩
    · rcases ends with ends | ends | ends <;> cases ends
    · have kept := fetchCursorRow_cursors types atomic dno rectypeid h s.world
      rw [fetched] at kept
      rw [between.lastWorld]
      exact kept
    · unfold LoopRun.lastWorld
      simp only [List.getLast?_concat]
      rfl

/-- The cursor variable after a loop over a bound cursor: NULL if it was, and
otherwise as the last round left it. -/
def LoopRun.RestoresCursor (curvar : Nat) (before opened : World D V) (run : LoopRun D V) : Prop :=
  run.world.cursors curvar =
    if before.cursors curvar = none then none else (run.lastWorld opened).cursors curvar

theorem execOpenForcCursor_cursor {stmt : ForcStmt D V} {name : Nat} {td : TupDesc} {opened : World D V}
    (eq : execOpenForcCursor stmt w = .ok (name, td) opened) (null : w.cursors stmt.curvar = none) :
    opened.cursors stmt.curvar = some name := by
  obtain ⟨w₁, w₂, rows, -, -, -, rfl⟩ := execOpenForcCursor_ok eq
  rw [if_pos null]
  exact Function.update_self ..

theorem firstAssignable_withCursors (types : RowTypes D) (target : LoopTarget) (rows : List (Tuple D))
    (td : TupDesc) (w src : World D V) :
    FirstAssignable types target rows td (w.withCursors src) ↔ FirstAssignable types target rows td w := by
  unfold FirstAssignable
  constructor
  · rintro ⟨row, moved, here, eq⟩
    rw [execMoveRow_withCursors] at eq
    cases plain : execMoveRow types target (some row) td w with
    | raise e w₁ =>
      rw [plain] at eq
      cases eq
    | ok u w₁ => exact ⟨row, w₁, here, plain⟩
  · rintro ⟨row, moved, here, eq⟩
    exact ⟨row, _, here, by rw [execMoveRow_withCursors, eq]; rfl⟩

end CursorVariable

theorem rowLoop_rounds (types : RowTypes D) (atomic : Bool) (target : LoopTarget) (body : Body D V)
    (close : World D V → World D V) (fuel h : Nat) (w : World D V) :
    (rowLoop types atomic target body close fuel h w).rounds =
      (rowRounds types atomic target body fuel h w).2.rounds := by
  rw [rowLoop]
  simp only
  split <;> rfl

/-- A compiled loop over a bound cursor has the portal on the row of each round
exactly where it does not prefetch or makes no round, and leaves the cursor
variable as the interpreter does exactly where it was not NULL before the loop or
the last round made it so. -/
theorem forc_cursor_state (types : RowTypes D) (atomic : Bool) (stmt : ForcStmt D V) (body : Body D V)
    (fuel name : Nat) (td : TupDesc) (w opened : World D V)
    (opens : execOpenForcCursor stmt w = .ok (name, td) opened) (keeps : body.KeepsCtxs)
    (pinned : body.KeepsPinned name) :
    let run := compiledForc types atomic stmt body (fuel + 1) w
    (∃ rows, opened.portals name = some (.opened rows td) ∧
      ((∀ r ∈ run.rounds, r.OneRow name) ↔
        (atomic = false ∨ ¬FirstAssignable types stmt.var rows td opened)) ∧
      (body.SparesPortal name →
        ((∀ i (r : Round D V), run.rounds[i]? = some r → r.entry.OnRow name (i + 1)) ↔
          (atomic = false ∨ ¬FirstAssignable types stmt.var rows td opened)))) ∧
    (run.how = .exhausted ∨ run.how = .exit ∨ run.how = .leave →
      (run.RestoresCursor stmt.curvar w opened ↔ (w.cursors stmt.curvar ≠ none ∨
        ∃ last, run.rounds.getLast? = some last ∧ last.exit.cursors stmt.curvar = none))) := by
  intro run
  obtain ⟨rows, portal⟩ := execOpenForcCursor_portal opens
  have loop : run = rowLoop types atomic stmt.var body (rtCloseForcCursor opened.freshCtx) (fuel + 1)
      opened.freshCtx (opened.setCtx opened.freshCtx (.zero name td)) := by
    simp only [run, compiledForc, opens]
  have ctx : (opened.setCtx opened.freshCtx (.zero name td)).ctxs opened.freshCtx = some (.zero name td) :=
    Function.update_self ..
  constructor
  · refine ⟨rows, portal, ?_⟩
    rw [loop, rowLoop_rounds]
    -- Opening the context of the loop says nothing about the rows.
    have assignable : FirstAssignable types stmt.var rows td (opened.setCtx opened.freshCtx (.zero name td)) ↔
        FirstAssignable types stmt.var rows td opened :=
      firstAssignable_withCursors types stmt.var rows td opened (opened.setCtx opened.freshCtx (.zero name td))
    rw [← assignable]
    exact rowRounds_position keeps pinned atomic fuel ctx portal rfl
  · intro ends
    have quiet (w : World D V) : (rtCloseForcCursor opened.freshCtx w).cursors = w.cursors := by
      rw [rtCloseForcCursor]
      split <;> rfl
    -- The end of the loop leaves the cursor variables as the last round did.
    have left := rowLoop_cursors quiet keeps pinned ⟨_, _, ctx, rfl, portal, rfl⟩ loop.symm ends
    unfold LoopRun.RestoresCursor
    rw [left]
    by_cases null : w.cursors stmt.curvar = none
    · rw [if_pos null]
      simp only [null, ne_eq, not_true_eq_false, false_or]
      unfold LoopRun.lastWorld
      cases run.rounds.getLast? with
      | none =>
        -- The variable was NULL, and the name of the portal is stored in it.
        have generated := execOpenForcCursor_cursor opens null
        simp [World.setCtx, generated]
      | some last => simp
    · rw [if_neg null]
      -- It was not NULL, and nothing is stored in it at either end.
      refine iff_of_true ?_ (.inl null)
      unfold LoopRun.lastWorld
      split <;> rfl

/-- `FOR r IN c LOOP` over a cursor without arguments. -/
def int4Forc (n : Nat) : ForcStmt Nat Unit where
  curvar := 0
  refname := "c"
  isconst := false
  dno := 1
  rectypeid := recordOid
  argquery := none
  cursorExplicitArgrow := false
  cursorExplicitExpr w := .ok (int4Rows n, int4Column) w

theorem forc_cursor_state_named :
    (compiledForc plainTypes false (int4Forc 2) Body.skip 5 (World.initial.setCursor 0 (some 7))).RestoresCursor 0
      (World.initial.setCursor 0 (some 7))
      ((World.initial.setCursor 0 (some 7)).setPortal 7 (.opened (int4Rows 2) int4Column)) := by
  have state := forc_cursor_state plainTypes false (int4Forc 2) Body.skip 4 7 int4Column
    (World.initial.setCursor 0 (some 7)) _ rfl (fun _ _ _ here => here) (fun _ p here => ⟨p, here, rfl⟩)
  exact (state.2 (.inl rfl)).mpr (.inl nofun)

/-- `FOR r IN c LOOP END LOOP` over two rows, in a function: the first round has
the portal at its end, and `c` keeps the generated name. -/
theorem compiledForc_prefetches :
    ¬(∀ r ∈ (compiledForc plainTypes true (int4Forc 2) Body.skip 5 World.initial).rounds, r.OneRow 0) ∧
      (compiledForc plainTypes true (int4Forc 2) Body.skip 5 World.initial).how = .exhausted ∧
      World.initial.cursors 0 = none ∧
      (compiledForc plainTypes true (int4Forc 2) Body.skip 5 World.initial).world.cursors 0 = some 0 := by
  refine ⟨?_, rfl, rfl, rfl⟩
  intro each
  obtain ⟨p, p', before, entry, -, -, on⟩ := each _ (.head _)
  cases entry
  cases on

end Uplpgsql
