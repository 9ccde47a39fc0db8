import Mathlib.Data.Finset.Basic
import Mathlib.Data.Finset.Lattice.Lemmas
import Uplpgsql.Exec

/-!
# Two executions under one scope

A statement is executed in two environments whose worlds agree on the variables that
can be seen where it stands. If every action keeps the agreement, so does every
statement.

An action that fails may leave the local variables different, those declared within the
innermost exception block: where the error is caught they can no longer be seen.
-/

namespace Uplpgsql

open Lib.Iteration

/-! ### Spots -/

/-- Where a statement stands: the variables that can be seen, and those declared
within the innermost exception block. -/
structure Spot where
  seen : Finset Nat
  locals : Finset Nat
  deriving DecidableEq

namespace Spot

/-- What can still be seen where an error is caught. -/
def kept (p : Spot) : Finset Nat := p.seen \ p.locals

/-- The inside of a block. -/
def declare (p : Spot) (initvars : List Nat) : Spot where
  seen := p.seen ∪ initvars.toFinset
  locals := p.locals ∪ initvars.toFinset

/-- The inside of a block with handlers: its own variables outlive an error. -/
def guard (p : Spot) (initvars : List Nat) : Spot where
  seen := p.seen ∪ initvars.toFinset
  locals := ∅

/-- The variables of a loop or of a CASE, or SQLSTATE and SQLERRM. -/
def bind (p : Spot) (dnos : Finset Nat) : Spot where
  seen := p.seen ∪ dnos
  locals := p.locals

theorem kept_subset (p : Spot) : p.kept ⊆ p.seen := Finset.sdiff_subset

theorem kept_declare {p : Spot} {initvars : List Nat} (fresh : ∀ d ∈ initvars, d ∉ p.seen) :
    p.kept ⊆ (p.declare initvars).kept := by
  intro d mem
  obtain ⟨seen, nonlocal⟩ := Finset.mem_sdiff.mp mem
  refine Finset.mem_sdiff.mpr ⟨Finset.mem_union_left _ seen, fun declared => ?_⟩
  rcases Finset.mem_union.mp declared with declared | new
  · exact nonlocal declared
  · exact fresh d (List.mem_toFinset.mp new) seen

theorem kept_guard (p : Spot) (initvars : List Nat) : p.kept ⊆ (p.guard initvars).kept := by
  intro d mem
  exact Finset.mem_sdiff.mpr ⟨Finset.mem_union_left _ (p.kept_subset mem), Finset.notMem_empty d⟩

theorem kept_bind (p : Spot) (dnos : Finset Nat) : p.kept ⊆ (p.bind dnos).kept :=
  Finset.sdiff_subset_sdiff Finset.subset_union_left subset_rfl

end Spot

/-- What the actions may refer to, where they stand. -/
structure Uses where
  leaf : Nat → Spot → Prop
  initVar : Nat → Finset Nat → Prop
  caseTest : Nat → Nat → Finset Nat → Prop
  ret : Nat → Finset Nat → Prop
  expr : Nat → Finset Nat → Prop
  portal : ForKind → Nat → Finset Nat → Prop
  /-- The variables that a row loop or a FOREACH assigns its rows or elements to. -/
  rowTarget : ForKind → Nat → Finset Nat
  array : Nat → Finset Nat → Prop
  handlerVars : Finset Nat

/-- The variables of a block are new; each may be initialised from those before it. -/
def Uses.initVars (U : Uses) : List Nat → Finset Nat → Prop
  | [], _ => True
  | dno :: rest, seen => U.initVar dno seen ∧ U.initVars rest (insert dno seen)

def Uses.test (U : Uses) (test : Option (Nat × Nat)) (seen : Finset Nat) : Prop :=
  match test with
  | none => True
  | some (varno, expr) => U.caseTest varno expr seen

/-- The temporary of a simple CASE. -/
def testVar (test : Option (Nat × Nat)) : Finset Nat :=
  match test with
  | none => ∅
  | some (varno, _) => {varno}

mutual

/-- The names of the statement are resolved where it stands. -/
def Stmt.placed (U : Uses) (p : Spot) : Stmt → Prop
  | .leaf id => U.leaf id p
  | .block _ initvars body =>
    (∀ d ∈ initvars, d ∉ p.seen) ∧ U.initVars initvars p.seen ∧ body.placed U (p.declare initvars)
  | .blockExceptions _ initvars body exceptions =>
    U.initVars initvars p.seen ∧ body.placed U (p.guard initvars) ∧
      exceptions.placed U ((p.guard initvars).bind U.handlerVars)
  | .cond expr thenBody elsifs elseBody =>
    U.expr expr p.seen ∧ thenBody.placed U p ∧ elsifs.placed U p ∧ elseBody.placed U p
  | .case test whens _ elseStmts =>
    U.test test p.seen ∧ whens.placed U (p.bind (testVar test)) ∧
      elseStmts.placed U (p.bind (testVar test))
  | .condLoop _ expr _ body => U.expr expr p.seen ∧ body.placed U p
  | .loop _ body => body.placed U p
  | .fori _ var lower upper step _ body =>
    U.expr lower p.seen ∧ U.expr upper p.seen ∧ (∀ expr ∈ step, U.expr expr p.seen) ∧
      body.placed U (p.bind {var})
  | .forq kind _ id body => U.portal kind id p.seen ∧ body.placed U (p.bind (U.rowTarget kind id))
  | .foreachA _ id body => U.array id p.seen ∧ body.placed U p
  | .exit _ _ cond => ∀ expr ∈ cond, U.expr expr p.seen
  | .ret id => U.ret id p.seen

def Stmts.placed (U : Uses) (p : Spot) : Stmts → Prop
  | .nil => True
  | .cons head tail => head.placed U p ∧ tail.placed U p

def Whens.placed (U : Uses) (p : Spot) : Whens → Prop
  | .nil => True
  | .cons expr body rest => U.expr expr p.seen ∧ body.placed U p ∧ rest.placed U p

def Exceptions.placed (U : Uses) (p : Spot) : Exceptions → Prop
  | .nil => True
  | .cons _ action rest => action.placed U p ∧ rest.placed U p

end

/-! ### Agreement -/

variable {W V : Type} {α : Type}

section Agreement

variable (R : Finset Nat → W → V → Prop)

/-- Two actions end alike, agreeing on `after` if they succeed and on `onError` if
they fail. -/
inductive ResTracks (after : α → Finset Nat) (onError : Finset Nat) : Res W α → Res V α → Prop where
  | ok {value : α} {w : W} {v : V} (agree : R (after value) w v) :
    ResTracks after onError (.ok value w) (.ok value v)
  | raise {edata : ErrorData} {w : W} {v : V} (agree : R onError w v) :
    ResTracks after onError (.raise edata w) (.raise edata v)

inductive Tracks (after onError : Finset Nat) : ExecOut W → ExecOut V → Prop where
  | done {rc : Rc} {w : W} {v : V} (agree : R after w v) : Tracks after onError (.done rc w) (.done rc v)
  | err {edata : ErrorData} {w : W} {v : V} (agree : R onError w v) :
    Tracks after onError (.err edata w) (.err edata v)
  | spent {w : W} {v : V} : Tracks after onError (.spent w) (.spent v)

variable {R}

theorem ResTracks.weaken {after after' : α → Finset Nat} {onError onError' : Finset Nat} {r : Res W α} {r' : Res V α}
    (mono : ∀ {s t w v}, s ⊆ t → R t w v → R s w v) (tracks : ResTracks R after onError r r')
    (le : ∀ value, after' value ⊆ after value) (leError : onError' ⊆ onError) :
    ResTracks R after' onError' r r' := by
  cases tracks with
  | ok agree => exact .ok (mono (le _) agree)
  | raise agree => exact .raise (mono leError agree)

variable (R)

/-- Every action keeps the agreement. -/
structure Tracking (env : Env W) (env' : Env V) (U : Uses) : Prop where
  mono : ∀ {s t w v}, s ⊆ t → R t w v → R s w v
  leaf : ∀ {id p w v}, U.leaf id p → R p.seen w v →
    ResTracks R (fun _ => p.seen) p.kept (env.leaf id w) (env'.leaf id v)
  initVar : ∀ {dno s w v}, U.initVar dno s → R s w v →
    ResTracks R (fun _ => insert dno s) s (env.initVar dno w) (env'.initVar dno v)
  caseAssignTest : ∀ {varno expr s w v}, U.caseTest varno expr s → R s w v →
    ResTracks R (fun _ => s ∪ {varno}) s (env.caseAssignTest varno expr w) (env'.caseAssignTest varno expr v)
  assignNull : ∀ {dno s w v}, R s w v → R s (env.assignNull dno w) (env'.assignNull dno v)
  execReturn : ∀ {id s w v}, U.ret id s → R s w v →
    ResTracks R (fun _ => s) s (env.execReturn id w) (env'.execReturn id v)
  evalBool : ∀ {expr s w v}, U.expr expr s → R s w v →
    ResTracks R (fun _ => s) s (env.evalBool expr w) (env'.evalBool expr v)
  evalInt : ∀ {expr s w v}, U.expr expr s → R s w v →
    ResTracks R (fun _ => s) s (env.evalInt expr w) (env'.evalInt expr v)
  assignInt : ∀ {var value s w v}, R s w v →
    ResTracks R (fun _ => s ∪ {var}) s (env.assignInt var value w) (env'.assignInt var value v)
  setFound : ∀ {b s w v}, R s w v → R s (env.setFound b w) (env'.setFound b v)
  openPortal : ∀ {kind id s w v}, U.portal kind id s → R s w v →
    ResTracks R (fun _ => s) s (env.openPortal kind id w) (env'.openPortal kind id v)
  fetchRow : ∀ {kind id handle s w v}, U.portal kind id s → R s w v →
    ResTracks R (fun more => if more then s ∪ U.rowTarget kind id else s) s
      (env.fetchRow kind id handle w) (env'.fetchRow kind id handle v)
  closePortal : ∀ {kind id handle s w v}, R s w v →
    R s (env.closePortal kind id handle w) (env'.closePortal kind id handle v)
  beginSub : ∀ {s w v}, R s w v → R s (env.beginSub w) (env'.beginSub v)
  releaseSub : ∀ {s w v}, R s w v → R s (env.releaseSub w) (env'.releaseSub v)
  rollbackSub : ∀ {s w v}, R s w v → R s (env.rollbackSub w) (env'.rollbackSub v)
  setHandlerVars : ∀ {edata s w v}, R s w v →
    R (s ∪ U.handlerVars) (env.setHandlerVars edata w) (env'.setHandlerVars edata v)
  foreachStart : ∀ {id s w v}, U.array id s → R s w v →
    ResTracks R (fun _ => s) s (env.foreachStart id w) (env'.foreachStart id v)
  foreachNext : ∀ {id s w v}, U.array id s → R s w v →
    ResTracks R (fun _ => s) s (env.foreachNext id w) (env'.foreachNext id v)
  foreachEnd : ∀ {id s w v}, R s w v → R s (env.foreachEnd id w) (env'.foreachEnd id v)

end Agreement

/-! ### Pieces of statements -/

section Pieces

variable {R : Finset Nat → W → V → Prop} {env : Env W} {env' : Env V} {U : Uses}
variable {after after' onError onError' : Finset Nat} {o : ExecOut W} {o' : ExecOut V}

/-- Two executions agree from wherever their worlds do. -/
def Follow (R : Finset Nat → W → V → Prop) (before after onError : Finset Nat) (f : Exec W) (g : Exec V) :
    Prop :=
  ∀ w v, R before w v → Tracks R after onError (f w) (g v)

theorem Tracks.weaken (T : Tracking R env env' U) (tracks : Tracks R after onError o o')
    (le : after' ⊆ after) (leError : onError' ⊆ onError) : Tracks R after' onError' o o' := by
  cases tracks with
  | done agree => exact .done (T.mono le agree)
  | err agree => exact .err (T.mono leError agree)
  | spent => exact .spent

/-- What the worlds agree in may be less. -/
theorem Tracks.coarsen {R' : Finset Nat → W → V → Prop} (tracks : Tracks R after onError o o')
    (le : ∀ s w v, R s w v → R' s w v) : Tracks R' after onError o o' := by
  cases tracks with
  | done agree => exact .done (le _ _ _ agree)
  | err agree => exact .err (le _ _ _ agree)
  | spent => exact .spent

theorem Tracks.mapRc (tracks : Tracks R after onError o o') (f : Rc → Rc) :
    Tracks R after onError (o.mapRc f) (o'.mapRc f) := by
  cases tracks with
  | done agree => exact .done agree
  | err agree => exact .err agree
  | spent => exact .spent

theorem Tracks.mapDone (tracks : Tracks R after onError o o') {f : W → W} {g : V → V}
    (keeps : ∀ w v, R after w v → R after (f w) (g v)) :
    Tracks R after onError (o.mapDone f) (o'.mapDone g) := by
  cases tracks with
  | done agree => exact .done (keeps _ _ agree)
  | err agree => exact .err agree
  | spent => exact .spent

/-- An action, and what is done with its result. -/
theorem ResTracks.exec {settled : α → Finset Nat} {failed : Finset Nat} {r : Res W α} {r' : Res V α}
    {next : α → Exec W} {next' : α → Exec V} (T : Tracking R env env' U)
    (tracks : ResTracks R settled failed r r') (le : onError ⊆ failed)
    (follow : ∀ value, Follow R (settled value) after onError (next value) (next' value)) :
    Tracks R after onError (r.exec next) (r'.exec next') := by
  cases tracks with
  | ok agree => exact follow _ _ _ agree
  | raise agree => exact .err (T.mono le agree)

theorem Follow.done (before onError : Finset Nat) (rc : Rc) :
    Follow R before before onError (fun w => .done rc w) fun v => .done rc v :=
  fun _ _ agree => .done agree

theorem Follow.seq {before middle : Finset Nat} {f₁ f₂ : Exec W} {g₁ g₂ : Exec V}
    (T : Tracking R env env' U) (first : Follow R before middle onError f₁ g₁)
    (second : Follow R middle after onError f₂ g₂) (le : after ⊆ middle) :
    Follow R before after onError (execSeq f₁ f₂) (execSeq g₁ g₂) := by
  intro w v agree
  have tracks := first w v agree
  unfold execSeq
  revert tracks
  generalize f₁ w = o
  generalize g₁ v = o'
  rintro (agree | agree | _)
  · rename_i rc _ _
    cases rc with
    | ok => exact second _ _ agree
    | exit label => exact .done (T.mono le agree)
    | «continue» label => exact .done (T.mono le agree)
    | ret => exact .done (T.mono le agree)
  · exact .err agree
  · exact .spent

theorem follow_op {op : Op} {before settled failed : Finset Nat} (T : Tracking R env env' U)
    (tracks : ∀ w v, R before w v → ResTracks R (fun _ => settled) failed (env.call op w) (env'.call op v))
    (le : onError ⊆ failed) : Follow R before settled onError (execOp env op) (execOp env' op) :=
  fun w v agree => (tracks w v agree).exec T le fun _ => .done settled onError .ok

theorem follow_initVars (T : Tracking R env env' U) (initvars : List Nat) {before : Finset Nat}
    (uses : U.initVars initvars before) (le : onError ⊆ before) :
    Follow R before (before ∪ initvars.toFinset) onError (execInitVars env initvars)
      (execInitVars env' initvars) := by
  induction initvars generalizing before with
  | nil =>
    rw [List.toFinset_nil, Finset.union_empty]
    exact .done before onError .ok
  | cons dno rest ih =>
    have grown : before ∪ (dno :: rest).toFinset = insert dno before ∪ rest.toFinset := by
      rw [List.toFinset_cons, Finset.union_insert, Finset.insert_union]
    have first : Follow R before (insert dno before) onError (execOp env (.initVar dno))
        (execOp env' (.initVar dno)) := follow_op T (fun _ _ => T.initVar uses.1) le
    have second := ih uses.2 (le.trans (Finset.subset_insert _ _))
    rw [grown]
    -- the variables after the first may not have been reached
    intro w v agree
    have tracks := first w v agree
    unfold execInitVars execSeq
    revert tracks
    unfold execOp Res.exec
    cases env.call (.initVar dno) w <;> cases env'.call (.initVar dno) v <;> rintro (agree | agree | _)
    · exact second _ _ agree
    · exact .err agree

theorem follow_when {expr : Nat} {before : Finset Nat} {matched rest : Exec W} {matched' rest' : Exec V}
    (T : Tracking R env env' U) (uses : U.expr expr before) (le : onError ⊆ before)
    (yes : Follow R before after onError matched matched') (no : Follow R before after onError rest rest') :
    Follow R before after onError (execWhen env expr matched rest) (execWhen env' expr matched' rest') := by
  refine fun w v agree => (T.evalBool uses agree).exec T le fun value w v agree => ?_
  split
  · exact yes w v agree
  · exact no w v agree

theorem follow_clearTest (T : Tracking R env env' U) (test : Option (Nat × Nat)) (before onError : Finset Nat) :
    Follow R before before onError (execClearTest env test) (execClearTest env' test) := by
  cases test with
  | none => exact .done before onError .ok
  | some pair => exact fun w v agree => .done (T.assignNull agree)

theorem follow_caseTest {test : Option (Nat × Nat)} {before : Finset Nat} (T : Tracking R env env' U)
    (uses : U.test test before) (le : onError ⊆ before) :
    Follow R before (before ∪ testVar test) onError (execCaseTest env test) (execCaseTest env' test) := by
  cases test with
  | none =>
    unfold testVar
    rw [Finset.union_empty]
    exact .done before onError .ok
  | some pair => exact follow_op T (fun _ _ => T.caseAssignTest uses) le

theorem follow_caseElse (haveElse : Bool) {before : Finset Nat} {elseStmts : Exec W} {elseStmts' : Exec V}
    (T : Tracking R env env' U) (test : Option (Nat × Nat)) (le : onError ⊆ before)
    (follow : Follow R before before onError elseStmts elseStmts') :
    Follow R before before onError (execCaseElse env test haveElse elseStmts)
      (execCaseElse env' test haveElse elseStmts') := by
  refine (follow_clearTest T test before onError).seq T ?_ subset_rfl
  cases haveElse with
  | true => exact follow
  | false => exact fun w v agree => .err (T.mono le agree)

/-! ### Loops -/

/-- Two rounds agree: both go on, or both stop. -/
inductive RoundTracks {β γ : Type} (Rel : β → γ → Prop) (after onError : Finset Nat)
    (R : Finset Nat → W → V → Prop) : β ⊕ ExecOut W → γ ⊕ ExecOut V → Prop where
  | again {b : β} {c : γ} (rel : Rel b c) : RoundTracks Rel after onError R (.inl b) (.inl c)
  | stop {o : ExecOut W} {o' : ExecOut V} (tracks : Tracks R after onError o o') :
    RoundTracks Rel after onError R (.inr o) (.inr o')

theorem loopN_tracks {β γ : Type} {body : β → β ⊕ ExecOut W} {body' : γ → γ ⊕ ExecOut V}
    (out : β → W) (out' : γ → V) (Rel : β → γ → Prop)
    (round : ∀ b c, Rel b c → RoundTracks Rel after onError R (body b) (body' c)) (n : Nat) (b : β) (c : γ)
    (rel : Rel b c) :
    Tracks R after onError (loopN body (fun b => .spent (out b)) n b)
      (loopN body' (fun c => .spent (out' c)) n c) := by
  refine loopN_related Rel (Tracks R after onError) (fun _ => True) (fun _ => True) (fun _ _ _ => trivial)
    (fun _ _ _ _ => .spent) (fun b c rel => ?_) n b c rel trivial
  have tracks := round b c rel
  revert tracks
  generalize body b = x
  generalize body' c = y
  rintro (rel | tracks)
  · exact fun _ => ⟨_, rfl, rel⟩
  · exact fun _ => ⟨_, rfl, tracks⟩

theorem afterBody_tracks (label : Option Nat) (tracks : Tracks R after onError o o') :
    RoundTracks (R after) after onError R (afterBody label o) (afterBody label o') := by
  cases tracks with
  | @done rc w v agree =>
    unfold afterBody
    dsimp only
    cases loopRcProcessing label rc with
    | none => exact .again agree
    | some rc => exact .stop (.done agree)
  | err agree => exact .stop (.err agree)
  | spent => exact .stop .spent

theorem follow_loop {body : Exec W} {body' : Exec V} {before : Finset Nat} (fuel : Nat) (label : Option Nat)
    (follow : Follow R before before onError body body') :
    Follow R before before onError (execStmtLoop fuel label body) (execStmtLoop fuel label body') := by
  intro w v agree
  have round (w : W) (v : V) (agree : R before w v) :=
    afterBody_tracks label (follow w v agree)
  exact loopN_tracks id id _ round fuel w v agree

theorem follow_while {body : Exec W} {body' : Exec V} {before : Finset Nat} {expr : Nat} {testAtTop : Bool}
    (T : Tracking R env env' U) (fuel : Nat) (label : Option Nat) (uses : U.expr expr before)
    (le : onError ⊆ before) (follow : Follow R before before onError body body') :
    Follow R before before onError (execStmtWhile env fuel label expr testAtTop body)
      (execStmtWhile env' fuel label expr testAtTop body') := by
  intro w v agree
  refine loopN_tracks id id (R before) (fun w v agree => ?_) fuel w v agree
  cases testAtTop with
  | true =>
    have tested := T.evalBool uses agree
    revert tested
    simp only [if_true]
    generalize env.evalBool expr w = r
    generalize env'.evalBool expr v = r'
    rintro (agree | agree)
    · dsimp only
      split
      · exact afterBody_tracks label (follow _ _ agree)
      · exact .stop (.done agree)
    · exact .stop (.err (T.mono le agree))
  | false =>
    have tracks := afterBody_tracks label (follow w v agree)
    revert tracks
    simp only [Bool.false_eq_true, if_false]
    generalize afterBody label (body w) = x
    generalize afterBody label (body' v) = y
    rintro (agree | tracks)
    · have tested := T.evalBool uses agree
      revert tested
      rename_i w v
      dsimp only
      generalize env.evalBool expr w = r
      generalize env'.evalBool expr v = r'
      rintro (agree | agree)
      · dsimp only
        split
        · exact .stop (.done agree)
        · exact .again agree
      · exact .stop (.err (T.mono le agree))
    · exact .stop tracks

/-- The rounds of a FOR loop whose body is left for good or for another round. -/
theorem leave_tracks {β γ : Type} {Rel : β → γ → Prop} {x : W ⊕ ExecOut W} {y : V ⊕ ExecOut V}
    {next : W → β ⊕ ExecOut W} {next' : V → γ ⊕ ExecOut V} {leave : W → W} {leave' : V → V}
    {inner : Finset Nat} (T : Tracking R env env' U) (le : after ⊆ inner)
    (keeps : ∀ w v, R after w v → R after (leave w) (leave' v))
    (follow : ∀ w v, R inner w v → RoundTracks Rel after onError R (next w) (next' v)) :
    RoundTracks (R inner) inner onError R x y →
    RoundTracks Rel after onError R
      (match x with
        | .inr out => .inr (out.mapDone leave)
        | .inl w => next w)
      (match y with
        | .inr out => .inr (out.mapDone leave')
        | .inl v => next' v) := by
  rintro (agree | tracks)
  · exact follow _ _ agree
  · exact .stop ((tracks.weaken T le subset_rfl).mapDone keeps)

theorem foriRound_tracks {body : Exec W} {body' : Exec V} {before : Finset Nat} {var : Nat}
    {upper step : BitVec 32} {reverse : Bool} (T : Tracking R env env' U) (label : Option Nat)
    (le : onError ⊆ before) (follow : Follow R (before ∪ {var}) (before ∪ {var}) onError body body')
    (s : ForiState W) (s' : ForiState V)
    (rel : R before s.w s'.w ∧ s.value = s'.value ∧ s.found = s'.found) :
    RoundTracks (fun s s' => R before s.w s'.w ∧ s.value = s'.value ∧ s.found = s'.found) before onError R
      (foriRound env label var upper step reverse body s)
      (foriRound env' label var upper step reverse body' s') := by
  obtain ⟨agree, value, found⟩ := rel
  unfold foriRound
  rw [← value, ← found]
  split
  · exact .stop (.done (T.setFound agree))
  · have assigned : ResTracks R (fun _ => before ∪ {var}) before (env.assignInt var s.value s.w)
        (env'.assignInt var s.value s'.w) := T.assignInt agree
    revert assigned
    generalize env.assignInt var s.value s.w = r
    generalize env'.assignInt var s.value s'.w = r'
    rintro (agree | agree)
    · dsimp only
      refine leave_tracks T Finset.subset_union_left (fun _ _ => T.setFound) (fun w v agree => ?_)
        (afterBody_tracks label (follow _ _ agree))
      have outer := T.mono Finset.subset_union_left agree
      split
      · exact .stop (.done (T.setFound outer))
      · exact .again ⟨outer, rfl, rfl⟩
    · exact .stop (.err (T.mono le agree))

/-- A bound or a step that is an expression. -/
theorem execBound_tracks {expr : Nat} {before : Finset Nat} (T : Tracking R env env' U) (role : BoundRole)
    (uses : U.expr expr before) {w : W} {v : V} (agree : R before w v) :
    ResTracks R (fun _ => before) before (execBound env role expr w) (execBound env' role expr v) := by
  have tracks := T.evalInt uses agree
  unfold execBound
  revert tracks
  generalize env.evalInt expr w = r
  generalize env'.evalInt expr v = r'
  rintro (agree | agree)
  · rename_i value _ _
    cases value with
    | none => exact .raise agree
    | some value => exact .ok agree
  · exact .raise agree

theorem execStep_tracks {step : Option Nat} {before : Finset Nat} (T : Tracking R env env' U)
    (uses : ∀ expr ∈ step, U.expr expr before) {w : W} {v : V} (agree : R before w v) :
    ResTracks R (fun _ => before) before (execStep env step w) (execStep env' step v) := by
  cases step with
  | none => exact .ok agree
  | some expr =>
    have tracks := execBound_tracks T .step (uses expr rfl) agree
    unfold execStep
    revert tracks
    dsimp only
    generalize execBound env .step expr w = r
    generalize execBound env' .step expr v = r'
    rintro (agree | agree)
    · dsimp only
      split
      · exact .raise agree
      · exact .ok agree
    · exact .raise agree

theorem follow_fori {body : Exec W} {body' : Exec V} {before : Finset Nat} {var lower upper : Nat}
    {step : Option Nat} {reverse : Bool} (T : Tracking R env env' U) (fuel : Nat) (label : Option Nat)
    (usesLower : U.expr lower before) (usesUpper : U.expr upper before)
    (usesStep : ∀ expr ∈ step, U.expr expr before) (le : onError ⊆ before)
    (follow : Follow R (before ∪ {var}) (before ∪ {var}) onError body body') :
    Follow R before before onError (execStmtFori env fuel label var lower upper step reverse body)
      (execStmtFori env' fuel label var lower upper step reverse body') := by
  intro w v agree
  refine (execBound_tracks T .lower usesLower agree).exec T le fun lo w v agree => ?_
  refine (execBound_tracks T .upper usesUpper agree).exec T le fun hi w v agree => ?_
  refine (execStep_tracks T usesStep agree).exec T le fun by' w v agree => ?_
  exact loopN_tracks ForiState.w ForiState.w _ (foriRound_tracks T label le follow) fuel _ _ ⟨agree, rfl, rfl⟩

theorem forQueryRound_tracks {fetch : W → Res W Bool} {fetch' : V → Res V Bool} {body : Exec W}
    {body' : Exec V} {before target : Finset Nat} (T : Tracking R env env' U) (label : Option Nat)
    (fetches : ∀ w v, R before w v →
      ResTracks R (fun more => if more then before ∪ target else before) before (fetch w) (fetch' v))
    (le : onError ⊆ before) (follow : Follow R (before ∪ target) (before ∪ target) onError body body')
    (s : ForqState W) (s' : ForqState V) (rel : R before s.w s'.w ∧ s.found = s'.found) :
    RoundTracks (fun s s' => R before s.w s'.w ∧ s.found = s'.found) before onError R
      (forQueryRound env fetch label body s) (forQueryRound env' fetch' label body' s') := by
  obtain ⟨agree, found⟩ := rel
  have fetched := fetches _ _ agree
  unfold forQueryRound
  rw [← found]
  revert fetched
  generalize fetch s.w = r
  generalize fetch' s'.w = r'
  rintro (agree | agree)
  · rename_i more _ _
    cases more with
    | false => exact .stop (.done (T.setFound agree))
    | true =>
      refine leave_tracks T Finset.subset_union_left (fun _ _ => T.setFound) (fun w v agree => ?_)
        (afterBody_tracks label (follow _ _ agree))
      exact .again ⟨T.mono Finset.subset_union_left agree, rfl⟩
  · exact .stop (.err (T.mono le agree))

theorem follow_forq {body : Exec W} {body' : Exec V} {before : Finset Nat} {kind : ForKind} {id : Nat}
    (T : Tracking R env env' U) (fuel : Nat) (label : Option Nat) (uses : U.portal kind id before)
    (le : onError ⊆ before)
    (follow : Follow R (before ∪ U.rowTarget kind id) (before ∪ U.rowTarget kind id) onError body body') :
    Follow R before before onError (execStmtForq env fuel kind label id body)
      (execStmtForq env' fuel kind label id body') := by
  intro w v agree
  refine (T.openPortal uses agree).exec T le fun handle w v agree => ?_
  refine Tracks.mapDone ?_ fun _ _ => T.closePortal
  exact loopN_tracks ForqState.w ForqState.w _
    (forQueryRound_tracks T label (fun _ _ => T.fetchRow uses) le follow) fuel _ _ ⟨agree, rfl⟩

theorem follow_foreachA {body : Exec W} {body' : Exec V} {before : Finset Nat} {id : Nat}
    (T : Tracking R env env' U) (fuel : Nat) (label : Option Nat) (uses : U.array id before)
    (le : onError ⊆ before) (follow : Follow R before before onError body body') :
    Follow R before before onError (execStmtForeachA env fuel label id body)
      (execStmtForeachA env' fuel label id body') := by
  intro w v agree
  refine (T.foreachStart uses agree).exec T le fun _ w v agree => ?_
  refine loopN_tracks ForqState.w ForqState.w (fun s s' => R before s.w s'.w ∧ s.found = s'.found)
    (fun s s' rel => ?_) fuel _ _ ⟨agree, rfl⟩
  obtain ⟨agree, found⟩ := rel
  have next := T.foreachNext uses agree
  rw [← found]
  revert next
  generalize env.foreachNext id s.w = r
  generalize env'.foreachNext id s'.w = r'
  rintro (agree | agree)
  · rename_i more _ _
    cases more with
    | false => exact .stop (.done (T.setFound (T.foreachEnd agree)))
    | true =>
      refine leave_tracks T subset_rfl (fun _ _ agree => T.setFound (T.foreachEnd agree))
        (fun w v agree => ?_) (afterBody_tracks label (follow _ _ agree))
      exact .again ⟨agree, rfl⟩
  · exact .stop (.err (T.mono le agree))

/-! ### Blocks and jumps -/

theorem follow_block {body : Exec W} {body' : Exec V} {p : Spot} {initvars : List Nat}
    (T : Tracking R env env' U) (label : Option Nat) (fresh : ∀ d ∈ initvars, d ∉ p.seen)
    (uses : U.initVars initvars p.seen)
    (follow : Follow R (p.declare initvars).seen (p.declare initvars).seen (p.declare initvars).kept body body') :
    Follow R p.seen p.seen p.kept (execStmtBlock env label initvars body)
      (execStmtBlock env' label initvars body') := by
  intro w v agree
  have first := follow_initVars T initvars uses p.kept_subset
  have second : Follow R (p.declare initvars).seen (p.declare initvars).seen p.kept body body' :=
    fun w v agree => (follow w v agree).weaken T subset_rfl (p.kept_declare fresh)
  exact ((first.seq T second subset_rfl w v agree).weaken T Finset.subset_union_left subset_rfl).mapRc _

theorem follow_blockExceptions {body : Exec W} {body' : Exec V} {handle : ErrorData → Exec W}
    {handle' : ErrorData → Exec V} {p : Spot} {initvars : List Nat} (T : Tracking R env env' U)
    (label : Option Nat) (uses : U.initVars initvars p.seen)
    (follow : Follow R (p.guard initvars).seen (p.guard initvars).seen (p.guard initvars).kept body body')
    (handled : ∀ edata, Follow R (p.guard initvars).seen (p.guard initvars).seen (p.guard initvars).kept
      (handle edata) (handle' edata)) :
    Follow R p.seen p.seen p.kept (execStmtBlockExceptions env label initvars body handle)
      (execStmtBlockExceptions env' label initvars body' handle') := by
  intro w v agree
  have first := follow_initVars T initvars uses p.kept_subset
  refine ((first.seq T (fun w v agree => ?_) subset_rfl w v agree).weaken T Finset.subset_union_left
    subset_rfl).mapRc _
  have tracks := follow _ _ (T.beginSub agree)
  revert tracks
  generalize body (env.beginSub w) = o
  generalize body' (env'.beginSub v) = o'
  rintro (agree | agree | _)
  · exact .done (T.releaseSub agree)
  · -- nothing in the block is local to it: all its variables are as they should be
    have everything : R (p.guard initvars).seen _ _ := T.mono (by simp [Spot.kept, Spot.guard]) agree
    refine (handled _ _ _ (T.rollbackSub everything)).weaken T subset_rfl ?_
    exact p.kept_guard initvars
  · exact .spent

theorem follow_exit {before : Finset Nat} (T : Tracking R env env' U) (isExit : Bool) (label cond : Option Nat)
    (uses : ∀ expr ∈ cond, U.expr expr before) (le : onError ⊆ before) :
    Follow R before before onError (execStmtExit env isExit label cond) (execStmtExit env' isExit label cond) := by
  intro w v agree
  cases cond with
  | none => exact .done agree
  | some expr =>
    refine (T.evalBool (uses expr rfl) agree).exec T le fun value w v agree => ?_
    split
    · exact .done agree
    · exact .done agree

/-! ### Statement trees -/

mutual

theorem Stmt.exec_tracks (T : Tracking R env env' U) (fuel : Nat) {p : Spot} (st : Stmt)
    (placed : st.placed U p) : Follow R p.seen p.seen p.kept (st.exec env fuel) (st.exec env' fuel) := by
  cases st with
  | leaf id => exact follow_op T (fun _ _ => T.leaf placed) subset_rfl
  | block label initvars body =>
    obtain ⟨fresh, uses, placed⟩ := placed
    exact follow_block T label fresh uses (body.exec_tracks T fuel placed)
  | blockExceptions label initvars body exceptions =>
    obtain ⟨uses, placed, placedHandlers⟩ := placed
    exact follow_blockExceptions T label uses (body.exec_tracks T fuel placed)
      fun edata => exceptions.exec_tracks T fuel placedHandlers edata
  | cond expr thenBody elsifs elseBody =>
    obtain ⟨uses, placedThen, placedElsifs, placedElse⟩ := placed
    refine follow_when T uses p.kept_subset (thenBody.exec_tracks T fuel placedThen) ?_
    exact elsifs.exec_tracks T fuel none placedElsifs (elseBody.exec_tracks T fuel placedElse)
  | case test whens haveElse elseStmts =>
    obtain ⟨uses, placedWhens, placedElse⟩ := placed
    have inner := (p.bind (testVar test)).kept_subset
    have otherwise := follow_caseElse haveElse T test inner
      (elseStmts.exec_tracks T fuel placedElse)
    intro w v agree
    refine ((follow_caseTest T uses p.kept_subset).seq T (fun w v agree => ?_) subset_rfl w v agree).weaken T
      Finset.subset_union_left subset_rfl
    exact (whens.exec_tracks T fuel test placedWhens otherwise w v agree).weaken T subset_rfl
      (p.kept_bind _)
  | condLoop label expr testAtTop body =>
    exact follow_while T fuel label placed.1 p.kept_subset (body.exec_tracks T fuel placed.2)
  | loop label body => exact follow_loop fuel label (body.exec_tracks T fuel placed)
  | fori label var lower upper step reverse body =>
    obtain ⟨usesLower, usesUpper, usesStep, placed⟩ := placed
    refine follow_fori T fuel label usesLower usesUpper usesStep p.kept_subset fun w v agree => ?_
    exact (body.exec_tracks T fuel placed w v agree).weaken T subset_rfl (p.kept_bind _)
  | forq kind label id body =>
    refine follow_forq T fuel label placed.1 p.kept_subset fun w v agree => ?_
    exact (body.exec_tracks T fuel placed.2 w v agree).weaken T subset_rfl (p.kept_bind _)
  | foreachA label id body =>
    exact follow_foreachA T fuel label placed.1 p.kept_subset (body.exec_tracks T fuel placed.2)
  | exit isExit label cond => exact follow_exit T isExit label cond placed p.kept_subset
  | ret id =>
    exact fun w v agree => (T.execReturn placed agree).exec T p.kept_subset fun _ =>
      .done p.seen p.kept .ret

theorem Stmts.exec_tracks (T : Tracking R env env' U) (fuel : Nat) {p : Spot} (ss : Stmts)
    (placed : ss.placed U p) : Follow R p.seen p.seen p.kept (ss.exec env fuel) (ss.exec env' fuel) := by
  cases ss with
  | nil => exact .done p.seen p.kept .ok
  | cons head tail =>
    exact (head.exec_tracks T fuel placed.1).seq T (tail.exec_tracks T fuel placed.2) subset_rfl

theorem Whens.exec_tracks (T : Tracking R env env' U) (fuel : Nat) {p : Spot} (test : Option (Nat × Nat))
    {otherwise : Exec W} {otherwise' : Exec V} (ws : Whens) (placed : ws.placed U p)
    (follow : Follow R p.seen p.seen p.kept otherwise otherwise') :
    Follow R p.seen p.seen p.kept (ws.exec env fuel test otherwise) (ws.exec env' fuel test otherwise') := by
  cases ws with
  | nil => exact follow
  | cons expr body rest =>
    obtain ⟨uses, placedBody, placedRest⟩ := placed
    refine follow_when T uses p.kept_subset ?_ (rest.exec_tracks T fuel test placedRest follow)
    exact (follow_clearTest T test _ _).seq T (body.exec_tracks T fuel placedBody) subset_rfl

/-- An error that no handler is for goes on. -/
theorem Exceptions.exec_tracks (T : Tracking R env env' U) (fuel : Nat) {p : Spot} (es : Exceptions)
    (placed : es.placed U (p.bind U.handlerVars)) (edata : ErrorData) :
    Follow R p.seen p.seen p.kept (es.exec env fuel edata) (es.exec env' fuel edata) := by
  cases es with
  | nil => exact fun w v agree => .err (T.mono p.kept_subset agree)
  | cons conditions action rest =>
    intro w v agree
    unfold Exceptions.exec
    split
    · exact (action.exec_tracks T fuel placed.1 _ _ (T.setHandlerVars agree)).weaken T
        Finset.subset_union_left (p.kept_bind _)
    · exact rest.exec_tracks T fuel placed.2 edata w v agree

end

end Pieces

end Uplpgsql
