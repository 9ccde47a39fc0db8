import Uplpgsql.Simulation.Agrees

/-!
# Leaving a construct

How the agreement between compiled code and interpreter passes from the inside
of a loop, a labelled block, or something that holds a resource, to the outside.
-/

namespace Uplpgsql

open Lib.Iteration

variable {W : Type} {env : Env W} {rctx : RunCtx} {label : Option Nat} {out : Out W} {x : ExecOut W}

/-! ### FOUND and releases -/

theorem setFound_release (laws : env.FoundLaws) (b : Bool) (release : Release) (w : W) :
    env.setFound b (release.run env w) = release.run env (env.setFound b w) := by
  cases release with
  | tryExit => exact laws.set_release b w
  | handlerDone => rfl
  | closePortal kind id handle => exact laws.set_close b kind id handle w

theorem setFound_releaseAll (laws : env.FoundLaws) (b : Bool) (releases : List Release) (w : W) :
    env.setFound b (releaseAll env releases w) = releaseAll env releases (env.setFound b w) := by
  induction releases generalizing w with
  | nil => rfl
  | cons release rest ih =>
    change env.setFound b (releaseAll env rest (release.run env w)) =
      releaseAll env rest (release.run env (env.setFound b w))
    rw [ih, setFound_release laws]

/-! ### Targets -/

theorem findTarget_lt {scopes : List Scope} {target : Option Nat} {k : Nat}
    (found : findTarget scopes target = some k) : k < scopes.length := by
  induction scopes generalizing k with
  | nil => cases found
  | cons scope rest ih =>
    unfold findTarget at found
    split at found
    · obtain rfl := Option.some.inj found
      exact Nat.zero_lt_succ _
    · obtain ⟨k', found', rfl⟩ := Option.map_eq_some_iff.mp found
      exact Nat.succ_lt_succ (ih found')

theorem findTarget_zero {scope : Scope} {scopes : List Scope} {target : Option Nat}
    (found : findTarget (scope :: scopes) target = some 0) : scope.isTarget target = true := by
  unfold findTarget at found
  split at found
  next here => exact here
  next => simp at found

theorem findTarget_succ {scope : Scope} {scopes : List Scope} {target : Option Nat} {k : Nat}
    (found : findTarget (scope :: scopes) target = some (k + 1)) :
    scope.isTarget target = false ∧ findTarget scopes target = some k := by
  unfold findTarget at found
  split at found
  next => simp at found
  next further => exact ⟨by simpa using further, by simpa using found⟩

/-! ### Loops -/

theorem loopRc_exit {target : Option Nat} (here : Scope.isTarget ⟨label, true⟩ target = true) :
    loopRcProcessing label (.exit target) = some .ok := by
  cases target with
  | none => rfl
  | some l => simp_all [Scope.isTarget, loopRcProcessing]

theorem loopRc_continue {target : Option Nat} (here : Scope.isTarget ⟨label, true⟩ target = true) :
    loopRcProcessing label (.continue target) = none := by
  cases target with
  | none => rfl
  | some l => simp_all [Scope.isTarget, loopRcProcessing]

theorem loopRc_further {target : Option Nat} {isExit : Bool}
    (further : Scope.isTarget ⟨label, true⟩ target = false) :
    loopRcProcessing label (jumpRc isExit target) = some (jumpRc isExit target) := by
  cases target with
  | none => simp [Scope.isTarget] at further
  | some l => cases isExit <;> simp_all [Scope.isTarget, loopRcProcessing, jumpRc]

/-- A FOR loop assigns FOUND when it is left. -/
def ExecOut.leaveFor (env : Env W) (isFor : Bool) (x : ExecOut W) : ExecOut W :=
  if isFor then x.mapDone (env.setFound true) else x

/-- FOUND may differ where it is about to be assigned. -/
def SameUpTo (env : Env W) (isFor : Bool) (w w' : W) : Prop :=
  w = w' ∨ isFor = true ∧ ∀ b, env.setFound b w = env.setFound b w'

theorem SameUpTo.setFound {isFor : Bool} {w w' : W} (same : SameUpTo env isFor w w') (b : Bool) :
    env.setFound b w = env.setFound b w' := by
  rcases same with rfl | ⟨-, eq⟩
  · rfl
  · exact eq b

theorem Arrives.leaveLoop {isExit isFor : Bool} {k : Nat} {w w' : W} (laws : env.FoundLaws)
    (arrives : Arrives env (rctx.pushLoop label isFor) isExit (k + 1) w w') :
    Arrives env rctx isExit k (if isFor then env.setFound true w else w) w' := by
  cases arrives with
  | same eq set =>
    rw [RunCtx.pushLoop_crossed_succ] at eq
    cases isFor with
    | false => exact .same eq fun crosses => set (by simpa [RunCtx.pushLoop] using crosses)
    | true =>
      have kept : env.setFound true w = w := set (by simp [RunCtx.pushLoop])
      rw [if_pos rfl, kept]
      exact .same eq fun _ => kept
  | assigns exits target eq =>
    rw [RunCtx.pushLoop_crossed_succ] at eq
    refine .assigns exits target fun b => ?_
    cases isFor with
    | false => exact eq b
    | true =>
      rw [if_pos rfl, eq b, ← setFound_releaseAll laws, laws.set_set]

theorem Agrees.leaveBody {isFor : Bool} (laws : env.FoundLaws) (exited : RunState W → Out W)
    (agrees : Agrees env (rctx.pushLoop label isFor) out x) :
    match leaveBody exited out with
    | .inl s => afterBody label x = .inl s.w
    | .inr o =>
      (∃ s w, o = exited s ∧ afterBody label x = .inr (.done .ok w) ∧ SameUpTo env isFor s.w w) ∨
      ((∀ s, o ≠ .next s) ∧
        ∃ x', afterBody label x = .inr x' ∧ Agrees env rctx o (x'.leaveFor env isFor)) := by
  cases out with
  | next s =>
    obtain rfl := agrees
    rfl
  | jump isExit k s =>
    obtain ⟨target, w, rfl, found, loops, arrives⟩ := agrees
    rw [RunCtx.pushLoop_scopes] at found
    cases k with
    -- The jump is to this loop: EXIT ends it and CONTINUE is a next round.
    | zero =>
      have here := findTarget_zero found
      have crossed := RunCtx.pushLoop_crossed_zero rctx label isFor
      cases isExit with
      | true =>
        refine .inl ⟨s, w, rfl, ?_, ?_⟩
        · simp only [afterBody, jumpRc, if_true, loopRc_exit here]
        · cases arrives with
          | same eq _ => exact .inl (by rw [eq, crossed]; rfl)
          | assigns _ target eq =>
            exact .inr ⟨Option.some.inj target, fun b => by rw [eq b, crossed]; rfl⟩
      | false =>
        cases arrives with
        | same eq _ =>
          have stays : afterBody label (.done (jumpRc false target) w) = .inl w := by
            simp only [afterBody, jumpRc, Bool.false_eq_true, if_false, loopRc_continue here]
          have same : s.w = w := by rw [eq, crossed]; rfl
          change afterBody label (.done (jumpRc false target) w) = .inl s.w
          rw [stays, same]
        | assigns exits => cases exits
    -- It is to a loop further out.
    | succ k =>
      obtain ⟨further, found⟩ := findTarget_succ found
      have passes : afterBody label (.done (jumpRc isExit target) w) =
          .inr (.done (jumpRc isExit target) w) := by
        simp only [afterBody, loopRc_further further]
      have left : leaveBody exited (.jump isExit (k + 1) s) = .inr (.jump isExit k s) := by
        cases isExit <;> rfl
      rw [left]
      refine .inr ⟨by simp, _, passes, ?_⟩
      refine ⟨target, if isFor then env.setFound true w else w, ?_, found, loops, arrives.leaveLoop laws⟩
      cases isFor <;> rfl
  | ret s =>
    -- A FOR loop sets FOUND on its way out of the function.
    obtain ⟨w, rfl, same⟩ := agrees
    refine .inr ⟨by simp, _, rfl, if isFor then env.setFound true w else w, ?_, fun b => ?_⟩
    · cases isFor <;> rfl
    · cases isFor with
      | false => exact same b
      | true => rw [if_pos rfl, laws.set_set, same b]
  | raise edata s =>
    obtain rfl := agrees
    exact .inr ⟨by simp, _, rfl, by cases isFor <;> rfl⟩
  | spent s =>
    obtain rfl := agrees
    exact .inr ⟨by simp, _, rfl, by cases isFor <;> rfl⟩

/-- The notes at the end of a round. -/
def roundNotes : RunState W ⊕ Out W → Notes
  | .inl s => s.notes
  | .inr o => o.state.notes

/-- Leaving the body of a loop changes no notes. -/
theorem leaveBody_notes {exited : RunState W → Out W}
    (keeps : ∀ s, (exited s).state.notes = s.notes) (out : Out W) :
    roundNotes (leaveBody exited out) = out.state.notes := by
  cases out with
  | jump isExit k s =>
    cases k with
    | zero =>
      cases isExit with
      | true => exact keeps s
      | false => rfl
    | succ k => cases isExit <;> rfl
  | _ => rfl

/-! ### Labelled blocks -/

theorem blockRc_none (rc : Rc) : blockRc none rc = rc := by
  unfold blockRc
  split <;> simp

theorem blockRc_further {l : Nat} {target : Option Nat} {isExit : Bool}
    (further : Scope.isTarget ⟨some l, false⟩ target = false) :
    blockRc (some l) (jumpRc isExit target) = jumpRc isExit target := by
  cases target with
  | none => cases isExit <;> rfl
  | some l' => cases isExit <;> simp_all [Scope.isTarget, blockRc, jumpRc]

theorem Agrees.leaveLabel (agrees : Agrees env (rctx.pushLabel label) out x) :
    Agrees env rctx (leaveLabel label out) (x.mapRc (blockRc label)) := by
  cases label with
  | none =>
    have same : x.mapRc (blockRc none) = x := by
      cases x <;> simp [ExecOut.mapRc, blockRc_none]
    rw [same]
    exact agrees
  | some l =>
    cases out with
    | next s =>
      obtain rfl := agrees
      rfl
    | jump isExit k s =>
      obtain ⟨target, w, rfl, found, loops, arrives⟩ := agrees
      rw [RunCtx.pushLabel_scopes, blockScope] at found
      cases k with
      | zero =>
        have here := findTarget_zero found
        obtain rfl : target = some l := by
          cases target <;> simp_all [Scope.isTarget]
        obtain rfl : isExit = true := by simpa [RunCtx.pushLabel] using loops
        cases arrives with
        | same eq _ =>
          have same : s.w = w := by simpa [RunCtx.crossed, RunCtx.pushLabel, releaseAll] using eq
          simp [leaveLabel, Agrees, ExecOut.mapRc, blockRc, jumpRc, same]
        | assigns _ isFor _ => simp [RunCtx.pushLabel] at isFor
      | succ k =>
        obtain ⟨further, found⟩ := findTarget_succ found
        refine ⟨target, w, ?_, found, loops, ?_⟩
        · simp [ExecOut.mapRc, blockRc_further further]
        · cases arrives with
          | same eq set =>
            exact .same eq fun crosses => set (by simpa [RunCtx.pushLabel] using crosses)
          | assigns exits isFor eq => exact .assigns exits isFor eq
    | ret s =>
      obtain ⟨w, rfl, same⟩ := agrees
      exact ⟨w, rfl, same⟩
    | raise edata s =>
      obtain rfl := agrees
      rfl
    | spent s =>
      obtain rfl := agrees
      rfl

theorem leaveLabel_notes (label : Option Nat) (out : Out W) :
    (leaveLabel label out).state.notes = out.state.notes := by
  cases label with
  | none => rfl
  | some l =>
    cases out with
    | jump isExit k s => cases k <;> rfl
    | _ => rfl

/-! ### Resources -/

/-- Leaving a construct that holds a resource: the interpreter releases it now. -/
theorem Agrees.release (laws : env.FoundLaws) (ok : rctx.Ok) {release : Release}
    (agrees : Agrees env (rctx.pushCleanup release) out x) :
    Agrees env rctx (out.release (release.run env)) (x.mapDone (release.run env)) := by
  cases out with
  | next s =>
    obtain rfl := agrees
    rfl
  | jump isExit k s =>
    obtain ⟨target, w, rfl, found, loops, arrives⟩ := agrees
    rw [RunCtx.pushCleanup_scopes] at found
    have lt : k < rctx.loops.length := by
      simpa [RunCtx.scopes] using findTarget_lt found
    have crossed := RunCtx.pushCleanup_crossed ok release lt
    refine ⟨target, release.run env w, rfl, found, loops, ?_⟩
    cases arrives with
    | same eq set =>
      rw [crossed] at eq
      refine .same eq fun crosses => ?_
      rw [setFound_release laws, set crosses]
    | assigns exits isFor eq =>
      rw [crossed] at eq
      exact .assigns exits isFor eq
  | ret s =>
    obtain ⟨w, rfl, same⟩ := agrees
    refine ⟨release.run env w, rfl, fun b => ?_⟩
    change _ = env.setFound b (release.run env s.w)
    rw [setFound_release laws, setFound_release laws, same b]
  | raise edata s =>
    obtain rfl := agrees
    rfl
  | spent s =>
    obtain rfl := agrees
    rfl

/-- A handler that is done releases nothing the world knows of. -/
theorem Agrees.of_handlerDone
    (agrees : Agrees env rctx (out.release (Release.run env .handlerDone))
      (x.mapDone (Release.run env .handlerDone))) : Agrees env rctx out x := by
  have sameOut : out.release (Release.run env .handlerDone) = out := by cases out <;> rfl
  have sameExec : x.mapDone (Release.run env .handlerDone) = x := by cases x <;> rfl
  rwa [sameOut, sameExec] at agrees

theorem release_notes (f : W → W) (out : Out W) :
    (out.release f).state.notes = out.state.notes := by
  cases out <;> rfl

end Uplpgsql
