import Uplpgsql.Frames.Invariant
import Uplpgsql.ControlFlow

/-!
# Frames and portals of a compiled function

Every frame a compiled function pushes and every portal it opens is released
once, by the helper for it and in the reverse order, on every path; and the
helpers bring back the values an exception block saves, whatever has happened
inside it. The statement handed to the interpreter (FOREACH) may do anything.
-/

namespace Uplpgsql

open Lib.Flow Lib.Iteration

variable {W : Type}

/-! ### Nothing crashes -/

/-- A configuration that has stopped is where a run comes to rest. -/
theorem step_halted (env : Env W) (delegate : Delegate W) (code : Nat → List Item) {c : Config W}
    (halted : c.status ≠ .running) : step env delegate code c = c := by
  unfold step
  split
  next running => exact absurd running halted
  next => rfl

/-- No step of a compiled function touches a frame that is gone, jumps into
nothing or runs off the end of a block. -/
theorem compileFunction_not_crashed {action : Stmt} {code : Nat → List Item}
    (compiled : compileFunction action = some code) (env : Env W) (delegate : Delegate W)
    (level : Nat) (w : W) (n : Nat) :
    ((step env delegate code)^[n] (Config.start level w)).status ≠ .crashed := by
  intro crashed
  have rest : step env delegate code ((step env delegate code)^[n] (Config.start level w)) = _ :=
    step_halted env delegate code (by rw [crashed]; exact Status.noConfusion)
  have reached : AtLeast (step env delegate code) n (Config.start level w) _ := ⟨n, Nat.le_refl n, rfl⟩
  -- A crash is where the run comes to rest, so it would be how the function ends.
  have unique {c' : Config W} (run : Runs env delegate code 0 (Config.start level w) c')
      (halted : c'.status ≠ .running) : c'.status = .crashed := by
    rw [AtLeast.rest_unique (step_halted env delegate code halted) rest run reached]
    exact crashed
  have ends : Ends env delegate code n (Config.start level w)
      (action.run env (ignoreRc delegate) n functionRunCtx ⟨w, .none⟩) :=
    compileFunction_ends compiled level w
  cases result : action.run env (ignoreRc delegate) n functionRunCtx ⟨w, .none⟩ with
  | next s =>
    rw [result] at ends
    obtain ⟨c', run, status, -⟩ := ends
    have := unique run (by simp [status])
    simp [status] at this
  | jump isExit k s =>
    rw [result] at ends
    exact ends
  | ret s =>
    rw [result] at ends
    obtain ⟨c', run, status, -⟩ := ends
    have := unique run (by simp [status])
    simp [status] at this
  | raise e s =>
    rw [result] at ends
    obtain ⟨c', run, status, -⟩ := ends
    have := unique run (by simp [status])
    simp [status] at this
  | spent s =>
    rw [result] at ends
    obtain ⟨c', -, ⟨⟨k, le, eq⟩, running⟩ | ⟨run, status⟩⟩ := ends
    · -- The run that is still going has passed the crash.
      obtain ⟨i, rfl⟩ := Nat.exists_eq_add_of_le' le
      rw [Function.iterate_add_apply, Function.iterate_fixed rest] at eq
      rw [← eq, crashed] at running
      cases running
    · have := unique run (by simp [status])
      simp [status] at this

/-! ### Balance -/

/-- The state of a watched run after any number of steps: a block is entered with
the cleanups its entry point names, and the function returns holding nothing. -/
structure Balanced (T : Entries Point) (c : Config W) (held : List Held) : Prop where
  alive : c.status ≠ .crashed
  entered : c.status = .running → c.index = 0 → ∃ p, T c.block = some p ∧
    ∀ phase cleanups, p = .plain phase cleanups → List.Forall₂ (HeldFor c.regs) cleanups held
  returned : c.status = .returned → held = []

theorem Watched.balanced {T : Entries Point} {code : Nat → List Item} {c : Config W} {held : List Held}
    (watched : Watched T code c held) (alive : c.status ≠ .crashed) : Balanced T c held where
  alive := alive
  entered running zero := by
    rw [Watched, running] at watched
    obtain ⟨p, r, -, stands, entry⟩ := watched
    refine ⟨p, entry zero, ?_⟩
    rintro phase cleanups rfl
    exact stands.1.heldFor
  returned status := by
    rw [Watched, status] at watched
    exact watched

/-- On every run, every release is for what was acquired last, by the helper for
it. Each block is entered with the same cleanups on every path to it, and
nothing is held on return. -/
theorem compiled_balance (action : Stmt) (resolves : action.resolves [] = true) :
    ∃ code, compileFunction action = some code ∧ ∃ T : Entries Point, T entryBb = some (.plain .body []) ∧
      ∀ (W : Type) (env : Env W) (delegate : Delegate W) (level : Nat) (w : W) (n : Nat),
        ∃ held, watchN env delegate code n (Config.start level w, []) =
            some ((step env delegate code)^[n] (Config.start level w), held) ∧
          Balanced T ((step env delegate code)^[n] (Config.start level w)) held := by
  obtain ⟨code, compiled⟩ := compileFunction_returns action resolves
  obtain ⟨T, entry, checked⟩ := compileFunction_checked compiled
  refine ⟨code, compiled, T, entry, fun W env delegate level w n => ?_⟩
  obtain ⟨held, run, watched⟩ := watched_run env delegate checked n (watched_start checked entry level w)
  exact ⟨held, run, watched.balanced (compileFunction_not_crashed compiled env delegate level w n)⟩

/-- A row loop in a block with handlers whose body leaves both and whose handler
returns from inside another row loop. -/
def nestedFrames : Stmt :=
  .block none [] (.cons
    (.loop (some 0) (.cons
      (.blockExceptions (some 1) [2] (.cons
        (.forq .fors none 3 (.cons (.exit true (some 0) (some 4)) (.cons (.leaf 5) .nil))) .nil)
        (.cons [.others] (.cons (.forq .forc none 6 (.cons (.ret 7) .nil)) .nil) .nil)) .nil))
    (.cons (.ret 8) .nil))

theorem nestedFrames_balance :
    ∃ code, compileFunction nestedFrames = some code ∧
      ∃ held c, watchN Env.small (interpretForeach Env.small 4) code 60 (Config.start 0 .start, []) =
        some (c, held) ∧ (c.status = .returned → held = []) := by
  obtain ⟨code, compiled, T, -, balance⟩ := compiled_balance nestedFrames (by decide +kernel)
  obtain ⟨held, run, balanced⟩ := balance Small Env.small (interpretForeach Env.small 4) 0 .start 60
  exact ⟨code, compiled, held, _, run, balanced.returned⟩

/-! ### The state machine of the frames -/

/-- The exception stack is the innermost frame that is trying, and the next
instruction, if it is a helper, brings back what it must. -/
structure FramesKept (env : Env W) (delegate : Delegate W) (code : Nat → List Item) (c : Config W)
    (held : List Held) : Prop where
  exceptionStack : c.rt.exceptionStack = innermost held
  restores : ∀ i, (code c.block)[c.index]? = some (.instr i) →
    Restores c (step env delegate code c) held i

theorem Watched.framesKept {T : Entries Point} {code : Nat → List Item} {c : Config W}
    {held : List Held} (env : Env W) (delegate : Delegate W) (checked : Checked discipline T code)
    (watched : Watched T code c held) (running : c.status = .running) :
    FramesKept env delegate code c held := by
  rw [Watched, running] at watched
  obtain ⟨p, r, path, stands, -⟩ := watched
  refine ⟨stands.exceptionStack, fun i item => ?_⟩
  obtain ⟨q, flows, rest⟩ := path.fetch item
  have goes : step env delegate code c = stepInstr env delegate c i := by
    simp only [step, running, item, stepItem]
  rw [goes]
  exact (watched_instr env delegate running checked stands flows rest).2

/-- At every step of every run of a compiled function: an error would go to the
innermost block whose body is running; leaving a block, in whichever way, brings
back the values at its push; and a handler starts with these, the error apart.
The handlers are those that the meaning of the block selects. -/
theorem compiled_frames (action : Stmt) (resolves : action.resolves [] = true) :
    ∃ code, compileFunction action = some code ∧
      ∀ (W : Type) (env : Env W) (delegate : Delegate W) (level : Nat) (w : W) (n : Nat),
        (∃ held, watchN env delegate code n (Config.start level w, []) =
            some ((step env delegate code)^[n] (Config.start level w), held) ∧
          (((step env delegate code)^[n] (Config.start level w)).status = .running →
            FramesKept env delegate code ((step env delegate code)^[n] (Config.start level w)) held)) ∧
        Ends env delegate code n (Config.start level w)
          (action.run env (ignoreRc delegate) n functionRunCtx ⟨w, .none⟩) := by
  obtain ⟨code, compiled⟩ := compileFunction_returns action resolves
  obtain ⟨T, entry, checked⟩ := compileFunction_checked compiled
  refine ⟨code, compiled, fun W env delegate level w n => ⟨?_, compileFunction_ends compiled level w⟩⟩
  obtain ⟨held, run, watched⟩ := watched_run env delegate checked n (watched_start checked entry level w)
  exact ⟨held, run, watched.framesKept env delegate checked⟩

def divisionByZero : ErrorData := ⟨makeSqlstate '2' '2' '0' '1' '2', "division by zero"⟩

/-- The small environment, except that initialising a variable divides by zero. -/
def Env.failing : Env Small :=
  { Env.small with
    initVar := fun _ w => .raise divisionByZero w
    inert := fun _ _ => false
    inert_spec := by simp }

/-- A block with handlers and a DECLARE section. -/
def declareInHandled : Stmt :=
  .block none [] (.cons
    (.blockExceptions none [0] (.cons (.leaf 1) .nil)
      (.cons [.others] (.cons (.leaf 5) .nil) .nil)) .nil)

theorem declareInHandled_frames :
    ∃ code, compileFunction declareInHandled = some code ∧
      ∃ held, watchN Env.failing (interpretForeach Env.failing 4) code 6 (Config.start 0 .start, []) =
          some ((step Env.failing (interpretForeach Env.failing 4) code)^[6]
            (Config.start 0 .start), held) ∧
        (((step Env.failing (interpretForeach Env.failing 4) code)^[6] (Config.start 0 .start)).status =
            .running →
          FramesKept Env.failing (interpretForeach Env.failing 4) code
            ((step Env.failing (interpretForeach Env.failing 4) code)^[6] (Config.start 0 .start))
            held) := by
  obtain ⟨code, compiled, frames⟩ := compiled_frames declareInHandled (by decide +kernel)
  exact ⟨code, compiled, (frames Small Env.failing (interpretForeach Env.failing 4) 0 .start 6).1⟩

/-! ### Declarations -/

/-- In every run in which a block with handlers initialises a variable only by
something that neither fails nor touches the database, the compiled function
does the same things in the same order as the interpreter, FOUND left out, and
ends the same way. -/
theorem compiled_declarations (env : Env W) (action : Stmt) (resolves : action.resolves [] = true) :
    ∃ code, compileFunction action = some code ∧ ∀ fuel level w,
      (runNotes env.hideFound.traced fuel action (Traced.start w)).lateInit = false →
      (runNotes env.hideFound.traced fuel action (Traced.start w)).foreachDropped = false →
      (runNotes env.hideFound.traced fuel action (Traced.start w)).badBound = false →
      EndsLike env.hideFound.traced (interpretForeach env.hideFound.traced fuel) code fuel Eq
        (Config.start level (Traced.start w))
        (action.exec env.hideFound.traced fuel (Traced.start w)) := by
  obtain ⟨code, compiled⟩ := compileFunction_returns action resolves
  refine ⟨code, compiled, fun fuel level w inTime honoured bounds => ?_⟩
  have kept : Kept env.hideFound.traced _ _
      (runNotes env.hideFound.traced fuel action (Traced.start w)) :=
    runNotes_kept action.within_all (Traced.start w)
  have fine : (runNotes env.hideFound.traced fuel action (Traced.start w)).fine := by
    rw [Notes.fine, Notes.none, Notes.mk.injEq]
    exact ⟨honoured, kept.foundLost fun _ => rfl, inTime, bounds⟩
  have hidden (t t' : Traced W) (upTo : UpToFound env.hideFound.traced t t') : t = t' := upTo true
  exact (compileFunction_endsLike env.hideFound_laws.traced resolves compiled level _ fine).mono hidden

theorem nestedFrames_declarations :
    ∃ code, compileFunction nestedFrames = some code ∧
      EndsLike Env.small.hideFound.traced (interpretForeach Env.small.hideFound.traced 4) code 4 Eq
        (Config.start 0 (Traced.start .start))
        (nestedFrames.exec Env.small.hideFound.traced 4 (Traced.start .start)) := by
  obtain ⟨code, compiled, ends⟩ := compiled_declarations Env.small nestedFrames (by decide +kernel)
  exact ⟨code, compiled, ends 4 0 .start (by decide +kernel) (by decide +kernel) (by decide +kernel)⟩

/-- A default that fails is caught by the handlers of its own block, and the
function returns; the interpreter lets the error out. -/
theorem declareInHandled_caught :
    ¬∃ code, compileFunction declareInHandled = some code ∧
      EndsLike Env.failing.hideFound.traced (interpretForeach Env.failing.hideFound.traced 4) code 4 Eq
        (Config.start 0 (Traced.start .start))
        (declareInHandled.exec Env.failing.hideFound.traced 4 (Traced.start .start)) := by
  rintro ⟨code, compiled, ends⟩
  have meaning : Ends Env.failing.hideFound.traced (interpretForeach Env.failing.hideFound.traced 4)
      code 4 (Config.start 0 (Traced.start .start)) _ :=
    compileFunction_ends compiled 0 (Traced.start Small.start)
  obtain ⟨c₁, run₁, returned, -⟩ := meaning
  obtain ⟨c₂, run₂, uncaught, -⟩ := ends
  have same : c₁ = c₂ := AtLeast.rest_unique (step_halted _ _ _ (by simp [returned]))
    (step_halted _ _ _ (by simp [uncaught])) run₁ run₂
  rw [same, uncaught] at returned
  cases returned

end Uplpgsql
