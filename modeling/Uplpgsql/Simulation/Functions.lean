import Uplpgsql.Simulation.ForLoops
import Uplpgsql.Simulation.Notes
import Uplpgsql.Correctness.Function
import Uplpgsql.Correctness.Returns

/-!
# Compiled functions against the interpreter

The two simulations put together: the machine implements the structured meaning
of a function body, and the structured meaning follows the interpreter while its
notes stay fine. Which notes a run can make at all depends on the constructs in
the body, and on whether FOUND can be observed.
-/

namespace Uplpgsql

open Lib.Iteration

variable {W : Type}

/-! ### Which notes a fragment can make -/

/-- Notes that need a construct are not made without it. -/
structure Kept (env : Env W) (f : Features) (before after : Notes) : Prop where
  foreachDropped : f.foreach = false → after.foreachDropped = before.foreachDropped
  lateInit : f.handlers = false → after.lateInit = before.lateInit
  foundLost : (∀ w, env.getFound w = true) → after.foundLost = before.foundLost

theorem kept_notesRel (env : Env W) (f : Features) : NotesRel env f (Kept env f) where
  refl _ := ⟨fun _ => rfl, fun _ => rfl, fun _ => rfl⟩
  trans first second :=
    { foreachDropped := fun h => (second.foreachDropped h).trans (first.foreachDropped h)
      lateInit := fun h => (second.lateInit h).trans (first.lateInit h)
      foundLost := fun h => (second.foundLost h).trans (first.foundLost h) }
  bound _ _ := ⟨fun _ => rfl, fun _ => rfl, fun _ => rfl⟩
  found n loops isExit k w := by
    refine ⟨fun _ => rfl, fun _ => rfl, fun always => ?_⟩
    simp [Notes.loseFound, losesFound, always w]
  late allowed _ _ := ⟨fun _ => rfl, fun without => by simp [without] at allowed, fun _ => rfl⟩
  drop allowed _ _ := ⟨fun without => by simp [without] at allowed, fun _ => rfl, fun _ => rfl⟩

/-! ### Ending like the interpreter -/

/-- Two worlds that differ in the value of FOUND at most. -/
def UpToFound (env : Env W) (w w' : W) : Prop := ∀ b, env.setFound b w = env.setFound b w'

section EndsLike

variable (env : Env W) (delegate : Delegate W) (code : Nat → List Item) (fuel : Nat)

/-- The machine at `c` ends the function as the interpreter does. What a RETURN
leaves behind is compared with `same`. -/
def EndsLike (same : W → W → Prop) (c : Config W) : ExecOut W → Prop
  | .done .ok w =>
    ∃ c', Runs env delegate code 0 c c' ∧ c'.status = .returned ∧ c'.rcReturn = false ∧ c'.w = w
  | .done .ret w =>
    ∃ c', Runs env delegate code 0 c c' ∧ c'.status = .returned ∧ c'.rcReturn = true ∧ same w c'.w
  | .done _ _ => False
  | .err edata w => ∃ c', Runs env delegate code 0 c c' ∧ c'.status = .uncaught edata ∧ c'.w = w
  | .spent w =>
    ∃ c', c'.w = w ∧
      ((Runs env delegate code fuel c c' ∧ c'.status = .running) ∨
        (Runs env delegate code 0 c c' ∧ c'.status = .spent))

variable {env delegate code fuel}

theorem EndsLike.mono {same same' : W → W → Prop} {c : Config W} {x : ExecOut W}
    (le : ∀ w w', same w w' → same' w w') (ends : EndsLike env delegate code fuel same c x) :
    EndsLike env delegate code fuel same' c x := by
  rcases x with ⟨rc, w⟩ | ⟨edata, w⟩ | w
  · cases rc with
    | ok => exact ends
    | exit label => exact ends
    | «continue» label => exact ends
    | ret =>
      obtain ⟨c', run, status, rc, world⟩ := ends
      exact ⟨c', run, status, rc, le _ _ world⟩
  · exact ends
  · exact ends

/-- Outside every construct, the structured meaning of a function body carries
an ending of the machine over to the interpreter. -/
theorem Ends.endsLike {c : Config W} {out : Out W} {x : ExecOut W}
    (ends : Ends env delegate code fuel c out) (agrees : Agrees env functionRunCtx out x) :
    EndsLike env delegate code fuel (UpToFound env) c x := by
  cases out with
  | next s => cases agrees; exact ends
  | jump isExit k s => exact ends.elim
  | ret s =>
    obtain ⟨w, rfl, upTo⟩ := agrees
    obtain ⟨c', run, status, rc, world⟩ := ends
    exact ⟨c', run, status, rc, by rw [world]; exact upTo⟩
  | raise edata s => cases agrees; exact ends
  | spent s => cases agrees; exact ends

end EndsLike

/-- A function ends in one way only. -/
theorem Runs.halted_unique {env : Env W} {delegate : Delegate W} {code : Nat → List Item}
    {c c₁ c₂ : Config W} (run₁ : Runs env delegate code 0 c c₁) (run₂ : Runs env delegate code 0 c c₂)
    (halted₁ : c₁.status = .returned) (halted₂ : c₂.status = .returned) : c₁ = c₂ :=
  AtLeast.rest_unique (by rw [step, halted₁]) (by rw [step, halted₂]) run₁ run₂

variable (env : Env W) (fuel : Nat)

/-- The notes of a whole run of the compiled function. -/
def runNotes (action : Stmt) (w : W) : Notes :=
  (action.run env (ignoreRc (interpretForeach env fuel)) fuel functionRunCtx ⟨w, .none⟩).state.notes

variable {env fuel}

theorem compileFunction_endsLike (laws : env.FoundLaws) {action : Stmt}
    (resolves : action.resolves [] = true) {code : Nat → List Item}
    (compiled : compileFunction action = some code) (level : Nat) (w : W)
    (fine : (runNotes env fuel action w).fine) :
    EndsLike env (interpretForeach env fuel) code fuel (UpToFound env) (Config.start level w)
      (action.exec env fuel w) := by
  have ends : Ends env (interpretForeach env fuel) code fuel (Config.start level w) _ :=
    compileFunction_ends compiled level w
  have follows : Follows env [] (action.run env (ignoreRc (interpretForeach env fuel)) fuel) _ :=
    action.run_follows laws [] resolves
  exact ends.endsLike (follows.agrees functionRunCtx ⟨w, .none⟩ rfl (fun _ member => nomatch member) fine)

theorem runNotes_kept {f : Features} {action : Stmt} (within : action.within f = true) (w : W) :
    Kept env f .none (runNotes env fuel action w) :=
  action.run_notes (kept_notesRel env f) within functionRunCtx ⟨w, .none⟩

end Uplpgsql
