import Uplpgsql.Structured

/-!
# Compiled code and the interpreter

`Agrees` relates the two ways in which a statement can end. A jump of the
compiled code has already made the releases that the interpreter will make while
its return code travels outwards, and has skipped the FOUND updates of the FOR
loops in between; that is harmless when FOUND is set anyway. What a function
returns does not depend on FOUND, so for RETURN the worlds agree up to it.
-/

namespace Uplpgsql

open Lib.Iteration

variable {W : Type}

/-- The compiled code has not parted from the interpreter. -/
def Notes.fine (notes : Notes) : Prop := notes = .none

namespace Notes

variable {notes : Notes} {b : Bool}

theorem fine_of_dropForeach (fine : (notes.dropForeach b).fine) : notes.fine ∧ b = false := by
  simp only [Notes.fine, Notes.none, Notes.dropForeach, Notes.mk.injEq, Bool.or_eq_false_iff] at fine
  exact ⟨by cases notes; simp_all [Notes.fine, Notes.none], fine.1.2⟩

theorem fine_of_loseFound (fine : (notes.loseFound b).fine) : notes.fine ∧ b = false := by
  simp only [Notes.fine, Notes.none, Notes.loseFound, Notes.mk.injEq, Bool.or_eq_false_iff] at fine
  exact ⟨by cases notes; simp_all [Notes.fine, Notes.none], fine.2.1.2⟩

theorem fine_of_initLate (fine : (notes.initLate b).fine) : notes.fine ∧ b = false := by
  simp only [Notes.fine, Notes.none, Notes.initLate, Notes.mk.injEq, Bool.or_eq_false_iff] at fine
  exact ⟨by cases notes; simp_all [Notes.fine, Notes.none], fine.2.2.1.2⟩

theorem fine_of_boundBad (fine : (notes.boundBad b).fine) : notes.fine ∧ b = false := by
  simp only [Notes.fine, Notes.none, Notes.boundBad, Notes.mk.injEq, Bool.or_eq_false_iff] at fine
  exact ⟨by cases notes; simp_all [Notes.fine, Notes.none], fine.2.2.2.2⟩

end Notes

/-- The code with which a jump leaves a statement. -/
def jumpRc (isExit : Bool) (label : Option Nat) : Rc :=
  if isExit then .exit label else .continue label

section Relation

variable (env : Env W)

/-- The world `w'` of the compiled code at the target of a jump, against the
interpreter's world `w` when it is still inside `rctx`. The EXIT of a FOR loop
assigns FOUND on arrival. -/
inductive Arrives (rctx : RunCtx) (isExit : Bool) (k : Nat) (w w' : W) : Prop where
  | same (eq : w' = releaseAll env (rctx.crossed k) w)
      (set : (rctx.loops.take k).any (·.isFor) = true → env.setFound true w = w)
  | assigns (exits : isExit = true) (isFor : (rctx.loops[k]?.map (·.isFor)) = some true)
      (eq : ∀ b, env.setFound b w' = env.setFound b (releaseAll env (rctx.crossed k) w))

def Agrees (rctx : RunCtx) : Out W → ExecOut W → Prop
  | .next s, x => x = .done .ok s.w
  | .jump isExit k s, x =>
    ∃ label w, x = .done (jumpRc isExit label) w ∧ findTarget rctx.scopes label = some k ∧
      (isExit = true ∨ (rctx.loops[k]?.map (·.isLoop)) = some true) ∧
      Arrives env rctx isExit k w s.w
  | .ret s, x => ∃ w, x = .done .ret w ∧ ∀ b, env.setFound b w = env.setFound b s.w
  | .raise edata s, x => x = .err edata s.w
  | .spent s, x => x = .spent s.w

/-- The depths recorded for the enclosing constructs make sense. -/
def RunCtx.Ok (rctx : RunCtx) : Prop := ∀ e ∈ rctx.loops, e.cleanupDepth ≤ rctx.cleanups.length

/-- A structured meaning follows the interpreter as long as its notes stay fine. -/
structure Follows (scopes : List Scope) (run : Run W) (exec : Exec W) : Prop where
  back : ∀ rctx s, (run rctx s).state.notes.fine → s.notes.fine
  agrees : ∀ rctx s, rctx.scopes = scopes → rctx.Ok → (run rctx s).state.notes.fine →
    Agrees env rctx (run rctx s) (exec s.w)

end Relation

/-! ### Contexts -/

namespace RunCtx

variable {rctx : RunCtx}

theorem Ok.pushLoop (ok : rctx.Ok) (label : Option Nat) (isFor : Bool) :
    (rctx.pushLoop label isFor).Ok := by
  intro e member
  rcases List.mem_cons.mp member with rfl | inside
  · exact Nat.le_refl _
  · exact ok e inside

theorem Ok.pushCleanup (ok : rctx.Ok) (release : Release) : (rctx.pushCleanup release).Ok :=
  fun e member => Nat.le_succ_of_le (ok e member)

theorem Ok.pushLabel (ok : rctx.Ok) (label : Option Nat) : (rctx.pushLabel label).Ok := by
  cases label with
  | none => exact ok
  | some l =>
    intro e member
    rcases List.mem_cons.mp member with rfl | inside
    · exact Nat.le_refl _
    · exact ok e inside

theorem pushLoop_scopes (rctx : RunCtx) (label : Option Nat) (isFor : Bool) :
    (rctx.pushLoop label isFor).scopes = ⟨label, true⟩ :: rctx.scopes := rfl

theorem pushCleanup_scopes (rctx : RunCtx) (release : Release) :
    (rctx.pushCleanup release).scopes = rctx.scopes := rfl

theorem pushLabel_scopes (rctx : RunCtx) (label : Option Nat) :
    (rctx.pushLabel label).scopes = blockScope label rctx.scopes := by
  cases label <;> rfl

/-- Inside a construct that holds a resource a jump outwards crosses it first. -/
theorem pushCleanup_crossed (ok : rctx.Ok) (release : Release) {k : Nat} (lt : k < rctx.loops.length) :
    (rctx.pushCleanup release).crossed k = release :: rctx.crossed k := by
  have deep := ok rctx.loops[k] (List.getElem_mem lt)
  have more : (release :: rctx.cleanups).length - rctx.loops[k].cleanupDepth =
      rctx.cleanups.length - rctx.loops[k].cleanupDepth + 1 := by simp only [List.length_cons]; omega
  simp only [crossed, pushCleanup, List.getElem?_eq_getElem lt, Option.map_some, Option.getD_some, more,
    List.take_succ_cons]

theorem pushLoop_crossed_zero (rctx : RunCtx) (label : Option Nat) (isFor : Bool) :
    (rctx.pushLoop label isFor).crossed 0 = [] := by
  simp [crossed, pushLoop]

theorem pushLoop_crossed_succ (rctx : RunCtx) (label : Option Nat) (isFor : Bool) (k : Nat) :
    (rctx.pushLoop label isFor).crossed (k + 1) = rctx.crossed k := rfl

end RunCtx

end Uplpgsql
