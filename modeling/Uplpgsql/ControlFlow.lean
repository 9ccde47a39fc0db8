import Uplpgsql.Simulation.Functions
import Uplpgsql.Simulation.Foreach

/-!
# Control flow

What a compiled function does, in which order, compared with the interpreter:
first with FOUND left out, then FOUND itself, then FOREACH, which the compiler
hands to the interpreter whole.

Runs are compared by their traces. A trace records every statement, evaluation
and assignment together with the value of FOUND at that moment.
-/

namespace Uplpgsql

variable {W : Type}

/-! ### Traces -/

inductive Action where
  | call (op : Op)
  | evalBool (expr : Nat)
  | evalInt (expr : Nat)
  | assignInt (var : Nat) (v : BitVec 32)
  | openPortal (kind : ForKind) (id : Nat)
  | fetchRow (kind : ForKind) (id handle : Nat)
  | foreachStart (id : Nat)
  | foreachNext (id : Nat)
  deriving DecidableEq, Repr

structure Event where
  action : Action
  found : Bool
  deriving DecidableEq, Repr

structure Traced (W : Type) where
  w : W
  trace : List Event

def Traced.start (w : W) : Traced W := ⟨w, []⟩

namespace Env

variable (env : Env W)

def record {α : Type} (action : Action) (act : W → Res W α) (t : Traced W) : Res (Traced W) α :=
  (act t.w).mapWorld fun w => ⟨w, t.trace ++ [⟨action, env.getFound t.w⟩]⟩

/-- The same actions, recorded. Assigning FOUND and releasing a resource are not
statements of the function and leave no event of their own. -/
def traced : Env (Traced W) where
  leaf id := env.record (.call (.leaf id)) (env.leaf id)
  initVar dno := env.record (.call (.initVar dno)) (env.initVar dno)
  caseAssignTest varno expr :=
    env.record (.call (.caseAssignTest varno expr)) (env.caseAssignTest varno expr)
  assignNull dno t :=
    ⟨env.assignNull dno t.w, t.trace ++ [⟨.call (.assignNull dno), env.getFound t.w⟩]⟩
  execReturn id := env.record (.call (.execReturn id)) (env.execReturn id)
  evalBool expr := env.record (.evalBool expr) (env.evalBool expr)
  evalInt expr := env.record (.evalInt expr) (env.evalInt expr)
  assignInt var v := env.record (.assignInt var v) (env.assignInt var v)
  setFound b t := { t with w := env.setFound b t.w }
  getFound t := env.getFound t.w
  openPortal kind id := env.record (.openPortal kind id) (env.openPortal kind id)
  fetchRow kind id handle := env.record (.fetchRow kind id handle) (env.fetchRow kind id handle)
  closePortal kind id handle t := { t with w := env.closePortal kind id handle t.w }
  beginSub t := { t with w := env.beginSub t.w }
  releaseSub t := { t with w := env.releaseSub t.w }
  rollbackSub t := { t with w := env.rollbackSub t.w }
  setHandlerVars edata t := { t with w := env.setHandlerVars edata t.w }
  foreachStart id := env.record (.foreachStart id) (env.foreachStart id)
  foreachNext id := env.record (.foreachNext id) (env.foreachNext id)
  foreachEnd id t := { t with w := env.foreachEnd id t.w }
  needsMcontext := env.needsMcontext
  inert dno t := env.inert dno t.w && (env.getFound (env.beginSub t.w) == env.getFound t.w)
  inert_spec {dno t} inert := by
    simp only [Bool.and_eq_true, beq_iff_eq] at inert
    obtain ⟨w, outside, inside⟩ := env.inert_spec inert.1
    exact ⟨⟨w, t.trace ++ [⟨.call (.initVar dno), env.getFound t.w⟩]⟩,
      by simp [record, outside, Res.mapWorld], by simp [record, inside, inert.2, Res.mapWorld]⟩

/-- FOUND left out: loops do not assign it. -/
def hideFound : Env W := { env with setFound := fun _ w => w, getFound := fun _ => true }

variable {env}

theorem FoundLaws.traced (laws : env.FoundLaws) : env.traced.FoundLaws where
  keep t set := by
    have here : env.setFound true t.w = t.w := laws.keep t.w set
    simp only [Env.traced, here]
  set_set b b' t := by simp only [Env.traced, laws.set_set]
  set_close b kind id h t := by simp only [Env.traced, laws.set_close]
  set_release b t := by simp only [Env.traced, laws.set_release]

variable (env) in
theorem hideFound_laws : env.hideFound.FoundLaws :=
  ⟨fun _ _ => rfl, fun _ _ _ => rfl, fun _ _ _ _ _ => rfl, fun _ _ => rfl⟩

end Env

/-! ### A small environment -/

/-- FOUND, the elements or rows still to come, and the statements executed. -/
structure Small where
  found : Bool
  left : Nat
  ran : List Op
  deriving DecidableEq, Repr

def Small.start : Small := ⟨false, 0, []⟩

/-- Expression `n` has the value `n`, conditions hold, and every array and every
query result has one element. -/
def Env.small : Env Small where
  leaf id w := .ok () { w with ran := w.ran ++ [.leaf id] }
  initVar dno w := .ok () { w with ran := w.ran ++ [.initVar dno] }
  caseAssignTest varno expr w := .ok () { w with ran := w.ran ++ [.caseAssignTest varno expr] }
  assignNull dno w := { w with ran := w.ran ++ [.assignNull dno] }
  execReturn id w := .ok () { w with ran := w.ran ++ [.execReturn id] }
  evalBool _ w := .ok (some true) w
  evalInt expr w := .ok (some (BitVec.ofNat 32 expr)) w
  assignInt _ _ w := .ok () w
  setFound b w := { w with found := b }
  getFound w := w.found
  openPortal _ _ w := .ok 0 { w with left := 1 }
  fetchRow _ _ _ w := .ok (decide (0 < w.left)) { w with left := w.left - 1 }
  closePortal _ _ _ w := w
  beginSub w := w
  releaseSub w := w
  rollbackSub w := w
  setHandlerVars _ w := w
  foreachStart _ w := .ok () { w with left := 1 }
  foreachNext _ w := .ok (decide (0 < w.left)) { w with left := w.left - 1 }
  foreachEnd _ w := w
  needsMcontext _ := false
  inert _ _ := true
  inert_spec _ := ⟨_, rfl, rfl⟩

theorem Env.small_laws : Env.small.FoundLaws where
  keep w set := by
    cases w
    cases set
    rfl
  set_set _ _ _ := rfl
  set_close _ _ _ _ _ := rfl
  set_release _ _ := rfl

/-! ### Everything but FOUND -/

/-- A statement tree without handlers, row loops and FOREACH compiles, and the
compiled function does the same things in the same order as the interpreter and
ends the same way, in every run in which no FOR bound is NULL and no BY value is
below one. -/
theorem compiled_control_flow (env : Env W) (action : Stmt) (resolves : action.resolves [] = true)
    (within : action.within ⟨false, false, false⟩ = true) :
    ∃ code, compileFunction action = some code ∧ ∀ fuel level w,
      (runNotes env.hideFound.traced fuel action (Traced.start w)).badBound = false →
      EndsLike env.hideFound.traced (interpretForeach env.hideFound.traced fuel) code fuel Eq
        (Config.start level (Traced.start w))
        (action.exec env.hideFound.traced fuel (Traced.start w)) := by
  obtain ⟨code, compiled⟩ := compileFunction_returns action resolves
  refine ⟨code, compiled, fun fuel level w bounds => ?_⟩
  have laws := env.hideFound_laws.traced
  have kept : Kept env.hideFound.traced _ _
      (runNotes env.hideFound.traced fuel action (Traced.start w)) :=
    runNotes_kept within (Traced.start w)
  have fine : (runNotes env.hideFound.traced fuel action (Traced.start w)).fine := by
    rw [Notes.fine, Notes.none, Notes.mk.injEq]
    exact ⟨kept.foreachDropped rfl, kept.foundLost fun _ => rfl, kept.lateInit rfl, bounds⟩
  have hidden (t t' : Traced W) (upTo : UpToFound env.hideFound.traced t t') : t = t' := upTo true
  exact (compileFunction_endsLike laws resolves compiled level _ fine).mono hidden

/-- A labelled LOOP around a FOR loop whose body is a simple CASE that leaves the
outer loop. -/
def nestedLoops : Stmt :=
  .block none [3] (.cons
    (.loop (some 0) (.cons
      (.fori none 1 1 5 (some 2) false (.cons
        (.case (some (9, 4)) (.cons 6 (.cons (.leaf 1) (.cons (.exit true (some 0) (some 7)) .nil)) .nil)
          false .nil) .nil)) .nil))
    (.cons (.ret 8) .nil))

theorem nestedLoops_control_flow :
    ∃ code, compileFunction nestedLoops = some code ∧
      EndsLike Env.small.hideFound.traced (interpretForeach Env.small.hideFound.traced 4) code 4 Eq
        (Config.start 0 (Traced.start .start))
        (nestedLoops.exec Env.small.hideFound.traced 4 (Traced.start .start)) := by
  obtain ⟨code, compiled, ends⟩ :=
    compiled_control_flow Env.small nestedLoops (by decide +kernel) (by decide +kernel)
  exact ⟨code, compiled, ends 4 0 .start (by decide +kernel)⟩

/-! ### FOUND -/

/-- Rows of any kind added, the value of FOUND seen by every later statement is
the interpreter's in every run in which a jump that leaves FOR loops on its way,
and does not itself end a FOR loop, finds FOUND already set. -/
theorem compiled_found {env : Env W} (laws : env.FoundLaws) (action : Stmt)
    (resolves : action.resolves [] = true) (within : action.within ⟨false, true, false⟩ = true) :
    ∃ code, compileFunction action = some code ∧ ∀ fuel level w,
      (runNotes env.traced fuel action (Traced.start w)).badBound = false →
      (runNotes env.traced fuel action (Traced.start w)).foundLost = false →
      EndsLike env.traced (interpretForeach env.traced fuel) code fuel (UpToFound env.traced)
        (Config.start level (Traced.start w)) (action.exec env.traced fuel (Traced.start w)) := by
  obtain ⟨code, compiled⟩ := compileFunction_returns action resolves
  refine ⟨code, compiled, fun fuel level w bounds kept => ?_⟩
  have others : Kept env.traced _ _ (runNotes env.traced fuel action (Traced.start w)) :=
    runNotes_kept within (Traced.start w)
  refine compileFunction_endsLike laws.traced resolves compiled level _ ?_
  rw [Notes.fine, Notes.none, Notes.mk.injEq]
  exact ⟨others.foreachDropped rfl, kept, others.lateInit rfl, bounds⟩

/-- EXIT of a labelled block from inside a FOR loop, which has assigned FOUND
before if `early` is set. -/
def exitOverFor (early : Bool) : Stmt :=
  .block none [] (.cons
    (.block (some 0) [] (.cons
      (.fori none 1 1 (if early then 1 else 0) none false .nil) (.cons
      (.fori none 1 1 1 none false (.cons (.exit true (some 0) none) .nil)) .nil)))
    (.cons (.leaf 7) .nil))

theorem exitOverFor_found :
    ∃ code, compileFunction (exitOverFor true) = some code ∧
      EndsLike Env.small.traced (interpretForeach Env.small.traced 4) code 4
        (UpToFound Env.small.traced) (Config.start 0 (Traced.start .start))
        ((exitOverFor true).exec Env.small.traced 4 (Traced.start .start)) := by
  obtain ⟨code, compiled, ends⟩ :=
    compiled_found Env.small_laws (exitOverFor true) (by decide +kernel) (by decide +kernel)
  exact ⟨code, compiled, ends 4 0 .start (by decide +kernel) (by decide +kernel)⟩

/-- With FOUND false before, the statement after the block sees it false; the
interpreter has set it on leaving the loop. -/
theorem exitOverFor_loses_found :
    ¬∃ code, compileFunction (exitOverFor false) = some code ∧
      EndsLike Env.small.traced (interpretForeach Env.small.traced 4) code 4
        (UpToFound Env.small.traced) (Config.start 0 (Traced.start .start))
        ((exitOverFor false).exec Env.small.traced 4 (Traced.start .start)) := by
  rintro ⟨code, compiled, ends⟩
  have meaning : Ends Env.small.traced (interpretForeach Env.small.traced 4) code 4
      (Config.start 0 (Traced.start .start)) _ := 
    compileFunction_ends compiled 0 (Traced.start Small.start)
  obtain ⟨c₁, run₁, returned₁, -, world₁⟩ := meaning
  obtain ⟨c₂, run₂, returned₂, -, world₂⟩ := ends
  obtain rfl := run₁.halted_unique run₂ returned₁ returned₂
  have seen := congrArg (fun t : Traced Small => t.trace.getLast?) (world₁.symm.trans world₂)
  revert seen
  decide +kernel

/-! ### FOREACH -/

/-- In every run in which no FOREACH ends with a code other than OK, the compiled
function ends as if every such code were honoured; it ends as the interpreter
does if nothing else sets the two apart. -/
theorem compiled_foreach (env : Env W) (action : Stmt) (resolves : action.resolves [] = true) :
    ∃ code, compileFunction action = some code ∧ ∀ fuel level w,
      (runNotes env fuel action w).foreachDropped = false →
      Ends env (interpretForeach env fuel) code fuel (Config.start level w)
        (action.run env (honourRc env (interpretForeach env fuel)) fuel functionRunCtx ⟨w, .none⟩) ∧
      (env.FoundLaws → (runNotes env fuel action w).fine →
        EndsLike env (interpretForeach env fuel) code fuel (UpToFound env) (Config.start level w)
          (action.exec env fuel w)) := by
  obtain ⟨code, compiled⟩ := compileFunction_returns action resolves
  refine ⟨code, compiled, fun fuel level w none => ⟨?_, fun laws fine => ?_⟩⟩
  · rw [action.run_coincides functionRunCtx ⟨w, .none⟩ none]
    exact compileFunction_ends compiled level w
  · exact compileFunction_endsLike laws resolves compiled level w fine

/-- A FOREACH in a block with handlers whose body leaves it with EXIT. -/
def foreachExit : Stmt :=
  .block none [] (.cons
    (.blockExceptions (some 0) [] (.cons
      (.foreachA none 0 (.cons (.leaf 1) (.cons (.exit true none none) .nil))) .nil)
      (.cons [.others] (.cons (.leaf 5) .nil) .nil))
    (.cons (.ret 2) .nil))

theorem foreachExit_honoured :
    ∃ code, compileFunction foreachExit = some code ∧
      EndsLike Env.small (interpretForeach Env.small 4) code 4 (UpToFound Env.small)
        (Config.start 0 .start) (foreachExit.exec Env.small 4 .start) := by
  obtain ⟨code, compiled, ends⟩ := compiled_foreach Env.small foreachExit (by decide +kernel)
  have notes : runNotes Env.small 4 foreachExit .start = .none := by decide +kernel
  exact ⟨code, compiled, (ends 4 0 .start (by rw [notes]; rfl)).2 Env.small_laws notes⟩

/-- RETURN inside a FOREACH, with statements after the loop. -/
def foreachReturn : Stmt :=
  .block none [] (.cons (.foreachA none 0 (.cons (.ret 1) .nil))
    (.cons (.leaf 7) (.cons (.ret 2) .nil)))

/-- The compiled code goes on after the loop. -/
theorem foreachReturn_dropped :
    ¬∃ code, compileFunction foreachReturn = some code ∧
      EndsLike Env.small (interpretForeach Env.small 4) code 4 (UpToFound Env.small)
        (Config.start 0 .start) (foreachReturn.exec Env.small 4 .start) := by
  rintro ⟨code, compiled, ends⟩
  have meaning : Ends Env.small (interpretForeach Env.small 4) code 4 (Config.start 0 .start) _ :=
    compileFunction_ends compiled 0 Small.start
  obtain ⟨c₁, run₁, returned₁, -, world₁⟩ := meaning
  obtain ⟨c₂, run₂, returned₂, -, same⟩ := ends
  obtain rfl := run₁.halted_unique run₂ returned₁ returned₂
  have ran := congrArg Small.ran (same true)
  rw [world₁] at ran
  revert ran
  decide +kernel

end Uplpgsql
