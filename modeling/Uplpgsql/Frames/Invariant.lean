import Uplpgsql.Frames.Held
import Uplpgsql.Frames.Typing
import Uplpgsql.Correctness.Function

/-!
# Checked code keeps the state machine of the exception frames

The invariant of a watched run: the machine stands at a program point whose
cleanups are what is held, and the values an exception block saves are those
that go with it. One lemma for each kind of item shows that a step keeps it; a
run keeps it by induction.
-/

namespace Uplpgsql

open Lib.Flow Lib.Iteration

variable {W : Type} {T : Entries Point} {code : Nat → List Item} {c : Config W} {held : List Held}

/-- A frame that is pushed and not armed. -/
structure Unarmed (T : Entries Point) (c : Config W) (r : Nat) (cleanups : List Cleanup) (f : Nat)
    (entry : View) (rest : List Held) (frame : Frame) : Prop where
  reg : (c.regs r).toPtr = f
  lt : f < c.rt.nextFrame
  live : c.rt.frames f = some frame
  saved : Saved frame entry
  mcontext : McontextOk c.rt entry
  below : Holds T c.regs c.rt cleanups rest f entry
  now : c.rt.view = { entry with subLevel := entry.subLevel + 1, owner := c.rt.owner }

/-- The values with which a handler is looked up. -/
def View.caught (entry : View) (plCurError : Option ErrorData) (e : ErrorData) : View :=
  { entry with
    plCurError := plCurError
    curError := some e
    stmtMcontext := none
    stmtMcontextParent := entry.stmtMcontext.getD 0 }

/-- The catch helper has returned and no handler has started. -/
structure Selected (T : Entries Point) (c : Config W) (r : Nat) (cleanups : List Cleanup) (f : Nat)
    (entry : View) (rest : List Held) (frame : Frame) : Prop where
  reg : (c.regs r).toPtr = f
  lt : f < c.rt.nextFrame
  live : c.rt.frames f = some frame
  saved : Saved frame entry
  mcontext : McontextOk c.rt entry
  below : Holds T c.regs c.rt cleanups rest f entry
  now : c.rt.view = entry.caught c.rt.plCurError c.thrown

/-- What goes with a program point. -/
def Stands (T : Entries Point) (c : Config W) (held : List Held) : Point → Prop
  | .plain _ cleanups =>
    Holds T c.regs c.rt cleanups held c.rt.nextFrame c.rt.view ∧ McontextOk c.rt c.rt.view
  | .pushed r cleanups =>
    ∃ f entry rest frame, held = .frame f .pushed entry :: rest ∧
      Unarmed T c r cleanups f entry rest frame
  | .ready r catchBb cleanups =>
    ∃ f entry rest frame, held = .frame f .pushed entry :: rest ∧ frame.jmpbuf = some catchBb ∧
      Unarmed T c r cleanups f entry rest frame
  | .caught r cleanups =>
    ∃ f b entry rest frame,
      Holds.Catches T c.regs c.rt held c.rt.nextFrame r f b cleanups entry rest frame ∧
        c.rt.exceptionStack = some f ∧ innermost held = some f ∧ c.rt.subLevel = entry.subLevel + 1
  | .selected r cleanups =>
    ∃ f entry rest frame, held = .frame f .handling entry :: rest ∧
      Selected T c r cleanups f entry rest frame

/-- The invariant of a watched run. -/
def Watched (T : Entries Point) (code : Nat → List Item) (c : Config W) (held : List Held) : Prop :=
  match c.status with
  | .running =>
    ∃ p r, Path discipline T (some p) ((code c.block).drop c.index) r ∧ Stands T c held p ∧
      (c.index = 0 → T c.block = some p)
  | .returned => held = []
  | _ => True

/-- At a program point whose code is checked. -/
theorem Watched.running {p : Point} {r : Option Point} (running : c.status = .running)
    (path : Path discipline T (some p) ((code c.block).drop c.index) r) (stands : Stands T c held p)
    (entry : c.index = 0 → T c.block = some p) : Watched T code c held := by
  rw [Watched, running]
  exact ⟨p, r, path, stands, entry⟩

/-- Entering a block at its entry point. -/
theorem Watched.enter (checked : Checked discipline T code) {p : Point} (running : c.status = .running)
    (index : c.index = 0) (known : T c.block = some p) (stands : Stands T c held p) :
    Watched T code c held := by
  obtain ⟨r, path⟩ := checked c.block p known
  exact .running running (by rw [index, List.drop_zero]; exact path) stands fun _ => known

theorem Watched.of_halted (halted : c.status = .spent ∨ c.status = .crashed ∨ ∃ e, c.status = .uncaught e) :
    Watched T code c held := by
  rcases halted with eq | eq | ⟨e, eq⟩ <;> simp [Watched, eq]

/-! ### Errors -/

/-- The state is consistent enough for an error to be raised. -/
structure Throwable (T : Entries Point) (c : Config W) (held : List Held) : Prop where
  running : c.status = .running
  holds : ∃ cleanups v, Holds T c.regs c.rt cleanups held c.rt.nextFrame v ∧
    c.rt.exceptionStack = v.exceptionStack ∧ c.rt.subLevel = v.subLevel

theorem Throwable.throw (checked : Checked discipline T code) (throwable : Throwable T c held)
    (e : ErrorData) : Watched T code (c.throw e) held := by
  obtain ⟨cleanups, v, holds, stack, level⟩ := throwable.holds
  rcases holds.catches_or_none with none | ⟨r, f, b, cleanups', entry, rest, frame, catches, top, lev⟩
  · have goes : c.throw e = c.halt (.uncaught e) := by
      rw [Config.throw, stack, none]
    rw [goes]
    exact .of_halted (.inr (.inr ⟨e, rfl⟩))
  · have goes : c.throw e = { c.goto b with thrown := e } := by
      rw [Config.throw, stack, top]
      simp only [catches.live, Option.bind_some, catches.jumps]
    rw [goes]
    refine .enter checked throwable.running rfl catches.catches
      ⟨f, b, entry, rest, frame, catches, stack.trans top, ?_, level.trans lev⟩
    rw [← holds.exceptionStack_eq, top]

/-! ### Quiet instructions -/

theorem Rt.getStmtMcontext_later (rt : Rt) (n : Nat) : rt.Later rt.getStmtMcontext n := by
  unfold Rt.getStmtMcontext
  split
  · exact .refl _ _
  · exact ⟨fun _ _ => rfl, Nat.le_succ _, fun m lt => Function.update_of_ne (Nat.ne_of_lt lt) ..⟩

theorem Rt.getStmtMcontext_view (rt : Rt) :
    ∃ m, rt.getStmtMcontext.view = { rt.view with stmtMcontext := some m } ∧
      (rt.stmtMcontext = none ∨ rt.stmtMcontext = some m) := by
  unfold Rt.getStmtMcontext
  split
  next m eq => exact ⟨m, by simp [Rt.view, eq], .inr eq⟩
  next eq => exact ⟨rt.nextObject, rfl, .inl eq⟩

/-- Creating the statement context changes nothing else. -/
theorem Holds.getStmtMcontext {regs : Nat → Val} {rt : Rt} {cleanups : List Cleanup} {bound : Nat}
    (holds : Holds T regs rt cleanups held bound rt.view) :
    Holds T regs rt.getStmtMcontext cleanups held bound rt.getStmtMcontext.view := by
  obtain ⟨m, view, before⟩ := rt.getStmtMcontext_view
  rw [view]
  rcases before with missing | present
  · exact (holds.createMcontext missing (some m)).mono (Nat.le_refl _) (fun _ _ => rfl)
      (rt.getStmtMcontext_later bound)
  · have same : { rt.view with stmtMcontext := some m } = rt.view := by simp [Rt.view, present]
    rw [same]
    exact holds.mono (Nat.le_refl _) (fun _ _ => rfl) (rt.getStmtMcontext_later bound)

theorem McontextOk.getStmtMcontext {rt : Rt} (ok : McontextOk rt rt.view) :
    McontextOk rt.getStmtMcontext rt.getStmtMcontext.view := by
  unfold Rt.getStmtMcontext
  split
  · exact ok
  · intro m eq
    obtain rfl := Option.some.inj eq
    exact ⟨Nat.lt_succ_self _, Function.update_self ..⟩

/-- How a quiet instruction goes on. -/
structure QuietNext (c c' : Config W) (dst : Option Nat) : Prop where
  block : c'.block = c.block
  index : c'.index = c.index + 1
  status : c'.status = c.status
  regs : ∀ r, dst ≠ some r → c'.regs r = c.regs r
  rt : c'.rt = c.rt ∨ c'.rt = c.rt.getStmtMcontext

/-- How a quiet instruction fails: statement contexts apart, the state is as it
was before. -/
structure QuietThrow (c c' : Config W) : Prop where
  status : c'.status = c.status
  regs : c'.regs = c.regs
  exceptionStack : c'.rt.exceptionStack = c.rt.exceptionStack
  subLevel : c'.rt.subLevel = c.rt.subLevel
  nextFrame : c'.rt.nextFrame = c.rt.nextFrame
  later : ∀ n, c.rt.Later c'.rt n

section Steps

variable (env : Env W) (delegate : Delegate W)

theorem QuietThrow.withWorld (c : Config W) (w : W) : QuietThrow c (c.withWorld w) :=
  ⟨rfl, rfl, rfl, rfl, rfl, fun n => .refl _ n⟩

/-- A quiet instruction goes on, raises an error, or runs out of fuel. -/
inductive QuietStep (c : Config W) (dst : Option Nat) : Config W → Prop where
  | next {c' : Config W} (next : QuietNext c c' dst) : QuietStep c dst c'
  | throw {c' : Config W} (throw : QuietThrow c c') (e : ErrorData) : QuietStep c dst (c'.throw e)
  | spent {c' : Config W} (spent : c'.status = .spent) : QuietStep c dst c'

/-- A call whose result goes into a register, or nowhere. -/
theorem quiet_after {α : Type} (c : Config W) (res : Res W α) (dst : Option Nat)
    (ok : Config W → α → Config W)
    (goes : ∀ w value, QuietStep c dst (ok (c.withWorld w) value)) :
    QuietStep c dst (c.after res ok) := by
  unfold Config.after
  cases res with
  | ok value w => exact goes w value
  | raise e w => exact .throw (.withWorld c w) e

theorem QuietNext.setReg (c : Config W) (w : W) (dst : Nat) (val : Val) :
    QuietNext c ((c.withWorld w).setReg dst val).next (some dst) where
  block := rfl
  index := rfl
  status := rfl
  regs _ ne := Function.update_of_ne (fun same => ne (congrArg some same.symm)) ..
  rt := .inl rfl

theorem QuietNext.plain (c : Config W) (w : W) : QuietNext c (c.withWorld w).next none :=
  ⟨rfl, rfl, rfl, fun _ _ => rfl, .inl rfl⟩

theorem QuietThrow.mcontext (c : Config W) (w : W) {rt : Rt} (view : rt.exceptionStack = c.rt.exceptionStack)
    (level : rt.subLevel = c.rt.subLevel) (frames : rt.nextFrame = c.rt.nextFrame)
    (later : ∀ n, c.rt.Later rt n) : QuietThrow c ((c.withWorld w).withRt rt) :=
  ⟨rfl, rfl, view, level, frames, later⟩

@[simp] theorem Rt.getStmtMcontext_subLevel (rt : Rt) : rt.getStmtMcontext.subLevel = rt.subLevel := by
  unfold Rt.getStmtMcontext
  split <;> rfl

theorem quiet_call (c : Config W) (op : Op) :
    QuietStep c none (stepInstr env delegate c (.call op)) := by
  have rt : callRt env op c.rt = c.rt ∨ callRt env op c.rt = c.rt.getStmtMcontext := by
    unfold callRt
    split
    · exact .inr rfl
    · exact .inl rfl
  have later (n : Nat) : c.rt.Later (callRt env op c.rt) n := by
    rcases rt with same | same
    · rw [same]
      exact .refl _ _
    · rw [same]
      exact c.rt.getStmtMcontext_later n
  simp only [stepInstr, Config.after]
  split
  next value w _ => exact .next ⟨rfl, rfl, rfl, fun _ _ => rfl, rt⟩
  next e w _ =>
    have failed : QuietThrow c ((c.withRt (callRt env op c.rt)).withWorld w) := by
      refine ⟨rfl, rfl, ?_, ?_, ?_, later⟩
      · change (callRt env op c.rt).exceptionStack = _
        rcases rt with same | same <;> simp [same]
      · change (callRt env op c.rt).subLevel = _
        rcases rt with same | same <;> simp [same]
      · change (callRt env op c.rt).nextFrame = _
        rcases rt with same | same <;> simp [same]
    exact .throw failed e

theorem quiet_foreachA (c : Config W) (label : Option Nat) (id : Nat) (body : Stmts) :
    QuietStep c none (stepInstr env delegate c (.foreachA label id body)) := by
  simp only [stepInstr]
  cases delegate label id body c.w with
  | done rc w => exact .next ⟨rfl, rfl, rfl, fun _ _ => rfl, .inr rfl⟩
  | err e w =>
    refine .throw (.mcontext c w ?_ ?_ ?_ fun n => ?_) e
    · exact c.rt.getStmtMcontext_exceptionStack
    · exact c.rt.getStmtMcontext_subLevel
    · exact c.rt.getStmtMcontext_nextFrame
    · have later := c.rt.getStmtMcontext_later n
      exact ⟨later.frames, later.objects, later.parents⟩
  | spent w => exact .spent rfl

theorem quiet_step (c : Config W) {i : Instr} (quiet : i.quiet = true) :
    QuietStep c i.dst (stepInstr env delegate c i) := by
  cases i with
  | call op => exact quiet_call env delegate c op
  | evalBool dst expr =>
    simp only [stepInstr, Instr.dst]
    exact quiet_after c _ _ _ fun w value => .next (.setReg c w dst _)
  | evalInt dst expr =>
    simp only [stepInstr, Instr.dst]
    refine quiet_after c _ _ _ fun w value => ?_
    cases value with
    | none => exact .throw (.withWorld c w) _
    | some v => exact .next (.setReg c w dst _)
  | assignInt var src =>
    simp only [stepInstr, Instr.dst]
    exact quiet_after c _ _ _ fun w value => .next (.plain c w)
  | const dst v => exact .next (.setReg c c.w dst _)
  | move dst src => exact .next (.setReg c c.w dst _)
  | icmpSlt dst a b => exact .next (.setReg c c.w dst _)
  | icmpSgt dst a b => exact .next (.setReg c c.w dst _)
  | add dst a b => exact .next (.setReg c c.w dst _)
  | sub dst a b => exact .next (.setReg c c.w dst _)
  | setFound src => exact .next (.plain c _)
  | fetchRow dst kind id portal =>
    simp only [stepInstr, Instr.dst]
    exact quiet_after c _ _ _ fun w value => .next (.setReg c w dst _)
  | foreachA label id body => exact quiet_foreachA env delegate c label id body
  | _ => cases quiet

/-- At a plain point a quiet instruction keeps the invariant. -/
theorem watched_quiet (checked : Checked discipline T code) {cleanups : List Cleanup} {dst : Option Nat}
    {phase phase' : Phase} {c' : Config W} {r : Option Point} (running : c.status = .running)
    (stands : Stands T c held (.plain phase cleanups))
    (spare : ∀ d, dst = some d → Spare cleanups d)
    (rest : Path discipline T (some (.plain phase' cleanups)) ((code c.block).drop (c.index + 1)) r)
    (step : QuietStep c dst c') : Watched T code c' held := by
  obtain ⟨holds, mcontext⟩ := stands
  cases step with
  | next next =>
    have sameRegs : ∀ x ∈ cleanups, c'.regs x.reg = c.regs x.reg := fun x member =>
      next.regs _ fun same => spare _ same x member rfl
    refine .running (next.status.trans running) (by rw [next.block, next.index]; exact rest) ?_
      (by rw [next.index]; exact fun zero => by omega)
    rcases next.rt with same | same
    · rw [Stands, same]
      exact ⟨holds.mono (Nat.le_refl _) sameRegs (.refl _ _), mcontext⟩
    · rw [Stands, same, Rt.getStmtMcontext_nextFrame]
      exact ⟨holds.getStmtMcontext.mono (Nat.le_refl _) sameRegs (.refl _ _), mcontext.getStmtMcontext⟩
  | @throw c₁ thrown e =>
    refine Throwable.throw checked ⟨thrown.status.trans running, cleanups, c.rt.view, ?_,
      thrown.exceptionStack, thrown.subLevel⟩ e
    rw [thrown.regs, thrown.nextFrame]
    exact holds.mono (Nat.le_refl _) (fun _ _ => rfl) (thrown.later _)
  | spent spent => exact .of_halted (.inl spent)

end Steps

/-! ### What the helpers restore -/

section Restore

variable {rt : Rt} {f : Nat} {frame : Frame} {entry : View} {n : Nat}

/-- Leaving a try body restores everything. -/
theorem exceptionTryExit_view (saved : Saved frame entry)
    (stack : frame.savedExceptionStack = entry.exceptionStack) (now : Trying f entry rt.view) :
    (rt.exceptionTryExit f frame).view = entry := by
  have level : rt.subLevel = entry.subLevel + 1 := now.subLevel
  refine View.ext stack ?_ saved.owner saved.evalEcontext now.plCurError now.curError now.stmtMcontext
    now.parent
  change rt.subLevel - 1 = entry.subLevel
  omega

/-- So does leaving a handler. The statement context that was pushed is popped
by way of its parent. -/
theorem exceptionHandlerDone_view (saved : Saved frame entry) (mcontext : McontextOk rt entry)
    (errors : entry.curError = entry.plCurError) (now : Handling entry rt.view) :
    (rt.exceptionHandlerDone f frame).view = entry := by
  have parent : rt.parentOf rt.stmtMcontextParent = entry.stmtMcontextParent :=
    (mcontext _ now.parent).2
  exact View.ext now.exceptionStack now.subLevel now.owner now.evalEcontext saved.curError
    (saved.curError.trans errors.symm) now.parent.symm parent

/-- And so does giving up. -/
theorem exceptionRethrow_view (saved : Saved frame entry) (mcontext : McontextOk rt entry)
    (errors : entry.curError = entry.plCurError) (now : Handling entry rt.view) :
    (rt.exceptionRethrow f frame).view = entry :=
  exceptionHandlerDone_view saved mcontext errors now

/-- Catching an error brings back the values at the push, with the error
recorded and the statement context pushed. -/
theorem exceptionCatch_view (saved : Saved frame entry)
    (stack : frame.savedExceptionStack = entry.exceptionStack)
    (level : rt.subLevel = entry.subLevel + 1) (e : ErrorData) :
    (rt.exceptionCatch frame e).view = entry.caught rt.plCurError e := by
  refine View.ext stack ?_ saved.owner saved.evalEcontext rfl rfl rfl ?_
  · change rt.subLevel - 1 = entry.subLevel
    omega
  · change frame.stmtMcontext = entry.stmtMcontext.getD 0
    rw [saved.stmtMcontext, Option.getD_some]

theorem setFrame_later (rt : Rt) (f : Nat) (frame : Option Frame) : rt.Later (rt.setFrame f frame) f :=
  ⟨fun _ lt => Function.update_of_ne (Nat.ne_of_lt lt) .., Nat.le_refl _, fun _ _ => rfl⟩

end Restore

theorem Selected.handling {r f : Nat} {cleanups : List Cleanup} {entry : View} {rest : List Held}
    {frame : Frame} (sel : Selected T c r cleanups f entry rest frame) : Handling entry c.rt.view := by
  have parent : entry.stmtMcontext = some (entry.stmtMcontext.getD 0) := by
    rw [sel.saved.stmtMcontext, Option.getD_some]
  rw [sel.now]
  exact ⟨rfl, rfl, rfl, rfl, parent⟩

theorem Selected.error {r f : Nat} {cleanups : List Cleanup} {entry : View} {rest : List Held}
    {frame : Frame} (sel : Selected T c r cleanups f entry rest frame) :
    c.rt.curError = some c.thrown := congrArg View.curError sel.now

/-- The exception stack is where the watch says it is. -/
theorem Stands.exceptionStack {p : Point} (stands : Stands T c held p) :
    c.rt.exceptionStack = innermost held := by
  cases p with
  | plain phase cleanups => exact stands.1.exceptionStack_eq
  | pushed r cleanups =>
    obtain ⟨f, entry, rest, frame, rfl, unarmed⟩ := stands
    exact (congrArg View.exceptionStack unarmed.now).trans unarmed.below.exceptionStack_eq
  | ready r b cleanups =>
    obtain ⟨f, entry, rest, frame, rfl, -, unarmed⟩ := stands
    exact (congrArg View.exceptionStack unarmed.now).trans unarmed.below.exceptionStack_eq
  | caught r cleanups =>
    obtain ⟨f, b, entry, rest, frame, -, top, inner, -⟩ := stands
    exact top.trans inner.symm
  | selected r cleanups =>
    obtain ⟨f, entry, rest, frame, rfl, sel⟩ := stands
    exact (congrArg View.exceptionStack sel.now).trans sel.below.exceptionStack_eq

/-! ### What each item does -/

/-- An error on its way: it goes to the frame `target`, or out of the function. -/
def Arrived (c : Config W) (target : Option Nat) (e : ErrorData) : Prop :=
  match target with
  | none => c.status = .uncaught e
  | some f => c.status = .running ∧ c.thrown = e ∧ c.index = 0 ∧
      (c.rt.frames f).bind (·.jmpbuf) = some c.block

/-- What the helpers do with the values an exception block saves, from what is
held before them. -/
def Restores (c c' : Config W) (held : List Held) : Instr → Prop
  | .tryExit _ => ∃ f entry rest, held = .frame f .trying entry :: rest ∧ c'.rt.view = entry
  | .handlerDone _ => ∃ f entry rest, held = .frame f .handling entry :: rest ∧ c'.rt.view = entry
  | .rethrow _ =>
    ∃ f entry rest, held = .frame f .handling entry :: rest ∧ c'.rt.view = entry ∧
      Arrived c' (innermost rest) c.thrown
  | .catchError dst _ handlers =>
    ∃ f entry rest, innermost held = some f ∧
      catchFrame f held = some (.frame f .handling entry :: rest) ∧
      c'.rt.view = entry.caught c.rt.plCurError c.thrown ∧ c'.thrown = c.thrown ∧
      c'.regs dst = .index (findHandler c.thrown handlers)
  | .setHandlerVars =>
    ∃ f entry rest, held = .frame f .handling entry :: rest ∧
      c'.rt.view = entry.caught (some c.thrown) c.thrown
  | _ => True

section Instrs

variable (env : Env W) (delegate : Delegate W) (running : c.status = .running)
  {cleanups : List Cleanup} {reg : Nat} {r : Option Point} {phase phase' : Phase}

include running

theorem step_openPortal (checked : Checked discipline T code) {dst id : Nat} {kind : ForKind}
    (stands : Stands T c held (.plain phase cleanups)) (spare : Spare cleanups dst)
    (rest : Path discipline T (some (.plain phase' (.closePortal kind id dst :: cleanups)))
      ((code c.block).drop (c.index + 1)) r) :
    ∃ held', heldAfterInstr env c held (.openPortal dst kind id) = some held' ∧
      Watched T code (stepInstr env delegate c (.openPortal dst kind id)) held' := by
  obtain ⟨holds, mcontext⟩ := stands
  simp only [heldAfterInstr, stepInstr, Config.after]
  cases env.openPortal kind id c.w with
  | ok handle w =>
    refine ⟨_, rfl, .running running rest ⟨.portal ?_ (holds.setReg spare _), mcontext⟩
      fun zero => absurd zero (Nat.succ_ne_zero _)⟩
    simp [Config.next, Config.setReg, Config.withWorld, Val.toPtr]
  | raise e w =>
    exact ⟨held, rfl, Throwable.throw checked (c := c.withWorld w)
      ⟨running, cleanups, c.rt.view, holds, rfl, rfl⟩ e⟩

theorem step_closePortal {id : Nat} {kind : ForKind}
    (stands : Stands T c held (.plain phase (.closePortal kind id reg :: cleanups)))
    (rest : Path discipline T (some (.plain phase' cleanups)) ((code c.block).drop (c.index + 1)) r) :
    ∃ held', heldAfterInstr env c held (.closePortal kind id reg) = some held' ∧
      Watched T code (stepInstr env delegate c (.closePortal kind id reg)) held' := by
  obtain ⟨holds, mcontext⟩ := stands
  cases holds with
  | portal ptr below =>
    subst ptr
    exact ⟨_, if_pos ⟨rfl, rfl, rfl⟩, .running running rest ⟨below, mcontext⟩
      fun zero => absurd zero (Nat.succ_ne_zero _)⟩

theorem step_tryExit (stands : Stands T c held (.plain phase (.tryExit reg :: cleanups)))
    (rest : Path discipline T (some (.plain phase' cleanups)) ((code c.block).drop (c.index + 1)) r) :
    (∃ held', heldAfterInstr env c held (.tryExit reg) = some held' ∧
      Watched T code (stepInstr env delegate c (.tryExit reg)) held') ∧
    Restores c (stepInstr env delegate c (.tryExit reg)) held (.tryExit reg) := by
  obtain ⟨holds, mcontext⟩ := stands
  cases holds with
  | @trying _ f _ _ _ below frame entry _ ptr lt live saved stack jumps catches mcontextEntry now holds =>
    subst ptr
    have view := exceptionTryExit_view saved stack now
    have goes : stepInstr env delegate c (.tryExit reg) =
        ((c.withRt (c.rt.exceptionTryExit (c.regs reg).toPtr frame)).withWorld
          (env.releaseSub c.w)).next := by
      simp only [stepInstr, Config.withFrame, live]
    have later := setFrame_later c.rt (c.regs reg).toPtr none
    rw [goes]
    refine ⟨⟨below, if_pos ⟨rfl, rfl⟩, .running running rest ?_
      fun zero => absurd zero (Nat.succ_ne_zero _)⟩, ⟨_, entry, below, rfl, view⟩⟩
    constructor
    · change Holds T c.regs (c.rt.exceptionTryExit (c.regs reg).toPtr frame) cleanups below
        c.rt.nextFrame (c.rt.exceptionTryExit (c.regs reg).toPtr frame).view
      rw [view]
      exact holds.mono (Nat.le_of_lt lt) (fun _ _ => rfl) ⟨later.frames, later.objects, later.parents⟩
    · change McontextOk (c.rt.exceptionTryExit (c.regs reg).toPtr frame)
        (c.rt.exceptionTryExit (c.regs reg).toPtr frame).view
      rw [view]
      exact mcontextEntry

theorem step_handlerDone (stands : Stands T c held (.plain phase (.handlerDone reg :: cleanups)))
    (rest : Path discipline T (some (.plain phase' cleanups)) ((code c.block).drop (c.index + 1)) r) :
    (∃ held', heldAfterInstr env c held (.handlerDone reg) = some held' ∧
      Watched T code (stepInstr env delegate c (.handlerDone reg)) held') ∧
    Restores c (stepInstr env delegate c (.handlerDone reg)) held (.handlerDone reg) := by
  obtain ⟨holds, mcontext⟩ := stands
  cases holds with
  | @handling _ f _ _ below frame entry _ ptr lt live saved mcontextEntry now errors holds =>
    subst ptr
    have view : (c.rt.exceptionHandlerDone (c.regs reg).toPtr frame).view = entry :=
      exceptionHandlerDone_view saved mcontextEntry holds.errors_eq now
    have goes : stepInstr env delegate c (.handlerDone reg) =
        (c.withRt (c.rt.exceptionHandlerDone (c.regs reg).toPtr frame)).next := by
      simp only [stepInstr, Config.withFrame, live]
    have later := setFrame_later c.rt (c.regs reg).toPtr none
    rw [goes]
    refine ⟨⟨below, if_pos ⟨rfl, rfl⟩, .running running rest ?_
      fun zero => absurd zero (Nat.succ_ne_zero _)⟩, ⟨_, entry, below, rfl, view⟩⟩
    constructor
    · change Holds T c.regs (c.rt.exceptionHandlerDone (c.regs reg).toPtr frame) cleanups below
        c.rt.nextFrame (c.rt.exceptionHandlerDone (c.regs reg).toPtr frame).view
      rw [view]
      exact holds.mono (Nat.le_of_lt lt) (fun _ _ => rfl) ⟨later.frames, later.objects, later.parents⟩
    · change McontextOk (c.rt.exceptionHandlerDone (c.regs reg).toPtr frame)
        (c.rt.exceptionHandlerDone (c.regs reg).toPtr frame).view
      rw [view]
      exact mcontextEntry

theorem step_rethrow (checked : Checked discipline T code)
    (stands : Stands T c held (.selected reg cleanups)) :
    (∃ held', heldAfterInstr env c held (.rethrow reg) = some held' ∧
      Watched T code (stepInstr env delegate c (.rethrow reg)) held') ∧
    Restores c (stepInstr env delegate c (.rethrow reg)) held (.rethrow reg) := by
  obtain ⟨f, entry, below, frame, rfl, sel⟩ := stands
  have ptr := sel.reg
  subst ptr
  have view : (c.rt.exceptionRethrow (c.regs reg).toPtr frame).view = entry :=
    exceptionRethrow_view sel.saved sel.mcontext sel.below.errors_eq sel.handling
  let c₁ : Config W := c.withRt (c.rt.exceptionRethrow (c.regs reg).toPtr frame)
  have goes : stepInstr env delegate c (.rethrow reg) = c₁.throw c.thrown := by
    simp only [stepInstr, Config.withFrame, sel.live, sel.error, c₁]
  have later := setFrame_later c.rt (c.regs reg).toPtr none
  have holds : Holds T c₁.regs c₁.rt cleanups below c₁.rt.nextFrame entry :=
    sel.below.mono (Nat.le_of_lt sel.lt) (fun _ _ => rfl) ⟨later.frames, later.objects, later.parents⟩
  have stack : c₁.rt.exceptionStack = entry.exceptionStack := congrArg View.exceptionStack view
  have level : c₁.rt.subLevel = entry.subLevel := congrArg View.subLevel view
  have throwable : Throwable T c₁ below := ⟨running, cleanups, entry, holds, stack, level⟩
  rw [goes]
  refine ⟨⟨below, if_pos ⟨rfl, rfl⟩, throwable.throw checked _⟩, _, entry, below, rfl, ?_⟩
  rw [← holds.exceptionStack_eq]
  rcases holds.catches_or_none with none | ⟨r', f', b, cleanups', entry', rest', frame', catches, top, -⟩
  · have out : c₁.throw c.thrown = c₁.halt (.uncaught c.thrown) := by
      rw [Config.throw, stack, none]
    rw [out, none]
    exact ⟨view, rfl⟩
  · have out : c₁.throw c.thrown = { c₁.goto b with thrown := c.thrown } := by
      rw [Config.throw, stack, top]
      simp only [catches.live, Option.bind_some, catches.jumps]
    have lands : (c₁.rt.frames f').bind (·.jmpbuf) = some b := by
      rw [catches.live, Option.bind_some, catches.jumps]
    rw [out, top]
    exact ⟨view, running, rfl, rfl, lands⟩

theorem step_pushFrame {dst : Nat} (stands : Stands T c held (.plain phase cleanups))
    (spare : Spare cleanups dst)
    (rest : Path discipline T (some (.pushed dst cleanups)) ((code c.block).drop (c.index + 1)) r) :
    ∃ held', heldAfterInstr env c held (.pushFrame dst) = some held' ∧
      Watched T code (stepInstr env delegate c (.pushFrame dst)) held' := by
  obtain ⟨holds, mcontext⟩ := stands
  obtain ⟨m, view, -⟩ := c.rt.getStmtMcontext_view
  have present : c.rt.getStmtMcontext.stmtMcontext = some m := congrArg View.stmtMcontext view
  let rt := c.rt.getStmtMcontext
  let frame : Frame := ⟨none, none, rt.owner, rt.evalEcontext, rt.plCurError, rt.stmtMcontext.getD 0⟩
  refine ⟨_, rfl, .running running rest ⟨_, rt.view, held, frame, rfl, ?_⟩
    fun zero => absurd zero (Nat.succ_ne_zero _)⟩
  have later : c.rt.getStmtMcontext.Later c.rt.exceptionPushFrame c.rt.nextFrame :=
    ⟨fun f lt => Function.update_of_ne
      (by rw [Rt.getStmtMcontext_nextFrame]; exact Nat.ne_of_lt lt) ..,
      Nat.le_succ _, fun _ _ => rfl⟩
  exact
    { reg := by simp [stepInstr, Config.next, Config.setReg, Val.toPtr]
      lt := by
        change c.rt.nextFrame < c.rt.getStmtMcontext.nextFrame + 1
        rw [Rt.getStmtMcontext_nextFrame]
        exact Nat.lt_succ_self _
      live := by
        change Function.update c.rt.getStmtMcontext.frames c.rt.getStmtMcontext.nextFrame _
          c.rt.nextFrame = _
        rw [Rt.getStmtMcontext_nextFrame]
        exact Function.update_self ..
      saved := ⟨rfl, rfl, rfl, by
        change c.rt.getStmtMcontext.stmtMcontext = some (c.rt.getStmtMcontext.stmtMcontext.getD 0)
        rw [present, Option.getD_some]⟩
      mcontext := mcontext.getStmtMcontext.later later
      below := (holds.getStmtMcontext.setReg spare _).mono (Nat.le_refl _) (fun _ _ => rfl) later
      now := rfl }

theorem step_arm {catchBb : Nat} (stands : Stands T c held (.ready reg catchBb cleanups))
    (catches : T catchBb = some (.caught reg cleanups))
    (rest : Path discipline T (some (.plain phase' (.tryExit reg :: cleanups)))
      ((code c.block).drop (c.index + 1)) r) :
    ∃ held', heldAfterInstr env c held (.arm reg) = some held' ∧
      Watched T code (stepInstr env delegate c (.arm reg)) held' := by
  obtain ⟨f, entry, below, frame, rfl, jumps, un⟩ := stands
  have ptr := un.reg
  subst ptr
  have goes : stepInstr env delegate c (.arm reg) =
      (c.withRt (c.rt.exceptionArm (c.regs reg).toPtr frame)).next := by
    simp only [stepInstr, Config.withFrame, un.live]
  have later : c.rt.Later (c.rt.exceptionArm (c.regs reg).toPtr frame) (c.regs reg).toPtr :=
    ⟨fun _ lt => Function.update_of_ne (Nat.ne_of_lt lt) .., Nat.le_succ _, fun _ _ => rfl⟩
  have view := un.now
  have stack : c.rt.exceptionStack = entry.exceptionStack := congrArg View.exceptionStack view
  have level : c.rt.subLevel = entry.subLevel + 1 := congrArg View.subLevel view
  have plError : c.rt.plCurError = entry.plCurError := congrArg View.plCurError view
  have error : c.rt.curError = entry.curError := congrArg View.curError view
  have mcontext : c.rt.stmtMcontext = entry.stmtMcontext := congrArg View.stmtMcontext view
  have parent : c.rt.stmtMcontextParent = entry.stmtMcontextParent :=
    congrArg View.stmtMcontextParent view
  have now : Trying (c.regs reg).toPtr entry (c.rt.exceptionArm (c.regs reg).toPtr frame).view :=
    ⟨rfl, level, plError, error, mcontext, parent⟩
  rw [goes]
  refine ⟨_, if_pos rfl, .running running rest ⟨.trying rfl un.lt (Function.update_self ..)
    ⟨un.saved.owner, un.saved.evalEcontext, un.saved.curError, un.saved.stmtMcontext⟩
    stack jumps catches (un.mcontext.later later) now
    (un.below.mono (Nat.le_refl _) (fun _ _ => rfl) later), ?_⟩
    fun zero => absurd zero (Nat.succ_ne_zero _)⟩
  -- The statement context is the one that was there at the push.
  intro m eq
  have same : entry.stmtMcontext = some m := now.stmtMcontext.symm.trans eq
  obtain ⟨lt, parent⟩ := un.mcontext.later later m same
  exact ⟨lt, parent.trans now.parent.symm⟩

theorem step_catchError {dst : Nat} {handlers : List (List Condition)}
    (stands : Stands T c held (.caught reg cleanups)) (spare : Spare (.handlerDone reg :: cleanups) dst)
    (rest : Path discipline T (some (.selected reg cleanups)) ((code c.block).drop (c.index + 1)) r) :
    (∃ held', heldAfterInstr env c held (.catchError dst reg handlers) = some held' ∧
      Watched T code (stepInstr env delegate c (.catchError dst reg handlers)) held') ∧
    Restores c (stepInstr env delegate c (.catchError dst reg handlers)) held
      (.catchError dst reg handlers) := by
  obtain ⟨f, b, entry, below, frame, catches, top, inner, level⟩ := stands
  have ptr := catches.reg
  subst ptr
  have view := exceptionCatch_view catches.saved catches.stack level c.thrown
  have goes : stepInstr env delegate c (.catchError dst reg handlers) =
      (((c.withRt (c.rt.exceptionCatch frame c.thrown)).withWorld (env.rollbackSub c.w)).setReg dst
        (.index (findHandler c.thrown handlers))).next := by
    simp only [stepInstr, Config.withFrame, catches.live]
  have regs (x : Cleanup) (member : x ∈ Cleanup.handlerDone reg :: cleanups) :
      Function.update c.regs dst (.index (findHandler c.thrown handlers)) x.reg = c.regs x.reg :=
    Function.update_of_ne (spare x member) ..
  rw [goes]
  refine ⟨⟨_, catches.caught, .running running rest ⟨_, entry, below, frame, rfl, ?_⟩
    fun zero => absurd zero (Nat.succ_ne_zero _)⟩,
    ⟨_, entry, below, inner, catches.caught, view, rfl, Function.update_self ..⟩⟩
  exact
    { reg := congrArg Val.toPtr (regs (.handlerDone reg) (by simp))
      lt := catches.lt
      live := catches.live
      saved := catches.saved
      mcontext := catches.mcontext
      below := catches.below.mono (Nat.le_refl _) (fun x member => regs x (by simp [member]))
        ⟨fun _ _ => rfl, Nat.le_refl _, fun _ _ => rfl⟩
      now := view }

theorem step_setHandlerVars (stands : Stands T c held (.selected reg cleanups))
    (rest : Path discipline T (some (.plain phase' (.handlerDone reg :: cleanups)))
      ((code c.block).drop (c.index + 1)) r) :
    (∃ held', heldAfterInstr env c held .setHandlerVars = some held' ∧
      Watched T code (stepInstr env delegate c .setHandlerVars) held') ∧
    Restores c (stepInstr env delegate c .setHandlerVars) held .setHandlerVars := by
  obtain ⟨f, entry, below, frame, rfl, sel⟩ := stands
  have goes : stepInstr env delegate c .setHandlerVars =
      ((c.withRt c.rt.exceptionSetHandlerVars).withWorld (env.setHandlerVars c.thrown c.w)).next := by
    simp only [stepInstr, sel.error]
  have view : c.rt.exceptionSetHandlerVars.view = entry.caught (some c.thrown) c.thrown := by
    have changed : c.rt.exceptionSetHandlerVars.view = { c.rt.view with plCurError := c.rt.curError } :=
      rfl
    rw [changed, sel.now, sel.error]
    rfl
  have handling := sel.handling
  have missing : c.rt.stmtMcontext = none := congrArg View.stmtMcontext sel.now
  rw [goes]
  refine ⟨⟨_, rfl, .running running rest ⟨.handling sel.reg sel.lt sel.live sel.saved sel.mcontext
    ⟨handling.exceptionStack, handling.subLevel, handling.owner, handling.evalEcontext, handling.parent⟩
    rfl (sel.below.mono (Nat.le_refl _) (fun _ _ => rfl) ⟨fun _ _ => rfl, Nat.le_refl _, fun _ _ => rfl⟩),
    fun m eq => ?_⟩ fun zero => absurd zero (Nat.succ_ne_zero _)⟩, ⟨f, entry, below, rfl, view⟩⟩
  change c.rt.stmtMcontext = some m at eq
  rw [missing] at eq
  cases eq

/-! ### Control flow -/

theorem step_sigsetjmp (checked : Checked discipline T code) {tryBb catchBb : Nat}
    (stands : Stands T c held (.pushed reg cleanups))
    (tries : T tryBb = some (.ready reg catchBb cleanups)) :
    Watched T code (stepItem env delegate c (.sigsetjmp reg tryBb catchBb)) held := by
  obtain ⟨f, entry, below, frame, rfl, un⟩ := stands
  have ptr := un.reg
  subst ptr
  have goes : stepItem env delegate c (.sigsetjmp reg tryBb catchBb) =
      (c.withRt (c.rt.sigsetjmp (c.regs reg).toPtr frame catchBb)).goto tryBb := by
    simp only [stepItem, Config.withFrame, un.live]
  have later : c.rt.Later (c.rt.sigsetjmp (c.regs reg).toPtr frame catchBb) (c.regs reg).toPtr :=
    setFrame_later ..
  rw [goes]
  refine .enter checked running rfl tries
    ⟨_, entry, below, { frame with jmpbuf := some catchBb }, rfl, rfl, ?_⟩
  exact
    { reg := rfl
      lt := un.lt
      live := Function.update_self ..
      saved := ⟨un.saved.owner, un.saved.evalEcontext, un.saved.curError, un.saved.stmtMcontext⟩
      mcontext := un.mcontext.later later
      below := un.below.mono (Nat.le_refl _) (fun _ _ => rfl) later
      now := un.now }

omit running in
/-- A switch goes to one of its blocks. -/
theorem switch_target_mem (index : Option Nat) (cases : List Nat) (default : Nat) :
    (index.bind (cases[·]?)).getD default ∈ default :: cases := by
  cases found : index.bind (cases[·]?) with
  | none => simp
  | some b =>
    obtain ⟨k, -, at_k⟩ := Option.bind_eq_some_iff.mp found
    simp [List.mem_of_getElem? at_k]

theorem step_switch (checked : Checked discipline T code) {index default : Nat} {cases : List Nat}
    (stands : Stands T c held (.selected reg cleanups))
    (each : ∀ b ∈ default :: cases, T b = some (.selected reg cleanups)) :
    Watched T code (stepItem env delegate c (.switch index cases default)) held := by
  have known : T (((c.regs index).toIndex.bind (cases[·]?)).getD default) =
      some (.selected reg cleanups) := by
    exact each _ (switch_target_mem _ cases default)
  obtain ⟨f, entry, below, frame, rfl, sel⟩ := stands
  exact .enter checked running rfl known ⟨f, entry, below, frame, rfl,
    ⟨sel.reg, sel.lt, sel.live, sel.saved, sel.mcontext, sel.below, sel.now⟩⟩

/-- A branch between plain points. -/
theorem step_goto (checked : Checked discipline T code) {target : Nat}
    (stands : Stands T c held (.plain phase cleanups)) (goes : T target = some (.plain phase' cleanups)) :
    Watched T code (c.goto target) held :=
  .enter checked running rfl goes stands

/-! ### Steps and runs -/

/-- An instruction keeps the invariant, and the helpers restore what they must. -/
theorem watched_instr (checked : Checked discipline T code) {p : Point} {q : Option Point} {i : Instr}
    (stands : Stands T c held p) (flows : Flows T p (.instr i) q)
    (rest : Path discipline T q ((code c.block).drop (c.index + 1)) r) :
    (∃ held', heldAfterInstr env c held i = some held' ∧
      Watched T code (stepInstr env delegate c i) held') ∧
    Restores c (stepInstr env delegate c i) held i := by
  cases flows with
  | quiet quiet spare =>
    have watched := watched_quiet checked running stands spare rest (quiet_step env delegate c quiet)
    cases i with
    | call | evalBool | evalInt | assignInt | const | move | icmpSlt | icmpSgt | add | sub | setFound
    | fetchRow | foreachA => exact ⟨⟨held, rfl, watched⟩, trivial⟩
    | _ => cases quiet
  | @execReturn cleanups id =>
    have silent : ∀ dst, none = some dst → Spare cleanups dst := nofun
    exact ⟨⟨held, rfl, watched_quiet checked running stands silent rest
      (quiet_call env delegate c (.execReturn id))⟩, trivial⟩
  | @storeRc cleanups =>
    have silent : ∀ dst, none = some dst → Spare cleanups dst := nofun
    exact ⟨⟨held, rfl, watched_quiet checked running stands silent rest
      (.next ⟨rfl, rfl, rfl, fun _ _ => rfl, .inl rfl⟩)⟩, trivial⟩
  | openPortal spare => exact ⟨step_openPortal env delegate running checked stands spare rest, trivial⟩
  | release cleanup settled =>
    cases cleanup with
    | tryExit r => exact step_tryExit env delegate running stands rest
    | handlerDone r => exact step_handlerDone env delegate running stands rest
    | closePortal kind id r => exact ⟨step_closePortal env delegate running stands rest, trivial⟩
  | pushFrame spare => exact ⟨step_pushFrame env delegate running stands spare rest, trivial⟩
  | arm catches => exact ⟨step_arm env delegate running stands catches rest, trivial⟩
  | catchError spare => exact step_catchError env delegate running stands spare rest
  | setHandlerVars => exact step_setHandlerVars env delegate running stands rest
  | rethrow => exact step_rethrow env delegate running checked stands

end Instrs

/-- At a plain point with no cleanup nothing is held. -/
theorem step_ret {phase : Phase} (stands : Stands T c held (.plain phase [])) : Watched T code (c.halt .returned) held := by
  cases stands.1
  rfl

/-- One step of a watched run is never a violation. -/
theorem watched_step (env : Env W) (delegate : Delegate W) (checked : Checked discipline T code)
    (watched : Watched T code c held) :
    ∃ held', heldAfter env code c held = some held' ∧ Watched T code (step env delegate code c) held' := by
  unfold heldAfter step
  cases status : c.status with
  | running =>
    rw [Watched, status] at watched
    obtain ⟨p, r, path, stands, -⟩ := watched
    cases item : (code c.block)[c.index]? with
    | none => exact ⟨held, rfl, .of_halted (.inr (.inl rfl))⟩
    | some x =>
      obtain ⟨q, flows, rest⟩ := path.fetch item
      cases x with
      | instr i => exact (watched_instr env delegate status checked stands flows rest).1
      | br target =>
        cases flows with
        | br goes joins => exact ⟨held, rfl, step_goto status checked stands goes⟩
      | condBr cond thenBb elseBb =>
        cases flows with
        | condBr goes otherwise =>
          refine ⟨held, rfl, ?_⟩
          simp only [stepItem]
          split
          · exact step_goto status checked stands goes
          · exact step_goto status checked stands otherwise
      | sigsetjmp r tryBb catchBb =>
        cases flows with
        | sigsetjmp tries catches => exact ⟨held, rfl, step_sigsetjmp env delegate status checked stands tries⟩
      | switch index cases default =>
        cases flows with
        | switch each => exact ⟨held, rfl, step_switch env delegate status checked stands each⟩
      | ret =>
        cases flows with
        | ret => exact ⟨held, rfl, step_ret stands⟩
      | unreachable => cases flows
  | returned => exact ⟨held, rfl, watched⟩
  | uncaught e => exact ⟨held, rfl, watched⟩
  | spent => exact ⟨held, rfl, watched⟩
  | crashed => exact ⟨held, rfl, watched⟩

/-- A watched run goes on without a violation for any number of steps. -/
theorem watched_run (env : Env W) (delegate : Delegate W) (checked : Checked discipline T code) (n : Nat) :
    ∀ {c : Config W} {held : List Held}, Watched T code c held →
      ∃ held', watchN env delegate code n (c, held) = some ((step env delegate code)^[n] c, held') ∧
        Watched T code ((step env delegate code)^[n] c) held' := by
  induction n with
  | zero => exact fun watched => ⟨_, rfl, watched⟩
  | succ n ih =>
    intro c held watched
    obtain ⟨held₁, after, watched₁⟩ := watched_step env delegate checked watched
    obtain ⟨held', run, watched'⟩ := ih watched₁
    refine ⟨held', ?_, watched'⟩
    simp only [watchN, watch, after, Option.map_some, Option.bind_some]
    exact run

/-- A compiled function starts with nothing held. -/
theorem watched_start (checked : Checked discipline T code) (entry : T entryBb = some (.plain .body []))
    (level : Nat) (w : W) : Watched T code (Config.start level w) [] :=
  .enter checked rfl rfl entry ⟨.nil rfl rfl, fun _ eq => nomatch eq⟩

end Uplpgsql
