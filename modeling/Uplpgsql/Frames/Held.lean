import Uplpgsql.Frames.Points

/-!
# What a run holds

A run of the machine is watched: every frame that is pushed and every portal
that is opened goes on a stack, together with the values the exception block
will have to restore, and comes off it when it is released. A release that is
not for the top of the stack, or not by the helper for what is there, is
reported. An error takes off everything above the frame that catches it: the
subtransaction in which it was acquired is rolled back.
-/

namespace Uplpgsql

open Lib.Flow

variable {W : Type}

/-- What an exception block saves and restores. -/
@[ext]
structure View where
  exceptionStack : Option Nat
  subLevel : Nat
  owner : Nat
  evalEcontext : Nat
  plCurError : Option ErrorData
  curError : Option ErrorData
  stmtMcontext : Option Nat
  stmtMcontextParent : Nat
  deriving DecidableEq, Repr

def Rt.view (rt : Rt) : View :=
  { exceptionStack := rt.exceptionStack
    subLevel := rt.subLevel
    owner := rt.owner
    evalEcontext := rt.evalEcontext
    plCurError := rt.plCurError
    curError := rt.curError
    stmtMcontext := rt.stmtMcontext
    stmtMcontextParent := rt.stmtMcontextParent }

inductive Mode where
  | pushed
  | trying
  | handling
  deriving DecidableEq, Repr

inductive Held where
  | frame (f : Nat) (mode : Mode) (entry : View)
  | portal (kind : ForKind) (id handle : Nat)
  deriving DecidableEq, Repr

/-- The frame an error goes to. -/
def innermost : List Held → Option Nat
  | [] => none
  | .frame f .trying _ :: _ => some f
  | _ :: rest => innermost rest

/-- Takes off the frame `f` in the given mode, which must be on top. -/
def releaseFrame (f : Nat) (mode : Mode) : List Held → Option (List Held)
  | .frame g mode' _ :: rest => if g = f ∧ mode' = mode then some rest else none
  | _ => none

/-- The frame on top goes from one mode to the next. -/
def armFrame (f : Nat) : List Held → Option (List Held)
  | .frame g .pushed entry :: rest => if g = f then some (.frame g .trying entry :: rest) else none
  | _ => none

/-- An error arrives at the frame `f`, which must be the innermost one that is
trying. -/
def catchFrame (f : Nat) : List Held → Option (List Held)
  | [] => none
  | .frame g .trying entry :: rest =>
    if g = f then some (.frame g .handling entry :: rest) else none
  | .frame _ .pushed _ :: _ => none
  | .frame _ .handling _ :: rest => catchFrame f rest
  | .portal _ _ _ :: rest => catchFrame f rest

def releasePortal (kind : ForKind) (id handle : Nat) : List Held → Option (List Held)
  | .portal kind' id' handle' :: rest =>
    if kind' = kind ∧ id' = id ∧ handle' = handle then some rest else none
  | _ => none

section Watch

variable (env : Env W) (delegate : Delegate W) (code : Nat → List Item)

/-- What is held after an instruction; `none` is a violation. -/
def heldAfterInstr (c : Config W) (held : List Held) : Instr → Option (List Held)
  | .pushFrame _ => some (.frame c.rt.nextFrame .pushed c.rt.getStmtMcontext.view :: held)
  | .arm r => armFrame (c.regs r).toPtr held
  | .tryExit r => releaseFrame (c.regs r).toPtr .trying held
  | .catchError _ r _ => catchFrame (c.regs r).toPtr held
  | .handlerDone r => releaseFrame (c.regs r).toPtr .handling held
  | .rethrow r => releaseFrame (c.regs r).toPtr .handling held
  | .openPortal _ kind id =>
    match env.openPortal kind id c.w with
    | .ok handle _ => some (.portal kind id handle :: held)
    | .raise _ _ => some held
  | .closePortal kind id r => releasePortal kind id (c.regs r).toPtr held
  | _ => some held

def heldAfter (c : Config W) (held : List Held) : Option (List Held) :=
  match c.status, (code c.block)[c.index]? with
  | .running, some (.instr i) => heldAfterInstr env c held i
  | _, _ => some held

/-- One watched step. -/
def watch (s : Config W × List Held) : Option (Config W × List Held) :=
  (heldAfter env code s.1 s.2).map fun held => (step env delegate code s.1, held)

def watchN : Nat → Config W × List Held → Option (Config W × List Held)
  | 0, s => some s
  | n + 1, s => (watch env delegate code s).bind (watchN n)

end Watch

/-! ### The state that goes with what is held -/

/-- A statement context that exists has the parent that is recorded with it. -/
def McontextOk (rt : Rt) (v : View) : Prop :=
  ∀ m, v.stmtMcontext = some m → m < rt.nextObject ∧ rt.parentOf m = v.stmtMcontextParent

/-- The frame remembers the values at its push, its exception stack apart. -/
structure Saved (frame : Frame) (entry : View) : Prop where
  owner : frame.oldowner = entry.owner
  evalEcontext : frame.oldEvalEcontext = entry.evalEcontext
  curError : frame.savedCurError = entry.plCurError
  stmtMcontext : entry.stmtMcontext = some frame.stmtMcontext

/-- The values inside a try body, against those at the push. -/
structure Trying (f : Nat) (entry v : View) : Prop where
  exceptionStack : v.exceptionStack = some f
  subLevel : v.subLevel = entry.subLevel + 1
  plCurError : v.plCurError = entry.plCurError
  curError : v.curError = entry.curError
  stmtMcontext : v.stmtMcontext = entry.stmtMcontext
  parent : v.stmtMcontextParent = entry.stmtMcontextParent

/-- The values inside a handler body, against those at the push. -/
structure Handling (entry v : View) : Prop where
  exceptionStack : v.exceptionStack = entry.exceptionStack
  subLevel : v.subLevel = entry.subLevel
  owner : v.owner = entry.owner
  evalEcontext : v.evalEcontext = entry.evalEcontext
  parent : entry.stmtMcontext = some v.stmtMcontextParent

/-- New frames and new objects do not matter to what is held below `bound`. -/
structure Rt.Later (rt rt' : Rt) (bound : Nat) : Prop where
  frames : ∀ f, f < bound → rt'.frames f = rt.frames f
  objects : rt.nextObject ≤ rt'.nextObject
  parents : ∀ m, m < rt.nextObject → rt'.parentOf m = rt.parentOf m

theorem Rt.Later.weaken {rt rt' : Rt} {m n : Nat} (later : rt.Later rt' n) (le : m ≤ n) :
    rt.Later rt' m :=
  ⟨fun f lt => later.frames f (Nat.lt_of_lt_of_le lt le), later.objects, later.parents⟩

theorem Rt.Later.trans {rt₁ rt₂ rt₃ : Rt} {n : Nat} (first : rt₁.Later rt₂ n)
    (second : rt₂.Later rt₃ n) : rt₁.Later rt₃ n where
  frames f lt := (second.frames f lt).trans (first.frames f lt)
  objects := Nat.le_trans first.objects second.objects
  parents m lt := (second.parents m (Nat.lt_of_lt_of_le lt first.objects)).trans (first.parents m lt)

theorem Rt.Later.refl (rt : Rt) (n : Nat) : rt.Later rt n := ⟨fun _ _ => rfl, Nat.le_refl _, fun _ _ => rfl⟩

theorem McontextOk.later {rt rt' : Rt} {v : View} {n : Nat} (ok : McontextOk rt v)
    (later : rt.Later rt' n) : McontextOk rt' v := by
  intro m eq
  obtain ⟨lt, parent⟩ := ok m eq
  exact ⟨Nat.lt_of_lt_of_le lt later.objects, by rw [later.parents m lt]; exact parent⟩

section Holds

variable (T : Entries Point) (regs : Nat → Val) (rt : Rt)

/-- The cleanups of a program point, what is held there, and the values `v` that
go with it. Frames are older the further down they are. -/
inductive Holds : List Cleanup → List Held → Nat → View → Prop where
  | nil {bound : Nat} {v : View} (stack : v.exceptionStack = none) (errors : v.curError = v.plCurError) :
      Holds [] [] bound v
  | portal {kind : ForKind} {id r handle bound : Nat} {cleanups : List Cleanup} {held : List Held}
      {v : View} (reg : (regs r).toPtr = handle) (below : Holds cleanups held bound v) :
      Holds (.closePortal kind id r :: cleanups) (.portal kind id handle :: held) bound v
  | trying {r f b bound : Nat} {cleanups : List Cleanup} {held : List Held} {frame : Frame}
      {entry v : View} (reg : (regs r).toPtr = f) (lt : f < bound) (live : rt.frames f = some frame)
      (saved : Saved frame entry) (stack : frame.savedExceptionStack = entry.exceptionStack)
      (jumps : frame.jmpbuf = some b) (catches : T b = some (.caught r cleanups))
      (mcontext : McontextOk rt entry) (now : Trying f entry v) (below : Holds cleanups held f entry) :
      Holds (.tryExit r :: cleanups) (.frame f .trying entry :: held) bound v
  | handling {r f bound : Nat} {cleanups : List Cleanup} {held : List Held} {frame : Frame}
      {entry v : View} (reg : (regs r).toPtr = f) (lt : f < bound) (live : rt.frames f = some frame)
      (saved : Saved frame entry) (mcontext : McontextOk rt entry) (now : Handling entry v)
      (errors : v.curError = v.plCurError) (below : Holds cleanups held f entry) :
      Holds (.handlerDone r :: cleanups) (.frame f .handling entry :: held) bound v

end Holds

namespace Holds

variable {T : Entries Point} {regs regs' : Nat → Val} {rt rt' : Rt} {cleanups : List Cleanup}
  {held : List Held} {bound bound' : Nat} {v : View}

theorem mono (holds : Holds T regs rt cleanups held bound v) (le : bound ≤ bound')
    (sameRegs : ∀ c ∈ cleanups, regs' c.reg = regs c.reg) (later : rt.Later rt' bound) :
    Holds T regs' rt' cleanups held bound' v := by
  induction holds generalizing bound' with
  | nil stack errors => exact .nil stack errors
  | @portal kind id r _ _ _ _ _ reg _ ih =>
    have same : regs' r = regs r := sameRegs (.closePortal kind id r) (by simp)
    exact .portal (by rw [same]; exact reg)
      (ih le (fun c member => sameRegs c (by simp [member])) later)
  | @trying r f _ _ _ _ _ _ _ reg lt live saved stack jumps catches mcontext now _ ih =>
    have same : regs' r = regs r := sameRegs (.tryExit r) (by simp)
    exact .trying (by rw [same]; exact reg) (by omega) (by rw [later.frames f lt]; exact live) saved
      stack jumps catches (mcontext.later later) now
      (ih (Nat.le_refl _) (fun c member => sameRegs c (by simp [member])) (later.weaken (by omega)))
  | @handling r f _ _ _ _ _ _ reg lt live saved mcontext now errors _ ih =>
    have same : regs' r = regs r := sameRegs (.handlerDone r) (by simp)
    exact .handling (by rw [same]; exact reg) (by omega) (by rw [later.frames f lt]; exact live) saved
      (mcontext.later later) now errors
      (ih (Nat.le_refl _) (fun c member => sameRegs c (by simp [member])) (later.weaken (by omega)))

/-- A spare register may be written. -/
theorem setReg (holds : Holds T regs rt cleanups held bound v) {r : Nat} (spare : Spare cleanups r)
    (val : Val) : Holds T (Function.update regs r val) rt cleanups held bound v :=
  holds.mono (Nat.le_refl _) (fun c member => Function.update_of_ne (spare c member) ..) (.refl _ _)

/-- Outside the first moments of a handler the two copies of `cur_error` agree. -/
theorem errors_eq (holds : Holds T regs rt cleanups held bound v) : v.curError = v.plCurError := by
  induction holds with
  | nil _ errors => exact errors
  | portal _ _ ih => exact ih
  | trying _ _ _ _ _ _ _ _ now _ ih => rw [now.curError, now.plCurError, ih]
  | handling _ _ _ _ _ _ errors _ => exact errors

theorem exceptionStack_eq (holds : Holds T regs rt cleanups held bound v) :
    v.exceptionStack = innermost held := by
  induction holds with
  | nil stack _ => exact stack
  | portal _ _ ih => exact ih
  | trying _ _ _ _ _ _ _ _ now _ _ => exact now.exceptionStack
  | handling _ _ _ _ _ now _ _ ih => exact now.exceptionStack.trans ih

/-- A statement context may be created where there is none. -/
theorem createMcontext (holds : Holds T regs rt cleanups held bound v) (missing : v.stmtMcontext = none)
    (m : Option Nat) : Holds T regs rt cleanups held bound { v with stmtMcontext := m } := by
  induction holds with
  | nil stack errors => exact .nil stack errors
  | portal reg _ ih => exact .portal reg (ih missing)
  | trying _ _ _ saved _ _ _ _ now _ _ =>
    rw [now.stmtMcontext, saved.stmtMcontext] at missing
    cases missing
  | handling reg lt live saved mcontext now errors below _ =>
    exact .handling reg lt live saved mcontext
      ⟨now.exceptionStack, now.subLevel, now.owner, now.evalEcontext, now.parent⟩ errors below

/-- The frame an error would go to, with everything above it passed over. -/
structure Catches (T : Entries Point) (regs : Nat → Val) (rt : Rt) (held : List Held) (bound r f b : Nat)
    (cleanups : List Cleanup) (entry : View) (rest : List Held) (frame : Frame) : Prop where
  caught : catchFrame f held = some (.frame f .handling entry :: rest)
  reg : (regs r).toPtr = f
  lt : f < bound
  live : rt.frames f = some frame
  saved : Saved frame entry
  stack : frame.savedExceptionStack = entry.exceptionStack
  jumps : frame.jmpbuf = some b
  catches : T b = some (.caught r cleanups)
  mcontext : McontextOk rt entry
  below : Holds T regs rt cleanups rest f entry

theorem catches_or_none (holds : Holds T regs rt cleanups held bound v) :
    v.exceptionStack = none ∨
      ∃ r f b cleanups' entry rest frame,
        Catches T regs rt held bound r f b cleanups' entry rest frame ∧ v.exceptionStack = some f ∧
          v.subLevel = entry.subLevel + 1 := by
  induction holds with
  | nil stack _ => exact .inl stack
  | portal _ _ ih =>
    rcases ih with none | ⟨r, f, b, cleanups', entry, rest, frame, c, top, level⟩
    · exact .inl none
    · exact .inr ⟨r, f, b, cleanups', entry, rest, frame,
        ⟨c.caught, c.reg, c.lt, c.live, c.saved, c.stack, c.jumps, c.catches, c.mcontext, c.below⟩, top,
        level⟩
  | @trying r f b _ cleanups' rest frame entry _ reg lt live saved stack jumps catches mcontext now
      below _ =>
    exact .inr ⟨r, f, b, cleanups', entry, rest, frame,
      ⟨by simp [catchFrame], reg, lt, live, saved, stack, jumps, catches, mcontext, below⟩,
      now.exceptionStack, now.subLevel⟩
  | handling _ lt _ _ _ now _ _ ih =>
    rcases ih with none | ⟨r, f, b, cleanups', entry, rest, frame, c, top, level⟩
    · exact .inl (now.exceptionStack.trans none)
    · exact .inr ⟨r, f, b, cleanups', entry, rest, frame,
        ⟨c.caught, c.reg, Nat.lt_trans c.lt lt, c.live, c.saved, c.stack, c.jumps, c.catches,
          c.mcontext, c.below⟩, now.exceptionStack.trans top, now.subLevel.trans level⟩

end Holds

/-- A cleanup of the code and what is held for it. -/
inductive HeldFor (regs : Nat → Val) : Cleanup → Held → Prop where
  | tryExit {r f : Nat} {entry : View} (reg : (regs r).toPtr = f) :
      HeldFor regs (.tryExit r) (.frame f .trying entry)
  | handlerDone {r f : Nat} {entry : View} (reg : (regs r).toPtr = f) :
      HeldFor regs (.handlerDone r) (.frame f .handling entry)
  | closePortal {kind : ForKind} {id r handle : Nat} (reg : (regs r).toPtr = handle) :
      HeldFor regs (.closePortal kind id r) (.portal kind id handle)

theorem Holds.heldFor {T : Entries Point} {regs : Nat → Val} {rt : Rt} {cleanups : List Cleanup}
    {held : List Held} {bound : Nat} {v : View} (holds : Holds T regs rt cleanups held bound v) :
    List.Forall₂ (HeldFor regs) cleanups held := by
  induction holds with
  | nil => exact .nil
  | portal reg _ ih => exact .cons (.closePortal reg) ih
  | trying reg _ _ _ _ _ _ _ _ _ ih => exact .cons (.tryExit reg) ih
  | handling reg _ _ _ _ _ _ _ ih => exact .cons (.handlerDone reg) ih

end Uplpgsql
