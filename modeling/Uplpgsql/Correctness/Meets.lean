import Uplpgsql.Correctness.LayoutStmts
import Uplpgsql.Machine
import Uplpgsql.Structured
import Mathlib.Data.List.Forall2

/-!
# What it means to run a statement

`Meets` says that the machine, started where a statement's code begins, ends the
statement as the structured meaning says: at the end of its code, at the block
of the construct it jumps to, at the return block, or with an error thrown, and
each time with the frames of the enclosing blocks in place (`Chain`). Running
out of fuel is met by a machine that has made as many steps.
-/

namespace Uplpgsql

open Lib.Blocks Lib.Iteration Builder

variable {W : Type}

namespace Config

/-- The machine stands where the builder is. -/
def At (c : Config W) (σ : Builder Item) : Prop := c.block = σ.cur ∧ c.index = σ.offset

def Enters (c : Config W) (b : Nat) : Prop := c.block = b ∧ c.index = 0

theorem Enters.at {c : Config W} {σ : Builder Item} {b : Nat} (enters : c.Enters b)
    (reserved : σ.Reserved b) : c.At (σ.goto b) :=
  ⟨enters.1, by rw [reserved.offset_goto]; exact enters.2⟩

end Config

/-- The frames of the enclosing blocks, innermost first. A try body's frame is
on top of the exception stack and remembers what was below it; a handler's
frame is no longer on it. Frames are older the further out they are. -/
inductive Chain (regs : Nat → Val) (frames : Nat → Option Frame) :
    List Cleanup → List (Nat × Frame) → Nat → Option Nat → Prop where
  | nil (bound : Nat) : Chain regs frames [] [] bound none
  | tryExit {r f bound : Nat} {rest : List Cleanup} {frame : Frame} {held : List (Nat × Frame)}
      (reg : (regs r).toPtr = f) (lt : f < bound) (live : frames f = some frame)
      (below : Chain regs frames rest held f frame.savedExceptionStack) :
      Chain regs frames (.tryExit r :: rest) ((f, frame) :: held) bound (some f)
  | handlerDone {r f bound : Nat} {rest : List Cleanup} {frame : Frame} {held : List (Nat × Frame)}
      {exc : Option Nat} (reg : (regs r).toPtr = f) (lt : f < bound) (live : frames f = some frame)
      (below : Chain regs frames rest held f exc) :
      Chain regs frames (.handlerDone r :: rest) ((f, frame) :: held) bound exc
  | closePortal {kind : ForKind} {id r bound : Nat} {rest : List Cleanup}
      {held : List (Nat × Frame)} {exc : Option Nat} (below : Chain regs frames rest held bound exc) :
      Chain regs frames (.closePortal kind id r :: rest) held bound exc

/-- The register of a cleanup. -/
def Cleanup.reg : Cleanup → Nat
  | .tryExit r => r
  | .handlerDone r => r
  | .closePortal _ _ r => r

namespace Chain

variable {regs regs' : Nat → Val} {frames frames' : Nat → Option Frame} {cleanups : List Cleanup}
  {held : List (Nat × Frame)} {bound bound' : Nat} {exc : Option Nat}

/-- Newer frames and other registers do not matter. -/
theorem mono (chain : Chain regs frames cleanups held bound exc) (le : bound ≤ bound')
    (sameRegs : ∀ c ∈ cleanups, regs' c.reg = regs c.reg)
    (sameFrames : ∀ f, f < bound → frames' f = frames f) :
    Chain regs' frames' cleanups held bound' exc := by
  induction chain generalizing bound' with
  | nil => exact .nil _
  | @tryExit r f _ _ _ _ reg lt live _ ih =>
    have same : regs' r = regs r := sameRegs (.tryExit r) (by simp)
    refine .tryExit (by rw [same]; exact reg) (by omega) (by rw [sameFrames f lt]; exact live) ?_
    exact ih (Nat.le_refl _) (fun c member => sameRegs c (by simp [member]))
      fun f older => sameFrames f (by omega)
  | @handlerDone r f _ _ _ _ _ reg lt live _ ih =>
    have same : regs' r = regs r := sameRegs (.handlerDone r) (by simp)
    refine .handlerDone (by rw [same]; exact reg) (by omega) (by rw [sameFrames f lt]; exact live) ?_
    exact ih (Nat.le_refl _) (fun c member => sameRegs c (by simp [member]))
      fun f older => sameFrames f (by omega)
  | closePortal _ ih =>
    exact .closePortal (ih le (fun c member => sameRegs c (by simp [member])) sameFrames)

end Chain

/-- The frames still held once `n` cleanups have been released. -/
def dropHeld : Nat → List Cleanup → List (Nat × Frame) → List (Nat × Frame)
  | 0, _, held => held
  | _ + 1, [], held => held
  | n + 1, .closePortal _ _ _ :: rest, held => dropHeld n rest held
  | n + 1, _ :: rest, held => dropHeld n rest held.tail

/-- The machine runs in a given world with the given frames in place. -/
structure Good (cleanups : List Cleanup) (held : List (Nat × Frame)) (rc : Bool) (c : Config W)
    (s : RunState W) : Prop where
  running : c.status = .running
  world : c.w = s.w
  rc : c.rcReturn = rc
  chain : Chain c.regs c.rt.frames cleanups held c.rt.nextFrame c.rt.exceptionStack

/-- Registers below `n` are as they were. -/
def Agree (n : Nat) (c c' : Config W) : Prop := ∀ r, r < n → c'.regs r = c.regs r

theorem Agree.refl (n : Nat) (c : Config W) : Agree n c c := fun _ _ => rfl

theorem Agree.trans {n : Nat} {c₁ c₂ c₃ : Config W} (first : Agree n c₁ c₂)
    (second : Agree n c₂ c₃) : Agree n c₁ c₃ := fun r lt => by rw [second r lt, first r lt]

theorem Agree.weaken {m n : Nat} {c c' : Config W} (agree : Agree n c c') (le : m ≤ n) :
    Agree m c c' := fun r lt => agree r (by omega)

/-! ### Static and dynamic context -/

/-- The compile-time context makes sense for a builder with `nregs` registers. -/
structure CtxOk (ctx : Ctx) (nregs : Nat) : Prop where
  regs : ∀ c ∈ ctx.cleanupStack, c.reg < nregs
  depths : ∀ info ∈ ctx.loopStack, info.cleanupDepth ≤ ctx.cleanupStack.length

theorem CtxOk.mono {ctx : Ctx} {m n : Nat} (ok : CtxOk ctx m) (le : m ≤ n) : CtxOk ctx n :=
  ⟨fun c member => Nat.lt_of_lt_of_le (ok.regs c member) le, ok.depths⟩

structure LoopLink (info : LoopInfo) (e : Enclosing) : Prop where
  label : info.label = e.label
  isLoop : info.isLoop = e.isLoop
  depth : info.cleanupDepth = e.cleanupDepth

inductive CleanupLink (regs : Nat → Val) : Cleanup → Release → Prop where
  | tryExit (r : Nat) : CleanupLink regs (.tryExit r) .tryExit
  | handlerDone (r : Nat) : CleanupLink regs (.handlerDone r) .handlerDone
  | closePortal {kind : ForKind} {id r handle : Nat} (reg : (regs r).toPtr = handle) :
      CleanupLink regs (.closePortal kind id r) (.closePortal kind id handle)

/-- The stacks of the compiler and those of the run describe the same constructs. -/
structure Linked (ctx : Ctx) (rctx : RunCtx) (regs : Nat → Val) : Prop where
  loops : List.Forall₂ LoopLink ctx.loopStack rctx.loops
  cleanups : List.Forall₂ (CleanupLink regs) ctx.cleanupStack rctx.cleanups

theorem CleanupLink.mono {regs regs' : Nat → Val} {cleanups : List Cleanup}
    {releases : List Release} (links : List.Forall₂ (CleanupLink regs) cleanups releases)
    (same : ∀ x ∈ cleanups, regs' x.reg = regs x.reg) :
    List.Forall₂ (CleanupLink regs') cleanups releases := by
  induction links with
  | nil => exact .nil
  | cons head _ ih =>
    refine .cons ?_ (ih fun x member => same x (by simp [member]))
    cases head with
    | tryExit r => exact .tryExit r
    | handlerDone r => exact .handlerDone r
    | @closePortal kind id r _ reg =>
      have eq : regs' r = regs r := same (.closePortal kind id r) (by simp)
      exact .closePortal (by rw [eq]; exact reg)

theorem Linked.agree {ctx : Ctx} {rctx : RunCtx} {n : Nat} {c c' : Config W}
    (linked : Linked ctx rctx c.regs) (ok : CtxOk ctx n) (agree : Agree n c c') :
    Linked ctx rctx c'.regs :=
  ⟨linked.loops, CleanupLink.mono linked.cleanups fun x member => agree _ (ok.regs x member)⟩

/-! ### Meeting an outcome -/

section Meets

variable (env : Env W) (delegate : Delegate W) (code : Nat → List Item) (fuel : Nat)

/-- Some run of at least `n` steps. -/
def Runs (n : Nat) (c c' : Config W) : Prop := AtLeast (step env delegate code) n c c'

/-- The machine at `c` ends the statement as `out` says. -/
def Meets (n : Nat) (ctx : Ctx) (held : List (Nat × Frame)) (fin : Config W → Prop)
    (c : Config W) : Out W → Prop
  | .next s =>
    ∃ c', Runs env delegate code 0 c c' ∧ fin c' ∧ Good ctx.cleanupStack held false c' s ∧
      Agree n c c'
  | .jump isExit k s =>
    ∃ c' info target, Runs env delegate code 1 c c' ∧ ctx.loopStack[k]? = some info ∧
      jumpTarget isExit info = some target ∧ c'.Enters target ∧
      Good (ctx.cleanupStack.drop (ctx.cleanupStack.length - info.cleanupDepth))
        (dropHeld (ctx.cleanupStack.length - info.cleanupDepth) ctx.cleanupStack held) false c' s ∧
      Agree n c c'
  | .ret s =>
    ∃ c', Runs env delegate code 0 c c' ∧ c'.Enters ctx.returnBb ∧
      Good ctx.cleanupStack held true c' s ∧ Agree n c c'
  | .raise edata s =>
    ∃ c', Runs env delegate code 0 c (c'.throw edata) ∧ Good ctx.cleanupStack held false c' s ∧
      Agree n c c'
  | .spent s =>
    ∃ c', c'.w = s.w ∧
      ((Runs env delegate code fuel c c' ∧ c'.status = .running) ∨
        (Runs env delegate code 0 c c' ∧ c'.status = .spent))

/-- An emitter implements a structured meaning. -/
def Implements (emitter : Emitter) (run : Run W) : Prop :=
  ∀ ctx σ σ', σ.Valid → Open σ → CtxOk ctx σ.nregs → emitter ctx σ = some ((), σ') →
    σ'.Laid code → ∀ rctx held c s, c.At σ → Good ctx.cleanupStack held false c s →
    Linked ctx rctx c.regs →
    Meets env delegate code fuel σ.nregs ctx held (fun c' => c'.At σ') c (run rctx s)

variable {env delegate code fuel}
variable {n : Nat} {ctx : Ctx} {held : List (Nat × Frame)} {fin fin' : Config W → Prop}
  {c c₁ : Config W} {out : Out W} {σ σ' : Builder Item}

namespace Runs

theorem refl (c : Config W) : Runs env delegate code 0 c c := AtLeast.refl _ c

theorem trans {m k : Nat} {c₁ c₂ c₃ : Config W} (first : Runs env delegate code m c₁ c₂)
    (second : Runs env delegate code k c₂ c₃) : Runs env delegate code (m + k) c₁ c₃ :=
  AtLeast.trans first second

theorem weaken {m k : Nat} {c₁ c₂ : Config W} (run : Runs env delegate code m c₁ c₂) (le : k ≤ m) :
    Runs env delegate code k c₁ c₂ := AtLeast.weaken run le

theorem append {k : Nat} {c₁ c₂ c₃ : Config W} (first : Runs env delegate code 0 c₁ c₂)
    (second : Runs env delegate code k c₂ c₃) : Runs env delegate code k c₁ c₃ :=
  (first.trans second).weaken (by omega)

end Runs

/-- A run may be prefixed to what it leads to. -/
theorem Meets.prepend (run : Runs env delegate code 0 c c₁) (agree : Agree n c c₁)
    (meets : Meets env delegate code fuel n ctx held fin c₁ out) :
    Meets env delegate code fuel n ctx held fin c out := by
  cases out with
  | next s =>
    obtain ⟨c', run', rest, good, agree'⟩ := meets
    exact ⟨c', run.append run', rest, good, agree.trans agree'⟩
  | jump isExit k s =>
    obtain ⟨c', info, target, run', at', goes, enters, good, agree'⟩ := meets
    exact ⟨c', info, target, run.append run', at', goes, enters, good, agree.trans agree'⟩
  | ret s =>
    obtain ⟨c', run', enters, good, agree'⟩ := meets
    exact ⟨c', run.append run', enters, good, agree.trans agree'⟩
  | raise edata s =>
    obtain ⟨c', run', good, agree'⟩ := meets
    exact ⟨c', run.append run', good, agree.trans agree'⟩
  | spent s =>
    obtain ⟨c', world, ⟨run', status⟩ | ⟨run', status⟩⟩ := meets
    · exact ⟨c', world, .inl ⟨run.append run', status⟩⟩
    · exact ⟨c', world, .inr ⟨run.append run', status⟩⟩

theorem Meets.weaken {m : Nat} (meets : Meets env delegate code fuel n ctx held fin c out)
    (le : m ≤ n) : Meets env delegate code fuel m ctx held fin c out := by
  cases out with
  | next s =>
    obtain ⟨c', run', rest, good, agree'⟩ := meets
    exact ⟨c', run', rest, good, agree'.weaken le⟩
  | jump isExit k s =>
    obtain ⟨c', info, target, run', at', goes, enters, good, agree'⟩ := meets
    exact ⟨c', info, target, run', at', goes, enters, good, agree'.weaken le⟩
  | ret s =>
    obtain ⟨c', run', enters, good, agree'⟩ := meets
    exact ⟨c', run', enters, good, agree'.weaken le⟩
  | raise edata s =>
    obtain ⟨c', run', good, agree'⟩ := meets
    exact ⟨c', run', good, agree'.weaken le⟩
  | spent s => exact meets

/-- Going on after a statement that runs into the next one. -/
theorem Meets.andThen {next : RunState W → Out W}
    (first : Meets env delegate code fuel n ctx held fin c out)
    (rest : ∀ c' s, fin c' → Good ctx.cleanupStack held false c' s → Agree n c c' →
      Meets env delegate code fuel n ctx held fin' c' (next s)) :
    Meets env delegate code fuel n ctx held fin' c (out.andThen next) := by
  cases out with
  | next s =>
    obtain ⟨c', run, at', good, agree⟩ := first
    exact (rest c' s at' good agree).prepend run agree
  | jump isExit k s => exact first
  | ret s => exact first
  | raise edata s => exact first
  | spent s => exact first

/-- Where a statement ends may be followed by a run that changes nothing else. -/
theorem Meets.land (meets : Meets env delegate code fuel n ctx held fin c out)
    (landing : ∀ c' s, fin c' → Good ctx.cleanupStack held false c' s →
      ∃ c'', Runs env delegate code 0 c' c'' ∧ fin' c'' ∧
        Good ctx.cleanupStack held false c'' s ∧ Agree n c' c'') :
    Meets env delegate code fuel n ctx held fin' c out := by
  cases out with
  | next s =>
    obtain ⟨c', run, at', good, agree⟩ := meets
    obtain ⟨c'', run', at'', good', agree'⟩ := landing c' s at' good
    exact ⟨c'', run.append run', at'', good', agree.trans agree'⟩
  | jump isExit k s => exact meets
  | ret s => exact meets
  | raise edata s => exact meets
  | spent s => exact meets

end Meets

end Uplpgsql
