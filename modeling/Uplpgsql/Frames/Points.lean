import Uplpgsql.Correctness.Resources
import Uplpgsql.Lib.Flow

/-!
# Program points

What the compiled code holds at each place, as far as it can be read off the
code: the cleanups, innermost first, and how far an exception block has come
with its frame. `Flows` is what an item may do there. It is the discipline that
every emitter is shown to keep and that every run is shown to follow.
-/

namespace Uplpgsql

open Lib.Blocks Lib.Flow

/-- How far a RETURN has come: its value has been stored, then its code, and
control is on its way out. Where control can also fall off the end of the
function is `leaving` too. -/
inductive Phase where
  | body
  | returned
  | leaving
  deriving DecidableEq

inductive Point where
  | plain (phase : Phase) (held : List Cleanup)
  /-- The frame in the register is pushed, its jump buffer not yet filled. -/
  | pushed (frame : Nat) (held : List Cleanup)
  /-- The jump buffer leads to `catchBb`; the frame is not yet armed. -/
  | ready (frame catchBb : Nat) (held : List Cleanup)
  /-- Control has come here by an error. -/
  | caught (frame : Nat) (held : List Cleanup)
  /-- The handler has been looked up but not started. -/
  | selected (frame : Nat) (held : List Cleanup)

/-- The end of the body and a RETURN meet at the end of the function. -/
def Phase.Joins (phase phase' : Phase) : Prop :=
  phase = phase' ∧ phase ≠ .returned ∨ phase = .body ∧ phase' = .leaving

/-- Instructions that neither take nor release anything and have no part in a
RETURN. -/
def Instr.quiet : Instr → Bool
  | .call (.execReturn _) => false
  | .call _ | .evalBool _ _ | .evalInt _ _ | .assignInt _ _ | .const _ _ | .move _ _
  | .icmpSlt _ _ _ | .icmpSgt _ _ _ | .add _ _ _ | .sub _ _ _ | .setFound _
  | .fetchRow _ _ _ _ | .foreachA _ _ _ => true
  | _ => false

/-- The register a quiet instruction writes. -/
def Instr.dst : Instr → Option Nat
  | .evalBool dst _ | .evalInt dst _ | .const dst _ | .move dst _ | .icmpSlt dst _ _
  | .icmpSgt dst _ _ | .add dst _ _ | .sub dst _ _ | .fetchRow dst _ _ _ => some dst
  | _ => none

/-- No cleanup that is held uses the register. -/
def Spare (held : List Cleanup) (r : Nat) : Prop := ∀ c ∈ held, c.reg ≠ r

inductive Flows (T : Entries Point) : Point → Item → Option Point → Prop where
  | quiet {held : List Cleanup} {i : Instr} (quiet : i.quiet = true)
      (spare : ∀ dst, i.dst = some dst → Spare held dst) :
      Flows T (.plain .body held) (.instr i) (some (.plain .body held))
  | execReturn {held : List Cleanup} {id : Nat} :
      Flows T (.plain .body held) (.instr (.call (.execReturn id))) (some (.plain .returned held))
  | storeRc {held : List Cleanup} :
      Flows T (.plain .returned held) (.instr .storeRc) (some (.plain .leaving held))
  | openPortal {held : List Cleanup} {dst id : Nat} {kind : ForKind} (spare : Spare held dst) :
      Flows T (.plain .body held) (.instr (.openPortal dst kind id))
        (some (.plain .body (.closePortal kind id dst :: held)))
  | release {phase : Phase} {held : List Cleanup} (c : Cleanup) (settled : phase ≠ .returned) :
      Flows T (.plain phase (c :: held)) (.instr c.release) (some (.plain phase held))
  | pushFrame {held : List Cleanup} {dst : Nat} (spare : Spare held dst) :
      Flows T (.plain .body held) (.instr (.pushFrame dst)) (some (.pushed dst held))
  | sigsetjmp {held : List Cleanup} {r tryBb catchBb : Nat}
      (tries : T tryBb = some (.ready r catchBb held)) (catches : T catchBb = some (.caught r held)) :
      Flows T (.pushed r held) (.sigsetjmp r tryBb catchBb) none
  | arm {held : List Cleanup} {r catchBb : Nat} (catches : T catchBb = some (.caught r held)) :
      Flows T (.ready r catchBb held) (.instr (.arm r)) (some (.plain .body (.tryExit r :: held)))
  | catchError {held : List Cleanup} {r dst : Nat} {handlers : List (List Condition)}
      (spare : Spare (.handlerDone r :: held) dst) :
      Flows T (.caught r held) (.instr (.catchError dst r handlers)) (some (.selected r held))
  | switch {held : List Cleanup} {r index default : Nat} {cases : List Nat}
      (each : ∀ b ∈ default :: cases, T b = some (.selected r held)) :
      Flows T (.selected r held) (.switch index cases default) none
  | setHandlerVars {held : List Cleanup} {r : Nat} :
      Flows T (.selected r held) (.instr .setHandlerVars) (some (.plain .body (.handlerDone r :: held)))
  | rethrow {held : List Cleanup} {r : Nat} : Flows T (.selected r held) (.instr (.rethrow r)) none
  | br {phase phase' : Phase} {held : List Cleanup} {target : Nat}
      (goes : T target = some (.plain phase' held)) (joins : phase.Joins phase') :
      Flows T (.plain phase held) (.br target) none
  | condBr {held : List Cleanup} {cond thenBb elseBb : Nat}
      (goes : T thenBb = some (.plain .body held)) (otherwise : T elseBb = some (.plain .body held)) :
      Flows T (.plain .body held) (.condBr cond thenBb elseBb) none
  | ret : Flows T (.plain .leaving []) .ret none

theorem Flows.mono {T T' : Entries Point} {p : Point} {x : Item} {q : Option Point} (le : T.Le T')
    (flows : Flows T p x q) : Flows T' p x q := by
  cases flows with
  | quiet quiet spare => exact .quiet quiet spare
  | openPortal spare => exact .openPortal spare
  | execReturn => exact .execReturn
  | storeRc => exact .storeRc
  | release c settled => exact .release c settled
  | pushFrame spare => exact .pushFrame spare
  | sigsetjmp tries catches => exact .sigsetjmp (le _ _ tries) (le _ _ catches)
  | arm catches => exact .arm (le _ _ catches)
  | catchError spare => exact .catchError spare
  | switch each => exact .switch fun b member => le _ _ (each b member)
  | setHandlerVars => exact .setHandlerVars
  | rethrow => exact .rethrow
  | br goes joins => exact .br (le _ _ goes) joins
  | condBr goes otherwise => exact .condBr (le _ _ goes) (le _ _ otherwise)
  | ret => exact .ret

/-- What compiled code may do with frames and portals. -/
def discipline : Discipline Item Point := ⟨Flows, Flows.mono⟩

/-! ### Contexts -/

/-- The cleanups that are left at the blocks of an enclosing construct. -/
def Ctx.heldAt (ctx : Ctx) (info : LoopInfo) : List Cleanup :=
  ctx.cleanupStack.drop (ctx.cleanupStack.length - info.cleanupDepth)

/-- The blocks a statement may branch to are entered with what is held there. -/
structure CtxTyped (T : Entries Point) (ctx : Ctx) : Prop where
  returns : T ctx.returnBb = some (.plain .leaving ctx.cleanupStack)
  exits : ∀ info ∈ ctx.loopStack, T info.exitBb = some (.plain .body (ctx.heldAt info))
  continues : ∀ info ∈ ctx.loopStack, ∀ b, info.continueBb = some b →
    T b = some (.plain .body (ctx.heldAt info))

theorem CtxTyped.mono {T T' : Entries Point} {ctx : Ctx} (le : T.Le T') (typed : CtxTyped T ctx) :
    CtxTyped T' ctx where
  returns := le _ _ typed.returns
  exits info member := le _ _ (typed.exits info member)
  continues info member b eq := le _ _ (typed.continues info member b eq)

/-- What is emitted inside `ctx` keeps the discipline and ends where it began. -/
def Keeps (ctx : Ctx) (m : Emit Item Unit) : Prop :=
  ∀ σ σ' (T : Entries Point), σ.Valid → Open σ → CtxOk ctx σ.nregs → m σ = some ((), σ') →
    Typed discipline T σ (some (.plain .body ctx.cleanupStack)) → CtxTyped T ctx →
    ∃ T' : Entries Point, T.Le T' ∧ Typed discipline T' σ' (some (.plain .body ctx.cleanupStack))

theorem CtxOk.spare {ctx : Ctx} {n r : Nat} (ok : CtxOk ctx n) (le : n ≤ r) :
    Spare ctx.cleanupStack r := by
  intro c member same
  have := ok.regs c member
  omega

end Uplpgsql
