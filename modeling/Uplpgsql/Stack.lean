import Uplpgsql.Simulation.Worlds
import Uplpgsql.ControlFlow

/-!
# Stack slots

Where the emitters put their allocas, and how much stack a call then takes. An
alloca in the entry block is executed once a call. One at the current insertion
point takes new stack every time control comes by, and the stack is not given
back before the function returns, except by a longjmp.
-/

namespace Uplpgsql

/-! ### Allocas and where they are put -/

/-- The allocas of the generated code, after the names they have there. -/
inductive Temporary where
  | rc
  | naData (dno : Nat)
  | naLen (dno : Nat)
  | naLb (dno : Nat)
  | naNulls (dno : Nat)
  | naCap (dno : Nat)
  | naOnheap (dno : Nat)
  | nelemsOut
  | lbOut
  | nullsOut
  | stackMem
  | fillIdx
  | loopVal
  | foriFound
  | forqFound (kind : ForKind)
  | fciAlloca
  | elemIsnull
  deriving DecidableEq, Repr

/-- The address is passed to a call or stored, or the size is computed at run
time. The others are only loaded and stored and end up in registers. -/
def Temporary.pinned : Temporary → Bool
  -- The append path hands these four to `native_array_reserve`.
  | .naData _ | .naNulls _ | .naCap _ | .naOnheap _ => true
  -- Results of `native_array_from_datum`.
  | .nelemsOut | .lbOut | .nullsOut => true
  | .stackMem => true
  | .fciAlloca | .elemIsnull => true
  | .rc | .naLen _ | .naLb _ | .fillIdx | .loopVal | .foriFound | .forqFound _ => false

/-- An emitter moves to the start of the entry block, or emits where the builder
stands, which is still the entry block or not. -/
inductive Place where
  | entry
  | current (inEntry : Bool)
  deriving DecidableEq, Repr

structure AllocaSite where
  temporary : Temporary
  place : Place
  deriving DecidableEq, Repr

def Place.inEntry : Place → Bool
  | .entry => true
  | .current inEntry => inEntry

/-- The way a leaf statement is compiled, as far as its allocas go. -/
inductive LeafCode where
  /-- A call of a runtime function, or an assignment that needs no alloca where
  it stands. -/
  | call
  /-- A Datum is stored into the variable as a whole: by `exec_assign_expr`, or by
  a Tier 2 assignment. -/
  | assignDatum (dno : Nat)
  /-- An element of a native array is assigned. -/
  | nativeSet
  /-- A native array is assigned from `array_fill`. -/
  | nativeFill
  /-- `exec_stmt_execsql` with its INTO targets. -/
  | selectInto (targets : List Nat)
  deriving DecidableEq, Repr

/-- What the compiler has found out about a function. -/
structure StackLayout where
  natives : List Nat
  leaf : Nat → LeafCode
  /-- The code of the leaf before its assignment ends in a block of its own. -/
  splits : Nat → Bool
  /-- Call frames and result flags, which the expressions of a leaf, or a
  condition, put into the entry block. -/
  leafTemporaries : Nat → List Temporary
  condTemporaries : Nat → List Temporary

namespace StackLayout

variable (lay : StackLayout)

/-- `uplpgsql_find_native_array`. -/
def isNative (dno : Nat) : Bool := lay.natives.contains dno

/-- `uplpgsql_emit_refresh_native_array`, for a variable that may be a native
array. -/
def refresh (dno : Nat) : List Temporary :=
  if lay.isNative dno then [.nelemsOut, .lbOut, .nullsOut] else []

/-- What `uplpgsql_setup_entry` emits, and the return code. -/
def setup : List Temporary :=
  .rc :: lay.natives.flatMap fun dno =>
    [.naData dno, .naLen dno, .naLb dno, .naNulls dno, .naCap dno, .naOnheap dno]

end StackLayout

/-- The INTO targets that are looked at. -/
def intoTargets (targets : List Nat) : List Nat := targets.take 64

def inEntryBlock (temporaries : List Temporary) : List AllocaSite := temporaries.map (⟨·, .entry⟩)

def atCurrent (inEntry : Bool) (temporaries : List Temporary) : List AllocaSite :=
  temporaries.map (⟨·, .current inEntry⟩)

section Emission

variable (lay : StackLayout)

/-- The allocas of a leaf statement at the current insertion point. -/
def leafSites (inEntry : Bool) (id : Nat) : List AllocaSite :=
  match lay.leaf id with
  | .call => []
  | .assignDatum dno => atCurrent (inEntry && !lay.splits id) (lay.refresh dno)
  -- The refresh stands in the block of the slow path.
  | .nativeSet => atCurrent false [.nelemsOut, .lbOut, .nullsOut]
  | .nativeFill => atCurrent false [.stackMem, .fillIdx]
  | .selectInto targets =>
    atCurrent (inEntry && !lay.splits id) ((intoTargets targets).flatMap lay.refresh)

/-- The builder is still in the block in which the leaf began. -/
def leafStraight (id : Nat) : Bool :=
  match lay.leaf id with
  | .nativeSet | .nativeFill => false
  | _ => !lay.splits id

/-- `uplpgsql_emit_init_vars`. -/
def initSites (inEntry : Bool) (initvars : List Nat) : List AllocaSite :=
  atCurrent inEntry (initvars.flatMap lay.refresh)

def caseTemporaries : Option (Nat × Nat) → List Temporary
  | some (_, expr) => lay.condTemporaries expr
  | none => []

def exitTemporaries : Option Nat → List Temporary
  | some expr => lay.condTemporaries expr
  | none => []

mutual

/-- Whether the builder is still in the block in which the statement began. -/
def Stmt.straight : Stmt → Bool
  | .leaf id => leafStraight lay id
  | .block none _ body => body.straight
  | .foreachA _ _ _ => true
  | _ => false

def Stmts.straight : Stmts → Bool
  | .nil => true
  | .cons head tail => head.straight && tail.straight

end

mutual

/-- The allocas a statement is compiled to. -/
def Stmt.sites (inEntry : Bool) : Stmt → List AllocaSite
  | .leaf id => inEntryBlock (lay.leafTemporaries id) ++ leafSites lay inEntry id
  | .block _ initvars body => initSites lay inEntry initvars ++ body.sites inEntry
  | .blockExceptions _ initvars body exceptions =>
    initSites lay false initvars ++ body.sites false ++ exceptions.sites
  | .cond expr thenBody elsifs elseBody =>
    inEntryBlock (lay.condTemporaries expr) ++ thenBody.sites false ++ elsifs.sites ++
      elseBody.sites false
  | .case test whens _ elseStmts =>
    inEntryBlock (caseTemporaries lay test) ++ whens.sites ++ elseStmts.sites false
  | .condLoop _ expr _ body => inEntryBlock (lay.condTemporaries expr) ++ body.sites false
  | .loop _ body => body.sites false
  | .fori _ _ _ _ _ _ body => inEntryBlock [.loopVal, .foriFound] ++ body.sites false
  | .forq kind _ _ body => atCurrent inEntry [.forqFound kind] ++ body.sites false
  | .foreachA _ _ _ => []
  | .exit _ _ cond => inEntryBlock (exitTemporaries lay cond)
  | .ret _ => []

def Stmts.sites (inEntry : Bool) : Stmts → List AllocaSite
  | .nil => []
  | .cons head tail => head.sites inEntry ++ tail.sites (inEntry && head.straight lay)

def Whens.sites : Whens → List AllocaSite
  | .nil => []
  | .cons expr body rest =>
    inEntryBlock (lay.condTemporaries expr) ++ body.sites false ++ rest.sites

def Exceptions.sites : Exceptions → List AllocaSite
  | .nil => []
  | .cons _ action rest => action.sites false ++ rest.sites

end

/-- The allocas of a function: the body is compiled from the entry block on. -/
def functionSites (body : Stmt) : List AllocaSite := inEntryBlock lay.setup ++ body.sites lay true

end Emission

/-! ### The stack of a call -/

/-- The number of slots taken now, the most there have been, and what the armed
jump buffers would go back to. -/
structure Stacked (W : Type) where
  w : W
  slots : Nat
  peak : Nat
  saved : List Nat

/-- The run-time tests on which the allocas of a leaf depend. -/
structure StackPaths (W : Type) where
  /-- The element write takes its slow path. -/
  slow : Nat → W → Bool
  /-- The filled array is small enough for the stack. -/
  useStack : Nat → W → Bool

variable {W : Type}

/-- The allocas that a leaf executes where it stands. -/
def leafExecutes (lay : StackLayout) (paths : StackPaths W) (id : Nat) (w : W) : List Temporary :=
  match lay.leaf id with
  | .call => []
  | .assignDatum dno => lay.refresh dno
  | .nativeSet => if paths.slow id w then [.nelemsOut, .lbOut, .nullsOut] else []
  | .nativeFill => if paths.useStack id w then [.stackMem, .fillIdx] else [.fillIdx]
  | .selectInto targets => (intoTargets targets).flatMap lay.refresh

def pinnedCount (temporaries : List Temporary) : Nat := temporaries.countP Temporary.pinned

namespace Stacked

def put (s : Stacked W) (w : W) : Stacked W := { s with w := w }

def take (s : Stacked W) (count : Nat) : Stacked W :=
  { s with slots := s.slots + count, peak := max s.peak (s.slots + count) }

def act {α : Type} (action : W → Res W α) (s : Stacked W) : Res (Stacked W) α :=
  (action s.w).mapWorld s.put

/-- An action followed by allocas; an error comes before them. -/
def actThenTake (action : W → Res W Unit) (count : Nat) (s : Stacked W) : Res (Stacked W) Unit :=
  match action s.w with
  | .ok _ w => .ok () ((s.put w).take count)
  | .raise edata w => .raise edata (s.put w)

end Stacked

namespace Env

open Stacked

/-- The same actions, with the stack slots they take. -/
def stacked (env : Env W) (lay : StackLayout) (paths : StackPaths W) : Env (Stacked W) where
  leaf id s := actThenTake (env.leaf id) (pinnedCount (leafExecutes lay paths id s.w)) s
  initVar dno := actThenTake (env.initVar dno) (pinnedCount (lay.refresh dno))
  caseAssignTest varno expr := act (env.caseAssignTest varno expr)
  assignNull dno s := s.put (env.assignNull dno s.w)
  execReturn id := act (env.execReturn id)
  evalBool expr := act (env.evalBool expr)
  evalInt expr := act (env.evalInt expr)
  assignInt var v := act (env.assignInt var v)
  setFound b s := s.put (env.setFound b s.w)
  getFound s := env.getFound s.w
  openPortal kind id := act (env.openPortal kind id)
  fetchRow kind id handle := act (env.fetchRow kind id handle)
  closePortal kind id handle s := s.put (env.closePortal kind id handle s.w)
  -- `sigsetjmp` notes the stack pointer and `siglongjmp` goes back to it.
  beginSub s := { s with w := env.beginSub s.w, saved := s.slots :: s.saved }
  releaseSub s := { s with w := env.releaseSub s.w, saved := s.saved.tail }
  rollbackSub s :=
    { s with w := env.rollbackSub s.w, slots := s.saved.headD s.slots, saved := s.saved.tail }
  setHandlerVars edata s := s.put (env.setHandlerVars edata s.w)
  foreachStart id := act (env.foreachStart id)
  foreachNext id := act (env.foreachNext id)
  foreachEnd id s := s.put (env.foreachEnd id s.w)
  needsMcontext := env.needsMcontext
  inert dno s := env.inert dno s.w && !lay.isNative dno
  inert_spec {dno s} inert := by
    obtain ⟨inside, plain⟩ := Bool.and_eq_true_iff.mp inert
    obtain ⟨w, outer, inner⟩ := env.inert_spec inside
    have none : pinnedCount (lay.refresh dno) = 0 := by
      simp_all [StackLayout.refresh, pinnedCount]
    exact ⟨(s.put w).take 0, by simp [actThenTake, outer, none],
      by simp [actThenTake, inner, none, put, take]⟩

end Env

/-- The interpreter runs a FOREACH in its own frames, which are gone when it
returns. -/
def stackedForeach (delegate : Option Nat → Nat → Stmts → Exec W) (label : Option Nat) (id : Nat)
    (body : Stmts) : Exec (Stacked W) := fun s =>
  match delegate label id body s.w with
  | .done rc w => .done rc (s.put w)
  | .err edata w => .err edata (s.put w)
  | .spent w => .spent (s.put w)

/-- The allocas executed before the body. -/
def entrySlots (lay : StackLayout) (body : Stmt) : Nat :=
  (functionSites lay body).countP fun site => site.temporary.pinned && site.place == .entry

/-- The most slots a call occupies. -/
def stackSlots (lay : StackLayout) (paths : StackPaths W) (env : Env W)
    (delegate : Option Nat → Nat → Stmts → Exec W) (fuel : Nat) (body : Stmt) (w : W) : Nat :=
  (body.run (env.stacked lay paths) (ignoreRc (stackedForeach delegate)) fuel ⟨[], []⟩
    ⟨⟨w, entrySlots lay body, entrySlots lay body, []⟩, Notes.none⟩).state.w.peak

/-- Nothing that has to keep its place on the stack is allocated outside the entry
block, and no call, however often its loops go round, takes more slots than the
code has allocas. -/
def StackNeutral (lay : StackLayout) (body : Stmt) : Prop :=
  (∀ site ∈ functionSites lay body, site.temporary.pinned = true → site.place.inEntry = true) ∧
  ∀ (W : Type) (env : Env W) (paths : StackPaths W)
    (delegate : Option Nat → Nat → Stmts → Exec W) (fuel : Nat) (w : W),
    stackSlots lay paths env delegate fuel body w ≤
      (functionSites lay body).countP fun site => site.temporary.pinned

/-! ### Where arrays are written -/

namespace StackLayout

variable (lay : StackLayout)

/-- The leaf neither stores a native array as a whole nor writes into one. -/
def quietLeaf (id : Nat) : Bool :=
  match lay.leaf id with
  | .call => true
  | .assignDatum dno => !lay.isNative dno
  | .nativeSet | .nativeFill => false
  | .selectInto targets => (intoTargets targets).all fun dno => !lay.isNative dno

def quietVar (dno : Nat) : Bool := !lay.isNative dno

/-- In the entry block a native array may be stored as a whole, if its value is
computed there too. -/
def openingLeaf (id : Nat) : Bool := lay.quietLeaf id || leafStraight lay id

end StackLayout

section Condition

variable (lay : StackLayout)

mutual

/-- Of a function body: native arrays are stored only as a whole, and only in the
straight-line beginning, before the first branch, loop, label or handler. -/
def Stmt.opening : Stmt → Bool
  | .leaf id => lay.openingLeaf id
  | .block _ _ body => body.opening
  | st => st.everywhere lay.quietLeaf lay.quietVar

def Stmts.opening : Stmts → Bool
  | .nil => true
  | .cons head tail =>
    head.opening &&
      if head.straight lay then tail.opening else tail.everywhere lay.quietLeaf lay.quietVar

end

end Condition

/-! ### Where the allocas stand -/

/-- Every alloca that has to keep its place is in the entry block. -/
def anchored (sites : List AllocaSite) : Bool :=
  sites.all fun site => !site.temporary.pinned || site.place.inEntry

theorem anchored_iff {sites : List AllocaSite} : anchored sites = true ↔
    ∀ site ∈ sites, site.temporary.pinned = true → site.place.inEntry = true := by
  simp [anchored, List.all_eq_true, imp_iff_not_or]

@[simp] theorem anchored_nil : anchored [] = true := rfl

@[simp] theorem anchored_append (first second : List AllocaSite) :
    anchored (first ++ second) = (anchored first && anchored second) :=
  List.all_append

@[simp] theorem anchored_inEntryBlock (temporaries : List Temporary) :
    anchored (inEntryBlock temporaries) = true := by
  simp [anchored, inEntryBlock, Place.inEntry]

@[simp] theorem anchored_atCurrent (inEntry : Bool) (temporaries : List Temporary) :
    anchored (atCurrent inEntry temporaries) =
      (inEntry || temporaries.all fun temporary => !temporary.pinned) := by
  cases inEntry <;> simp [anchored, atCurrent, Place.inEntry, Function.comp_def]

section Placement

variable {lay : StackLayout}

theorem refresh_pinned (dno : Nat) :
    ((lay.refresh dno).all fun temporary => !temporary.pinned) = !lay.isNative dno := by
  unfold StackLayout.refresh
  cases lay.isNative dno <;> rfl

theorem refreshAll_pinned (dnos : List Nat) :
    ((dnos.flatMap lay.refresh).all fun temporary => !temporary.pinned) =
      dnos.all fun dno => !lay.isNative dno := by
  induction dnos with
  | nil => rfl
  | cons dno rest ih => rw [List.flatMap_cons, List.all_append, List.all_cons, refresh_pinned, ih]

theorem leafSites_past (id : Nat) : anchored (leafSites lay false id) = lay.quietLeaf id := by
  unfold leafSites StackLayout.quietLeaf
  cases lay.leaf id with
  | call => rfl
  | assignDatum dno => rw [Bool.false_and, anchored_atCurrent, Bool.false_or, refresh_pinned]
  | nativeSet => rfl
  | nativeFill => rfl
  | selectInto targets =>
    rw [Bool.false_and, anchored_atCurrent, Bool.false_or, refreshAll_pinned]

theorem leafSites_opening (id : Nat) : anchored (leafSites lay true id) = lay.openingLeaf id := by
  unfold leafSites StackLayout.openingLeaf StackLayout.quietLeaf leafStraight
  cases lay.leaf id with
  | call => rfl
  | assignDatum dno => rw [Bool.true_and, anchored_atCurrent, refresh_pinned, Bool.or_comm]
  | nativeSet => rfl
  | nativeFill => rfl
  | selectInto targets => rw [Bool.true_and, anchored_atCurrent, refreshAll_pinned, Bool.or_comm]

theorem initSites_past (initvars : List Nat) :
    anchored (initSites lay false initvars) = initvars.all lay.quietVar := by
  rw [initSites, anchored_atCurrent, Bool.false_or, refreshAll_pinned]
  rfl

mutual

/-- Past the entry block every native array that is written puts an alloca where
it should not be. -/
theorem Stmt.sites_past (st : Stmt) :
    anchored (st.sites lay false) = st.everywhere lay.quietLeaf lay.quietVar := by
  cases st with
  | leaf id => simp [Stmt.sites, Stmt.everywhere, leafSites_past]
  | block label initvars body =>
    simp [Stmt.sites, Stmt.everywhere, initSites_past, body.sites_past]
  | blockExceptions label initvars body exceptions =>
    simp [Stmt.sites, Stmt.everywhere, initSites_past, body.sites_past, exceptions.sites_past,
      Bool.and_assoc]
  | cond expr thenBody elsifs elseBody =>
    simp [Stmt.sites, Stmt.everywhere, thenBody.sites_past, elsifs.sites_past,
      elseBody.sites_past, Bool.and_assoc]
  | case test whens haveElse elseStmts =>
    simp [Stmt.sites, Stmt.everywhere, whens.sites_past, elseStmts.sites_past]
  | condLoop label expr testAtTop body => simp [Stmt.sites, Stmt.everywhere, body.sites_past]
  | loop label body => exact body.sites_past
  | fori label var lower upper step reverse body =>
    simp [Stmt.sites, Stmt.everywhere, body.sites_past]
  | forq kind label id body =>
    simp [Stmt.sites, Stmt.everywhere, Temporary.pinned, body.sites_past]
  | foreachA label id body => rfl
  | exit isExit label cond => simp [Stmt.sites, Stmt.everywhere]
  | ret id => rfl

theorem Stmts.sites_past (ss : Stmts) :
    anchored (ss.sites lay false) = ss.everywhere lay.quietLeaf lay.quietVar := by
  cases ss with
  | nil => rfl
  | cons head tail => simp [Stmts.sites, Stmts.everywhere, head.sites_past, tail.sites_past]

theorem Whens.sites_past (ws : Whens) :
    anchored (ws.sites lay) = ws.everywhere lay.quietLeaf lay.quietVar := by
  cases ws with
  | nil => rfl
  | cons expr body rest => simp [Whens.sites, Whens.everywhere, body.sites_past, rest.sites_past]

theorem Exceptions.sites_past (es : Exceptions) :
    anchored (es.sites lay) = es.everywhere lay.quietLeaf lay.quietVar := by
  cases es with
  | nil => rfl
  | cons conditions action rest =>
    simp [Exceptions.sites, Exceptions.everywhere, action.sites_past, rest.sites_past]

end

/-- Whatever leaves the entry block puts the same allocas into it, wherever it
stands itself. -/
theorem Stmt.sites_leaving {st : Stmt} (notLeaf : ∀ id, st ≠ .leaf id)
    (notBlock : ∀ label initvars body, st ≠ .block label initvars body) :
    anchored (st.sites lay true) = anchored (st.sites lay false) := by
  cases st with
  | leaf id => exact absurd rfl (notLeaf id)
  | block label initvars body => exact absurd rfl (notBlock label initvars body)
  | forq kind label id body => simp [Stmt.sites, Temporary.pinned]
  | _ => rfl

mutual

theorem Stmt.sites_opening (st : Stmt) : anchored (st.sites lay true) = st.opening lay := by
  cases st with
  | leaf id => simp [Stmt.sites, Stmt.opening, leafSites_opening]
  | block label initvars body =>
    simp [Stmt.sites, Stmt.opening, initSites, body.sites_opening]
  | _ =>
    rw [Stmt.sites_leaving (by simp) (by simp), Stmt.sites_past]
    rfl

theorem Stmts.sites_opening (ss : Stmts) : anchored (ss.sites lay true) = ss.opening lay := by
  cases ss with
  | nil => rfl
  | cons head tail =>
    rw [Stmts.sites, anchored_append, head.sites_opening, Stmts.opening, Bool.true_and]
    cases head.straight lay with
    | true => rw [tail.sites_opening, if_pos rfl]
    | false => rw [tail.sites_past, if_neg Bool.false_ne_true]

end

end Placement

/-! ### How far the stack grows -/

namespace Stacked

variable {s : Stacked W} {m n : Nat}

/-- The stack stays within `n` slots, also after a longjmp. -/
structure Within (n : Nat) (s : Stacked W) : Prop where
  slots : s.slots ≤ n
  peak : s.peak ≤ n
  saved : ∀ k ∈ s.saved, k ≤ n

theorem Within.mono (le : m ≤ n) (within : s.Within m) : s.Within n where
  slots := Nat.le_trans within.slots le
  peak := Nat.le_trans within.peak le
  saved k member := Nat.le_trans (within.saved k member) le

theorem Within.put (within : s.Within n) (w : W) : (s.put w).Within n :=
  ⟨within.slots, within.peak, within.saved⟩

theorem Within.take (within : s.Within n) (count : Nat) : (s.take count).Within (n + count) where
  slots := Nat.add_le_add_right within.slots count
  peak := by
    have now := within.slots
    have before := within.peak
    simp only [Stacked.take]
    omega
  saved k member := Nat.le_trans (within.saved k member) (Nat.le_add_right n count)

theorem Within.act {α : Type} (within : s.Within n) (action : W → Res W α) :
    (Stacked.act action s).world.Within n := by
  unfold Stacked.act
  cases action s.w with
  | ok value w => exact within.put w
  | raise edata w => exact within.put w

theorem Within.actThenTake (within : s.Within n) (action : W → Res W Unit) (count : Nat) :
    (Stacked.actThenTake action count s).world.Within (n + count) := by
  unfold Stacked.actThenTake
  cases action s.w with
  | ok value w => exact (within.put w).take count
  | raise edata w => exact (within.put w).mono (Nat.le_add_right n count)

/-- An action that takes nothing. -/
theorem Within.actTakeNone (within : s.Within n) (action : W → Res W Unit) {count : Nat}
    (none : count = 0) : (Stacked.actThenTake action count s).world.Within n := by
  subst none
  exact within.actThenTake action 0

end Stacked

section Growth

variable {lay : StackLayout} {paths : StackPaths W} {env : Env W}
  {delegate : Option Nat → Nat → Stmts → Exec W} {fuel : Nat}

/-- Whatever the stack was within before, it is within after. -/
def Bounded (s s' : Stacked W) : Prop := ∀ n, s.Within n → s'.Within n

theorem leafExecutes_quiet {id : Nat} (quiet : lay.quietLeaf id = true) (w : W) :
    pinnedCount (leafExecutes lay paths id w) = 0 := by
  have none : (leafExecutes lay paths id w).all (fun temporary => !temporary.pinned) = true := by
    unfold StackLayout.quietLeaf at quiet
    unfold leafExecutes
    cases code : lay.leaf id with
    | call => rfl
    | assignDatum dno =>
      rw [code] at quiet
      exact (refresh_pinned dno).trans quiet
    | nativeSet => simp [code] at quiet
    | nativeFill => simp [code] at quiet
    | selectInto targets =>
      rw [code] at quiet
      exact (refreshAll_pinned _).trans quiet
  exact List.countP_eq_zero.mpr fun temporary member => by
    simpa using List.all_eq_true.mp none temporary member

theorem refresh_quiet {dno : Nat} (quiet : lay.quietVar dno = true) :
    pinnedCount (lay.refresh dno) = 0 := by
  simp_all [StackLayout.quietVar, StackLayout.refresh, pinnedCount]

variable (lay paths env delegate) in
/-- Statements that do not write native arrays take no stack where they stand. -/
theorem bounded_stmtRel : StmtRel (env.stacked lay paths) (ignoreRc (stackedForeach delegate))
    lay.quietLeaf lay.quietVar Bounded where
  refl _ _ within := within
  trans first second n within := second n (first n within)
  caseAssignTest _ _ _ _ within := within.act _
  assignNull _ _ _ within := within.put _
  execReturn _ _ _ within := within.act _
  evalBool _ _ _ within := within.act _
  evalInt _ _ _ within := within.act _
  assignInt _ _ _ _ within := within.act _
  setFound _ _ _ within := within.put _
  openPortal _ _ _ _ within := within.act _
  fetchRow _ _ _ _ _ within := within.act _
  closePortal _ _ _ _ _ within := within.put _
  beginSub s n within :=
    ⟨within.slots, within.peak, List.forall_mem_cons.mpr ⟨within.slots, within.saved⟩⟩
  releaseSub s n within :=
    ⟨within.slots, within.peak, fun k member => within.saved k (List.mem_of_mem_tail member)⟩
  rollbackSub s n within := by
    refine ⟨?_, within.peak, fun k member => within.saved k (List.mem_of_mem_tail member)⟩
    change s.saved.headD s.slots ≤ n
    cases saved : s.saved with
    | nil => exact within.slots
    | cons k rest => exact within.saved k (by simp [saved])
  setHandlerVars _ _ _ within := within.put _
  foreachs label id body rctx s n within := by
    unfold ignoreRc runForeachA stackedForeach
    cases delegate label id body s.w.w with
    | done rc w => exact within.put w
    | err edata w => exact within.put w
    | spent w => exact within.put w
  leaves id quiet s n within := within.actTakeNone (env.leaf id) (leafExecutes_quiet quiet s.w)
  inits dno quiet s n within := within.actTakeNone (env.initVar dno) (refresh_quiet quiet)

/-- The allocas of a list of sites that are executed where they stand. -/
def currentCount (sites : List AllocaSite) : Nat :=
  sites.countP fun site => site.temporary.pinned && site.place != .entry

theorem currentCount_append (first second : List AllocaSite) :
    currentCount (first ++ second) = currentCount first + currentCount second :=
  List.countP_append

theorem currentCount_inEntryBlock (temporaries : List Temporary) :
    currentCount (inEntryBlock temporaries) = 0 := by
  simp [currentCount, inEntryBlock]

theorem currentCount_atCurrent (inEntry : Bool) (temporaries : List Temporary) :
    currentCount (atCurrent inEntry temporaries) = pinnedCount temporaries := by
  have standing : (Place.current inEntry != .entry) = true := by cases inEntry <;> rfl
  simp [currentCount, atCurrent, pinnedCount, List.countP_map, Function.comp_def, standing]

/-- A leaf executes no more than it was compiled to. -/
theorem leafExecutes_le (inEntry : Bool) (id : Nat) (w : W) :
    pinnedCount (leafExecutes lay paths id w) ≤ currentCount (leafSites lay inEntry id) := by
  unfold leafExecutes leafSites
  cases lay.leaf id with
  | call => exact Nat.le_refl _
  | assignDatum dno => rw [currentCount_atCurrent]
  | nativeSet =>
    cases paths.slow id w with
    | false => exact Nat.zero_le _
    | true => exact Nat.le_refl 3
  | nativeFill =>
    cases paths.useStack id w with
    | false => exact Nat.zero_le _
    | true => exact Nat.le_refl 1
  | selectInto targets => rw [currentCount_atCurrent]

/-- A run that starts within `n` slots ends within `count` more. -/
def Run.Takes (count : Nat) (run : Run (Stacked W)) : Prop :=
  ∀ rctx s n, s.w.Within n → (run rctx s).state.w.Within (n + count)

theorem Run.Takes.of_keeps {run : Run (Stacked W)} (keeps : run.Keeps Bounded) (count : Nat) :
    run.Takes count := fun rctx s n within =>
  (keeps rctx s n within).mono (Nat.le_add_right n count)

theorem Run.Takes.seq {run₁ run₂ : Run (Stacked W)} {count₁ count₂ : Nat}
    (first : run₁.Takes count₁) (second : run₂.Takes count₂) :
    (runSeq run₁ run₂).Takes (count₁ + count₂) := by
  intro rctx s n within
  have here := first rctx s n within
  have stays := here.mono (Nat.le_add_right (n + count₁) count₂)
  rw [← Nat.add_assoc]
  unfold runSeq
  cases result : run₁ rctx s with
  | next s₁ =>
    rw [result] at here
    exact second rctx s₁ _ here
  | _ =>
    rw [result] at stays
    exact stays

theorem runOp_within {act : Env (Stacked W)} {op : Op} (rctx : RunCtx) {s : RunState (Stacked W)}
    {n : Nat} (ends : (act.call op s.w).world.Within n) :
    (runOp act op rctx s).state.w.Within n := by
  unfold runOp Res.run
  cases result : act.call op s.w with
  | ok value w =>
    rw [result] at ends
    exact ends
  | raise edata w =>
    rw [result] at ends
    exact ends

theorem runInitVars_takes (initvars : List Nat) :
    (runInitVars (env.stacked lay paths) initvars).Takes
      (pinnedCount (initvars.flatMap lay.refresh)) := by
  induction initvars with
  | nil => exact fun _ _ _ within => within
  | cons dno rest ih =>
    rw [List.flatMap_cons, pinnedCount, List.countP_append]
    refine Run.Takes.seq (fun rctx s n within => ?_) ih
    have taken := within.actThenTake (env.initVar dno) (pinnedCount (lay.refresh dno))
    exact runOp_within rctx taken

mutual

/-- In the straight-line beginning every alloca is executed at most once. -/
theorem Stmt.run_takes (st : Stmt) (opening : st.opening lay = true) :
    Run.Takes (currentCount (st.sites lay true))
      (st.run (env.stacked lay paths) (ignoreRc (stackedForeach delegate)) fuel) := by
  cases st with
  | leaf id =>
    intro rctx s n within
    have taken := within.actThenTake (env.leaf id) (pinnedCount (leafExecutes lay paths id s.w.w))
    rw [Stmt.sites, currentCount_append, currentCount_inEntryBlock, Nat.zero_add]
    exact runOp_within rctx (taken.mono (Nat.add_le_add_left (leafExecutes_le true id s.w.w) n))
  | block label initvars body =>
    rw [Stmt.sites, currentCount_append, initSites, currentCount_atCurrent]
    refine Run.Takes.seq (runInitVars_takes initvars) fun rctx s n within => ?_
    rw [leaveLabel_world]
    exact body.run_takes opening _ s n within
  | _ =>
    exact Run.Takes.of_keeps (Stmt.run_keeps (bounded_stmtRel lay paths env delegate) _ opening) _

theorem Stmts.run_takes (ss : Stmts) (opening : ss.opening lay = true) :
    Run.Takes (currentCount (ss.sites lay true))
      (ss.run (env.stacked lay paths) (ignoreRc (stackedForeach delegate)) fuel) := by
  cases ss with
  | nil => exact fun _ _ _ within => within
  | cons head tail =>
    obtain ⟨first, rest⟩ := Bool.and_eq_true_iff.mp opening
    rw [Stmts.sites, currentCount_append, Bool.true_and]
    refine Run.Takes.seq (head.run_takes first) ?_
    cases straight : head.straight lay with
    | true =>
      rw [straight, if_pos rfl] at rest
      exact tail.run_takes rest
    | false =>
      rw [straight, if_neg Bool.false_ne_true] at rest
      exact Run.Takes.of_keeps (tail.run_keeps (bounded_stmtRel lay paths env delegate) rest) _

end

theorem pinned_split (sites : List AllocaSite) :
    sites.countP (fun site => site.temporary.pinned) =
      sites.countP (fun site => site.temporary.pinned && site.place == .entry) +
        currentCount sites := by
  induction sites with
  | nil => rfl
  | cons site rest ih =>
    unfold currentCount at ih ⊢
    simp only [List.countP_cons, ih]
    cases site.temporary.pinned <;> cases equal : site.place == Place.entry <;>
      simp [bne, equal] <;> omega

theorem stackSlots_le (body : Stmt) (opening : body.opening lay = true) (w : W) :
    stackSlots lay paths env delegate fuel body w ≤
      (functionSites lay body).countP fun site => site.temporary.pinned := by
  have start : Stacked.Within (entrySlots lay body)
      ⟨w, entrySlots lay body, entrySlots lay body, []⟩ :=
    ⟨Nat.le_refl _, Nat.le_refl _, fun k member => absurd member (List.not_mem_nil)⟩
  have standing : currentCount (functionSites lay body) = currentCount (body.sites lay true) := by
    rw [functionSites, currentCount_append, currentCount_inEntryBlock, Nat.zero_add]
  rw [pinned_split, standing]
  exact (body.run_takes opening ⟨[], []⟩ ⟨_, Notes.none⟩ _ start).peak

end Growth

/-- The stack of a call is independent of how often its loops go round exactly if
native arrays are stored only as a whole and only in the straight-line beginning
of the body. -/
theorem stack_neutral (lay : StackLayout) (body : Stmt) :
    StackNeutral lay body ↔ body.opening lay = true := by
  have placed : anchored (functionSites lay body) = body.opening lay := by
    rw [functionSites, anchored_append, anchored_inEntryBlock, Bool.true_and, body.sites_opening]
  constructor
  · intro neutral
    rw [← placed]
    exact anchored_iff.mpr neutral.1
  · intro opening
    refine ⟨anchored_iff.mp (placed.trans opening), ?_⟩
    intro W env paths delegate fuel w
    exact stackSlots_le body opening w

/-- Variable 5 is a native array, and statement 7 assigns it as a whole. -/
def arrayAssigned : StackLayout where
  natives := [5]
  leaf id := if id = 7 then .assignDatum 5 else .call
  splits _ := false
  leafTemporaries _ := []
  condTemporaries _ := []

/-- FOR i IN 1..n LOOP a := ...; END LOOP -/
def assignInLoop (n : Nat) : Stmt := .fori none 1 1 n none false (.cons (.leaf 7) .nil)

/-- Every round of the loop takes three more slots. -/
theorem stack_grows :
    ¬StackNeutral arrayAssigned (assignInLoop 2) ∧
    stackSlots arrayAssigned ⟨fun _ _ => false, fun _ _ => false⟩ Env.small
      (fun _ _ _ w => .done .ok w) 9 (assignInLoop 1) Small.start = 4 + 3 ∧
    stackSlots arrayAssigned ⟨fun _ _ => false, fun _ _ => false⟩ Env.small
      (fun _ _ _ w => .done .ok w) 9 (assignInLoop 2) Small.start = 4 + 3 + 3 := by
  refine ⟨?_, by decide +kernel, by decide +kernel⟩
  intro neutral
  have misplaced := anchored_iff.mpr neutral.1
  revert misplaced
  decide +kernel

end Uplpgsql
