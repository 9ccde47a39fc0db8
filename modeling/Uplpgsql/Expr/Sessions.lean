import Uplpgsql.Expr.AssignExpr
import Uplpgsql.Simulation.LocalTargets

/-!
# Functions whose variables hold objects

A function is executed twice over the same actions: on variables that hold objects,
where assignments hand them over, and on variables that hold nothing but values. Only the
assignments and what it takes to store a value differ between the two machines.

## Main result

`body_tracks`: after `uplpgsql_mark_local_assignment_targets`, the two executions of any
function body have the same outcome, and the variables have the same values.
-/

namespace Uplpgsql.ReadWrite

open Lib

variable {V E : Type}

/-! ### Actions -/

/-- What a statement or an expression does beyond assignments of expressions: it looks
at values of variables and at the rest of the world, and stores values, also if it
fails in the end. -/
structure Action (V E α : Type) where
  uses : Finset Nat
  run : (Nat → Option V) → E → Except ErrorData α × List (Nat × Option V) × E
  depends : ∀ vals vals' ext, (∀ d ∈ uses, vals d = vals' d) → run vals ext = run vals' ext

/-- If it succeeds with `value`, the variables `dnos value` have been stored to. -/
def Action.Binds {α : Type} (action : Action V E α) (dnos : α → Finset Nat) : Prop :=
  ∀ vals ext value, (action.run vals ext).1 = .ok value →
    ∀ d ∈ dnos value, d ∈ (action.run vals ext).2.1.map Prod.fst

/-- The actions of a function. -/
structure Actions (V E : Type) where
  /-- the statements that are no assignments -/
  other : Nat → Action V E Unit
  initVar : Nat → Action V E Unit
  initVar_binds : ∀ dno, (initVar dno).Binds fun _ => {dno}
  caseTest : Nat → Nat → Action V E Unit
  caseTest_binds : ∀ varno expr, (caseTest varno expr).Binds fun _ => {varno}
  ret : Nat → Action V E Unit
  evalBool : Nat → Action V E (Option Bool)
  evalInt : Nat → Action V E (Option (BitVec 32))
  openPortal : ForKind → Nat → Action V E Nat
  fetchRow : ForKind → Nat → Nat → Action V E Bool
  rowTarget : ForKind → Nat → Finset Nat
  fetchRow_binds : ∀ kind id handle, (fetchRow kind id handle).Binds fun more =>
    if more then rowTarget kind id else ∅
  closePortal : ForKind → Nat → Nat → E → E
  foreachStart : Nat → Action V E Unit
  foreachNext : Nat → Action V E Bool
  foreachEnd : Nat → E → E
  beginSub : E → E
  releaseSub : E → E
  rollbackSub : E → E
  ofInt : BitVec 32 → V
  ofBool : Bool → V
  ofError : ErrorData → V × V
  toBool : V → Bool
  found : Nat
  sqlstate : Nat
  sqlerrm : Nat

/-! ### Machines -/

/-- Something that has variables. -/
structure Machine (W V E : Type) where
  values : W → Nat → Option V
  ext : W → E
  setExt : E → W → W
  store : Nat → Option V → W → W
  /-- the assignment statements -/
  assign : Nat → Option (W → Res W Unit)
  /-- done after an error has been caught -/
  cleanup : W → W

section Machines

variable {W : Type} (M : Machine W V E) (A : Actions V E)

def Machine.storeAll (stores : List (Nat × Option V)) (w : W) : W :=
  stores.foldl (fun w store => M.store store.1 store.2 w) w

/-- What has been stored stays, also after an error. -/
def Machine.finish {α : Type} (o : Except ErrorData α × List (Nat × Option V) × E) (w : W) : Res W α :=
  match o with
  | (.ok value, stores, ext) => .ok value (M.setExt ext (M.storeAll stores w))
  | (.error edata, stores, ext) => .raise edata (M.setExt ext (M.storeAll stores w))

def Machine.perform {α : Type} (action : Action V E α) (w : W) : Res W α :=
  M.finish (action.run (M.values w) (M.ext w)) w

def Machine.onExt (f : E → E) (w : W) : W := M.setExt (f (M.ext w)) w

/-- The environment of a function that runs on the machine. -/
def Machine.env : Env W where
  leaf id := (M.assign id).getD (M.perform (A.other id))
  initVar dno := M.perform (A.initVar dno)
  caseAssignTest varno expr := M.perform (A.caseTest varno expr)
  assignNull dno := M.store dno none
  execReturn id := M.perform (A.ret id)
  evalBool expr := M.perform (A.evalBool expr)
  evalInt expr := M.perform (A.evalInt expr)
  assignInt var value w := .ok () (M.store var (some (A.ofInt value)) w)
  setFound b := M.store A.found (some (A.ofBool b))
  getFound w := ((M.values w A.found).map A.toBool).getD false
  openPortal kind id := M.perform (A.openPortal kind id)
  fetchRow kind id handle := M.perform (A.fetchRow kind id handle)
  closePortal kind id handle := M.onExt (A.closePortal kind id handle)
  beginSub := M.onExt A.beginSub
  releaseSub := M.onExt A.releaseSub
  rollbackSub w := M.onExt A.rollbackSub (M.cleanup w)
  setHandlerVars edata w :=
    M.store A.sqlerrm (some (A.ofError edata).2) (M.store A.sqlstate (some (A.ofError edata).1) w)
  foreachStart id := M.perform (A.foreachStart id)
  foreachNext id := M.perform (A.foreachNext id)
  foreachEnd id := M.onExt (A.foreachEnd id)
  needsMcontext _ := false
  inert _ _ := false
  inert_spec := by simp

end Machines

/-! ### The two machines -/

/-- The variables with their objects, and what each assignment remembers. -/
structure Session (V E : Type) extends World V E where
  links : Nat → Link

def Session.evalState (c : Session V E) (id : Nat) : EvalState V E := ⟨c.toWorld, c.links id⟩

section Run

variable (env : Executor V E) (exprs : Nat → Option (PlExpr V))

/-- `exec_stmt_assign`. -/
def execStmtAssign (id : Nat) (expr : PlExpr V) (c : Session V E) : Res (Session V E) Unit :=
  let o := execAssignExpr env expr (c.evalState id)
  let after : Session V E := ⟨o.2.toWorld, Function.update c.links id o.2.link⟩
  match o.1 with
  | .ok _ => .ok () after
  | .error edata => .raise edata after

def objectMachine : Machine (Session V E) V E where
  values c := c.value
  ext c := c.ext
  setExt ext c := { c with ext }
  store dno v c := { c with toWorld := (storeValue env dno (.ofValue v) c.toWorld).evalCleanup }
  assign id := (exprs id).map (execStmtAssign env id)
  cleanup c := { c with toWorld := c.evalCleanup }

/-- The variables have values, and nothing else. -/
structure Plain (V E : Type) where
  values : Nat → Option V
  ext : E

def assignPlain (expr : PlExpr V) (p : Plain V E) : Res (Plain V E) Unit :=
  match assignedValue env p.values expr p.ext with
  | (.ok v, ext) => .ok () ⟨Function.update p.values expr.targetParam v, ext⟩
  | (.error edata, ext) => .raise edata { p with ext }

def valueMachine : Machine (Plain V E) V E where
  values := Plain.values
  ext := Plain.ext
  setExt ext p := { p with ext }
  store dno v p := { p with values := Function.update p.values dno v }
  assign id := (exprs id).map (assignPlain env)
  cleanup := id

end Run

/-! ### Agreement -/

section Agreement

variable (env : Executor V E) (A : Actions V E) (exprs : Nat → Option (PlExpr V)) (marks : Nat → Bool)

/-- The assignments with their marks. -/
def marked (id : Nat) : Option (PlExpr V) :=
  (exprs id).map fun expr => { expr with targetIsLocal := marks id }

def target (id : Nat) : Option Nat := (exprs id).map PlExpr.targetParam

/-- The variables that statements and expressions refer to. -/
def uses : Uses where
  leaf id p :=
    match exprs id with
    | some expr => ∀ pd ∈ expr.simpleExpr.params, pd.2 ∈ p.seen
    | none => (A.other id).uses ⊆ p.seen
  initVar dno seen := (A.initVar dno).uses ⊆ seen
  caseTest varno expr seen := (A.caseTest varno expr).uses ⊆ seen
  ret id seen := (A.ret id).uses ⊆ seen
  expr expr seen := (A.evalBool expr).uses ⊆ seen ∧ (A.evalInt expr).uses ⊆ seen
  portal kind id seen := (A.openPortal kind id).uses ⊆ seen ∧ ∀ handle, (A.fetchRow kind id handle).uses ⊆ seen
  rowTarget := A.rowTarget
  array id seen := (A.foreachStart id).uses ⊆ seen ∧ (A.foreachNext id).uses ⊆ seen
  handlerVars := {A.sqlstate, A.sqlerrm}

/-- The variables of `seen` have the same values, and the memory is in order. -/
structure Alike (seen : Finset Nat) (c : Session V E) (p : Plain V E) : Prop where
  held : Held env c.toWorld
  links : ∀ id, ∀ expr ∈ exprs id, (c.links id).Consistent env expr
  ext : c.ext = p.ext
  values : ∀ d ∈ seen, c.value d = p.values d

end Agreement

section Tracks

variable {env : Executor V E} {A : Actions V E} {exprs : Nat → Option (PlExpr V)} {marks : Nat → Bool}
variable {seen seen' : Finset Nat} {c : Session V E} {p : Plain V E}

theorem Alike.mono (alike : Alike env exprs seen' c p) (le : seen ⊆ seen') : Alike env exprs seen c p :=
  ⟨alike.held, alike.links, alike.ext, fun d mem => alike.values d (le mem)⟩

theorem Alike.setExt (alike : Alike env exprs seen c p) (ext : E) :
    Alike env exprs seen ((objectMachine env exprs).setExt ext c) ((valueMachine env exprs).setExt ext p) :=
  ⟨⟨alike.held.owns, alike.held.lends, alike.held.unique, alike.held.held, alike.held.fixed⟩,
    alike.links, rfl, alike.values⟩

theorem Alike.store (alike : Alike env exprs seen c p) (dno : Nat) (v : Option V) :
    Alike env exprs (insert dno seen) ((objectMachine env exprs).store dno v c)
      ((valueMachine env exprs).store dno v p) := by
  obtain ⟨held, -, value⟩ := storeValue_spec (t := dno) alike.held (Ref.read_ofValue c.heap v)
    fun a rw => absurd rw (Ref.ofValue_ne_rw v a)
  refine ⟨held, alike.links, (storeValue_ext _).trans alike.ext, fun d mem => ?_⟩
  change (storeValue env dno (.ofValue v) c.toWorld).evalCleanup.value d = Function.update p.values dno v d
  rw [value]
  by_cases same : d = dno
  · rw [same, Function.update_self, Function.update_self]
  · rw [Function.update_of_ne same, Function.update_of_ne same]
    exact alike.values d ((Finset.mem_insert.mp mem).resolve_left same)

theorem Alike.storeAll (alike : Alike env exprs seen c p) (stores : List (Nat × Option V)) :
    Alike env exprs (seen ∪ (stores.map Prod.fst).toFinset) ((objectMachine env exprs).storeAll stores c)
      ((valueMachine env exprs).storeAll stores p) := by
  induction stores generalizing seen c p with
  | nil =>
    rw [List.map_nil, List.toFinset_nil, Finset.union_empty]
    exact alike
  | cons store rest ih =>
    refine (ih (alike.store store.1 store.2)).mono fun d mem => ?_
    rw [List.map_cons, List.toFinset_cons, Finset.union_insert] at mem
    rwa [Finset.insert_union]

/-- An action that looks only at what can be seen. -/
theorem perform_tracks {α : Type} {action : Action V E α} {dnos : α → Finset Nat}
    (alike : Alike env exprs seen c p) (sub : action.uses ⊆ seen) (binds : action.Binds dnos) :
    ResTracks (Alike env exprs) (fun value => seen ∪ dnos value) seen
      ((objectMachine env exprs).perform action c) ((valueMachine env exprs).perform action p) := by
  have same : action.run c.value c.ext = action.run p.values p.ext := by
    rw [action.depends c.value p.values c.ext fun d mem => alike.values d (sub mem), alike.ext]
  change ResTracks _ _ _ ((objectMachine env exprs).finish (action.run c.value c.ext) c)
    ((valueMachine env exprs).finish (action.run p.values p.ext) p)
  rw [same]
  have bound := binds p.values p.ext
  revert bound
  generalize action.run p.values p.ext = o
  rcases o with ⟨edata | value, stores, ext⟩
  · exact fun _ => .raise (((alike.storeAll stores).setExt ext).mono Finset.subset_union_left)
  · intro bound
    refine .ok (((alike.storeAll stores).setExt ext).mono (Finset.union_subset_union_right fun d mem => ?_))
    exact List.mem_toFinset.mpr (bound value rfl d mem)

theorem perform_tracks_nothing {α : Type} {action : Action V E α} (alike : Alike env exprs seen c p)
    (sub : action.uses ⊆ seen) :
    ResTracks (Alike env exprs) (fun _ => seen) seen ((objectMachine env exprs).perform action c)
      ((valueMachine env exprs).perform action p) := by
  have binds : action.Binds fun _ => ∅ := fun _ _ _ _ d mem => absurd mem (Finset.notMem_empty d)
  simpa only [Finset.union_empty] using perform_tracks alike sub binds

/-! ### Assignments -/

mutual

/-- What an expression means depends on the variables that it refers to. -/
theorem Expr.interpret_congr {vals vals' : Nat → Option V} (e : Expr V) (ext : E)
    (same : ∀ pd ∈ e.params, vals pd.2 = vals' pd.2) :
    e.interpret (denoted env vals) ext = e.interpret (denoted env vals') ext := by
  cases e with
  | const value => rfl
  | param node dno =>
    have eq := same (node, dno) (List.mem_singleton.mpr rfl)
    simp only [Expr.interpret, denoted]
    rw [eq]
  | funcExpr funcid args =>
    rw [Expr.interpret, Expr.interpret, args.interpret_congr ext same]
    rfl
  | opExpr opfuncid args =>
    rw [Expr.interpret, Expr.interpret, args.interpret_congr ext same]
    rfl
  | relabelType arg => exact arg.interpret_congr ext same
  | subscriptFetch container refexpr subscripts =>
    have left (ext : E) := subscripts.interpret_congr ext fun pd mem => same pd (List.mem_append_left _ mem)
    have right := refexpr.interpret_congr ext fun pd mem => same pd (List.mem_append_right _ mem)
    simp only [Expr.interpret, left, right]
    rfl
  | subscriptAssign container refexpr subscripts refassgnexpr =>
    have first (ext : E) := subscripts.interpret_congr ext fun pd mem => same pd (List.mem_append_left _ mem)
    have second := refexpr.interpret_congr ext fun pd mem =>
      same pd (List.mem_append_right _ (List.mem_append_left _ mem))
    have third (ext : E) := refassgnexpr.interpret_congr ext fun pd mem =>
      same pd (List.mem_append_right _ (List.mem_append_right _ mem))
    simp only [Expr.interpret, first, second, third]
    rfl
  | caseExpr cond result defresult =>
    have first := cond.interpret_congr ext fun pd mem => same pd (List.mem_append_left _ mem)
    have second (ext : E) := result.interpret_congr ext fun pd mem =>
      same pd (List.mem_append_right _ (List.mem_append_left _ mem))
    have third (ext : E) := defresult.interpret_congr ext fun pd mem =>
      same pd (List.mem_append_right _ (List.mem_append_right _ mem))
    simp only [Expr.interpret, first, second, third]
    rfl

theorem Exprs.interpret_congr {vals vals' : Nat → Option V} (es : Exprs V) (ext : E)
    (same : ∀ pd ∈ es.params, vals pd.2 = vals' pd.2) :
    es.interpret (denoted env vals) ext = es.interpret (denoted env vals') ext := by
  cases es with
  | nil => rfl
  | cons head tail =>
    have first := head.interpret_congr ext fun pd mem => same pd (List.mem_append_left _ mem)
    have rest (ext : E) := tail.interpret_congr ext fun pd mem => same pd (List.mem_append_right _ mem)
    simp only [Exprs.interpret, first, rest]

end

theorem assignedValue_congr {vals vals' : Nat → Option V} {expr : PlExpr V} (ext : E)
    (same : ∀ pd ∈ expr.simpleExpr.params, vals pd.2 = vals' pd.2) :
    assignedValue env vals expr ext = assignedValue env vals' expr ext := by
  unfold assignedValue convertedValue
  rw [expr.simpleExpr.interpret_congr ext same]

theorem execStmtAssign_ok {id : Nat} {expr : PlExpr V} {done : Unit}
    (ok : (execAssignExpr env expr (c.evalState id)).1 = .ok done) :
    execStmtAssign env id expr c = .ok () ⟨(execAssignExpr env expr (c.evalState id)).2.toWorld,
      Function.update c.links id (execAssignExpr env expr (c.evalState id)).2.link⟩ := by
  unfold execStmtAssign
  dsimp only
  rw [ok]

theorem execStmtAssign_error {id : Nat} {expr : PlExpr V} {edata : ErrorData}
    (failed : (execAssignExpr env expr (c.evalState id)).1 = .error edata) :
    execStmtAssign env id expr c = .raise edata ⟨(execAssignExpr env expr (c.evalState id)).2.toWorld,
      Function.update c.links id (execAssignExpr env expr (c.evalState id)).2.link⟩ := by
  unfold execStmtAssign
  dsimp only
  rw [failed]

/-- An assignment remembers something for itself alone. -/
theorem links_update (links : ∀ id, ∀ expr ∈ exprs id, (c.links id).Consistent env expr)
    {id : Nat} {expr : PlExpr V} (here : exprs id = some expr) {link : Link} (consistent : link.Consistent env expr) :
    ∀ id', ∀ expr' ∈ exprs id', (Function.update c.links id link id').Consistent env expr' := by
  intro id' expr' mem
  by_cases same : id' = id
  · subst same
    obtain rfl : expr = expr' := Option.some.inj (here.symm.trans mem)
    rwa [Function.update_self]
  · rw [Function.update_of_ne same]
    exact links id' expr' mem

theorem execStmtAssign_tracks (sound : env.Sound) (honest : env.Honest) {id : Nat} {expr : PlExpr V}
    (here : exprs id = some expr) (sane : expr.Sane env) {place : Spot}
    (alike : Alike env exprs place.seen c p)
    (sees : ∀ pd ∈ expr.simpleExpr.params, pd.2 ∈ place.seen)
    (isLocal : expr.targetIsLocal = true → expr.targetParam ∈ place.locals) :
    ResTracks (Alike env exprs) (fun _ => place.seen) place.kept (execStmtAssign env id expr c)
      (assignPlain env expr p) := by
  have assigns := execAssignExpr_assigns (s := c.evalState id) sound honest alike.held
    (alike.links id expr here) sane
  have meant : assignedValue env c.value expr c.ext = assignedValue env p.values expr p.ext := by
    rw [assignedValue_congr c.ext fun pd mem => alike.values pd.2 (sees pd mem), alike.ext]
  change Assigns env expr _ (assignedValue env c.value expr c.ext) _ at assigns
  rw [meant] at assigns
  have links := links_update alike.links here assigns.link
  unfold assignPlain
  revert assigns
  generalize assignedValue env p.values expr p.ext = m
  intro assigns
  rcases m with ⟨edata | v, ext⟩
  · obtain ⟨failed, others, kept⟩ := assigns.error edata rfl
    rw [execStmtAssign_error failed]
    refine .raise ⟨assigns.held, links, assigns.ext, fun d mem => ?_⟩
    obtain ⟨seen, nonlocal⟩ := Finset.mem_sdiff.mp mem
    refine Eq.trans ?_ (alike.values d seen)
    by_cases same : d = expr.targetParam
    · rw [same]
      refine kept (Bool.eq_false_iff.mpr fun local_ => nonlocal ?_)
      rw [same]
      exact isLocal local_
    · exact others d same
  · obtain ⟨ok, -, value⟩ := assigns.ok v rfl
    rw [execStmtAssign_ok ok]
    refine .ok ⟨assigns.held, links, assigns.ext, fun d mem => ?_⟩
    refine (congrFun value d).trans ?_
    by_cases same : d = expr.targetParam
    · rw [same, Function.update_self]
      exact (Function.update_self expr.targetParam v p.values).symm
    · rw [Function.update_of_ne same]
      exact (alike.values d mem).trans (Function.update_of_ne same v p.values).symm

/-! ### Functions -/

theorem marked_eq {id : Nat} {expr : PlExpr V} (here : exprs id = some expr) :
    marked exprs marks id = some { expr with targetIsLocal := marks id } := by
  rw [marked, here, Option.map_some]

theorem target_eq {id : Nat} {expr : PlExpr V} (here : exprs id = some expr) :
    expr.targetParam ∈ target exprs id := by
  rw [target, here, Option.map_some]
  rfl

theorem Alike.onExt (alike : Alike env exprs seen c p) (f : E → E) :
    Alike env exprs seen ((objectMachine env exprs).onExt f c) ((valueMachine env exprs).onExt f p) := by
  have after := alike.setExt (f c.ext)
  change Alike env exprs seen _ { p with ext := f p.ext }
  rw [← alike.ext]
  exact after

theorem Alike.cleanup (alike : Alike env exprs seen c p) :
    Alike env exprs seen ((objectMachine env exprs).cleanup c) ((valueMachine env exprs).cleanup p) :=
  ⟨alike.held.evalCleanup, alike.links, alike.ext,
    fun d mem => (alike.held.value_evalCleanup d).trans (alike.values d mem)⟩

/-- Every action of the one machine follows that of the other. -/
theorem machines_tracking (sound : env.Sound) (honest : env.Honest)
    (sane : ∀ id, ∀ expr ∈ marked exprs marks id, expr.Sane env) :
    Tracking (Alike env (marked exprs marks)) ((objectMachine env (marked exprs marks)).env A)
      ((valueMachine env (marked exprs marks)).env A) ((uses A exprs).marked (target exprs) marks) where
  mono le alike := alike.mono le
  leaf {id place c p} uses alike := by
    obtain ⟨sees, isLocal⟩ := uses
    -- A leaf that is no assignment is an action outside; an assignment is the one place
    -- where objects are handed over.
    cases here : exprs id with
    | none =>
      have other : marked exprs marks id = none := by rw [marked, here, Option.map_none]
      simp only [Machine.env, objectMachine, valueMachine, other, Option.map_none, Option.getD_none]
      simp only [ReadWrite.uses, here] at sees
      exact (perform_tracks_nothing alike sees).weaken (fun le alike => alike.mono le)
        (fun _ => subset_rfl) place.kept_subset
    | some expr =>
      simp only [ReadWrite.uses, here] at sees
      simp only [Machine.env, objectMachine, valueMachine, marked_eq here, Option.map_some, Option.getD_some]
      refine execStmtAssign_tracks sound honest (marked_eq here) (sane id _ (marked_eq here)) alike sees ?_
      exact fun mark => isLocal expr.targetParam (target_eq here) mark
  initVar {dno s c p} sub alike := by
    refine (perform_tracks alike sub (A.initVar_binds dno)).weaken (fun le alike => alike.mono le)
      (fun _ => ?_) subset_rfl
    rw [Finset.union_comm, Finset.singleton_union]
  caseAssignTest sub alike := perform_tracks alike sub (A.caseTest_binds _ _)
  assignNull alike := (alike.store _ none).mono (Finset.subset_insert _ _)
  execReturn sub alike := perform_tracks_nothing alike sub
  evalBool sub alike := perform_tracks_nothing alike sub.1
  evalInt sub alike := perform_tracks_nothing alike sub.2
  assignInt {var value s c p} alike := by
    rw [Finset.union_comm, Finset.singleton_union]
    exact .ok (alike.store var _)
  setFound alike := (alike.store _ _).mono (Finset.subset_insert _ _)
  openPortal sub alike := perform_tracks_nothing alike sub.1
  fetchRow {kind id handle s c p} sub alike := by
    refine (perform_tracks alike (sub.2 handle) (A.fetchRow_binds kind id handle)).weaken
      (fun le alike => alike.mono le) (fun more => ?_) subset_rfl
    cases more with
    | true => exact subset_rfl
    | false => exact Finset.subset_union_left
  closePortal alike := alike.onExt _
  beginSub alike := alike.onExt _
  releaseSub alike := alike.onExt _
  -- The objects of the evaluation that raised go with the subtransaction.
  rollbackSub alike := alike.cleanup.onExt _
  setHandlerVars {edata s c p} alike := by
    have stored := (alike.store A.sqlstate (some (A.ofError edata).1)).store A.sqlerrm
      (some (A.ofError edata).2)
    refine stored.mono fun d mem => ?_
    simp only [Uses.marked, ReadWrite.uses, Finset.mem_union, Finset.mem_insert, Finset.mem_singleton] at mem ⊢
    tauto
  foreachStart sub alike := perform_tracks_nothing alike sub.1
  foreachNext sub alike := perform_tracks_nothing alike sub.2
  foreachEnd alike := alike.onExt _

/-- The execution of a function body with objects that are handed over ends as it does
without, with the same values in the variables that can be seen. -/
theorem body_tracks (sound : env.Sound) (honest : env.Honest) (body : Stmt) (args : Finset Nat) (fuel : Nat)
    (distinct : body.leaves.Nodup)
    (placed : body.placed (uses A exprs) ⟨seen, outermost (target exprs) args body⟩)
    (sane : ∀ id, ∀ expr ∈ marked exprs (markFunction (target exprs) args body) id, expr.Sane env)
    (alike : Alike env (marked exprs (markFunction (target exprs) args body)) seen c p) :
    Tracks (Alike env (marked exprs (markFunction (target exprs) args body))) seen ∅
      (body.exec ((objectMachine env (marked exprs (markFunction (target exprs) args body))).env A) fuel c)
      (body.exec ((valueMachine env (marked exprs (markFunction (target exprs) args body))).env A) fuel p) := by
  have T := machines_tracking (A := A) sound honest sane
  exact (body.exec_tracks T fuel (body.placed_markFunction placed distinct) c p alike).weaken T subset_rfl
    (Finset.empty_subset _)

end Tracks

end Uplpgsql.ReadWrite
