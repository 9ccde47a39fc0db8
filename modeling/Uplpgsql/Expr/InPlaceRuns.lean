import Uplpgsql.Expr.Sessions

/-!
# Runs in which objects are handed over

The two results about whole runs: no run of assignments loses an object or leaves a
pointer to one that is gone, and no function can tell that its assignments hand objects
over. Both are shown at work on arrays and an `array_append` that is trusted to modify
its first argument in place.
-/

namespace Uplpgsql.ReadWrite

open Lib

variable {V E : Type}

/-! ### Arrays -/

namespace Arrays

def failure : ErrorData := ⟨makeSqlstate '4' '2' '8' '8' '3', "function does not exist"⟩

def tooLong : ErrorData := ⟨makeSqlstate '2' '2' '0' '0' '1', "value too long"⟩

/-- Function 0 is `array_append`, of an element that is given as an array of one.
Function 1 is a conversion that lets no array of more than two elements pass. -/
def meaning (routine : Routine) (args : List (Option (List Nat))) (ext : Unit) :
    Except ErrorData (Option (List Nat)) × Unit :=
  match routine, args with
  | .func 0, [some xs, some ys] => (.ok (some (xs ++ ys)), ext)
  | .func 1, [some xs] => (if xs.length ≤ 2 then .ok (some xs) else .error tooLong, ext)
  | _, _ => (.error failure, ext)

/-- An array that may be modified is; otherwise there is a new one. -/
def result (r : Ref (List Nat)) (zs : List Nat) (h : Objects (List Nat)) (ext : Unit) :
    Performed (List Nat) Unit :=
  match r with
  | .rw a => if h a = none then ⟨.error failure, h, ext⟩ else ⟨.ok (.rw a), h.write a zs, ext⟩
  | _ => ⟨.ok (.rw h.next), h.alloc zs, ext⟩

def impl (routine : Routine) (args : List (Ref (List Nat))) (h : Objects (List Nat)) (ext : Unit) :
    Performed (List Nat) Unit :=
  match meaning routine (args.map fun r => (r.read h).getD none) ext, routine, args with
  | (.error e, ext), _, _ => ⟨.error e, h, ext⟩
  | (.ok (some zs), ext), .func 0, r :: _ => result r zs h ext
  | (.ok v, ext), _, _ => ⟨.ok (.ofValue v), h, ext⟩

/-- `array_append_support`: the first argument, if it is the variable. -/
def supports (args : List (Option (Expr (List Nat)))) (dno : Nat) : Option Nat :=
  match args with
  | some (.param node dno') :: _ => if dno' = dno then some node else none
  | _ => none

theorem result_alive (r : Ref (List Nat)) (zs : List Nat) (h : Objects (List Nat)) (ext : Unit) {a : Nat}
    (live : h a ≠ none) : (result r zs h ext).heap a ≠ none := by
  have fresh : h.alloc zs a ≠ none := by rwa [h.alloc_of_live zs live]
  cases r with
  | null => exact fresh
  | flat v => exact fresh
  | ro b => exact fresh
  | rw b =>
    unfold result
    dsimp only
    split
    · exact live
    next here =>
      by_cases same : a = b
      · rw [same, Objects.write_self zs here]
        simp
      · rwa [h.write_of_ne zs same]

theorem impl_alive (routine : Routine) (args : List (Ref (List Nat))) (h : Objects (List Nat)) (ext : Unit)
    (a : Nat) (live : h a ≠ none) : (impl routine args h ext).heap a ≠ none := by
  unfold impl
  split
  · exact live
  · exact result_alive _ _ _ _ live
  · exact live

def executor : Executor (List Nat) Unit where
  decl _ := ⟨"a", true, false, true, false, fun _ => rfl⟩
  meaning := meaning
  impl := impl
  impl_alive := impl_alive
  isTrue _ := true
  prosupport funcid := if funcid = 0 then some supports else none
  typsubscript _ := 2

theorem result_yields {args : List (Ref (List Nat))} {r : Ref (List Nat)} {v : Option (List Nat)}
    {h : Objects (List Nat)} (mem : r ∈ args) (read : r.read h = some v) (zs : List Nat) (ext : Unit) :
    Gives (.ofArgs args) h (.ok (some zs) : Except ErrorData _) (result r zs h ext).result
      (result r zs h ext).heap := by
  cases r with
  | null => exact .alloc zs h
  | flat w => exact .alloc zs h
  | ro a => exact .alloc zs h
  | rw a =>
    have live : h a ≠ none := Ref.live_of_read rfl read
    unfold result
    dsimp only
    rw [if_neg live]
    exact .write zs live ⟨_, mem, rfl⟩ mem mem

theorem result_error {r : Ref (List Nat)} {zs : List Nat} {h : Objects (List Nat)} {ext : Unit} {e : ErrorData}
    (failed : (result r zs h ext).result = .error e) : (result r zs h ext).heap = h := by
  cases r with
  | rw a =>
    unfold result at failed ⊢
    dsimp only at failed ⊢
    split
    · rfl
    next live =>
      rw [if_neg live] at failed
      cases failed
  | null => cases failed
  | flat w => cases failed
  | ro a => cases failed

/-- The functions do what they mean, also if two arguments are the same object. -/
theorem trusted (routine : Routine) : executor.InPlace routine where
  ext _ _ _ _ _ := rfl
  yields args vs h ext values := by
    have read : (args.map fun r => (r.read h).getD none) = vs := by
      induction values with
      | nil => rfl
      | cons first _ ih => rw [List.map_cons, ih, first, Option.getD_some]
    change Gives (.ofArgs args) h (meaning routine vs ext).1 (impl routine args h ext).result
      (impl routine args h ext).heap
    unfold impl
    rw [read]
    split
    next eq =>
      rw [eq]
      exact .failed _ _
    next zs ext' r rest eq =>
      rw [eq]
      cases values with
      | cons first _ => exact result_yields List.mem_cons_self first zs ext'
    next v ext' _ eq =>
      rw [eq]
      exact .ofValue v h
  onError args vs h ext e _ failed a _ := by
    change (impl routine args h ext).result = .error e at failed
    change (impl routine args h ext).heap a = h a
    unfold impl at failed ⊢
    split at failed
    · rfl
    · rw [result_error failed]
    · cases failed

theorem sound : executor.Sound where
  ext routine args vs h ext values _ := (trusted routine).ext args vs h ext values
  yields routine args vs h ext values _ := (trusted routine).yields args vs h ext values

theorem honest : executor.Honest where
  direct {e funcid fargs supports dno param} top support answer := by
    have known : supports = Arrays.supports := by
      simp only [executor] at support
      split at support
      · exact (Option.some.inj support).symm
      · cases support
    subst known
    unfold Arrays.supports at answer
    split at answer
    next node dno' rest =>
      split at answer
      next same =>
        cases answer
        rw [same]
        exact List.mem_cons_self
      next => cases answer
    next => cases answer
  inPlace _ _ _ _ := trusted _

/-! ### A session -/

/-- Variable 0 has the array `{1}`; variable 1 is a parameter, and has an array of the
caller, `{7}`; the others are NULL. -/
def start : Session (List Nat) Unit where
  vars dno :=
    match dno with
    | 0 => ⟨.rw 0, true⟩
    | 1 => ⟨.ro 1, false⟩
    | _ => ⟨.null, false⟩
  heap := ⟨fun a => [[1], [7]][a]?, 2, fun _ above => List.getElem?_eq_none above⟩
  owner a := if a = 0 then .variable else .caller
  ext := ()
  links _ := ⟨.unknown, none, fun _ => none⟩

/-- `array_append(v, v')` -/
def append (v v' : Nat) : Expr (List Nat) := .funcExpr 0 (.cons (.param 0 v) (.cons (.param 1 v') .nil))

/-- `x := array_append(x, y)`, `y := array_append(x, y)` and `x := array_append(x, NULL)`,
which fails. -/
def exprs (id : Nat) : Option (PlExpr (List Nat)) :=
  [⟨append 0 1, 0, true, none⟩, ⟨append 0 1, 1, true, none⟩, ⟨append 0 2, 0, true, none⟩][id]?

theorem start_held : Held executor start.toWorld where
  owns d a value := by
    match d with
    | 0 =>
      cases value
      exact ⟨by decide, rfl, rfl⟩
    | 1 => cases value
    | d + 2 => cases value
  lends d a value := by
    match d with
    | 0 => cases value
    | 1 =>
      cases value
      exact ⟨by decide, rfl⟩
    | d + 2 => cases value
  unique d d' a value value' := by
    match d, d' with
    | 0, 0 => rfl
    | 0, 1 => cases value'
    | 0, d' + 2 => cases value'
    | 1, d' => cases value
    | d + 2, d' => cases value
  held a _ owner := by
    refine ⟨0, ?_⟩
    by_cases zero : a = 0
    · rw [zero]
      rfl
    · simp [start, zero] at owner
  fixed _ fixed := by cases fixed

theorem start_consistent (expr : PlExpr (List Nat)) (id : Nat) :
    (start.links id).Consistent executor expr where
  decided known := absurd rfl known
  chosen _ func eq := by cases eq

end Arrays

/-! ### No object is lost -/

section Runs

variable (env : Executor V E) (exprs : Nat → Option (PlExpr V))

/-- An assignment whose error, if there is one, is caught. -/
def assignCaught (id : Nat) (c : Session V E) : Session V E :=
  match exprs id with
  | none => c
  | some expr =>
    match execStmtAssign env id expr c with
    | .ok _ c => c
    | .raise _ c => { c with toWorld := c.evalCleanup }

def runAssignments (ids : List Nat) (c : Session V E) : Session V E :=
  ids.foldl (fun c id => assignCaught env exprs id c) c

/-- Between two assignments. -/
structure Tidy (c : Session V E) : Prop where
  held : Held env c.toWorld
  clean : Clean c.toWorld
  links : ∀ id, ∀ expr ∈ exprs id, (c.links id).Consistent env expr

variable {env exprs}

theorem assignCaught_tidy (sound : env.Sound) (honest : env.Honest)
    (distinct : ∀ id, ∀ expr ∈ exprs id, (expr.simpleExpr.params.map Prod.fst).Nodup) (id : Nat)
    {c : Session V E} (tidy : Tidy env exprs c) :
    Tidy env exprs (assignCaught env exprs id c) ∧ ∀ a, c.heap a ≠ none → c.owner a = .caller →
      (assignCaught env exprs id c).heap a = c.heap a ∧ (assignCaught env exprs id c).owner a = .caller := by
  unfold assignCaught
  cases here : exprs id with
  | none => exact ⟨tidy, fun a _ caller => ⟨rfl, caller⟩⟩
  | some expr =>
    obtain ⟨held, link, clean⟩ := execAssignExpr_held (s := c.evalState id) sound honest tidy.held
      (tidy.links id expr here) (distinct id expr here)
    have lent {a : Nat} (live : c.heap a ≠ none) (caller : c.owner a = .caller) :=
      execAssignExpr_lent (s := c.evalState id) sound honest tidy.held (tidy.links id expr here)
        (distinct id expr here) live caller
    dsimp only
    cases result : (execAssignExpr env expr (c.evalState id)).1 with
    | ok done =>
      rw [execStmtAssign_ok result]
      exact ⟨⟨held, clean result, links_update tidy.links here link⟩, fun a live caller => lent live caller⟩
    | error err =>
      rw [execStmtAssign_error result]
      refine ⟨⟨held.evalCleanup, evalCleanup_clean _, links_update tidy.links here link⟩,
        fun a live caller => ?_⟩
      obtain ⟨heap, owner⟩ := lent live caller
      exact ⟨(evalCleanup_of_live (by rw [owner]; decide)).trans heap, owner⟩

theorem runAssignments_tidy (sound : env.Sound) (honest : env.Honest)
    (distinct : ∀ id, ∀ expr ∈ exprs id, (expr.simpleExpr.params.map Prod.fst).Nodup) (ids : List Nat)
    {c : Session V E} (tidy : Tidy env exprs c) :
    Tidy env exprs (runAssignments env exprs ids c) ∧ ∀ a, c.heap a ≠ none → c.owner a = .caller →
      (runAssignments env exprs ids c).heap a = c.heap a ∧
      (runAssignments env exprs ids c).owner a = .caller := by
  induction ids generalizing c with
  | nil => exact ⟨tidy, fun a _ caller => ⟨rfl, caller⟩⟩
  | cons id rest ih =>
    obtain ⟨tidy', lent⟩ := assignCaught_tidy sound honest distinct id tidy
    obtain ⟨tidy'', lent'⟩ := ih tidy'
    refine ⟨tidy'', fun a live caller => ?_⟩
    obtain ⟨heap, owner⟩ := lent a live caller
    obtain ⟨heap', owner'⟩ := lent' a (by rwa [heap]) owner
    exact ⟨heap'.trans heap, owner'⟩

/-- After any run of assignments, whichever of them fail, no variable points to an
object that is gone, no two hold the same one for modification, every object that is
still there is held by a variable or is the caller's, and what the caller has lent is
as it was. -/
theorem runAssignments_memory (sound : env.Sound) (honest : env.Honest)
    (distinct : ∀ id, ∀ expr ∈ exprs id, (expr.simpleExpr.params.map Prod.fst).Nodup) (ids : List Nat)
    (c : Session V E) (tidy : Tidy env exprs c) :
    (∀ d a, ((runAssignments env exprs ids c).vars d).value.object = some a →
      (runAssignments env exprs ids c).heap a ≠ none) ∧
    (∀ d d' a, ((runAssignments env exprs ids c).vars d).value = .rw a →
      ((runAssignments env exprs ids c).vars d').value = .rw a → d = d') ∧
    (∀ a, (runAssignments env exprs ids c).heap a ≠ none → (runAssignments env exprs ids c).owner a = .caller ∨
      ∃ d, ((runAssignments env exprs ids c).vars d).value = .rw a) ∧
    ∀ a, c.heap a ≠ none → c.owner a = .caller → (runAssignments env exprs ids c).heap a = c.heap a := by
  obtain ⟨⟨held, clean, -⟩, lent⟩ := runAssignments_tidy sound honest distinct ids tidy
  refine ⟨fun d a points => held.live points, held.unique, fun a live => ?_, fun a live caller =>
    (lent a live caller).1⟩
  cases owner : (runAssignments env exprs ids c).owner a with
  | «variable» => exact .inr (held.held a live owner)
  | eval => exact absurd owner (clean a live)
  | caller => exact .inl rfl

end Runs

namespace Arrays

theorem exprs_distinct (id : Nat) (expr : PlExpr (List Nat)) (mem : expr ∈ exprs id) :
    (expr.simpleExpr.params.map Prod.fst).Nodup := by
  have listed := List.mem_of_getElem? mem
  simp only [List.mem_cons, List.not_mem_nil, or_false] at listed
  rcases listed with rfl | rfl | rfl <;> decide

theorem start_tidy : Tidy executor exprs start where
  held := start_held
  clean a _ := by
    unfold start
    dsimp only
    split <;> decide
  links id expr _ := start_consistent expr id

end Arrays

theorem runAssignments_memory_arrays :
    (runAssignments Arrays.executor Arrays.exprs [0, 1, 2, 0] Arrays.start).heap 1 = Arrays.start.heap 1 :=
  (runAssignments_memory Arrays.sound Arrays.honest Arrays.exprs_distinct [0, 1, 2, 0] Arrays.start
    Arrays.start_tidy).2.2.2 1 (by decide) rfl

/-! ### No function can tell -/

/-- A function is executed with `A` for its actions, `exprs` for its assignments and the
marks of `uplpgsql_mark_local_assignment_targets`: whether its assignments hand over
objects or not, it ends in the same way, with the same values in the variables that
can be seen. Where it ends with an error, the variables are gone. -/
theorem handingOver_unobservable {env : Executor V E} (sound : env.Sound) (honest : env.Honest) (A : Actions V E)
    (exprs : Nat → Option (PlExpr V)) (body : Stmt) (seen args : Finset Nat) (fuel : Nat)
    (distinct : body.leaves.Nodup)
    (placed : body.placed (uses A exprs) ⟨seen, outermost (target exprs) args body⟩)
    (sane : ∀ id, ∀ expr ∈ marked exprs (markFunction (target exprs) args body) id, expr.Sane env)
    (c : Session V E) (p : Plain V E)
    (alike : Alike env (marked exprs (markFunction (target exprs) args body)) seen c p) :
    Tracks (fun seen c p => c.ext = p.ext ∧ ∀ d ∈ seen, c.value d = p.values d) seen ∅
      (body.exec ((objectMachine env (marked exprs (markFunction (target exprs) args body))).env A) fuel c)
      (body.exec ((valueMachine env (marked exprs (markFunction (target exprs) args body))).env A) fuel p) := by
  exact (body_tracks sound honest body args fuel distinct placed sane alike).coarsen
    fun seen c p agree => ⟨agree.ext, agree.values⟩

namespace Arrays

/-- An action that does nothing but store NULL in some variables. -/
def idle {α : Type} (value : α) (dnos : List Nat) : Action (List Nat) Unit α where
  uses := ∅
  run _ ext := (.ok value, dnos.map fun dno => (dno, none), ext)
  depends _ _ _ _ := rfl

theorem idle_binds {α : Type} (value : α) (dnos : List Nat) (bound : α → Finset Nat)
    (sub : ∀ v, bound v ⊆ dnos.toFinset) : (idle value dnos).Binds bound := by
  intro vals ext v _ d mem
  have there := List.mem_toFinset.mp (sub v mem)
  simpa [idle] using there

def actions : Actions (List Nat) Unit where
  other _ := idle () []
  initVar dno := idle () [dno]
  initVar_binds dno := idle_binds () [dno] _ (by simp)
  caseTest varno _ := idle () [varno]
  caseTest_binds varno _ := idle_binds () [varno] _ (by simp)
  ret _ := idle () []
  evalBool _ := idle (some true) []
  evalInt _ := idle (some 1) []
  openPortal _ _ := idle 0 []
  fetchRow _ _ _ := idle false []
  rowTarget _ _ := ∅
  fetchRow_binds _ _ _ := idle_binds false [] _ (by simp)
  closePortal _ _ _ ext := ext
  foreachStart _ := idle () []
  foreachNext _ := idle false []
  foreachEnd _ ext := ext
  beginSub ext := ext
  releaseSub ext := ext
  rollbackSub ext := ext
  ofInt value := [value.toNat]
  ofBool value := [value.toNat]
  ofError _ := ([0], [0])
  toBool value := value == [1]
  found := 10
  sqlstate := 11
  sqlerrm := 12

/-- The assignment that fails stands between two that do not, within a block whose
handler assigns again. -/
def body : Stmt :=
  .blockExceptions none [] (.cons (.leaf 0) (.cons (.leaf 2) .nil))
    (.cons [.others] (.cons (.leaf 1) .nil) .nil)

theorem exprs_sane (marks : Nat → Bool) (id : Nat) (expr : PlExpr (List Nat)) (mem : expr ∈ marked exprs marks id) :
    expr.Sane executor := by
  obtain ⟨expr', mem', rfl⟩ := Option.map_eq_some_iff.mp mem
  refine ⟨exprs_distinct id expr' mem', fun _ _ => ⟨?_, fun notnull => by cases notnull⟩⟩
  have listed := List.mem_of_getElem? mem'
  simp only [List.mem_cons, List.not_mem_nil, or_false] at listed
  rcases listed with rfl | rfl | rfl <;> rfl

def startValues : Plain (List Nat) Unit := ⟨start.value, ()⟩

theorem start_alike (marks : Nat → Bool) (seen : Finset Nat) :
    Alike executor (marked exprs marks) seen start startValues :=
  ⟨start_held, fun id expr _ => start_consistent expr id, rfl, fun _ _ => rfl⟩

theorem body_placed : body.placed (uses actions exprs) ⟨{0, 1, 2}, outermost (target exprs) {1} body⟩ := by
  have seen (id : Nat) (expr : PlExpr (List Nat)) (here : exprs id = some expr)
      (sees : ∀ pd ∈ expr.simpleExpr.params, pd.2 ∈ ({0, 1, 2} : Finset Nat)) (p : Spot)
      (sub : {0, 1, 2} ⊆ p.seen) : (uses actions exprs).leaf id p := by
    simp only [uses, here]
    exact fun pd mem => sub (sees pd mem)
  have inner : ({0, 1, 2} : Finset Nat) ⊆
      (Spot.guard ⟨{0, 1, 2}, outermost (target exprs) {1} body⟩ []).seen := Finset.subset_union_left
  refine ⟨trivial, ⟨?_, ?_, trivial⟩, ⟨⟨?_, trivial⟩, trivial⟩⟩
  · exact seen 0 _ rfl (by decide) _ inner
  · exact seen 2 _ rfl (by decide) _ inner
  · exact seen 1 _ rfl (by decide) _ (inner.trans Finset.subset_union_left)

end Arrays

theorem handingOver_unobservable_arrays :
    Tracks (fun seen c p => c.ext = p.ext ∧ ∀ d ∈ seen, c.value d = p.values d) {0, 1, 2} ∅
      (Arrays.body.exec ((objectMachine Arrays.executor
        (marked Arrays.exprs (markFunction (target Arrays.exprs) {1} Arrays.body))).env Arrays.actions) 1 Arrays.start)
      (Arrays.body.exec ((valueMachine Arrays.executor
        (marked Arrays.exprs (markFunction (target Arrays.exprs) {1} Arrays.body))).env Arrays.actions) 1
        Arrays.startValues) :=
  handingOver_unobservable Arrays.sound Arrays.honest Arrays.actions Arrays.exprs Arrays.body {0, 1, 2} {1} 1
    (by decide) Arrays.body_placed (Arrays.exprs_sane _) Arrays.start Arrays.startValues (Arrays.start_alike _ _)

/-! ### A conversion that comes too late -/

/-- `array_append` is trusted, so that the object is modified although the target is not
local; the conversion to the type of the variable fails only then. -/
example :
    let expr : PlExpr (List Nat) := ⟨Arrays.append 0 1, 0, false, some (.func 1)⟩
    let s := (Arrays.start.evalState 0).setVar 1 ⟨.flat [7, 8], false⟩
    let o := execAssignExpr Arrays.executor expr ⟨s, Arrays.start.links 0⟩
    o.1 = .error Arrays.tooLong ∧ o.2.value 0 = some [1, 7, 8] :=
  ⟨rfl, rfl⟩

end Uplpgsql.ReadWrite
