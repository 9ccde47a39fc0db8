import Mathlib.Data.List.Pairwise
import Uplpgsql.Expr.ReadWrite

/-!
# Assignments that modify in place

What an assignment should do is said without objects: the expression has a value,
and the variable gets it. Evaluation with objects that are handed over does the
same, and after it no object is left over and none is missing.
-/

namespace Uplpgsql.ReadWrite

open Lib

variable {V E : Type}

/-! ### What expressions mean -/

section Meaning

variable (env : Executor V E) (vals : Nat → Option V)

def denoted : Interpretation V E (Option V) where
  const value := value
  param _ dno ext := (vals dno, ext)
  call := env.meaning
  isTrue v _ := (v.map env.isTrue).getD false

/-- The value of the expression, converted. -/
def convertedValue (expr : PlExpr V) (ext : E) : Except ErrorData (Option V) × E :=
  match expr.simpleExpr.interpret (denoted env vals) ext with
  | (.error e, ext) => (.error e, ext)
  | (.ok v, ext) =>
    match expr.cast with
    | none => (.ok v, ext)
    | some routine => env.meaning routine [v] ext

/-- The value that is to be assigned. -/
def assignedValue (expr : PlExpr V) (ext : E) : Except ErrorData (Option V) × E :=
  match convertedValue env vals expr ext with
  | (.error e, ext) => (.error e, ext)
  | (.ok v, ext) =>
    if v.isNone && (env.decl expr.targetParam).notnull then
      (.error (nullValueNotAllowed (env.decl expr.targetParam)), ext)
    else (.ok v, ext)

end Meaning

/-! ### What functions may do -/

/-- A function does what it means, with no other objects than it is given, as long
as no two of its arguments lead to one object that it may modify. -/
structure Executor.Sound (env : Executor V E) : Prop where
  ext : ∀ routine args vs h ext, List.Forall₂ (fun (r : Ref V) v => r.read h = some v) args vs →
    args.Pairwise Ref.Apart → (env.impl routine args h ext).ext = (env.meaning routine vs ext).2
  yields : ∀ routine args vs h ext,
    List.Forall₂ (fun (r : Ref V) v => r.read h = some v) args vs → args.Pairwise Ref.Apart →
      Gives (.ofArgs args) h (env.meaning routine vs ext).1 (env.impl routine args h ext).result
        (env.impl routine args h ext).heap

/-- A function that can be trusted with an object that others have a pointer to:
if it fails, it has modified nothing. -/
structure Executor.InPlace (env : Executor V E) (routine : Routine) : Prop where
  ext : ∀ args vs h ext, List.Forall₂ (fun (r : Ref V) v => r.read h = some v) args vs →
    (env.impl routine args h ext).ext = (env.meaning routine vs ext).2
  yields : ∀ args vs h ext, List.Forall₂ (fun (r : Ref V) v => r.read h = some v) args vs →
    Gives (.ofArgs args) h (env.meaning routine vs ext).1 (env.impl routine args h ext).result
      (env.impl routine args h ext).heap
  onError : ∀ args vs h ext e, List.Forall₂ (fun (r : Ref V) v => r.read h = some v) args vs →
    (env.impl routine args h ext).result = .error e →
      ∀ a, h a ≠ none → (env.impl routine args h ext).heap a = h a

/-! ### Calls, in one form -/

def Exprs.snoc : Exprs V → Expr V → Exprs V
  | .nil, e => .cons e .nil
  | .cons head tail, e => .cons head (tail.snoc e)

/-- The calls: what is called, with its arguments in the order of evaluation. -/
def Expr.asCall : Expr V → Option (Routine × Exprs V)
  | .funcExpr funcid args => some (.func funcid, args)
  | .opExpr opfuncid args => some (.func opfuncid, args)
  | .subscriptFetch container refexpr subscripts =>
    some (.subscriptFetch container, .cons refexpr subscripts)
  | .subscriptAssign container refexpr subscripts refassgnexpr =>
    some (.subscriptAssign container, .cons refexpr (subscripts.snoc refassgnexpr))
  | _ => none

section Calls

variable {S R : Type} (I : Interpretation V S R)

@[simp] theorem Exprs.toList_snoc (es : Exprs V) (e : Expr V) :
    (es.snoc e).toList = es.toList ++ [e] := by
  match es with
  | .nil => rfl
  | .cons head tail => simp [snoc, toList, toList_snoc tail e]

theorem Exprs.params_snoc (es : Exprs V) (e : Expr V) : (es.snoc e).params = es.params ++ e.params := by
  match es with
  | .nil => simp [snoc, params]
  | .cons head tail => simp [snoc, params, params_snoc tail e]

theorem Exprs.params_of_mem (es : Exprs V) {e : Expr V} (mem : e ∈ es.toList) :
    ∀ pd ∈ e.params, pd ∈ es.params := by
  match es with
  | .nil => cases mem
  | .cons head tail =>
    intro pd here
    rcases List.mem_cons.mp mem with rfl | mem
    · exact List.mem_append_left _ here
    · exact List.mem_append_right _ (params_of_mem tail mem pd here)

theorem Exprs.mem_of_params (es : Exprs V) {pd : Nat × Nat} (here : pd ∈ es.params) :
    ∃ e ∈ es.toList, pd ∈ e.params := by
  match es with
  | .nil => cases here
  | .cons head tail =>
    rcases List.mem_append.mp here with here | here
    · exact ⟨head, List.mem_cons_self, here⟩
    · obtain ⟨e, mem, there⟩ := mem_of_params tail here
      exact ⟨e, List.mem_cons_of_mem _ mem, there⟩

theorem Exprs.interpret_cons_error {head : Expr V} {tail : Exprs V} {s : S} {err : ErrorData}
    (failed : (head.interpret I s).1 = .error err) :
    (Exprs.cons head tail).interpret I s = (.error err, (head.interpret I s).2) := by
  rw [interpret]
  revert failed
  rcases head.interpret I s with ⟨_ | _, _⟩ <;> simp

theorem Exprs.interpret_cons_ok {head : Expr V} {tail : Exprs V} {s : S} {r : R}
    (ok : (head.interpret I s).1 = .ok r) :
    (Exprs.cons head tail).interpret I s =
      ((tail.interpret I (head.interpret I s).2).1.map (r :: ·),
        (tail.interpret I (head.interpret I s).2).2) := by
  rw [interpret]
  revert ok
  rcases head.interpret I s with ⟨_ | _, s₁⟩
  · simp
  · rintro ⟨⟩
    dsimp only
    rcases tail.interpret I s₁ with ⟨_ | _, _⟩ <;> rfl

theorem Exprs.interpret_snoc (es : Exprs V) (e : Expr V) (s : S) :
    (es.snoc e).interpret I s =
      match es.interpret I s with
      | (.error err, s) => (.error err, s)
      | (.ok rs, s) =>
        match e.interpret I s with
        | (.error err, s) => (.error err, s)
        | (.ok r, s) => (.ok (rs ++ [r]), s) := by
  match es with
  | .nil =>
    change (Exprs.cons e .nil).interpret I s = match e.interpret I s with
      | (.error err, s) => (.error err, s)
      | (.ok r, s) => (.ok [r], s)
    rw [interpret]
    rcases e.interpret I s with ⟨_ | _, _⟩ <;> rfl
  | .cons head tail =>
    simp only [snoc, interpret]
    rcases head.interpret I s with ⟨_ | r, s₁⟩
    · rfl
    · simp only [interpret_snoc tail e s₁]
      rcases tail.interpret I s₁ with ⟨_ | rs, s₂⟩
      · rfl
      · dsimp only
        rcases e.interpret I s₂ with ⟨_ | r', s₃⟩ <;> rfl

theorem Exprs.interpret_snoc_error {es : Exprs V} {e : Expr V} {s : S} {err : ErrorData}
    (failed : (es.interpret I s).1 = .error err) :
    (es.snoc e).interpret I s = (.error err, (es.interpret I s).2) := by
  rw [interpret_snoc]
  revert failed
  rcases es.interpret I s with ⟨_ | _, _⟩ <;> simp

theorem Exprs.interpret_snoc_ok {es : Exprs V} {e : Expr V} {s : S} {rs : List R}
    (ok : (es.interpret I s).1 = .ok rs) :
    (es.snoc e).interpret I s =
      ((e.interpret I (es.interpret I s).2).1.map fun r => rs ++ [r],
        (e.interpret I (es.interpret I s).2).2) := by
  rw [interpret_snoc]
  revert ok
  rcases es.interpret I s with ⟨_ | _, s₁⟩
  · simp
  · rintro ⟨⟩
    dsimp only
    rcases e.interpret I s₁ with ⟨_ | _, _⟩ <;> rfl

/-- The arguments, and then the call. -/
theorem Expr.interpret_asCall {e : Expr V} {routine : Routine} {args : Exprs V}
    (called : e.asCall = some (routine, args)) (s : S) :
    e.interpret I s =
      match args.interpret I s with
      | (.error err, s) => (.error err, s)
      | (.ok rs, s) => I.call routine rs s := by
  cases e with
  | funcExpr funcid args =>
    cases called
    rfl
  | opExpr opfuncid args =>
    cases called
    rfl
  | subscriptFetch container refexpr subscripts =>
    cases called
    simp only [interpret, Exprs.interpret]
    rcases refexpr.interpret I s with ⟨_ | r, s₁⟩
    · rfl
    · dsimp only
      rcases subscripts.interpret I s₁ with ⟨_ | rs, s₂⟩ <;> rfl
  | subscriptAssign container refexpr subscripts refassgnexpr =>
    cases called
    simp only [interpret, Exprs.interpret, Exprs.interpret_snoc]
    rcases refexpr.interpret I s with ⟨_ | r, s₁⟩
    · rfl
    · dsimp only
      rcases subscripts.interpret I s₁ with ⟨_ | rs, s₂⟩
      · rfl
      · dsimp only
        rcases refassgnexpr.interpret I s₂ with ⟨_ | r', s₃⟩ <;> rfl
  | const value => cases called
  | param node dno => cases called
  | relabelType arg => cases called
  | caseExpr cond result defresult => cases called

theorem Expr.interpret_call_error {e : Expr V} {routine : Routine} {args : Exprs V}
    (called : e.asCall = some (routine, args)) {s : S} {err : ErrorData}
    (failed : (args.interpret I s).1 = .error err) :
    e.interpret I s = (.error err, (args.interpret I s).2) := by
  rw [interpret_asCall I called]
  revert failed
  rcases args.interpret I s with ⟨_ | _, _⟩ <;> simp

theorem Expr.interpret_call_ok {e : Expr V} {routine : Routine} {args : Exprs V}
    (called : e.asCall = some (routine, args)) {s : S} {rs : List R}
    (ok : (args.interpret I s).1 = .ok rs) :
    e.interpret I s = I.call routine rs (args.interpret I s).2 := by
  rw [interpret_asCall I called]
  revert ok
  rcases args.interpret I s with ⟨_ | _, _⟩
  · simp
  · rintro ⟨⟩
    rfl

theorem Expr.interpret_case_error {cond result defresult : Expr V} {s : S} {err : ErrorData}
    (failed : (cond.interpret I s).1 = .error err) :
    (Expr.caseExpr cond result defresult).interpret I s = (.error err, (cond.interpret I s).2) := by
  rw [interpret]
  revert failed
  rcases cond.interpret I s with ⟨_ | _, _⟩ <;> simp

theorem Expr.interpret_case_ok {cond result defresult : Expr V} {s : S} {r : R}
    (ok : (cond.interpret I s).1 = .ok r) :
    (Expr.caseExpr cond result defresult).interpret I s =
      if I.isTrue r (cond.interpret I s).2 then result.interpret I (cond.interpret I s).2
      else defresult.interpret I (cond.interpret I s).2 := by
  rw [interpret]
  revert ok
  rcases cond.interpret I s with ⟨_ | _, _⟩
  · simp
  · rintro ⟨⟩
    rfl

/-- The Params of a call are those of its arguments. -/
theorem Expr.params_asCall {e : Expr V} {routine : Routine} {args : Exprs V}
    (called : e.asCall = some (routine, args)) : e.params.Perm args.params := by
  cases e with
  | funcExpr funcid args =>
    cases called
    exact .refl _
  | opExpr opfuncid args =>
    cases called
    exact .refl _
  | subscriptFetch container refexpr subscripts =>
    cases called
    simp only [params, Exprs.params]
    exact List.perm_append_comm
  | subscriptAssign container refexpr subscripts refassgnexpr =>
    cases called
    simp only [params, Exprs.params, Exprs.params_snoc]
    rw [← List.append_assoc, ← List.append_assoc]
    exact List.perm_append_comm.append_right _
  | const value => cases called
  | param node dno => cases called
  | relabelType arg => cases called
  | caseExpr cond result defresult => cases called

end Calls

/-! ### Evaluation with what the Params deliver -/

section Lent

variable (env : Executor V E) (deliver : Nat → Nat → Ref V) (vals : Nat → Option V)

/-- Evaluation where it is settled what each Param delivers. -/
def lending : Interpretation V (Objects V × E) (Ref V) where
  const := .ofValue
  param node dno s := (deliver node dno, s)
  call routine args s :=
    let o := env.impl routine args s.1 s.2
    (o.result, (o.heap, o.ext))
  isTrue r s := holds env r s.1

def Expr.isParam : Expr V → Bool
  | .param _ _ => true
  | _ => false

/-- The objects that the Params lead to. Only a call can modify one of them. -/
def Expr.footprint (e : Expr V) : Footprint where
  reads a := ∃ pd ∈ e.params, (deliver pd.1 pd.2).object = some a
  writes a := e.isParam = false ∧ ∃ pd ∈ e.params, deliver pd.1 pd.2 = .rw a
  grants a := ∃ pd ∈ e.params, deliver pd.1 pd.2 = .rw a

/-- What the Params of `ps` deliver stands for the values of the variables. -/
def Reads (ps : List (Nat × Nat)) (h : Objects V) : Prop :=
  ∀ pd ∈ ps, (deliver pd.1 pd.2).read h = some (vals pd.2)

/-- No two Params deliver the same object with one of them allowed to modify it. -/
def Lent (ps : List (Nat × Nat)) : Prop :=
  ps.Pairwise fun pd pd' => (deliver pd.1 pd.2).Apart (deliver pd'.1 pd'.2)

/-- Evaluation gives the value of the expression and keeps to its footprint. -/
def Evaluates (e : Expr V) : Prop :=
  ∀ h ext, Reads deliver vals e.params h →
    Gives (e.footprint deliver) h (e.interpret (denoted env vals) ext).1
      (e.interpret (lending env deliver) (h, ext)).1 (e.interpret (lending env deliver) (h, ext)).2.1 ∧
    (e.interpret (lending env deliver) (h, ext)).2.2 = (e.interpret (denoted env vals) ext).2

variable {env deliver vals}

theorem Expr.grants_of_writes {e : Expr V} {a : Nat} (written : (e.footprint deliver).writes a) :
    (e.footprint deliver).grants a := written.2

theorem Expr.reads_of_grants {e : Expr V} {a : Nat} (granted : (e.footprint deliver).grants a) :
    (e.footprint deliver).reads a := by
  obtain ⟨pd, mem, rw⟩ := granted
  exact ⟨pd, mem, by rw [rw]; rfl⟩

theorem Reads.live {e : Expr V} {h : Objects V} (reads : Reads deliver vals e.params h) {a : Nat}
    (read : (e.footprint deliver).reads a) : h a ≠ none := by
  obtain ⟨pd, mem, points⟩ := read
  exact Ref.live_of_read points (reads pd mem)

theorem Reads.mono {ps qs : List (Nat × Nat)} {h : Objects V} (reads : Reads deliver vals qs h)
    (sub : ∀ pd ∈ ps, pd ∈ qs) : Reads deliver vals ps h := fun pd mem => reads pd (sub pd mem)

/-- What is apart from a computation is not disturbed by it. -/
theorem Reads.after {e : Expr V} {f : Footprint} {h h' : Objects V}
    {want : Except ErrorData (Option V)} {got : Except ErrorData (Ref V)}
    (reads : Reads deliver vals e.params h) (first : Gives f h want got h')
    (apart : f.Apart (e.footprint deliver)) : Reads deliver vals e.params h' := by
  intro pd mem
  rw [← reads pd mem]
  refine Ref.read_congr fun a points => first.same a ?_ fun written => ?_
  · exact Ref.live_of_read points (reads pd mem)
  · exact apart a written ⟨pd, mem, points⟩

theorem Ref.Apart.symm {r r' : Ref V} (apart : r.Apart r') : r'.Apart r := ⟨apart.2, apart.1⟩

theorem Lent.perm {ps qs : List (Nat × Nat)} (lent : Lent deliver ps) (perm : ps.Perm qs) :
    Lent deliver qs :=
  (perm.pairwise_iff fun apart => Ref.Apart.symm apart).mp lent

/-- Expressions side by side whose Params are lent together. -/
theorem unaliased_of_lent {e e' : Expr V}
    (cross : ∀ pd ∈ e.params, ∀ pd' ∈ e'.params, (deliver pd.1 pd.2).Apart (deliver pd'.1 pd'.2)) :
    (e.footprint deliver).Unaliased (e'.footprint deliver) := by
  rintro a ⟨pd, mem, rw⟩ ⟨pd', mem', points⟩
  exact (cross pd mem pd' mem').1 a rw points

theorem apart_of_unaliased {e e' : Expr V}
    (unaliased : (e.footprint deliver).Unaliased (e'.footprint deliver)) :
    (e.footprint deliver).Apart (e'.footprint deliver) :=
  fun a written => unaliased a (Expr.grants_of_writes written)

/-- Arguments whose Params are lent together. -/
theorem Exprs.lent {es : Exprs V} (lent : Lent deliver es.params) :
    (∀ e ∈ es.toList, Lent deliver e.params) ∧
      es.toList.Pairwise fun e e' =>
        (e.footprint deliver).Unaliased (e'.footprint deliver) ∧
          (e'.footprint deliver).Unaliased (e.footprint deliver) := by
  match es with
  | .nil => simp [toList]
  | .cons head tail =>
    obtain ⟨first, rest, cross⟩ := List.pairwise_append.mp lent
    obtain ⟨each, pairwise⟩ := Exprs.lent rest
    have inTail {e : Expr V} (mem : e ∈ tail.toList) : ∀ pd ∈ e.params, pd ∈ tail.params := by
      exact tail.params_of_mem mem
    refine ⟨fun e mem => ?_, List.pairwise_cons.mpr ⟨fun e mem => ⟨?_, ?_⟩, pairwise⟩⟩
    · rcases List.mem_cons.mp mem with rfl | mem
      · exact first
      · exact each e mem
    · exact unaliased_of_lent fun pd here pd' there => cross pd here pd' (inTail mem pd' there)
    · exact unaliased_of_lent fun pd here pd' there =>
        Ref.Apart.symm (cross pd' there pd (inTail mem pd here))

section Arguments

/-- Arguments that are apart, one after the other. -/
theorem Exprs.yields (es : Exprs V) (each : ∀ e ∈ es.toList, Evaluates env deliver vals e)
    (apart : es.toList.Pairwise fun e e' => (e'.footprint deliver).Apart (e.footprint deliver) ∧
      (e.footprint deliver).Apart (e'.footprint deliver))
    (h : Objects V) (ext : E) (reads : Reads deliver vals es.params h) :
    GivesAll (es.toList.map (Expr.footprint deliver)) h (es.interpret (denoted env vals) ext).1
      (es.interpret (lending env deliver) (h, ext)).1
      (es.interpret (lending env deliver) (h, ext)).2.1 ∧
    (es.interpret (lending env deliver) (h, ext)).2.2 = (es.interpret (denoted env vals) ext).2 ∧
    ∀ rs, (es.interpret (lending env deliver) (h, ext)).1 = .ok rs →
      (es.toList.Pairwise fun e e' => (e.footprint deliver).Unaliased (e'.footprint deliver) ∧
        (e'.footprint deliver).Unaliased (e.footprint deliver)) → rs.Pairwise Ref.Apart := by
  match es with
  | .nil =>
    refine ⟨.nil h, rfl, fun rs ok _ => ?_⟩
    cases ok
    exact .nil
  | .cons head tail =>
    obtain ⟨apartHead, apartTail⟩ := List.pairwise_cons.mp apart
    have readsHead : Reads deliver vals head.params h := reads.mono fun pd => List.mem_append_left _
    have readsTail {e : Expr V} (mem : e ∈ tail.toList) : Reads deliver vals e.params h :=
      reads.mono fun pd here => List.mem_append_right _ (tail.params_of_mem mem pd here)
    obtain ⟨first, ext₁⟩ := each head List.mem_cons_self h ext readsHead
    cases result : (head.interpret (lending env deliver) (h, ext)).1 with
    | error err =>
      -- An error of the first argument is the error of all.
      have failed : (head.interpret (denoted env vals) ext).1 = .error err := first.error err result
      rw [interpret_cons_error _ result, interpret_cons_error _ failed]
      rw [result, failed] at first
      exact ⟨.cons_error first, ext₁, by simp⟩
    | ok r =>
      obtain ⟨v, value, -⟩ := first.value r result
      rw [interpret_cons_ok _ result, interpret_cons_ok _ value]
      rw [result, value] at first
      -- What the first argument wrote is nothing the others read.
      have readsAfter : Reads deliver vals tail.params
          (head.interpret (lending env deliver) (h, ext)).2.1 := by
        intro pd here
        obtain ⟨e, mem, there⟩ := tail.mem_of_params here
        exact (readsTail mem).after first (apartHead e mem).2 pd there
      have state : (head.interpret (lending env deliver) (h, ext)).2 =
          ((head.interpret (lending env deliver) (h, ext)).2.1,
            (head.interpret (denoted env vals) ext).2) := by
        rw [← ext₁]
      -- The rest runs from the heap that the first argument left.
      obtain ⟨rest, ext₂, pairwise⟩ := Exprs.yields tail
        (fun e mem => each e (List.mem_cons_of_mem _ mem)) apartTail
        (head.interpret (lending env deliver) (h, ext)).2.1
        (head.interpret (denoted env vals) ext).2 readsAfter
      rw [state]
      refine ⟨?_, ext₂, fun rs ok unaliased => ?_⟩
      · rw [toList, List.map_cons]
        refine .cons_ok first rest ?_ ?_
        · intro g mem a written
          obtain ⟨e, inTail, rfl⟩ := List.mem_map.mp mem
          exact (readsTail inTail).live (Expr.reads_of_grants (Expr.grants_of_writes written))
        · intro g mem
          obtain ⟨e, inTail, rfl⟩ := List.mem_map.mp mem
          exact (apartHead e inTail).1
      · obtain ⟨unaliasedHead, unaliasedTail⟩ := List.pairwise_cons.mp unaliased
        cases tailResult : (tail.interpret (lending env deliver)
            ((head.interpret (lending env deliver) (h, ext)).2.1,
              (head.interpret (denoted env vals) ext).2)).1 with
        | error err =>
          rw [tailResult] at ok
          cases ok
        | ok rs' =>
          rw [tailResult] at ok rest
          cases ok
          refine List.pairwise_cons.mpr ⟨?_, pairwise rs' tailResult unaliasedTail⟩
          refine GivesAll.apart_cons first rest ?_ ?_ ?_
          · intro g mem a read
            rcases List.mem_cons.mp mem with rfl | mem
            · exact readsHead.live read
            · obtain ⟨e, inTail, rfl⟩ := List.mem_map.mp mem
              exact (readsTail inTail).live read
          · intro g mem a granted
            rcases List.mem_cons.mp mem with rfl | mem
            · exact Expr.reads_of_grants granted
            · obtain ⟨e, inTail, rfl⟩ := List.mem_map.mp mem
              exact Expr.reads_of_grants granted
          · intro g mem
            obtain ⟨e, inTail, rfl⟩ := List.mem_map.mp mem
            exact unaliasedHead e inTail

end Arguments

/-! ### Whole expressions -/

theorem Expr.isParam_of_asCall {e : Expr V} {routine : Routine} {args : Exprs V}
    (called : e.asCall = some (routine, args)) : e.isParam = false := by
  cases e with
  | param node dno => cases called
  | _ => rfl

/-- The footprint of a call is within that of the expression. -/
theorem yields_of_asCall {e : Expr V} {routine : Routine} {args : Exprs V} {h h' : Objects V}
    {want : Except ErrorData (Option V)} {got : Except ErrorData (Ref V)}
    (called : e.asCall = some (routine, args))
    (y : Gives (.ofCall (args.toList.map (Expr.footprint deliver))) h want got h') :
    Gives (e.footprint deliver) h want got h' := by
  have inside {arg : Expr V} (mem : arg ∈ args.toList) {pd : Nat × Nat} (here : pd ∈ arg.params) :
      pd ∈ e.params :=
    (Expr.params_asCall called).mem_iff.mpr (args.params_of_mem mem pd here)
  refine y.mono ?_ ?_ ?_
  · rintro a ⟨f, mem, read⟩
    obtain ⟨arg, inArgs, rfl⟩ := List.mem_map.mp mem
    obtain ⟨pd, here, points⟩ := read
    exact ⟨pd, inside inArgs here, points⟩
  · rintro a ⟨f, mem, written⟩
    obtain ⟨arg, inArgs, rfl⟩ := List.mem_map.mp mem
    obtain ⟨pd, here, rw⟩ : (arg.footprint deliver).grants a :=
      written.elim Expr.grants_of_writes id
    exact ⟨Expr.isParam_of_asCall called, pd, inside inArgs here, rw⟩
  · rintro a ⟨f, mem, granted⟩
    obtain ⟨arg, inArgs, rfl⟩ := List.mem_map.mp mem
    obtain ⟨pd, here, rw⟩ := granted
    exact ⟨pd, inside inArgs here, rw⟩

/-- Arguments that cannot be computed are all there is to a call. -/
theorem Expr.evaluates_args_error {e : Expr V} {routine : Routine} {args : Exprs V}
    {h : Objects V} {ext : E} {err : ErrorData} (called : e.asCall = some (routine, args))
    (all : GivesAll (args.toList.map (Expr.footprint deliver)) h
      (args.interpret (denoted env vals) ext).1 (args.interpret (lending env deliver) (h, ext)).1
      (args.interpret (lending env deliver) (h, ext)).2.1)
    (failed : (args.interpret (lending env deliver) (h, ext)).1 = .error err) :
    (e.interpret (denoted env vals) ext).1 = .error err ∧
      (e.interpret (lending env deliver) (h, ext)).1 = .error err ∧
      Gives (e.footprint deliver) h (e.interpret (denoted env vals) ext).1
        (e.interpret (lending env deliver) (h, ext)).1
        (e.interpret (lending env deliver) (h, ext)).2.1 := by
  have want := all.error err failed
  rw [interpret_call_error _ called failed, interpret_call_error _ called want]
  rw [failed] at all
  exact ⟨rfl, rfl, yields_of_asCall called all.call_error⟩

theorem Expr.evaluates_call (sound : env.Sound) {e : Expr V} {routine : Routine} {args : Exprs V}
    (called : e.asCall = some (routine, args))
    (each : ∀ arg ∈ args.toList, Lent deliver arg.params → Evaluates env deliver vals arg)
    (lent : Lent deliver e.params) : Evaluates env deliver vals e := by
  intro h ext reads
  have perm := Expr.params_asCall called
  obtain ⟨lentEach, unaliased⟩ := Exprs.lent (lent.perm perm)
  have apart := unaliased.imp fun {e e'} both =>
    And.intro (apart_of_unaliased both.2) (apart_of_unaliased both.1)
  obtain ⟨all, ext₁, pairwise⟩ := args.yields (fun arg mem => each arg mem (lentEach arg mem)) apart
    h ext (reads.mono fun pd here => perm.mem_iff.mpr here)
  cases result : (args.interpret (lending env deliver) (h, ext)).1 with
  | error err =>
    obtain ⟨-, -, y⟩ := Expr.evaluates_args_error called all result
    have want := all.error err result
    refine ⟨y, ?_⟩
    rw [interpret_call_error _ called result, interpret_call_error _ called want]
    exact ext₁
  | ok rs =>
    obtain ⟨vs, want, values⟩ := all.values rs result
    rw [interpret_call_ok _ called result, interpret_call_ok _ called want]
    rw [result] at all
    have separate := pairwise rs result unaliased
    have state : (args.interpret (lending env deliver) (h, ext)).2 =
        ((args.interpret (lending env deliver) (h, ext)).2.1,
          (args.interpret (denoted env vals) ext).2) := by
      rw [← ext₁]
    rw [state]
    exact ⟨yields_of_asCall called (all.call (sound.yields routine rs vs _ _ values separate)),
      sound.ext routine rs vs _ _ values separate⟩

theorem holds_eq {r : Ref V} {h : Objects V} {v : Option V} (value : r.read h = some v) :
    holds env r h = (v.map env.isTrue).getD false := by
  rw [holds, value]
  cases v <;> rfl

theorem Expr.evaluates_case {cond result defresult : Expr V}
    (lent : Lent deliver (Expr.caseExpr cond result defresult).params)
    (evalCond : Lent deliver cond.params → Evaluates env deliver vals cond)
    (evalResult : Lent deliver result.params → Evaluates env deliver vals result)
    (evalDefresult : Lent deliver defresult.params → Evaluates env deliver vals defresult) :
    Evaluates env deliver vals (.caseExpr cond result defresult) := by
  intro h ext reads
  obtain ⟨lentCond, lentRest, cross⟩ := List.pairwise_append.mp lent
  obtain ⟨lentResult, lentDefresult, -⟩ := List.pairwise_append.mp lentRest
  obtain ⟨first, ext₁⟩ := evalCond lentCond h ext (reads.mono fun pd => List.mem_append_left _)
  -- the branch taken finds what it reads as it was
  have branch {e : Expr V} (inside : ∀ pd ∈ e.params, pd ∈ result.params ++ defresult.params)
      (eval : Evaluates env deliver vals e) {v : Option V} {r : Ref V}
      (want : (cond.interpret (denoted env vals) ext).1 = .ok v)
      (got : (cond.interpret (lending env deliver) (h, ext)).1 = .ok r) :
      Gives ((Expr.caseExpr cond result defresult).footprint deliver) h
          (e.interpret (denoted env vals) (cond.interpret (denoted env vals) ext).2).1
          (e.interpret (lending env deliver) (cond.interpret (lending env deliver) (h, ext)).2).1
          (e.interpret (lending env deliver) (cond.interpret (lending env deliver) (h, ext)).2).2.1 ∧
        (e.interpret (lending env deliver) (cond.interpret (lending env deliver) (h, ext)).2).2.2 =
          (e.interpret (denoted env vals) (cond.interpret (denoted env vals) ext).2).2 := by
    have readsBranch : Reads deliver vals e.params h :=
      reads.mono fun pd here => List.mem_append_right _ (inside pd here)
    have unaliased : (cond.footprint deliver).Unaliased (e.footprint deliver) :=
      unaliased_of_lent fun pd here pd' there => cross pd here pd' (inside pd' there)
    have state : (cond.interpret (lending env deliver) (h, ext)).2 =
        ((cond.interpret (lending env deliver) (h, ext)).2.1,
          (cond.interpret (denoted env vals) ext).2) := by
      rw [← ext₁]
    obtain ⟨second, ext₂⟩ := eval (cond.interpret (lending env deliver) (h, ext)).2.1
      (cond.interpret (denoted env vals) ext).2
      (readsBranch.after first (apart_of_unaliased unaliased))
    rw [state]
    rw [want, got] at first
    refine ⟨(first.after second).mono ?_ ?_ ?_, ext₂⟩
    · rintro a ⟨pd, here, points⟩
      exact ⟨pd, List.mem_append_right _ (inside pd here), points⟩
    · rintro a (⟨-, pd, here, rw⟩ | ⟨-, pd, here, rw⟩)
      · exact ⟨rfl, pd, List.mem_append_left _ here, rw⟩
      · exact ⟨rfl, pd, List.mem_append_right _ (inside pd here), rw⟩
    · rintro a ⟨pd, here, rw⟩
      exact ⟨pd, List.mem_append_right _ (inside pd here), rw⟩
  cases got : (cond.interpret (lending env deliver) (h, ext)).1 with
  | error err =>
    have want := first.error err got
    rw [interpret_case_error _ got, interpret_case_error _ want]
    rw [got, want] at first
    refine ⟨⟨by simp, fun e error => by cases error; rfl, fun a live quiet => ?_, first.alive, by simp,
      by simp⟩, ext₁⟩
    refine first.same a live fun written => quiet ?_
    obtain ⟨-, pd, here, rw⟩ := written
    exact ⟨rfl, pd, List.mem_append_left _ here, rw⟩
  | ok r =>
    obtain ⟨v, want, read⟩ := first.value r got
    rw [interpret_case_ok _ got, interpret_case_ok _ want]
    have test : (lending env deliver).isTrue r (cond.interpret (lending env deliver) (h, ext)).2 =
        (denoted env vals).isTrue v (cond.interpret (denoted env vals) ext).2 := holds_eq read
    rw [test]
    split
    · exact branch (fun pd => List.mem_append_left _) (evalResult lentResult) want got
    · exact branch (fun pd => List.mem_append_right _) (evalDefresult lentDefresult) want got

mutual

/-- An expression whose Params are lent together is evaluated as it is meant. -/
theorem Expr.evaluates (sound : env.Sound) (e : Expr V) (lent : Lent deliver e.params) :
    Evaluates env deliver vals e := by
  match e with
  | .const value => exact fun h ext _ => ⟨.ofValue value h, rfl⟩
  | .param node dno =>
    intro h ext reads
    refine ⟨(Gives.ref (reads (node, dno) (List.mem_singleton_self _))).mono ?_ ?_ ?_, rfl⟩
    · exact fun a points => ⟨(node, dno), List.mem_singleton_self _, points⟩
    · exact fun a written => written.elim
    · exact fun a rw => ⟨(node, dno), List.mem_singleton_self _, rw⟩
  | .relabelType arg =>
    intro h ext reads
    obtain ⟨y, ext₁⟩ := arg.evaluates sound lent h ext reads
    exact ⟨y.mono (fun _ read => read) (fun _ written => ⟨rfl, written.2⟩) (fun _ granted => granted),
      ext₁⟩
  | .caseExpr cond result defresult =>
    exact Expr.evaluates_case lent (cond.evaluates sound) (result.evaluates sound)
      (defresult.evaluates sound)
  | .funcExpr funcid args =>
    exact Expr.evaluates_call sound rfl (args.each_evaluates sound) lent
  | .opExpr opfuncid args =>
    exact Expr.evaluates_call sound rfl (args.each_evaluates sound) lent
  | .subscriptFetch container refexpr subscripts =>
    refine Expr.evaluates_call sound rfl (fun arg mem => ?_) lent
    rcases List.mem_cons.mp mem with eq | mem
    · exact eq ▸ refexpr.evaluates sound
    · exact subscripts.each_evaluates sound arg mem
  | .subscriptAssign container refexpr subscripts refassgnexpr =>
    refine Expr.evaluates_call sound rfl (fun arg mem => ?_) lent
    rw [Exprs.toList, Exprs.toList_snoc] at mem
    rcases List.mem_cons.mp mem with eq | mem
    · exact eq ▸ refexpr.evaluates sound
    · rcases List.mem_append.mp mem with mem | mem
      · exact subscripts.each_evaluates sound arg mem
      · exact List.mem_singleton.mp mem ▸ refassgnexpr.evaluates sound

theorem Exprs.each_evaluates (sound : env.Sound) (es : Exprs V) :
    ∀ e ∈ es.toList, Lent deliver e.params → Evaluates env deliver vals e := by
  match es with
  | .nil => exact fun e mem => by cases mem
  | .cons head tail =>
    intro e mem
    rcases List.mem_cons.mp mem with eq | mem
    · exact eq ▸ head.evaluates sound
    · exact tail.each_evaluates sound e mem

end

/-! ### A top-level function that modifies its argument -/

theorem Exprs.node_ne {es : Exprs V} (distinct : (es.params.map Prod.fst).Nodup) {e e' : Expr V}
    (mem : e ∈ es.toList) (mem' : e' ∈ es.toList) (ne : e ≠ e') {pd pd' : Nat × Nat}
    (here : pd ∈ e.params) (there : pd' ∈ e'.params) : pd.1 ≠ pd'.1 := by
  match es with
  | .nil => cases mem
  | .cons head tail =>
    simp only [params, List.map_append] at distinct
    obtain ⟨-, rest, cross⟩ := List.nodup_append.mp distinct
    have inTail {e : Expr V} (mem : e ∈ tail.toList) {pd : Nat × Nat} (here : pd ∈ e.params) :
        pd.1 ∈ tail.params.map Prod.fst :=
      List.mem_map_of_mem (tail.params_of_mem mem pd here)
    rcases List.mem_cons.mp mem with eq | inRest
    · subst eq
      rcases List.mem_cons.mp mem' with eq' | inRest'
      · exact absurd eq'.symm ne
      · exact cross pd.1 (List.mem_map_of_mem here) pd'.1 (inTail inRest' there)
    · rcases List.mem_cons.mp mem' with eq' | inRest'
      · subst eq'
        exact (cross pd'.1 (List.mem_map_of_mem there) pd.1 (inTail inRest here)).symm
      · exact Exprs.node_ne rest inRest inRest' ne here there

theorem lent_of_borrowed {ps : List (Nat × Nat)}
    (borrowed : ∀ pd ∈ ps, ∀ a, deliver pd.1 pd.2 ≠ .rw a) : Lent deliver ps := by
  refine List.Pairwise.imp_of_mem (fun {pd pd'} here there _ => ⟨fun a rw => ?_, fun a rw => ?_⟩)
    (List.pairwise_of_forall fun _ _ => trivial : ps.Pairwise fun _ _ => True)
  · exact absurd rw (borrowed pd here a)
  · exact absurd rw (borrowed pd' there a)

/-- One argument is an object that the function may modify; the others may lead to
the same object. A function that can be trusted with that does what it means, and
an error leaves the object as it was. -/
theorem Expr.evaluates_inPlace (vals : Nat → Option V) (sound : env.Sound) {e : Expr V} {routine : Routine} {args : Exprs V}
    (called : e.asCall = some (routine, args)) (trusted : env.InPlace routine) {p t : Nat}
    (direct : .param p t ∈ args.toList) (distinct : (e.params.map Prod.fst).Nodup)
    (others : ∀ pd ∈ e.params, pd.1 ≠ p → ∀ a, deliver pd.1 pd.2 ≠ .rw a) :
    Evaluates env deliver vals e ∧
      ∀ h ext err, Reads deliver vals e.params h →
        (e.interpret (lending env deliver) (h, ext)).1 = .error err →
          ∀ a, h a ≠ none → (e.interpret (lending env deliver) (h, ext)).2.1 a = h a := by
  have perm := Expr.params_asCall called
  have distinctArgs : (args.params.map Prod.fst).Nodup := (perm.map Prod.fst).nodup_iff.mp distinct
  -- only the argument itself delivers the object for modification
  have borrowed {arg : Expr V} (mem : arg ∈ args.toList) (ne : arg ≠ .param p t) :
      ∀ pd ∈ arg.params, ∀ a, deliver pd.1 pd.2 ≠ .rw a := by
    intro pd here
    refine others pd (perm.mem_iff.mpr (args.params_of_mem mem pd here)) ?_
    have own : (p, t) ∈ (Expr.param p t : Expr V).params := List.mem_singleton_self _
    exact Exprs.node_ne distinctArgs mem direct ne here own
  have unwritten {arg : Expr V} (mem : arg ∈ args.toList) (a : Nat) :
      ¬(arg.footprint deliver).writes a := by
    rintro ⟨proper, pd, here, rw⟩
    refine borrowed mem ?_ pd here a rw
    rintro rfl
    cases proper
  have each : ∀ arg ∈ args.toList, Evaluates env deliver vals arg := by
    intro arg mem
    refine Expr.evaluates sound arg ?_
    by_cases own : arg = .param p t
    · subst own
      exact List.pairwise_singleton _ _
    · exact lent_of_borrowed (borrowed mem own)
  have apart : args.toList.Pairwise fun e e' => (e'.footprint deliver).Apart (e.footprint deliver) ∧
      (e.footprint deliver).Apart (e'.footprint deliver) := by
    refine List.Pairwise.imp_of_mem (fun {e e'} here there _ => ⟨?_, ?_⟩)
      (List.pairwise_of_forall fun _ _ => trivial : args.toList.Pairwise fun _ _ => True)
    · exact fun a written => absurd written (unwritten there a)
    · exact fun a written => absurd written (unwritten here a)
  have run (h : Objects V) (ext : E) (reads : Reads deliver vals e.params h) :=
    args.yields each apart h ext (reads.mono fun pd here => perm.mem_iff.mpr here)
  have kept {h : Objects V} {ext : E} (reads : Reads deliver vals e.params h) {a : Nat}
      (live : h a ≠ none) : (args.interpret (lending env deliver) (h, ext)).2.1 a = h a := by
    refine (run h ext reads).1.same a live fun f mem => ?_
    obtain ⟨arg, inArgs, rfl⟩ := List.mem_map.mp mem
    exact unwritten inArgs a
  have state {h : Objects V} {ext : E} (reads : Reads deliver vals e.params h) :
      (args.interpret (lending env deliver) (h, ext)).2 =
        ((args.interpret (lending env deliver) (h, ext)).2.1,
          (args.interpret (denoted env vals) ext).2) := by
    rw [← (run h ext reads).2.1]
  constructor
  · intro h ext reads
    obtain ⟨all, ext₁, -⟩ := run h ext reads
    cases result : (args.interpret (lending env deliver) (h, ext)).1 with
    | error err =>
      obtain ⟨-, -, y⟩ := Expr.evaluates_args_error called all result
      have want := all.error err result
      refine ⟨y, ?_⟩
      rw [interpret_call_error _ called result, interpret_call_error _ called want]
      exact ext₁
    | ok rs =>
      obtain ⟨vs, want, values⟩ := all.values rs result
      rw [interpret_call_ok _ called result, interpret_call_ok _ called want]
      rw [result] at all
      rw [state reads]
      exact ⟨yields_of_asCall called (all.call (trusted.yields rs vs _ _ values)),
        trusted.ext rs vs _ _ values⟩
  · intro h ext err reads failed a live
    obtain ⟨all, ext₁, -⟩ := run h ext reads
    cases result : (args.interpret (lending env deliver) (h, ext)).1 with
    | error err' =>
      rw [interpret_call_error _ called result]
      exact kept reads live
    | ok rs =>
      obtain ⟨vs, want, values⟩ := all.values rs result
      rw [interpret_call_ok _ called result, state reads] at failed ⊢
      exact (trusted.onError rs vs _ _ err values failed a (all.alive a live)).trans (kept reads live)

end Lent

end Uplpgsql.ReadWrite
