import Mathlib.Data.List.Nodup
import Uplpgsql.Expr.InPlace

/-!
# Handing an object over

The steps of the compiled expression find out one after the other what to deliver.
They deliver what `exec_check_rw_parameter` settles for the expression as a whole:
at most one Param hands over the object of the target. The assignment therefore
does what it is meant to do.
-/

namespace Uplpgsql.ReadWrite

open Lib

variable {V E : Type}

/-! ### Counting references -/

/-- The nodes of the Params that refer to a datum. -/
def refs (dno : Nat) (ps : List (Nat × Nat)) : List Nat :=
  (ps.filter fun pd => pd.2 = dno).map Prod.fst

theorem refs_append (dno : Nat) (ps qs : List (Nat × Nat)) :
    refs dno (ps ++ qs) = refs dno ps ++ refs dno qs := by
  simp [refs]

theorem mem_refs {dno node : Nat} {ps : List (Nat × Nat)} :
    node ∈ refs dno ps ↔ (node, dno) ∈ ps := by
  simp [refs]

theorem refs_eq_nil {dno : Nat} {ps : List (Nat × Nat)} :
    refs dno ps = [] ↔ ∀ pd ∈ ps, pd.2 ≠ dno := by
  simp [refs, List.filter_eq_nil_iff]

/-- What a walk over an expression with the references `nodes` does to a count that
is not yet at two. -/
def Counted (nodes : List Nat) (walk : CountContext → Bool × CountContext) : Prop :=
  ∀ context, context.count ≤ 1 →
    if context.count + nodes.length ≤ 1 then
      walk context = (false, ⟨context.count + nodes.length, nodes.getLast?.or context.lastParam⟩)
    else (walk context).1 = true ∧ (walk context).2.count = 2

theorem Counted.none : Counted [] fun context => (false, context) := by
  intro context low
  simp [low]

theorem Counted.seq {nodes nodes' : List Nat} {walk walk' : CountContext → Bool × CountContext}
    (first : Counted nodes walk) (second : Counted nodes' walk') :
    Counted (nodes ++ nodes') fun context =>
      match walk context with
      | (true, context) => (true, context)
      | (false, context) => walk' context := by
  intro context low
  have here := first context low
  dsimp only
  by_cases few : context.count + nodes.length ≤ 1
  · rw [if_pos few] at here
    rw [here]
    have there := second ⟨context.count + nodes.length, nodes.getLast?.or context.lastParam⟩ few
    dsimp only at there ⊢
    rw [List.length_append, ← Nat.add_assoc]
    split at there
    next total =>
      rw [if_pos total, there, List.getLast?_append, Option.or_assoc]
    next total => rwa [if_neg total]
  · rw [if_neg few] at here
    rw [if_neg (by rw [List.length_append]; omega)]
    revert here
    rcases walk context with ⟨_ | _, context'⟩
    · rintro ⟨cut, -⟩
      cases cut
    · exact id

mutual

theorem countParamReferences_spec (dno : Nat) (e : Expr V) :
    Counted (refs dno e.params) (countParamReferences dno e) := by
  match e with
  | .const value => exact Counted.none
  | .param node dno' =>
    intro context low
    by_cases same : dno' = dno
    · simp only [countParamReferences, Expr.params, refs, same, if_true, List.filter_cons_of_pos,
        List.filter_nil, decide_true, List.map_cons, List.map_nil, List.length_singleton]
      split
      next total => simp [Nat.not_lt.mpr total]
      next total => exact ⟨decide_eq_true (by omega), by omega⟩
    · have none : refs dno (Expr.param node dno' : Expr V).params = [] := by
        simp [refs, Expr.params, same]
      rw [none]
      simp [countParamReferences, same, low]
  | .funcExpr funcid args => exact countAll_spec dno args
  | .opExpr opfuncid args => exact countAll_spec dno args
  | .relabelType arg => exact countParamReferences_spec dno arg
  | .subscriptFetch container refexpr subscripts =>
    rw [Expr.params, refs_append]
    exact (countAll_spec dno subscripts).seq (countParamReferences_spec dno refexpr)
  | .subscriptAssign container refexpr subscripts refassgnexpr =>
    rw [Expr.params, refs_append, refs_append]
    exact (countAll_spec dno subscripts).seq
      ((countParamReferences_spec dno refexpr).seq (countParamReferences_spec dno refassgnexpr))
  | .caseExpr cond result defresult =>
    rw [Expr.params, refs_append, refs_append]
    exact (countParamReferences_spec dno cond).seq
      ((countParamReferences_spec dno result).seq (countParamReferences_spec dno defresult))

theorem countAll_spec (dno : Nat) (es : Exprs V) :
    Counted (refs dno es.params) (countAll dno es) := by
  match es with
  | .nil => exact Counted.none
  | .cons head tail =>
    rw [Exprs.params, refs_append]
    exact (countParamReferences_spec dno head).seq (countAll_spec dno tail)

end

/-- A count of one is one reference, which is the Param found. -/
theorem count_one {dno : Nat} {e : Expr V}
    (one : (countParamReferences dno e ⟨0, none⟩).2.count = 1) :
    ∃ node, refs dno e.params = [node] ∧ (countParamReferences dno e ⟨0, none⟩).2.lastParam = some node := by
  have counted := countParamReferences_spec dno e ⟨0, none⟩ (by decide)
  split at counted
  next few =>
    rw [counted] at one ⊢
    dsimp only at one ⊢
    obtain ⟨node, single⟩ := List.length_eq_one_iff.mp (by omega : (refs dno e.params).length = 1)
    exact ⟨node, single, by simp [single]⟩
  next many =>
    rw [counted.2] at one
    cases one

/-! ### The choice -/

section Choice

variable {env : Executor V E} {expr : PlExpr V}

/-- A RelabelType at the top does not count. -/
def Expr.beneath : Expr V → Expr V
  | .relabelType arg => arg
  | e => e

theorem checkInPlace_eq (env : Executor V E) (expr : PlExpr V) :
    checkInPlace env expr = checkTopLevel env expr expr.simpleExpr.beneath := by
  unfold checkInPlace Expr.beneath
  cases expr.simpleExpr <;> rfl

theorem checkTopLevel_cases (env : Executor V E) (expr : PlExpr V) (sexpr : Expr V) :
    checkTopLevel env expr sexpr = (.nope, none) ∨
    ∃ funcid fargs supports param, sexpr.topFunction env.typsubscript = some (funcid, fargs) ∧
      env.prosupport funcid = some supports ∧ supports fargs expr.targetParam = some param ∧
        checkTopLevel env expr sexpr = (.inplace, some param) := by
  unfold checkTopLevel
  cases top : sexpr.topFunction env.typsubscript with
  | none => exact .inl rfl
  | some called =>
    obtain ⟨funcid, fargs⟩ := called
    dsimp only
    cases support : env.prosupport funcid with
    | none => exact .inl rfl
    | some supports =>
      dsimp only
      cases answer : supports fargs expr.targetParam with
      | none => exact .inl rfl
      | some param => exact .inr ⟨funcid, fargs, supports, param, rfl, support, answer, rfl⟩

/-- The three ways `exec_check_rw_parameter` can end. -/
theorem execCheckRwParameter_cases (env : Executor V E) (expr : PlExpr V) :
    (expr.targetIsLocal = true ∧ ∃ node, refs expr.targetParam expr.simpleExpr.params = [node] ∧
      execCheckRwParameter env expr = (.transfer, some node)) ∨
    execCheckRwParameter env expr = (.nope, none) ∨
    ∃ funcid fargs supports param,
      expr.simpleExpr.beneath.topFunction env.typsubscript = some (funcid, fargs) ∧
      env.prosupport funcid = some supports ∧ supports fargs expr.targetParam = some param ∧
        execCheckRwParameter env expr = (.inplace, some param) := by
  unfold execCheckRwParameter
  dsimp only
  split
  next both =>
    obtain ⟨local_, one⟩ := both
    obtain ⟨node, single, last⟩ := count_one one
    exact .inl ⟨local_, node, single, by rw [last]⟩
  next => exact .inr (checkInPlace_eq env expr ▸ checkTopLevel_cases env expr _)

theorem execCheckRwParameter_ne_unknown (env : Executor V E) (expr : PlExpr V) :
    (execCheckRwParameter env expr).1 ≠ .unknown := by
  rcases execCheckRwParameter_cases env expr with ⟨-, node, -, eq⟩ | eq | ⟨_, _, _, param, -, -, -, eq⟩ <;>
    simp [eq]

end Choice

/-! ### What the steps deliver -/

theorem readOnly_of_not_rw {r : Ref V} (borrowed : ∀ a, r ≠ .rw a) : r.readOnly = r := by
  cases r with
  | rw a => exact absurd rfl (borrowed a)
  | _ => rfl

section Steps

variable (env : Executor V E) (expr : PlExpr V)

/-- The Param that may hand over the object of the target. -/
def handsOver (node dno : Nat) : Prop :=
  dno = expr.targetParam ∧ (execCheckRwParameter env expr).2 = some node

instance (node dno : Nat) : Decidable (handsOver env expr node dno) :=
  inferInstanceAs (Decidable (_ ∧ _))

/-- What the Params deliver, with the variables as they are at the start. -/
def delivered (w₀ : World V E) (node dno : Nat) : Ref V :=
  if handsOver env expr node dno then (w₀.vars dno).value else (w₀.vars dno).value.readOnly

/-- The callback that the choice leads to. -/
def chosenFunc (node : Nat) : ParamFunc :=
  match (execCheckRwParameter env expr).1 with
  | .transfer => .evalVarTransfer
  | .inplace => if (execCheckRwParameter env expr).2 = some node then .evalVar else .evalVarRo
  | .nope => .evalVarRo
  | .unknown => .evalVarRo

/-- What an expression remembers is in accord with `exec_check_rw_parameter`. -/
structure Link.Consistent (link : Link) : Prop where
  decided : link.rwopt ≠ .unknown →
    link.rwopt = (execCheckRwParameter env expr).1 ∧ link.rwParam = (execCheckRwParameter env expr).2
  chosen : ∀ node func, link.paramfunc node = some func →
    func = chosenFunc env expr node ∧ ∀ dno, (node, dno) ∈ expr.simpleExpr.params →
      dno = expr.targetParam ∧ (env.decl dno).varlena = true

/-- What holds of an expression that is to be assigned: each Param is a node of its
own, and only variables of variable length can hold objects. -/
structure WellFormed (w₀ : World V E) : Prop where
  distinct : (expr.simpleExpr.params.map Prod.fst).Nodup
  fixed : ∀ dno, (env.decl dno).varlena = false → (w₀.vars dno).value.object = none

/-- The object of the target has not been handed over. -/
def Before (w₀ : World V E) (s : EvalState V E) : Prop :=
  s.vars = w₀.vars ∧ ∀ b, w₀.heap b ≠ none → s.owner b = w₀.owner b

/-- It has, and is in the memory of the evaluation. -/
def After (w₀ : World V E) (s : EvalState V E) : Prop :=
  (execCheckRwParameter env expr).1 = .transfer ∧ ∃ a, (w₀.vars expr.targetParam).value = .rw a ∧
    s.vars = Function.update w₀.vars expr.targetParam ⟨.null, false⟩ ∧ s.owner a = .eval ∧
      ∀ b, w₀.heap b ≠ none → b ≠ a → s.owner b = w₀.owner b

/-- A state in the course of the evaluation. -/
structure During (w₀ : World V E) (s : EvalState V E) : Prop where
  link : s.link.Consistent env expr
  alive : ∀ b, w₀.heap b ≠ none → s.heap b ≠ none
  fresh : ∀ b, w₀.heap b = none → s.heap b ≠ none → s.owner b = .eval
  phase : Before w₀ s ∨ After env expr w₀ s

variable {env expr}

theorem Link.Consistent.decide {link : Link} (consistent : link.Consistent env expr) :
    (decide env expr link).Consistent env expr ∧
      (ReadWrite.decide env expr link).rwopt = (execCheckRwParameter env expr).1 ∧
      (ReadWrite.decide env expr link).rwParam = (execCheckRwParameter env expr).2 := by
  unfold ReadWrite.decide
  split
  next => exact ⟨⟨fun _ => ⟨rfl, rfl⟩, consistent.chosen⟩, rfl, rfl⟩
  next known => exact ⟨consistent, consistent.decided known⟩

theorem WellFormed.dno_eq {w₀ : World V E} (wf : WellFormed env expr w₀) {node dno dno' : Nat}
    (mem : (node, dno) ∈ expr.simpleExpr.params) (mem' : (node, dno') ∈ expr.simpleExpr.params) :
    dno' = dno :=
  (Prod.mk.inj (List.inj_on_of_nodup_map wf.distinct mem' mem rfl)).2

theorem Link.Consistent.choose {w₀ : World V E} {link : Link} {node : Nat}
    (consistent : link.Consistent env expr) (wf : WellFormed env expr w₀)
    (mem : (node, expr.targetParam) ∈ expr.simpleExpr.params)
    (varlena : (env.decl expr.targetParam).varlena = true) :
    (link.choose node (chosenFunc env expr node)).Consistent env expr where
  decided := consistent.decided
  chosen node' func chosen := by
    change Function.update link.paramfunc node _ node' = some func at chosen
    by_cases same : node' = node
    · subst same
      rw [Function.update_self] at chosen
      cases chosen
      refine ⟨rfl, fun dno mem' => ?_⟩
      rw [wf.dno_eq mem mem']
      exact ⟨rfl, varlena⟩
    · rw [Function.update_of_ne same] at chosen
      exact consistent.chosen node' func chosen

/-- A transfer is by the one reference there is. -/
theorem transfer_node {node : Nat} (transfer : (execCheckRwParameter env expr).1 = .transfer)
    (mem : (node, expr.targetParam) ∈ expr.simpleExpr.params) :
    (execCheckRwParameter env expr).2 = some node := by
  rcases execCheckRwParameter_cases env expr with
    ⟨-, node', single, eq⟩ | eq | ⟨_, _, _, param, -, -, -, eq⟩
  · have here : node ∈ refs expr.targetParam expr.simpleExpr.params := mem_refs.mpr mem
    rw [single] at here
    obtain rfl := List.mem_singleton.mp here
    rw [eq]
  · rw [eq] at transfer
    cases transfer
  · rw [eq] at transfer
    cases transfer

/-- What a Param delivers, and what that does. -/
structure Delivers (env : Executor V E) (expr : PlExpr V) (w₀ : World V E) (node dno : Nat)
    (s : EvalState V E) (o : Ref V × EvalState V E) : Prop where
  ref : o.1 = delivered env expr w₀ node dno
  heap : o.2.heap = s.heap
  ext : o.2.ext = s.ext
  during : During env expr w₀ o.2
  other : dno ≠ expr.targetParam → o.2.toWorld = s.toWorld

variable {w₀ : World V E} {s : EvalState V E} {node : Nat}

/-- A Param of another variable only lends what the variable holds. -/
theorem evalParam_other (wf : WellFormed env expr w₀) (during : During env expr w₀ s) {dno : Nat}
    (mem : (node, dno) ∈ expr.simpleExpr.params) (other : dno ≠ expr.targetParam) :
    Delivers env expr w₀ node dno s (evalParam env expr node dno s) := by
  have same : s.vars dno = w₀.vars dno := by
    rcases during.phase with before | ⟨-, a, -, vars, -⟩
    · rw [before.1]
    · rw [vars, Function.update_of_ne other]
  have unchosen : s.link.paramfunc node = none := by
    rw [Option.eq_none_iff_forall_ne_some]
    intro func chosen
    exact other ((during.link.chosen node func chosen).2 dno mem).1
  have lends : delivered env expr w₀ node dno = (s.vars dno).value.readOnly := by
    rw [delivered, if_neg fun hands => other hands.1, same]
  unfold evalParam
  rw [unchosen, Option.getD_none, paramCompile, if_neg other]
  by_cases varlena : (env.decl dno).varlena = true
  · rw [if_pos varlena]
    exact ⟨lends.symm, rfl, rfl, during, fun _ => rfl⟩
  · rw [if_neg varlena]
    refine ⟨?_, rfl, rfl, during, fun _ => rfl⟩
    rw [lends, readOnly_of_not_rw]
    intro a rw
    have none := wf.fixed dno (by simpa using varlena)
    rw [← same, rw] at none
    cases none

/-- The link changes, and nothing else. -/
theorem During.setLink (during : During env expr w₀ s) {link : Link}
    (consistent : link.Consistent env expr) : During env expr w₀ { s with link } where
  link := consistent
  alive := during.alive
  fresh := during.fresh
  phase := during.phase

/-- The object of the target goes to the evaluation. -/
theorem evalVarTransfer_delivers (during : During env expr w₀ s) (before : Before w₀ s)
    (live : ∀ a, (w₀.vars expr.targetParam).value = .rw a → w₀.heap a ≠ none)
    (transfer : (execCheckRwParameter env expr).1 = .transfer)
    (mem : (node, expr.targetParam) ∈ expr.simpleExpr.params) :
    Delivers env expr w₀ node expr.targetParam s (evalVarTransfer expr.targetParam s) := by
  have hands : delivered env expr w₀ node expr.targetParam = (w₀.vars expr.targetParam).value :=
    if_pos ⟨rfl, transfer_node transfer mem⟩
  unfold evalVarTransfer
  rw [before.1]
  split
  next a value =>
    refine ⟨(hands.trans value).symm, rfl, rfl, ⟨during.link, during.alive, ?_, .inr ?_⟩,
      fun ne => absurd rfl ne⟩
    · intro b dead now
      have ne : b ≠ a := fun eq => live a value (eq ▸ dead)
      change Function.update s.owner a .eval b = .eval
      rw [Function.update_of_ne ne]
      exact during.fresh b dead now
    · refine ⟨transfer, a, value, ?_, Function.update_self a _ _, fun b alive ne => ?_⟩
      · change Function.update s.vars expr.targetParam _ = _
        rw [before.1]
      · change Function.update s.owner a .eval b = w₀.owner b
        rw [Function.update_of_ne ne]
        exact before.2 b alive
  next => exact ⟨hands.symm, rfl, rfl, during, fun ne => absurd rfl ne⟩

/-- The callback that the choice leads to delivers what the choice says. -/
theorem chosen_delivers (node : Nat) (during : During env expr w₀ s) (before : Before w₀ s)
    (live : ∀ a, (w₀.vars expr.targetParam).value = .rw a → w₀.heap a ≠ none)
    (mem : (node, expr.targetParam) ∈ expr.simpleExpr.params) :
    (chosenFunc env expr node = .evalVarTransfer ∧
      Delivers env expr w₀ node expr.targetParam s (evalVarTransfer expr.targetParam s)) ∨
    (chosenFunc env expr node = .evalVar ∧
      Delivers env expr w₀ node expr.targetParam s ((s.vars expr.targetParam).value, s)) ∨
    (chosenFunc env expr node = .evalVarRo ∧
      Delivers env expr w₀ node expr.targetParam s ((s.vars expr.targetParam).value.readOnly, s)) := by
  have value : (s.vars expr.targetParam).value = (w₀.vars expr.targetParam).value := by rw [before.1]
  have quiet {r : Ref V} (ref : r = delivered env expr w₀ node expr.targetParam) :
      Delivers env expr w₀ node expr.targetParam s (r, s) :=
    ⟨ref, rfl, rfl, during, fun ne => absurd rfl ne⟩
  have lends (kept : ¬(execCheckRwParameter env expr).2 = some node) :
      (s.vars expr.targetParam).value.readOnly = delivered env expr w₀ node expr.targetParam := by
    rw [delivered, if_neg fun hands => kept hands.2, value]
  unfold chosenFunc
  rcases execCheckRwParameter_cases env expr with
    ⟨-, node', -, eq⟩ | eq | ⟨_, _, _, param, -, -, -, eq⟩
  · have transfer : (execCheckRwParameter env expr).1 = .transfer := by rw [eq]
    rw [transfer]
    exact .inl ⟨rfl, evalVarTransfer_delivers during before live transfer mem⟩
  · refine .inr (.inr ⟨by rw [eq], quiet (lends ?_)⟩)
    rw [eq]
    simp
  · by_cases own : (execCheckRwParameter env expr).2 = some node
    · refine .inr (.inl ⟨?_, quiet ?_⟩)
      · rw [own, eq]
        exact if_pos rfl
      · rw [delivered, if_pos ⟨rfl, own⟩, value]
    · refine .inr (.inr ⟨?_, quiet (lends own)⟩)
      rw [eq] at own ⊢
      exact if_neg own

/-- The variable holds an object, and the choice is made. -/
theorem evalChosen_delivers (node : Nat) (wf : WellFormed env expr w₀) (during : During env expr w₀ s)
    (before : Before w₀ s)
    (live : ∀ a, (w₀.vars expr.targetParam).value = .rw a → w₀.heap a ≠ none)
    (mem : (node, expr.targetParam) ∈ expr.simpleExpr.params)
    (varlena : (env.decl expr.targetParam).varlena = true)
    (rwopt : s.link.rwopt = (execCheckRwParameter env expr).1)
    (rwParam : s.link.rwParam = (execCheckRwParameter env expr).2) {a : Nat}
    (value : (s.vars expr.targetParam).value = .rw a) :
    Delivers env expr w₀ node expr.targetParam s (evalChosen node expr.targetParam a s) := by
  have link := during.link.choose wf mem varlena
  have during' := during.setLink link
  have chosen := chosen_delivers node during' before live mem
  -- Making the choice changes the link of the expression only.
  have sameWorld {r : Ref V} {s' : EvalState V E}
      (d : Delivers env expr w₀ node expr.targetParam
        { s with link := s.link.choose node (chosenFunc env expr node) } (r, s')) :
      Delivers env expr w₀ node expr.targetParam s (r, s') :=
    ⟨d.ref, d.heap, d.ext, d.during, fun ne => absurd rfl ne⟩
  unfold evalChosen
  rw [rwopt, rwParam]
  cases choice : (execCheckRwParameter env expr).1 with
  | unknown => exact absurd choice (execCheckRwParameter_ne_unknown env expr)
  | nope =>
    have func : chosenFunc env expr node = .evalVarRo := by rw [chosenFunc, choice]
    rw [func] at chosen sameWorld
    obtain ⟨⟨⟩, -⟩ | ⟨⟨⟩, -⟩ | ⟨-, d⟩ := chosen
    rw [show (s.vars expr.targetParam).value.readOnly = .ro a by rw [value]; rfl] at d
    exact sameWorld d
  | transfer =>
    have func : chosenFunc env expr node = .evalVarTransfer := by rw [chosenFunc, choice]
    rw [func] at chosen sameWorld
    obtain ⟨-, d⟩ | ⟨⟨⟩, -⟩ | ⟨⟨⟩, -⟩ := chosen
    exact sameWorld d
  | inplace =>
    -- The choice is for one Param, and every other one is read-only.
    by_cases own : (execCheckRwParameter env expr).2 = some node
    · have func : chosenFunc env expr node = .evalVar := by
        rw [chosenFunc, choice]
        exact if_pos own
      rw [func] at chosen sameWorld
      obtain ⟨⟨⟩, -⟩ | ⟨-, d⟩ | ⟨⟨⟩, -⟩ := chosen
      rw [value] at d
      dsimp only
      rw [if_pos own]
      exact sameWorld d
    · have func : chosenFunc env expr node = .evalVarRo := by
        rw [chosenFunc, choice]
        exact if_neg own
      rw [func] at chosen sameWorld
      obtain ⟨⟨⟩, -⟩ | ⟨⟨⟩, -⟩ | ⟨-, d⟩ := chosen
      rw [show (s.vars expr.targetParam).value.readOnly = .ro a by rw [value]; rfl] at d
      dsimp only
      rw [if_neg own]
      exact sameWorld d

/-- A Param of the target delivers what the choice says. -/
theorem evalParam_target (wf : WellFormed env expr w₀) (during : During env expr w₀ s)
    (before : Before w₀ s) (live : ∀ a, (w₀.vars expr.targetParam).value = .rw a → w₀.heap a ≠ none)
    (mem : (node, expr.targetParam) ∈ expr.simpleExpr.params) :
    Delivers env expr w₀ node expr.targetParam s (evalParam env expr node expr.targetParam s) := by
  have value : (s.vars expr.targetParam).value = (w₀.vars expr.targetParam).value := by rw [before.1]
  -- what is no object that could be modified is delivered as it is
  have plain (borrowed : ∀ a, (w₀.vars expr.targetParam).value ≠ .rw a) :
      Delivers env expr w₀ node expr.targetParam s ((s.vars expr.targetParam).value, s) := by
    refine ⟨?_, rfl, rfl, during, fun ne => absurd rfl ne⟩
    unfold delivered
    split
    · exact value
    · rw [readOnly_of_not_rw borrowed, value]
  unfold evalParam
  cases chosen : s.link.paramfunc node with
  | some func =>
    obtain ⟨rfl, -⟩ := during.link.chosen node func chosen
    rw [Option.getD_some]
    rcases chosen_delivers node during before live mem with
      ⟨func, d⟩ | ⟨func, d⟩ | ⟨func, d⟩ <;> (rw [func]; exact d)
  | none =>
    rw [Option.getD_none, paramCompile]
    by_cases varlena : (env.decl expr.targetParam).varlena = true
    · rw [if_pos varlena, if_pos rfl]
      dsimp only
      unfold evalVarCheck
      obtain ⟨consistent, rwopt, rwParam⟩ := during.link.decide
      split
      next a rw =>
        have d := evalChosen_delivers node wf (during.setLink consistent) before live mem varlena
          rwopt rwParam rw
        exact ⟨d.ref, d.heap, d.ext, d.during, fun ne => absurd rfl ne⟩
      next r borrowed => exact plain fun a rw => borrowed a (value.trans rw)
    · rw [if_neg varlena]
      refine plain fun a rw => ?_
      have none := wf.fixed _ (by simpa using varlena)
      rw [rw] at none
      cases none

/-! ### The whole expression -/

/-- The object of the target is there to be handed over, or no Param of `ps` is a
reference to the target. -/
def Ready (expr : PlExpr V) (w₀ : World V E) (s : EvalState V E) (ps : List (Nat × Nat)) : Prop :=
  Before w₀ s ∨ ∀ pd ∈ ps, pd.2 ≠ expr.targetParam

/-- An object is handed over by the only reference to the target. -/
def Single (env : Executor V E) (expr : PlExpr V) (ps : List (Nat × Nat)) : Prop :=
  (execCheckRwParameter env expr).1 = .transfer → (refs expr.targetParam ps).length ≤ 1

/-- The steps taken from `s` are those of the evaluation in which it is settled what
the Params deliver. -/
structure Follows {R : Type} (expr : PlExpr V) (w₀ : World V E) (ps : List (Nat × Nat)) (s : EvalState V E)
    (o : Except ErrorData R × EvalState V E) (l : Except ErrorData R × Objects V × E)
    (env : Executor V E) : Prop where
  result : o.1 = l.1
  state : (o.2.heap, o.2.ext) = l.2
  during : During env expr w₀ o.2
  unreferenced : (∀ pd ∈ ps, pd.2 ≠ expr.targetParam) → Before w₀ s → Before w₀ o.2

theorem Single.perm {ps qs : List (Nat × Nat)} (single : Single env expr ps) (perm : ps.Perm qs) :
    Single env expr qs := by
  intro transfer
  have same : (refs expr.targetParam ps).Perm (refs expr.targetParam qs) := (perm.filter _).map _
  rw [← same.length_eq]
  exact single transfer

theorem Single.left {ps qs : List (Nat × Nat)} (single : Single env expr (ps ++ qs)) :
    Single env expr ps := by
  intro transfer
  have few := single transfer
  rw [refs_append, List.length_append] at few
  omega

theorem Single.right {ps qs : List (Nat × Nat)} (single : Single env expr (ps ++ qs)) :
    Single env expr qs := by
  intro transfer
  have few := single transfer
  rw [refs_append, List.length_append] at few
  omega

theorem Ready.left {ps qs : List (Nat × Nat)} (ready : Ready expr w₀ s (ps ++ qs)) :
    Ready expr w₀ s ps :=
  ready.imp_right fun none pd here => none pd (List.mem_append_left _ here)

theorem Ready.perm {ps qs : List (Nat × Nat)} (ready : Ready expr w₀ s ps) (perm : ps.Perm qs) :
    Ready expr w₀ s qs :=
  ready.imp_right fun none pd here => none pd (perm.mem_iff.mpr here)

/-- After the first part, the object is still there for the second. -/
theorem Ready.right {R : Type} {ps qs : List (Nat × Nat)} (ready : Ready expr w₀ s (ps ++ qs))
    (single : Single env expr (ps ++ qs)) {o : Except ErrorData R × EvalState V E}
    {l : Except ErrorData R × Objects V × E} (first : Follows expr w₀ ps s o l env) :
    Ready expr w₀ o.2 qs := by
  rcases ready with before | none
  · rcases first.during.phase with still | after
    · exact .inl still
    · refine .inr ?_
      -- the first part has handed the object over, by the only reference
      have few := single after.1
      rw [refs_append, List.length_append] at few
      cases here : refs expr.targetParam ps with
      | nil =>
        have unmoved := first.unreferenced (refs_eq_nil.mp here) before
        obtain ⟨-, a, value, vars, -⟩ := after
        rw [unmoved.1] at vars
        have gone := congrFun vars expr.targetParam
        rw [Function.update_self] at gone
        rw [gone] at value
        cases value
      | cons node rest =>
        rw [here, List.length_cons] at few
        exact refs_eq_nil.mp (List.eq_nil_of_length_eq_zero (by omega))
  · exact .inr fun pd here => none pd (List.mem_append_right _ here)

/-- A call of a function, in either evaluation. -/
theorem call_follows (routine : Routine) (rs : List (Ref V)) (during : During env expr w₀ s)
    (ps : List (Nat × Nat)) :
    Follows expr w₀ ps s (call env routine rs s)
      ((lending env (delivered env expr w₀)).call routine rs (s.heap, s.ext)) env where
  result := rfl
  state := rfl
  during := by
    have alive {b : Nat} (live : s.heap b ≠ none) :
        (env.impl routine rs s.heap s.ext).heap b ≠ none :=
      env.impl_alive routine rs s.heap s.ext b live
    have owner {b : Nat} (live : s.heap b ≠ none) : (call env routine rs s).2.owner b = s.owner b := by
      simp [call, World.afterCall, live]
    refine ⟨during.link, fun b live => alive (during.alive b live), fun b dead now => ?_, ?_⟩
    · by_cases before : s.heap b = none
      · simp [call, World.afterCall, before]
      · rw [owner before]
        exact during.fresh b dead before
    · rcases during.phase with before | ⟨transfer, a, value, vars, mine, others⟩
      · exact .inl ⟨before.1, fun b live => (owner (during.alive b live)).trans (before.2 b live)⟩
      · refine .inr ⟨transfer, a, value, vars, ?_, fun b live ne => ?_⟩
        · by_cases live : s.heap a = none
          · simp [call, World.afterCall, live]
          · rw [owner live, mine]
        · exact (owner (during.alive b live)).trans (others b live ne)
  unreferenced _ before := by
    refine ⟨before.1, fun b live => ?_⟩
    have now := during.alive b live
    simp [call, World.afterCall, now, before.2 b live]

theorem Follows.mono {R : Type} {ps qs : List (Nat × Nat)} {o : Except ErrorData R × EvalState V E}
    {l : Except ErrorData R × Objects V × E} (follows : Follows expr w₀ ps s o l env)
    (sub : ∀ pd ∈ ps, pd ∈ qs) : Follows expr w₀ qs s o l env :=
  ⟨follows.result, follows.state, follows.during, fun none before =>
    follows.unreferenced (fun pd here => none pd (sub pd here)) before⟩

/-- One part after the other. -/
theorem Follows.trans {R R' : Type} {ps qs : List (Nat × Nat)}
    {o : Except ErrorData R × EvalState V E} {l : Except ErrorData R × Objects V × E}
    {o' : Except ErrorData R' × EvalState V E} {l' : Except ErrorData R' × Objects V × E}
    (first : Follows expr w₀ ps s o l env) (second : Follows expr w₀ qs o.2 o' l' env) :
    Follows expr w₀ (ps ++ qs) s o' l' env where
  result := second.result
  state := second.state
  during := second.during
  unreferenced none before :=
    second.unreferenced (fun pd here => none pd (List.mem_append_right _ here))
      (first.unreferenced (fun pd here => none pd (List.mem_append_left _ here)) before)

/-- The error of a part is the error of the whole. -/
theorem Follows.fails {R R' : Type} {ps : List (Nat × Nat)} {o : Except ErrorData R × EvalState V E}
    {l : Except ErrorData R × Objects V × E} (first : Follows expr w₀ ps s o l env) (err : ErrorData) :
    Follows expr w₀ ps s ((.error err, o.2) : Except ErrorData R' × EvalState V E) (.error err, l.2)
      env :=
  ⟨rfl, first.state, first.during, first.unreferenced⟩

theorem Expr.follows_call {e : Expr V} {routine : Routine} {args : Exprs V}
    (called : e.asCall = some (routine, args))
    (follows : Follows expr w₀ args.params s (args.interpret (evaluation env expr) s)
      (args.interpret (lending env (delivered env expr w₀)) (s.heap, s.ext)) env) :
    Follows expr w₀ e.params s (e.interpret (evaluation env expr) s)
      (e.interpret (lending env (delivered env expr w₀)) (s.heap, s.ext)) env := by
  have same : ∀ pd ∈ args.params, pd ∈ e.params :=
    fun pd here => (Expr.params_asCall called).mem_iff.mpr here
  cases result : (args.interpret (evaluation env expr) s).1 with
  | error err =>
    rw [interpret_call_error _ called result,
      interpret_call_error _ called (follows.result.symm.trans result)]
    exact (follows.fails err).mono same
  | ok rs =>
    rw [interpret_call_ok _ called result,
      interpret_call_ok _ called (follows.result.symm.trans result), ← follows.state]
    have calls := call_follows routine rs follows.during []
    exact (follows.trans calls).mono (by simpa using same)

/-- The arguments of a list, one after the other. -/
theorem Exprs.follows_cons {head : Expr V} {tail : Exprs V}
    (first : Follows expr w₀ head.params s (head.interpret (evaluation env expr) s)
      (head.interpret (lending env (delivered env expr w₀)) (s.heap, s.ext)) env)
    (rest : ∀ s', During env expr w₀ s' → Ready expr w₀ s' tail.params →
      Follows expr w₀ tail.params s' (tail.interpret (evaluation env expr) s')
        (tail.interpret (lending env (delivered env expr w₀)) (s'.heap, s'.ext)) env)
    (ready : Ready expr w₀ s (Exprs.cons head tail).params)
    (single : Single env expr (Exprs.cons head tail).params) :
    Follows expr w₀ (Exprs.cons head tail).params s
      ((Exprs.cons head tail).interpret (evaluation env expr) s)
      ((Exprs.cons head tail).interpret (lending env (delivered env expr w₀)) (s.heap, s.ext)) env := by
  cases result : (head.interpret (evaluation env expr) s).1 with
  | error err =>
    rw [interpret_cons_error _ result, interpret_cons_error _ (first.result.symm.trans result)]
    exact (first.fails err).mono fun pd => List.mem_append_left _
  | ok r =>
    rw [interpret_cons_ok _ result, interpret_cons_ok _ (first.result.symm.trans result), ← first.state]
    have next := rest _ first.during (ready.right single first)
    have both := first.trans next
    exact ⟨congrArg (Except.map (r :: ·)) both.result, both.state, both.during, both.unreferenced⟩

/-- A last argument, after those of a list. -/
theorem Exprs.follows_snoc {es : Exprs V} {e : Expr V}
    (first : Follows expr w₀ es.params s (es.interpret (evaluation env expr) s)
      (es.interpret (lending env (delivered env expr w₀)) (s.heap, s.ext)) env)
    (last : ∀ s', During env expr w₀ s' → Ready expr w₀ s' e.params →
      Follows expr w₀ e.params s' (e.interpret (evaluation env expr) s')
        (e.interpret (lending env (delivered env expr w₀)) (s'.heap, s'.ext)) env)
    (ready : Ready expr w₀ s (es.snoc e).params) (single : Single env expr (es.snoc e).params) :
    Follows expr w₀ (es.snoc e).params s ((es.snoc e).interpret (evaluation env expr) s)
      ((es.snoc e).interpret (lending env (delivered env expr w₀)) (s.heap, s.ext)) env := by
  rw [params_snoc] at ready single ⊢
  cases result : (es.interpret (evaluation env expr) s).1 with
  | error err =>
    rw [interpret_snoc_error _ result, interpret_snoc_error _ (first.result.symm.trans result)]
    exact (first.fails err).mono fun pd => List.mem_append_left _
  | ok rs =>
    rw [interpret_snoc_ok _ result, interpret_snoc_ok _ (first.result.symm.trans result), ← first.state]
    have both := first.trans (last _ first.during (ready.right single first))
    exact ⟨congrArg (Except.map fun r => rs ++ [r]) both.result, both.state, both.during,
      both.unreferenced⟩

theorem Expr.follows_case {cond result defresult : Expr V}
    (first : Follows expr w₀ cond.params s (cond.interpret (evaluation env expr) s)
      (cond.interpret (lending env (delivered env expr w₀)) (s.heap, s.ext)) env)
    (second : ∀ s', During env expr w₀ s' → Ready expr w₀ s' result.params →
      Follows expr w₀ result.params s' (result.interpret (evaluation env expr) s')
        (result.interpret (lending env (delivered env expr w₀)) (s'.heap, s'.ext)) env)
    (third : ∀ s', During env expr w₀ s' → Ready expr w₀ s' defresult.params →
      Follows expr w₀ defresult.params s' (defresult.interpret (evaluation env expr) s')
        (defresult.interpret (lending env (delivered env expr w₀)) (s'.heap, s'.ext)) env)
    (ready : Ready expr w₀ s (Expr.caseExpr cond result defresult).params)
    (single : Single env expr (Expr.caseExpr cond result defresult).params) :
    Follows expr w₀ (Expr.caseExpr cond result defresult).params s
      ((Expr.caseExpr cond result defresult).interpret (evaluation env expr) s)
      ((Expr.caseExpr cond result defresult).interpret (lending env (delivered env expr w₀))
        (s.heap, s.ext)) env := by
  cases value : (cond.interpret (evaluation env expr) s).1 with
  | error err =>
    rw [interpret_case_error _ value, interpret_case_error _ (first.result.symm.trans value)]
    exact (first.fails err).mono fun pd => List.mem_append_left _
  | ok r =>
    rw [interpret_case_ok _ value, interpret_case_ok _ (first.result.symm.trans value), ← first.state]
    have rest := ready.right single first
    have test : (evaluation env expr).isTrue r (cond.interpret (evaluation env expr) s).2 =
        (lending env (delivered env expr w₀)).isTrue r
          ((cond.interpret (evaluation env expr) s).2.heap,
            (cond.interpret (evaluation env expr) s).2.ext) := rfl
    rw [← test]
    split
    · refine (first.trans (second _ first.during rest.left)).mono fun pd here => ?_
      rw [Expr.params, ← List.append_assoc]
      exact List.mem_append_left _ here
    · have right : Ready expr w₀ (cond.interpret (evaluation env expr) s).2 defresult.params :=
        rest.imp_right fun none pd here => none pd (List.mem_append_right _ here)
      refine (first.trans (third _ first.during right)).mono fun pd here => ?_
      rcases List.mem_append.mp here with here | here
      · exact List.mem_append_left _ here
      · exact List.mem_append_right _ (List.mem_append_right _ here)

mutual

/-- The steps of the compiled expression do what the choice for the whole says. -/
theorem Expr.follows (wf : WellFormed env expr w₀)
    (live : ∀ a, (w₀.vars expr.targetParam).value = .rw a → w₀.heap a ≠ none) (e : Expr V)
    (sub : ∀ pd ∈ e.params, pd ∈ expr.simpleExpr.params) (single : Single env expr e.params)
    (s : EvalState V E) (during : During env expr w₀ s) (ready : Ready expr w₀ s e.params) :
    Follows expr w₀ e.params s (e.interpret (evaluation env expr) s)
      (e.interpret (lending env (delivered env expr w₀)) (s.heap, s.ext)) env := by
  match e with
  | .const value => exact ⟨rfl, rfl, during, fun _ before => before⟩
  | .param node dno =>
    have mem := sub (node, dno) (List.mem_singleton_self _)
    -- Only the parameter of the target can be handed over.
    by_cases own : dno = expr.targetParam
    · subst own
      -- It occurs once, so the object is still in place when it is read.
      have before : Before w₀ s :=
        ready.resolve_right fun none => none (node, expr.targetParam) (List.mem_singleton_self _) rfl
      have d := evalParam_target wf during before live mem
      refine ⟨congrArg Except.ok d.ref, by exact Prod.ext d.heap d.ext, d.during, fun none => ?_⟩
      exact absurd rfl (none (node, expr.targetParam) (List.mem_singleton_self _))
    · have d := evalParam_other wf during mem own
      have same := d.other own
      exact ⟨congrArg Except.ok d.ref, Prod.ext d.heap d.ext, d.during, fun _ before =>
        ⟨(congrArg World.vars same).trans before.1, fun b live =>
          (congrFun (congrArg World.owner same) b).trans (before.2 b live)⟩⟩
  | .relabelType arg => exact arg.follows wf live sub single s during ready
  -- Of the two branches one is evaluated; the condition comes before both.
  | .caseExpr cond result defresult =>
    have inCond : ∀ pd ∈ cond.params, pd ∈ expr.simpleExpr.params :=
      fun pd here => sub pd (List.mem_append_left _ here)
    have inResult : ∀ pd ∈ result.params, pd ∈ expr.simpleExpr.params :=
      fun pd here => sub pd (List.mem_append_right _ (List.mem_append_left _ here))
    have inDefresult : ∀ pd ∈ defresult.params, pd ∈ expr.simpleExpr.params :=
      fun pd here => sub pd (List.mem_append_right _ (List.mem_append_right _ here))
    exact Expr.follows_case (cond.follows wf live inCond single.left s during ready.left)
      (result.follows wf live inResult single.right.left)
      (defresult.follows wf live inDefresult single.right.right) ready single
  | .funcExpr funcid args =>
    exact Expr.follows_call rfl (args.follows wf live sub single s during ready)
  | .opExpr opfuncid args =>
    exact Expr.follows_call rfl (args.follows wf live sub single s during ready)
  | .subscriptFetch container refexpr subscripts =>
    -- A subscript is evaluated as a call: the container first, then the subscripts.
    have perm := Expr.params_asCall (e := .subscriptFetch container refexpr subscripts) rfl
    have inRef : ∀ pd ∈ refexpr.params, pd ∈ expr.simpleExpr.params :=
      fun pd here => sub pd (perm.mem_iff.mpr (List.mem_append_left _ here))
    have inSubscripts : ∀ pd ∈ subscripts.params, pd ∈ expr.simpleExpr.params :=
      fun pd here => sub pd (perm.mem_iff.mpr (List.mem_append_right _ here))
    have single := single.perm perm
    have ready := ready.perm perm
    exact Expr.follows_call rfl
      (Exprs.follows_cons (refexpr.follows wf live inRef single.left s during ready.left)
        (subscripts.follows wf live inSubscripts single.right) ready single)
  | .subscriptAssign container refexpr subscripts refassgnexpr =>
    -- The assigned value comes last.
    have perm := Expr.params_asCall
      (e := .subscriptAssign container refexpr subscripts refassgnexpr) rfl
    have inRef : ∀ pd ∈ refexpr.params, pd ∈ expr.simpleExpr.params :=
      fun pd here => sub pd (perm.mem_iff.mpr (List.mem_append_left _ here))
    have inRest : ∀ pd ∈ subscripts.params ++ refassgnexpr.params, pd ∈ expr.simpleExpr.params :=
      fun pd here => sub pd (perm.mem_iff.mpr
        (List.mem_append_right _ ((subscripts.params_snoc refassgnexpr).symm ▸ here)))
    have inSubscripts : ∀ pd ∈ subscripts.params, pd ∈ expr.simpleExpr.params :=
      fun pd here => inRest pd (List.mem_append_left _ here)
    have inAssgn : ∀ pd ∈ refassgnexpr.params, pd ∈ expr.simpleExpr.params :=
      fun pd here => inRest pd (List.mem_append_right _ here)
    have single := single.perm perm
    have ready := ready.perm perm
    have singleRest := single.right
    rw [Exprs.params_snoc] at singleRest
    refine Expr.follows_call rfl
      (Exprs.follows_cons (refexpr.follows wf live inRef single.left s during ready.left) ?_ ready single)
    intro s' during' ready'
    refine Exprs.follows_snoc (subscripts.follows wf live inSubscripts singleRest.left s' during' ?_)
      (refassgnexpr.follows wf live inAssgn singleRest.right) ready' single.right
    rw [Exprs.params_snoc] at ready'
    exact ready'.left

theorem Exprs.follows (wf : WellFormed env expr w₀)
    (live : ∀ a, (w₀.vars expr.targetParam).value = .rw a → w₀.heap a ≠ none) (es : Exprs V)
    (sub : ∀ pd ∈ es.params, pd ∈ expr.simpleExpr.params) (single : Single env expr es.params)
    (s : EvalState V E) (during : During env expr w₀ s) (ready : Ready expr w₀ s es.params) :
    Follows expr w₀ es.params s (es.interpret (evaluation env expr) s)
      (es.interpret (lending env (delivered env expr w₀)) (s.heap, s.ext)) env := by
  match es with
  | .nil => exact ⟨rfl, rfl, during, fun _ before => before⟩
  | .cons head tail =>
    have inHead : ∀ pd ∈ head.params, pd ∈ expr.simpleExpr.params :=
      fun pd here => sub pd (List.mem_append_left _ here)
    have inTail : ∀ pd ∈ tail.params, pd ∈ expr.simpleExpr.params :=
      fun pd here => sub pd (List.mem_append_right _ here)
    exact Exprs.follows_cons (head.follows wf live inHead single.left s during ready.left)
      (tail.follows wf live inTail single.right) ready single

end

end Steps

end Uplpgsql.ReadWrite
