import Mathlib.Data.List.Nodup
import Uplpgsql.Simulation.Scoped

/-!
# Local targets

`uplpgsql_mark_local_assignment_targets` goes over the statements of a function with an
exception block and marks the assignments whose target is declared within the innermost
one. Each assignment occurs once in the tree, so its mark says what holds where it stands.

Only assignments have a target: the other expressions that the walker comes by are left
as they are.
-/

namespace Uplpgsql

/-! ### Marking -/

section Marking

variable (target : Nat → Option Nat)

/-- `mark_expr`, of the assignment `id`. -/
def markExpr (id : Nat) (localDnos : Finset Nat) (marks : Nat → Bool) : Nat → Bool :=
  match target id with
  | some dno => Function.update marks id (dno ∈ localDnos)
  | none => marks

mutual

/-- `mark_stmt` and `uplpgsql_statement_tree_walker`. -/
def Stmt.mark : Stmt → Finset Nat → (Nat → Bool) → Nat → Bool
  | .leaf id, localDnos, marks => markExpr target id localDnos marks
  | .block _ initvars body, localDnos, marks => body.mark (localDnos ∪ initvars.toFinset) marks
  -- the block begins a new exception scope, also for its own variables
  | .blockExceptions _ _ body exceptions, _, marks => exceptions.mark ∅ (body.mark ∅ marks)
  | .cond _ thenBody elsifs elseBody, localDnos, marks =>
    elseBody.mark localDnos (elsifs.mark localDnos (thenBody.mark localDnos marks))
  | .case _ whens _ elseStmts, localDnos, marks => elseStmts.mark localDnos (whens.mark localDnos marks)
  | .condLoop _ _ _ body, localDnos, marks => body.mark localDnos marks
  | .loop _ body, localDnos, marks => body.mark localDnos marks
  | .fori _ _ _ _ _ _ body, localDnos, marks => body.mark localDnos marks
  | .forq _ _ _ body, localDnos, marks => body.mark localDnos marks
  | .foreachA _ _ body, localDnos, marks => body.mark localDnos marks
  | .exit _ _ _, _, marks => marks
  | .ret _, _, marks => marks

def Stmts.mark : Stmts → Finset Nat → (Nat → Bool) → Nat → Bool
  | .nil, _, marks => marks
  | .cons head tail, localDnos, marks => tail.mark localDnos (head.mark localDnos marks)

def Whens.mark : Whens → Finset Nat → (Nat → Bool) → Nat → Bool
  | .nil, _, marks => marks
  | .cons _ body rest, localDnos, marks => rest.mark localDnos (body.mark localDnos marks)

def Exceptions.mark : Exceptions → Finset Nat → (Nat → Bool) → Nat → Bool
  | .nil, _, marks => marks
  | .cons _ action rest, localDnos, marks => rest.mark localDnos (action.mark localDnos marks)

end

/-- `mark_expr_as_assignment_source` takes every target for local. What it does is
reconsidered if the parser has come by an exception section; the parameters are local
at the outer level. -/
def markFunction (args : Finset Nat) (body : Stmt) : Nat → Bool :=
  let marks id := (target id).isSome
  if body.within ⟨false, true, true⟩ then marks else body.mark target args marks

end Marking

/-! ### The leaves of a tree -/

mutual

def Stmt.leaves : Stmt → List Nat
  | .leaf id => [id]
  | .block _ _ body => body.leaves
  | .blockExceptions _ _ body exceptions => body.leaves ++ exceptions.leaves
  | .cond _ thenBody elsifs elseBody => thenBody.leaves ++ (elsifs.leaves ++ elseBody.leaves)
  | .case _ whens _ elseStmts => whens.leaves ++ elseStmts.leaves
  | .condLoop _ _ _ body => body.leaves
  | .loop _ body => body.leaves
  | .fori _ _ _ _ _ _ body => body.leaves
  | .forq _ _ _ body => body.leaves
  | .foreachA _ _ body => body.leaves
  | .exit _ _ _ => []
  | .ret _ => []

def Stmts.leaves : Stmts → List Nat
  | .nil => []
  | .cons head tail => head.leaves ++ tail.leaves

def Whens.leaves : Whens → List Nat
  | .nil => []
  | .cons _ body rest => body.leaves ++ rest.leaves

def Exceptions.leaves : Exceptions → List Nat
  | .nil => []
  | .cons _ action rest => action.leaves ++ rest.leaves

end

section Elsewhere

theorem not_mem_append {xs ys : List Nat} {id : Nat} : id ∉ xs ++ ys ↔ id ∉ xs ∧ id ∉ ys := by
  rw [List.mem_append, not_or]

variable {target : Nat → Option Nat} {id : Nat}

mutual

/-- Marking touches the leaves of the tree only. -/
theorem Stmt.mark_elsewhere (st : Stmt) (localDnos : Finset Nat) (marks : Nat → Bool)
    (elsewhere : id ∉ st.leaves) : st.mark target localDnos marks id = marks id := by
  cases st with
  | leaf id' =>
    have ne : id ≠ id' := fun same => elsewhere (List.mem_singleton.mpr same)
    unfold Stmt.mark markExpr
    cases target id' with
    | some dno => exact Function.update_of_ne ne _ _
    | none => rfl
  | block label initvars body => exact body.mark_elsewhere _ _ elsewhere
  | blockExceptions label initvars body exceptions =>
    obtain ⟨out, out'⟩ := not_mem_append.mp elsewhere
    exact (exceptions.mark_elsewhere _ _ out').trans (body.mark_elsewhere _ _ out)
  | cond expr thenBody elsifs elseBody =>
    obtain ⟨out, rest⟩ := not_mem_append.mp elsewhere
    obtain ⟨out', out''⟩ := not_mem_append.mp rest
    exact ((elseBody.mark_elsewhere _ _ out'').trans (elsifs.mark_elsewhere _ _ out')).trans
      (thenBody.mark_elsewhere _ _ out)
  | case test whens haveElse elseStmts =>
    obtain ⟨out, out'⟩ := not_mem_append.mp elsewhere
    exact (elseStmts.mark_elsewhere _ _ out').trans (whens.mark_elsewhere _ _ out)
  | condLoop label expr testAtTop body => exact body.mark_elsewhere _ _ elsewhere
  | loop label body => exact body.mark_elsewhere _ _ elsewhere
  | fori label var lower upper step reverse body => exact body.mark_elsewhere _ _ elsewhere
  | forq kind label id' body => exact body.mark_elsewhere _ _ elsewhere
  | foreachA label id' body => exact body.mark_elsewhere _ _ elsewhere
  | exit isExit label cond => rfl
  | ret id' => rfl

theorem Stmts.mark_elsewhere (ss : Stmts) (localDnos : Finset Nat) (marks : Nat → Bool)
    (elsewhere : id ∉ ss.leaves) : ss.mark target localDnos marks id = marks id := by
  cases ss with
  | nil => rfl
  | cons head tail =>
    obtain ⟨out, out'⟩ := not_mem_append.mp elsewhere
    exact (tail.mark_elsewhere _ _ out').trans (head.mark_elsewhere _ _ out)

theorem Whens.mark_elsewhere (ws : Whens) (localDnos : Finset Nat) (marks : Nat → Bool)
    (elsewhere : id ∉ ws.leaves) : ws.mark target localDnos marks id = marks id := by
  cases ws with
  | nil => rfl
  | cons expr body rest =>
    obtain ⟨out, out'⟩ := not_mem_append.mp elsewhere
    exact (rest.mark_elsewhere _ _ out').trans (body.mark_elsewhere _ _ out)

theorem Exceptions.mark_elsewhere (es : Exceptions) (localDnos : Finset Nat) (marks : Nat → Bool)
    (elsewhere : id ∉ es.leaves) : es.mark target localDnos marks id = marks id := by
  cases es with
  | nil => rfl
  | cons conditions action rest =>
    obtain ⟨out, out'⟩ := not_mem_append.mp elsewhere
    exact (rest.mark_elsewhere _ _ out').trans (action.mark_elsewhere _ _ out)

end

end Elsewhere

/-! ### What the marks say -/

/-- An assignment that is marked has a local target. -/
def Uses.marked (U : Uses) (target : Nat → Option Nat) (marks : Nat → Bool) : Uses where
  leaf id p := U.leaf id p ∧ ∀ dno ∈ target id, marks id = true → dno ∈ p.locals
  initVar := U.initVar
  caseTest := U.caseTest
  ret := U.ret
  expr := U.expr
  portal := U.portal
  rowTarget := U.rowTarget
  array := U.array
  handlerVars := U.handlerVars

theorem Uses.initVars_marked {U : Uses} {target : Nat → Option Nat} {marks : Nat → Bool} {initvars : List Nat}
    {seen : Finset Nat} : (U.marked target marks).initVars initvars seen ↔ U.initVars initvars seen := by
  induction initvars generalizing seen with
  | nil => exact Iff.rfl
  | cons dno rest ih => exact and_congr Iff.rfl ih

theorem Uses.test_marked {U : Uses} {target : Nat → Option Nat} {marks : Nat → Bool}
    {test : Option (Nat × Nat)} {seen : Finset Nat} (uses : U.test test seen) :
    (U.marked target marks).test test seen := by
  cases test with
  | none => trivial
  | some pair => exact uses

section Marks

variable {U : Uses} {target : Nat → Option Nat} {final : Nat → Bool}

/-- The marks of two trees side by side: the second leaves the marks of the first. -/
theorem marks_append {xs ys : List Nat} {first second : Nat → Bool} (distinct : (xs ++ ys).Nodup)
    (final_eq : ∀ id ∈ xs ++ ys, final id = second id)
    (elsewhere : ∀ id, id ∉ ys → second id = first id) :
    (xs.Nodup ∧ ∀ id ∈ xs, final id = first id) ∧ ys.Nodup ∧ ∀ id ∈ ys, final id = second id := by
  obtain ⟨left, right, apart⟩ := List.nodup_append.mp distinct
  refine ⟨⟨left, fun id mem => ?_⟩, right, fun id mem => final_eq id (List.mem_append_right _ mem)⟩
  have out : id ∉ ys := fun mem' => apart id mem id mem' rfl
  exact (final_eq id (List.mem_append_left _ mem)).trans (elsewhere id out)

mutual

/-- The mark that a leaf is left with is the one it gets where it stands. -/
theorem Stmt.placed_mark (st : Stmt) {p : Spot} {marks : Nat → Bool} (placed : st.placed U p)
    (distinct : st.leaves.Nodup) (final_eq : ∀ id ∈ st.leaves, final id = st.mark target p.locals marks id) :
    st.placed (U.marked target final) p := by
  cases st with
  | leaf id =>
    refine ⟨placed, fun dno mem marked => ?_⟩
    have mark := final_eq id (List.mem_singleton.mpr rfl)
    unfold Stmt.mark markExpr at mark
    rw [Option.mem_def.mp mem, marked] at mark
    simpa using mark.symm
  | block label initvars body =>
    obtain ⟨fresh, uses, placed⟩ := placed
    exact ⟨fresh, Uses.initVars_marked.mpr uses, body.placed_mark placed distinct final_eq⟩
  | blockExceptions label initvars body exceptions =>
    obtain ⟨uses, placed, placedHandlers⟩ := placed
    obtain ⟨⟨distinct, mine⟩, distinct', mine'⟩ := marks_append distinct final_eq
      fun id out => exceptions.mark_elsewhere ∅ _ out
    exact ⟨Uses.initVars_marked.mpr uses, body.placed_mark placed distinct mine,
      exceptions.placed_mark placedHandlers distinct' mine'⟩
  | cond expr thenBody elsifs elseBody =>
    obtain ⟨uses, placedThen, placedElsifs, placedElse⟩ := placed
    obtain ⟨⟨distinct, mine⟩, distinct', mine'⟩ := marks_append distinct final_eq fun id out =>
      (elseBody.mark_elsewhere _ _ (not_mem_append.mp out).2).trans
        (elsifs.mark_elsewhere _ _ (not_mem_append.mp out).1)
    obtain ⟨⟨distinct', mine'⟩, distinct'', mine''⟩ := marks_append distinct' mine'
      fun id out => elseBody.mark_elsewhere _ _ out
    exact ⟨uses, thenBody.placed_mark placedThen distinct mine,
      elsifs.placed_mark placedElsifs distinct' mine', elseBody.placed_mark placedElse distinct'' mine''⟩
  | case test whens haveElse elseStmts =>
    obtain ⟨uses, placedWhens, placedElse⟩ := placed
    obtain ⟨⟨distinct, mine⟩, distinct', mine'⟩ := marks_append distinct final_eq
      fun id out => elseStmts.mark_elsewhere _ _ out
    exact ⟨Uses.test_marked uses, whens.placed_mark placedWhens distinct mine,
      elseStmts.placed_mark placedElse distinct' mine'⟩
  | condLoop label expr testAtTop body => exact ⟨placed.1, body.placed_mark placed.2 distinct final_eq⟩
  | loop label body => exact body.placed_mark placed distinct final_eq
  | fori label var lower upper step reverse body =>
    obtain ⟨usesLower, usesUpper, usesStep, placed⟩ := placed
    exact ⟨usesLower, usesUpper, usesStep, body.placed_mark placed distinct final_eq⟩
  | forq kind label id body => exact ⟨placed.1, body.placed_mark placed.2 distinct final_eq⟩
  | foreachA label id body => exact ⟨placed.1, body.placed_mark placed.2 distinct final_eq⟩
  | exit isExit label cond => exact placed
  | ret id => exact placed

theorem Stmts.placed_mark (ss : Stmts) {p : Spot} {marks : Nat → Bool} (placed : ss.placed U p)
    (distinct : ss.leaves.Nodup) (final_eq : ∀ id ∈ ss.leaves, final id = ss.mark target p.locals marks id) :
    ss.placed (U.marked target final) p := by
  cases ss with
  | nil => trivial
  | cons head tail =>
    obtain ⟨⟨distinct, mine⟩, distinct', mine'⟩ := marks_append distinct final_eq
      fun id out => tail.mark_elsewhere _ _ out
    exact ⟨head.placed_mark placed.1 distinct mine, tail.placed_mark placed.2 distinct' mine'⟩

theorem Whens.placed_mark (ws : Whens) {p : Spot} {marks : Nat → Bool} (placed : ws.placed U p)
    (distinct : ws.leaves.Nodup) (final_eq : ∀ id ∈ ws.leaves, final id = ws.mark target p.locals marks id) :
    ws.placed (U.marked target final) p := by
  cases ws with
  | nil => trivial
  | cons expr body rest =>
    obtain ⟨⟨distinct, mine⟩, distinct', mine'⟩ := marks_append distinct final_eq
      fun id out => rest.mark_elsewhere _ _ out
    exact ⟨placed.1, body.placed_mark placed.2.1 distinct mine, rest.placed_mark placed.2.2 distinct' mine'⟩

theorem Exceptions.placed_mark (es : Exceptions) {p : Spot} {marks : Nat → Bool} (placed : es.placed U p)
    (distinct : es.leaves.Nodup) (final_eq : ∀ id ∈ es.leaves, final id = es.mark target p.locals marks id) :
    es.placed (U.marked target final) p := by
  cases es with
  | nil => trivial
  | cons conditions action rest =>
    obtain ⟨⟨distinct, mine⟩, distinct', mine'⟩ := marks_append distinct final_eq
      fun id out => rest.mark_elsewhere _ _ out
    exact ⟨action.placed_mark placed.1 distinct mine, rest.placed_mark placed.2 distinct' mine'⟩

end

/-! ### Functions -/

/-- Every target of the leaves is local. -/
def AllLocal (target : Nat → Option Nat) (leaves : List Nat) (locals : Finset Nat) : Prop :=
  ∀ id ∈ leaves, ∀ dno ∈ target id, dno ∈ locals

theorem AllLocal.left {xs ys : List Nat} {locals : Finset Nat} (all : AllLocal target (xs ++ ys) locals) :
    AllLocal target xs locals := fun id mem => all id (List.mem_append_left _ mem)

theorem AllLocal.right {xs ys : List Nat} {locals : Finset Nat} (all : AllLocal target (xs ++ ys) locals) :
    AllLocal target ys locals := fun id mem => all id (List.mem_append_right _ mem)

mutual

/-- Where no error is caught, any marks will do. -/
theorem Stmt.placed_unhandled (st : Stmt) {p : Spot} (placed : st.placed U p)
    (within : st.within ⟨false, true, true⟩ = true) (all : AllLocal target st.leaves p.locals) :
    st.placed (U.marked target final) p := by
  cases st with
  | leaf id => exact ⟨placed, fun dno mem _ => all id (List.mem_singleton.mpr rfl) dno mem⟩
  | block label initvars body =>
    obtain ⟨fresh, uses, placed⟩ := placed
    refine ⟨fresh, Uses.initVars_marked.mpr uses, body.placed_unhandled placed within fun id mem dno mem' => ?_⟩
    exact Finset.mem_union_left _ (all id mem dno mem')
  | blockExceptions label initvars body exceptions => simp [Stmt.within] at within
  | cond expr thenBody elsifs elseBody =>
    simp only [Stmt.within, Bool.and_eq_true] at within
    obtain ⟨uses, placedThen, placedElsifs, placedElse⟩ := placed
    exact ⟨uses, thenBody.placed_unhandled placedThen within.1.1 all.left,
      elsifs.placed_unhandled placedElsifs within.1.2 all.right.left,
      elseBody.placed_unhandled placedElse within.2 all.right.right⟩
  | case test whens haveElse elseStmts =>
    simp only [Stmt.within, Bool.and_eq_true] at within
    obtain ⟨uses, placedWhens, placedElse⟩ := placed
    exact ⟨Uses.test_marked uses, whens.placed_unhandled placedWhens within.1 all.left,
      elseStmts.placed_unhandled placedElse within.2 all.right⟩
  | condLoop label expr testAtTop body => exact ⟨placed.1, body.placed_unhandled placed.2 within all⟩
  | loop label body => exact body.placed_unhandled placed within all
  | fori label var lower upper step reverse body =>
    obtain ⟨usesLower, usesUpper, usesStep, placed⟩ := placed
    exact ⟨usesLower, usesUpper, usesStep, body.placed_unhandled placed within all⟩
  | forq kind label id body =>
    simp only [Stmt.within, Bool.and_eq_true] at within
    exact ⟨placed.1, body.placed_unhandled placed.2 within.2 all⟩
  | foreachA label id body =>
    simp only [Stmt.within, Bool.and_eq_true] at within
    exact ⟨placed.1, body.placed_unhandled placed.2 within.2 all⟩
  | exit isExit label cond => exact placed
  | ret id => exact placed

theorem Stmts.placed_unhandled (ss : Stmts) {p : Spot} (placed : ss.placed U p)
    (within : ss.within ⟨false, true, true⟩ = true) (all : AllLocal target ss.leaves p.locals) :
    ss.placed (U.marked target final) p := by
  cases ss with
  | nil => trivial
  | cons head tail =>
    simp only [Stmts.within, Bool.and_eq_true] at within
    exact ⟨head.placed_unhandled placed.1 within.1 all.left, tail.placed_unhandled placed.2 within.2 all.right⟩

theorem Whens.placed_unhandled (ws : Whens) {p : Spot} (placed : ws.placed U p)
    (within : ws.within ⟨false, true, true⟩ = true) (all : AllLocal target ws.leaves p.locals) :
    ws.placed (U.marked target final) p := by
  cases ws with
  | nil => trivial
  | cons expr body rest =>
    simp only [Whens.within, Bool.and_eq_true] at within
    exact ⟨placed.1, body.placed_unhandled placed.2.1 within.1 all.left,
      rest.placed_unhandled placed.2.2 within.2 all.right⟩

end

/-- The variables that are local at the outer level: the parameters, or all of them
where nothing is caught. -/
def outermost (target : Nat → Option Nat) (args : Finset Nat) (body : Stmt) : Finset Nat :=
  if body.within ⟨false, true, true⟩ then (body.leaves.filterMap target).toFinset else args

/-- An assignment that is marked in the end has a target that cannot be seen where an
error of the assignment is caught. -/
theorem Stmt.placed_markFunction (body : Stmt) {seen args : Finset Nat}
    (placed : body.placed U ⟨seen, outermost target args body⟩) (distinct : body.leaves.Nodup) :
    body.placed (U.marked target (markFunction target args body)) ⟨seen, outermost target args body⟩ := by
  cases within : body.within ⟨false, true, true⟩ with
  | true =>
    refine body.placed_unhandled placed within fun id mem dno mem' => ?_
    change dno ∈ outermost target args body
    unfold outermost
    rw [if_pos within]
    exact List.mem_toFinset.mpr (List.mem_filterMap.mpr ⟨id, mem, mem'⟩)
  | false =>
    have locals : outermost target args body = args := by
      unfold outermost
      rw [within]
      rfl
    have marked : markFunction target args body =
        body.mark target (outermost target args body) fun id => (target id).isSome := by
      unfold markFunction
      rw [within, locals]
      rfl
    exact body.placed_mark placed distinct fun id _ => congrFun marked id

end Marks

end Uplpgsql
