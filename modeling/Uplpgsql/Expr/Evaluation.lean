import Uplpgsql.Expr.Logic
import Uplpgsql.Lib.Traced

/-!
# Evaluations and their calls

The functions an expression calls have effects, so it matters which of them are
called, and how often. An evaluation leaves the places in the tree at which it
has called a function. The executor stops at the operand that decides an AND or
an OR; the compiled code evaluates them all. Where the compiler comes to a
polymorphic function it gives up, and what it has emitted so far stays.
-/

namespace Uplpgsql

open Lib

/-- A place in an expression: the numbers of the arguments on the way to it, the
last one first. A relabelling is no place of its own. -/
abbrev Site := List Nat

abbrev Eval (σ α : Type) := Traced σ ErrorData Site α

/-- The C functions. They may raise, and read and change the world. -/
abbrev Functions (σ : Type) :=
  Fid → Nat → List NullableDatum → σ → Except ErrorData NullableDatum × σ

/-! ### The evaluations -/

section Evaluations

variable {σ : Type} (cat : Catalog) (fns : Functions σ) (params : Nat → NullableDatum)

/-- A strict function is not called on a NULL. -/
def callFunction (site : Site) (fnStrict : Bool) (funcid : Fid) (collation : Nat)
    (ds : List NullableDatum) : Eval σ NullableDatum :=
  if fnStrict && ds.any (·.isnull) then pure ⟨0, true⟩
  else Traced.event site (fns funcid collation ds)

mutual

/-- Running compiled code. -/
def FmgrCode.eval (site : Site) : FmgrCode → Eval σ NullableDatum
  | .const d => pure d
  | .load dno => pure (params dno)
  | .not arg => do
    let d ← arg.eval (0 :: site)
    pure ⟨boolDatum (!datumBit d), d.isnull⟩
  | .fold isAnd args => do
    let ds ← FmgrCode.evalArgs site 0 args
    pure (foldBool isAnd ds)
  | .call fnAddr fnStrict collation args => do
    let ds ← FmgrCode.evalArgs site 0 args
    callFunction fns site fnStrict fnAddr collation ds

def FmgrCode.evalArgs (site : Site) (k : Nat) : List FmgrCode → Eval σ (List NullableDatum)
  | [] => pure []
  | code :: codes => do
    let d ← code.eval (k :: site)
    let ds ← FmgrCode.evalArgs site (k + 1) codes
    pure (d :: ds)

end

/-- `ExecEvalBoolNot...`. -/
def execNot : List NullableDatum → NullableDatum
  | [d] => ⟨boolDatum (d.value == 0), d.isnull⟩
  | _ => ⟨0, true⟩

-- What the executor does at nodes Tier 2 does not know.
variable (foreign : Site → PgExpr → Eval σ NullableDatum)

mutual

/-- The executor. -/
def execEval (site : Site) : PgExpr → Eval σ NullableDatum
  | .const _ constisnull constvalue => pure ⟨constvalue, constisnull⟩
  | .param _ dno _ => pure (params dno)
  | .relabelType arg => execEval site arg
  | .boolExpr .not args => do
    let ds ← execArgs site 0 args
    pure (execNot ds)
  | .boolExpr .and args => execBool true site 0 false args
  | .boolExpr .or args => execBool false site 0 false args
  | .opExpr funcid collation args => do
    let ds ← execArgs site 0 args
    callFunction fns site (cat.fnStrict funcid) funcid collation ds
  | .funcExpr funcid collation args =>
    match foldedNumeric funcid args with
    | some c => pure ⟨if c.isnull then 0 else cat.numericFloat8 c.value, c.isnull⟩
    | none => do
      let ds ← execArgs site 0 args
      callFunction fns site (cat.fnStrict funcid) funcid collation ds
  | .subscriptingRef ty arr upper lower assign => foreign site (.subscriptingRef ty arr upper lower assign)
  | .other => foreign site .other

def execArgs (site : Site) (k : Nat) : List PgExpr → Eval σ (List NullableDatum)
  | [] => pure []
  | e :: es => do
    let d ← execEval (k :: site) e
    let ds ← execArgs site (k + 1) es
    pure (d :: ds)

/-- AND and OR stop at an operand that is false, or true. -/
def execBool (isAnd : Bool) (site : Site) (k : Nat) (anyNull : Bool) : List PgExpr → Eval σ NullableDatum
  | [] => pure (if anyNull then ⟨0, true⟩ else ⟨boolDatum isAnd, false⟩)
  | e :: es => do
    let d ← execEval (k :: site) e
    if d.isnull then execBool isAnd site (k + 1) true es
    else if (d.value != 0) != isAnd then pure ⟨boolDatum !isAnd, false⟩
    else execBool isAnd site (k + 1) anyNull es

end

/-! ### Emission -/

mutual

/-- `uplpgsql_compile_expr_fmgr_full`, with what it has emitted: the code of the
expression or, where it gives up, the code of the arguments before. -/
def emitExprFmgrFull (site : Site) : PgExpr → Except (List (Site × FmgrCode)) FmgrCode
  | .const _ constisnull constvalue =>
    .ok (.const ⟨if constisnull then 0 else constvalue, constisnull⟩)
  | .param _ dno _ => .ok (.load dno)
  | .relabelType arg => emitExprFmgrFull site arg
  | .boolExpr .not [arg] => (emitExprFmgrFull (0 :: site) arg).map .not
  | .boolExpr .not _ => .error []
  | .boolExpr .and args => (emitArgs site 0 args).map (.fold true)
  | .boolExpr .or args => (emitArgs site 0 args).map (.fold false)
  | .opExpr funcid collation args =>
    if cat.hasPoly funcid then .error []
    else (emitArgs site 0 args).map (.call funcid (cat.fnStrict funcid) collation)
  | .funcExpr funcid collation args =>
    match foldedNumeric funcid args with
    | some c => .ok (.const ⟨if c.isnull then 0 else cat.numericFloat8 c.value, c.isnull⟩)
    | none =>
      if cat.hasPoly funcid then .error []
      else (emitArgs site 0 args).map (.call funcid (cat.fnStrict funcid) collation)
  | .subscriptingRef _ _ _ _ _ => .error []
  | .other => .error []

def emitArgs (site : Site) (k : Nat) : List PgExpr → Except (List (Site × FmgrCode)) (List FmgrCode)
  | [] => .ok []
  | e :: es =>
    match emitExprFmgrFull (k :: site) e with
    | .error pieces => .error pieces
    | .ok code =>
      match emitArgs site (k + 1) es with
      | .error pieces => .error ((k :: site, code) :: pieces)
      | .ok codes => .ok (code :: codes)

end

def runPieces : List (Site × FmgrCode) → Eval σ Unit
  | [] => pure ()
  | (site, code) :: pieces => do
    let _ ← code.eval fns params site
    runPieces pieces

/-- Running what was emitted: there is no value if the compiler gave up. -/
def runEmitted (site : Site) (e : PgExpr) : Eval σ (Option NullableDatum) :=
  match emitExprFmgrFull cat site e with
  | .ok code => do
    let d ← code.eval fns params site
    pure (some d)
  | .error pieces => do
    runPieces fns params pieces
    pure none

def runEmittedArgs (site : Site) (k : Nat) (es : List PgExpr) : Eval σ (Option (List NullableDatum)) :=
  match emitArgs cat site k es with
  | .ok codes => do
    let ds ← FmgrCode.evalArgs fns params site k codes
    pure (some ds)
  | .error pieces => do
    runPieces fns params pieces
    pure none

end Evaluations

-- Many proofs ask for these equations at once; here they are made for all of them.
section Equations

attribute [local simp] FmgrCode.eval FmgrCode.evalArgs execEval execArgs execBool emitExprFmgrFull
  emitArgs canFmgrCompile canFmgrCompileAll PgExpr.wellTyped PgExpr.wellTypedAll

end Equations

/-! ### Calls without effects -/

section Logged

variable (fns : Fid → Nat → List NullableDatum → Except ErrorData NullableDatum)
  (params : Nat → NullableDatum)

/-- Functions whose only effect is that their calls are known. -/
def loggedFns : Functions (List Fid) := fun funcid collation ds calls =>
  (fns funcid collation ds, calls ++ [funcid])

mutual

/-- `FmgrCode.run` is an evaluation in the world of the calls made so far. -/
theorem eval_logged (code : FmgrCode) (site : Site) (calls : List Fid) :
    (code.eval (loggedFns fns) params site calls).result = (code.run fns params).2 ∧
      (code.eval (loggedFns fns) params site calls).world = calls ++ (code.run fns params).1 := by
  match code with
  | .const d => simp [FmgrCode.eval, FmgrCode.run]
  | .load dno => simp [FmgrCode.eval, FmgrCode.run]
  | .not arg =>
    obtain ⟨result, world⟩ := eval_logged arg (0 :: site) calls
    simp only [FmgrCode.eval, FmgrCode.run]
    generalize arg.run fns params = r at result world
    obtain ⟨made, err | d⟩ := r
    · rw [Traced.bind_error result]
      exact ⟨rfl, world⟩
    · rw [Traced.bind_ok result]
      exact ⟨rfl, world⟩
  | .fold isAnd args =>
    obtain ⟨result, world⟩ := evalArgs_logged args site 0 calls
    simp only [FmgrCode.eval, FmgrCode.run]
    generalize FmgrCode.runArgs fns params args = r at result world
    obtain ⟨made, err | ds⟩ := r
    · rw [Traced.bind_error result]
      exact ⟨rfl, world⟩
    · rw [Traced.bind_ok result]
      exact ⟨rfl, world⟩
  | .call fnAddr fnStrict collation args =>
    obtain ⟨result, world⟩ := evalArgs_logged args site 0 calls
    simp only [FmgrCode.eval, FmgrCode.run]
    generalize FmgrCode.runArgs fns params args = r at result world
    obtain ⟨made, err | ds⟩ := r
    · rw [Traced.bind_error result]
      exact ⟨rfl, world⟩
    · rw [Traced.bind_ok result, callFunction]
      cases skips : fnStrict && ds.any (·.isnull) with
      | true =>
        simp only [skips, if_true]
        exact ⟨rfl, world⟩
      | false =>
        simp [skips, loggedFns, world]

theorem evalArgs_logged (codes : List FmgrCode) (site : Site) (k : Nat) (calls : List Fid) :
    (FmgrCode.evalArgs (loggedFns fns) params site k codes calls).result =
        (FmgrCode.runArgs fns params codes).2 ∧
      (FmgrCode.evalArgs (loggedFns fns) params site k codes calls).world =
        calls ++ (FmgrCode.runArgs fns params codes).1 := by
  match codes with
  | [] => simp [FmgrCode.evalArgs, FmgrCode.runArgs]
  | code :: codes =>
    obtain ⟨result, world⟩ := eval_logged code (k :: site) calls
    simp only [FmgrCode.evalArgs, FmgrCode.runArgs]
    generalize code.run fns params = r at result world
    obtain ⟨made, err | d⟩ := r
    · rw [Traced.bind_error result]
      exact ⟨rfl, world⟩
    · rw [Traced.bind_ok result, world]
      obtain ⟨results, worlds⟩ := evalArgs_logged codes site (k + 1) (calls ++ made)
      generalize FmgrCode.runArgs fns params codes = r' at results worlds
      obtain ⟨more, err | ds⟩ := r'
      · rw [Traced.bind_error results]
        exact ⟨rfl, worlds.trans (List.append_assoc _ _ _)⟩
      · rw [Traced.bind_ok results]
        exact ⟨rfl, worlds.trans (List.append_assoc _ _ _)⟩

end

end Logged

/-! ### Emission and compilation -/

section Emission

variable {cat : Catalog}

theorem exceptToOption_map {ε α β : Type} (f : α → β) (x : Except ε α) :
    (x.map f).toOption = x.toOption.map f := by
  cases x <;> rfl

mutual

/-- What is emitted in full is the compiled code. -/
theorem emitExprFmgrFull_toOption (site : Site) (e : PgExpr) :
    (emitExprFmgrFull cat site e).toOption = compileExprFmgrFull cat e := by
  match e with
  | .const _ _ _ | .param _ _ _ | .subscriptingRef _ _ _ _ _ | .other => rfl
  | .relabelType arg =>
    simp only [emitExprFmgrFull, compileExprFmgrFull]
    exact emitExprFmgrFull_toOption site arg
  | .boolExpr .not [arg] =>
    simp only [emitExprFmgrFull, compileExprFmgrFull, exceptToOption_map,
      emitExprFmgrFull_toOption (0 :: site) arg]
  | .boolExpr .not [] | .boolExpr .not (_ :: _ :: _) => rfl
  | .boolExpr .and args | .boolExpr .or args =>
    simp only [emitExprFmgrFull, compileExprFmgrFull, exceptToOption_map, emitArgs_toOption site 0 args]
  | .opExpr funcid collation args =>
    simp only [emitExprFmgrFull, compileExprFmgrFull]
    split
    · rfl
    · rw [exceptToOption_map, emitArgs_toOption site 0 args]
  | .funcExpr funcid collation args =>
    simp only [emitExprFmgrFull, compileExprFmgrFull]
    cases foldedNumeric funcid args with
    | some c => rfl
    | none =>
      dsimp only
      split
      · rfl
      · rw [exceptToOption_map, emitArgs_toOption site 0 args]

theorem emitArgs_toOption (site : Site) (k : Nat) (es : List PgExpr) :
    (emitArgs cat site k es).toOption = compileArgs cat es := by
  match es with
  | [] => rfl
  | e :: es =>
    have head := emitExprFmgrFull_toOption (k :: site) e
    have tail := emitArgs_toOption site (k + 1) es
    simp only [emitArgs, compileArgs, ← head, ← tail]
    cases emitExprFmgrFull cat (k :: site) e with
    | error pieces => rfl
    | ok code => cases emitArgs cat site (k + 1) es <;> rfl

end

theorem emit_of_compiled {e : PgExpr} {code : FmgrCode} (compiled : compileExprFmgrFull cat e = some code)
    (site : Site) : emitExprFmgrFull cat site e = .ok code := by
  rw [← emitExprFmgrFull_toOption site] at compiled
  cases emitted : emitExprFmgrFull cat site e with
  | error pieces => rw [emitted] at compiled; cases compiled
  | ok code' => rw [emitted] at compiled; cases compiled; rfl

end Emission

/-! ### The nodes of a tree

AND and OR are alike to the compiler, and so are operators and functions. -/

/-- A node with a value of its own: the one compiled, and the executor's. -/
inductive IsLeaf (cat : Catalog) (params : Nat → NullableDatum) :
    PgExpr → NullableDatum → NullableDatum → Prop where
  | const (ty : TypeOid) (isnull : Bool) (v : BitVec 64) :
      IsLeaf cat params (.const ty isnull v) ⟨if isnull then 0 else v, isnull⟩ ⟨v, isnull⟩
  | param (external : Bool) (dno : Nat) (ty : TypeOid) :
      IsLeaf cat params (.param external dno ty) (params dno) (params dno)
  | folded {funcid : Fid} {args : List PgExpr} {c : NullableDatum} (collation : Nat)
      (isConst : foldedNumeric funcid args = some c) :
      IsLeaf cat params (.funcExpr funcid collation args)
        ⟨if c.isnull then 0 else cat.numericFloat8 c.value, c.isnull⟩
        ⟨if c.isnull then 0 else cat.numericFloat8 c.value, c.isnull⟩

inductive IsFold : PgExpr → Bool → List PgExpr → Prop where
  | and (args : List PgExpr) : IsFold (.boolExpr .and args) true args
  | or (args : List PgExpr) : IsFold (.boolExpr .or args) false args

inductive IsCall : PgExpr → Fid → Nat → List PgExpr → Prop where
  | op (funcid : Fid) (collation : Nat) (args : List PgExpr) :
      IsCall (.opExpr funcid collation args) funcid collation args
  | func {funcid : Fid} {args : List PgExpr} (collation : Nat)
      (notConst : foldedNumeric funcid args = none) :
      IsCall (.funcExpr funcid collation args) funcid collation args

/-- Nodes that are not compiled. -/
inductive IsStuck : PgExpr → Prop where
  | notNone : IsStuck (.boolExpr .not [])
  | notMany (e e' : PgExpr) (es : List PgExpr) : IsStuck (.boolExpr .not (e :: e' :: es))
  | subscriptingRef (ty : TypeOid) (arr : PgExpr) (upper lower : List PgExpr) (assign : Bool) :
      IsStuck (.subscriptingRef ty arr upper lower assign)
  | other : IsStuck .other

/-- The cases of an induction over trees and lists of arguments. -/
structure NodeCases (cat : Catalog) (params : Nat → NullableDatum) (motive : PgExpr → Prop)
    (motives : List PgExpr → Prop) : Prop where
  leaf : ∀ {e d d'}, IsLeaf cat params e d d' → motive e
  relabel : ∀ arg, motive arg → motive (.relabelType arg)
  not : ∀ arg, motive arg → motive (.boolExpr .not [arg])
  fold : ∀ {e isAnd args}, IsFold e isAnd args → motives args → motive e
  call : ∀ {e funcid collation args}, IsCall e funcid collation args → motives args → motive e
  stuck : ∀ {e}, IsStuck e → motive e
  nil : motives []
  cons : ∀ e es, motive e → motives es → motives (e :: es)

section Induction

variable {cat : Catalog} {params : Nat → NullableDatum} {motive : PgExpr → Prop}
  {motives : List PgExpr → Prop}

mutual

theorem NodeCases.node (cases : NodeCases cat params motive motives) (e : PgExpr) : motive e := by
  match e with
  | .const ty isnull v => exact cases.leaf (.const ty isnull v)
  | .param external dno ty => exact cases.leaf (.param external dno ty)
  | .relabelType arg => exact cases.relabel arg (cases.node arg)
  | .boolExpr .not [arg] => exact cases.not arg (cases.node arg)
  | .boolExpr .not [] => exact cases.stuck .notNone
  | .boolExpr .not (e :: e' :: es) => exact cases.stuck (.notMany e e' es)
  | .boolExpr .and args => exact cases.fold (.and args) (cases.list args)
  | .boolExpr .or args => exact cases.fold (.or args) (cases.list args)
  | .opExpr funcid collation args => exact cases.call (.op funcid collation args) (cases.list args)
  | .funcExpr funcid collation args =>
    cases folded : foldedNumeric funcid args with
    | some c => exact cases.leaf (.folded collation folded)
    | none => exact cases.call (.func collation folded) (cases.list args)
  | .subscriptingRef ty arr upper lower assign =>
    exact cases.stuck (.subscriptingRef ty arr upper lower assign)
  | .other => exact cases.stuck .other

theorem NodeCases.list (cases : NodeCases cat params motive motives) (es : List PgExpr) : motives es := by
  match es with
  | [] => exact cases.nil
  | e :: es => exact cases.cons e es (cases.node e) (cases.list es)

end

end Induction

/-! ### Running emitted code, node by node -/

section Nodes

variable {σ : Type} {cat : Catalog} {fns : Functions σ} {params : Nat → NullableDatum}

/-- Going on where there is a value. -/
def proceed {α β : Type} (f : α → Eval σ (Option β)) : Option α → Eval σ (Option β)
  | some a => f a
  | none => pure none

theorem runEmitted_leaf {e : PgExpr} {d d' : NullableDatum} (leaf : IsLeaf cat params e d d') (site : Site) :
    runEmitted cat fns params site e = pure (some d) := by
  cases leaf with
  | const ty isnull v => simp only [runEmitted, emitExprFmgrFull, FmgrCode.eval, Traced.pure_bind]
  | param external dno ty => simp only [runEmitted, emitExprFmgrFull, FmgrCode.eval, Traced.pure_bind]
  | folded collation isConst =>
    simp only [runEmitted, emitExprFmgrFull, isConst, FmgrCode.eval, Traced.pure_bind]

theorem runEmitted_stuck {e : PgExpr} (stuck : IsStuck e) (site : Site) :
    runEmitted cat fns params site e = pure none := by
  cases stuck <;> simp only [runEmitted, emitExprFmgrFull, runPieces, Traced.pure_bind]

theorem runEmitted_relabel (arg : PgExpr) (site : Site) :
    runEmitted cat fns params site (.relabelType arg) = runEmitted cat fns params site arg := by
  simp only [runEmitted, emitExprFmgrFull]

theorem runEmitted_not (arg : PgExpr) (site : Site) :
    runEmitted cat fns params site (.boolExpr .not [arg]) =
      runEmitted cat fns params (0 :: site) arg >>= proceed fun d =>
        pure (some ⟨boolDatum (!datumBit d), d.isnull⟩) := by
  simp only [runEmitted, emitExprFmgrFull]
  cases emitExprFmgrFull cat (0 :: site) arg with
  | error pieces => simp only [Except.map, Traced.bind_assoc, Traced.pure_bind, proceed]
  | ok code => simp only [Except.map, FmgrCode.eval, Traced.bind_assoc, Traced.pure_bind, proceed]

/-- A node that computes something of all its arguments. -/
theorem runEmitted_node {site : Site} {e : PgExpr} {es : List PgExpr} {node : List FmgrCode → FmgrCode}
    {f : List NullableDatum → Eval σ NullableDatum}
    (emits : emitExprFmgrFull cat site e = (emitArgs cat site 0 es).map node)
    (runs : ∀ codes, (node codes).eval fns params site = FmgrCode.evalArgs fns params site 0 codes >>= f) :
    runEmitted cat fns params site e =
      runEmittedArgs cat fns params site 0 es >>= proceed fun ds => f ds >>= fun d => pure (some d) := by
  simp only [runEmitted, runEmittedArgs, emits]
  cases emitArgs cat site 0 es with
  | error pieces => simp only [Except.map, Traced.bind_assoc, Traced.pure_bind, proceed]
  | ok codes => simp only [Except.map, runs, Traced.bind_assoc, Traced.pure_bind, proceed]

theorem runEmitted_fold {e : PgExpr} {isAnd : Bool} {args : List PgExpr} (fold : IsFold e isAnd args)
    (site : Site) :
    runEmitted cat fns params site e =
      runEmittedArgs cat fns params site 0 args >>= proceed fun ds => pure (some (foldBool isAnd ds)) := by
  have emits : emitExprFmgrFull cat site e = (emitArgs cat site 0 args).map (.fold isAnd) := by
    cases fold <;> simp only [emitExprFmgrFull]
  have runs (codes : List FmgrCode) : (FmgrCode.fold isAnd codes).eval fns params site =
      FmgrCode.evalArgs fns params site 0 codes >>= fun ds => pure (foldBool isAnd ds) := by
    simp only [FmgrCode.eval]
  rw [runEmitted_node emits runs]
  simp only [Traced.pure_bind]

theorem runEmitted_poly {e : PgExpr} {funcid : Fid} {collation : Nat} {args : List PgExpr}
    (call : IsCall e funcid collation args) (poly : cat.hasPoly funcid = true) (site : Site) :
    runEmitted cat fns params site e = pure none := by
  have emits : emitExprFmgrFull cat site e = .error [] := by
    cases call with
    | op => simp only [emitExprFmgrFull, poly, if_true]
    | func collation notConst => simp only [emitExprFmgrFull, notConst, poly, if_true]
  simp only [runEmitted, emits, runPieces, Traced.pure_bind]

theorem runEmitted_call {e : PgExpr} {funcid : Fid} {collation : Nat} {args : List PgExpr}
    (call : IsCall e funcid collation args) (mono : cat.hasPoly funcid = false) (site : Site) :
    runEmitted cat fns params site e =
      runEmittedArgs cat fns params site 0 args >>= proceed fun ds =>
        callFunction fns site (cat.fnStrict funcid) funcid collation ds >>= fun d => pure (some d) := by
  have emits : emitExprFmgrFull cat site e =
      (emitArgs cat site 0 args).map (.call funcid (cat.fnStrict funcid) collation) := by
    cases call with
    | op => simp only [emitExprFmgrFull, mono, Bool.false_eq_true, if_false]
    | func collation notConst => simp only [emitExprFmgrFull, notConst, mono, Bool.false_eq_true, if_false]
  refine runEmitted_node emits fun codes => ?_
  simp only [FmgrCode.eval]

theorem runEmittedArgs_nil (site : Site) (k : Nat) :
    runEmittedArgs cat fns params site k [] = pure (some []) := by
  simp only [runEmittedArgs, emitArgs, FmgrCode.evalArgs, Traced.pure_bind]

theorem runEmittedArgs_cons (site : Site) (k : Nat) (e : PgExpr) (es : List PgExpr) :
    runEmittedArgs cat fns params site k (e :: es) =
      runEmitted cat fns params (k :: site) e >>= proceed fun d =>
        runEmittedArgs cat fns params site (k + 1) es >>= proceed fun ds => pure (some (d :: ds)) := by
  simp only [runEmittedArgs, emitArgs, runEmitted]
  cases emitExprFmgrFull cat (k :: site) e with
  | error pieces => simp only [Traced.bind_assoc, Traced.pure_bind, proceed]
  | ok code =>
    cases emitArgs cat site (k + 1) es with
    | error pieces => simp only [runPieces, Traced.bind_assoc, Traced.pure_bind, proceed]
    | ok codes => simp only [FmgrCode.evalArgs, Traced.bind_assoc, Traced.pure_bind, proceed]

variable {foreign : Site → PgExpr → Eval σ NullableDatum}

theorem execEval_leaf {e : PgExpr} {d d' : NullableDatum} (leaf : IsLeaf cat params e d d') (site : Site) :
    execEval cat fns params foreign site e = pure d' := by
  cases leaf with
  | const ty isnull v => simp only [execEval]
  | param external dno ty => simp only [execEval]
  | folded collation isConst => simp only [execEval, isConst]

theorem execEval_relabel (arg : PgExpr) (site : Site) :
    execEval cat fns params foreign site (.relabelType arg) = execEval cat fns params foreign site arg := by
  simp only [execEval]

theorem execEval_not (arg : PgExpr) (site : Site) :
    execEval cat fns params foreign site (.boolExpr .not [arg]) =
      execEval cat fns params foreign (0 :: site) arg >>= fun d => pure (execNot [d]) := by
  simp only [execEval, execArgs, Traced.bind_assoc, Traced.pure_bind]

theorem execEval_fold {e : PgExpr} {isAnd : Bool} {args : List PgExpr} (fold : IsFold e isAnd args)
    (site : Site) :
    execEval cat fns params foreign site e = execBool cat fns params foreign isAnd site 0 false args := by
  cases fold <;> simp only [execEval]

theorem execEval_call {e : PgExpr} {funcid : Fid} {collation : Nat} {args : List PgExpr}
    (call : IsCall e funcid collation args) (site : Site) :
    execEval cat fns params foreign site e =
      execArgs cat fns params foreign site 0 args >>= fun ds =>
        callFunction fns site (cat.fnStrict funcid) funcid collation ds := by
  cases call with
  | op => simp only [execEval]
  | func collation notConst => simp only [execEval, notConst]

/-- Trees that pass `uplpgsql_can_fmgr_compile` and are well typed. -/
def Tier2Tree (types : BoolTypes) (e : PgExpr) : Prop := canFmgrCompile e = true ∧ e.wellTyped types = true

def Tier2Trees (types : BoolTypes) (es : List PgExpr) : Prop :=
  canFmgrCompileAll es = true ∧ PgExpr.wellTypedAll types es = true

variable {types : BoolTypes}

theorem IsStuck.absurd {e : PgExpr} (stuck : IsStuck e) (tree : Tier2Tree types e) : False := by
  obtain ⟨can, typed⟩ := tree
  cases stuck with
  | notNone => simp [PgExpr.wellTyped] at typed
  | notMany => simp [PgExpr.wellTyped] at typed
  | subscriptingRef => cases can
  | other => cases can

theorem Tier2Tree.relabel {arg : PgExpr} (tree : Tier2Tree types (.relabelType arg)) : Tier2Tree types arg := by
  simpa [Tier2Tree, canFmgrCompile, PgExpr.wellTyped] using tree

theorem Tier2Tree.not {arg : PgExpr} (tree : Tier2Tree types (.boolExpr .not [arg])) :
    Tier2Tree types arg ∧ arg.isBoolean types = true := by
  obtain ⟨can, typed⟩ := tree
  simp only [canFmgrCompile, canFmgrCompileAll, Bool.and_true] at can
  simp only [PgExpr.wellTyped, PgExpr.wellTypedAll, List.all_cons, List.all_nil, Bool.and_true,
    Bool.and_eq_true] at typed
  exact ⟨⟨can, typed.2⟩, typed.1.2⟩

theorem Tier2Tree.fold {e : PgExpr} {isAnd : Bool} {args : List PgExpr} (tree : Tier2Tree types e)
    (fold : IsFold e isAnd args) : Tier2Trees types args ∧ args.all (·.isBoolean types) = true := by
  obtain ⟨can, typed⟩ := tree
  cases fold <;> simp only [canFmgrCompile, PgExpr.wellTyped, Bool.and_eq_true] at can typed <;>
    exact ⟨⟨can, typed.2⟩, typed.1.2⟩

theorem Tier2Tree.call {e : PgExpr} {funcid : Fid} {collation : Nat} {args : List PgExpr}
    (tree : Tier2Tree types e) (call : IsCall e funcid collation args) : Tier2Trees types args := by
  obtain ⟨can, typed⟩ := tree
  cases call with
  | op =>
    simp only [canFmgrCompile, PgExpr.wellTyped, Bool.and_eq_true] at can typed
    exact ⟨can.2, typed⟩
  | func =>
    simp only [canFmgrCompile, PgExpr.wellTyped, Bool.and_eq_true] at can typed
    exact ⟨can.2, typed.2⟩

theorem Tier2Trees.cons {e : PgExpr} {es : List PgExpr} (trees : Tier2Trees types (e :: es)) :
    Tier2Tree types e ∧ Tier2Trees types es := by
  obtain ⟨can, typed⟩ := trees
  simp only [canFmgrCompileAll, PgExpr.wellTypedAll, Bool.and_eq_true] at can typed
  exact ⟨⟨can.1, typed.1⟩, can.2, typed.2⟩

end Nodes

/-! ### Places -/

/-- The places of the arguments from the `k`-th on. -/
def UnderArgs (site : Site) (k : Nat) (place : Site) : Prop := ∃ j, k ≤ j ∧ (j :: site) <:+ place

namespace UnderArgs

variable {site place : Site} {k : Nat}

theorem here (under : (k :: site) <:+ place) : UnderArgs site k place := ⟨k, Nat.le_refl k, under⟩

theorem weaken (under : UnderArgs site (k + 1) place) : UnderArgs site k place := by
  obtain ⟨j, bound, suffix⟩ := under
  exact ⟨j, by omega, suffix⟩

theorem under (under : UnderArgs site k place) : site <:+ place := by
  obtain ⟨j, -, suffix⟩ := under
  exact (List.suffix_cons j site).trans suffix

/-- A place under one argument is not under a later one. -/
theorem apart (first : (k :: site) <:+ place) (later : UnderArgs site (k + 1) place) : False := by
  obtain ⟨j, bound, suffix⟩ := later
  have same : k :: site = j :: site :=
    (List.suffix_of_suffix_length_le first suffix (by simp)).eq_of_length (by simp)
  have : k = j := (List.cons.inj same).1
  omega

/-- A place under an argument is not the node's own. -/
theorem ne (under : UnderArgs site k place) (own : place = site) : False := by
  obtain ⟨j, -, suffix⟩ := under
  have := suffix.length_le
  simp only [own, List.length_cons] at this
  omega

end UnderArgs

section Places

open Traced

variable {σ : Type} {cat : Catalog} {fns : Functions σ} {params : Nat → NullableDatum}
  {foreign : Site → PgExpr → Eval σ NullableDatum} {types : BoolTypes}

/-- Calls at certain places, none of them twice. -/
structure Local {α : Type} (P : Site → Prop) (x : Eval σ α) : Prop where
  within : Within P x
  once : Once x

namespace Local

variable {α β : Type} {P : Site → Prop} {site : Site} {k : Nat} {x : Eval σ α} {f : α → Eval σ β}

theorem pure (P : Site → Prop) (a : α) : Local P (pure a : Eval σ α) := ⟨.pure _ _, .pure _⟩

theorem callFunction (site : Site) (fnStrict : Bool) (funcid : Fid) (collation : Nat)
    (ds : List NullableDatum) :
    Local (· = site) (callFunction fns site fnStrict funcid collation ds) := by
  unfold Uplpgsql.callFunction
  split
  · exact .pure _ _
  · exact ⟨by simp [Within], .event _ _⟩

theorem proceed {f : α → Eval σ (Option β)} (rest : ∀ a, Local P (f a)) (o : Option α) :
    Local P (proceed f o) := by
  cases o with
  | none => exact .pure _ _
  | some a => exact rest a

/-- What calls nothing may follow. -/
theorem quietly (loc : Local P x) (quiet : ∀ a, ∃ b, f a = Pure.pure b) : Local P (x >>= f) := by
  have still (a : α) : Local (fun _ => False) (f a) := by
    obtain ⟨b, eq⟩ := quiet a
    rw [eq]
    exact .pure _ _
  exact ⟨loc.within.bind fun a => (still a).within.mono fun _ => False.elim,
    .bind (fun _ _ no => no) loc.within (fun a => (still a).within) loc.once fun a => (still a).once⟩

/-- A node's arguments, then its own call. -/
theorem node (args : Local (UnderArgs site k) x) (own : ∀ a, Local (· = site) (f a)) :
    Local (site <:+ ·) (x >>= f) := by
  refine ⟨?_, .bind (fun _ => UnderArgs.ne) args.within (fun a => (own a).within) args.once
    fun a => (own a).once⟩
  refine (args.within.mono fun _ under => under.under).bind fun a => ?_
  exact (own a).within.mono fun _ here => here ▸ List.suffix_refl _

/-- One argument, then those after it. -/
theorem next (first : Local ((k :: site) <:+ ·) x) (rest : ∀ a, Local (UnderArgs site (k + 1)) (f a)) :
    Local (UnderArgs site k) (x >>= f) := by
  refine ⟨?_, .bind (fun _ => UnderArgs.apart) first.within (fun a => (rest a).within) first.once
    fun a => (rest a).once⟩
  exact (first.within.mono fun _ => .here).bind fun a => (rest a).within.mono fun _ => .weaken

theorem only (first : Local ((k :: site) <:+ ·) x) : Local (UnderArgs site k) x :=
  ⟨first.within.mono fun _ => .here, first.once⟩

end Local

theorem emittedPlaces : NodeCases cat params
    (fun e => ∀ site, Local (site <:+ ·) (runEmitted cat fns params site e))
    (fun es => ∀ site k, Local (UnderArgs site k) (runEmittedArgs cat fns params site k es)) where
  leaf leaf site := by
    rw [runEmitted_leaf leaf]
    exact .pure _ _
  relabel arg ih site := by
    rw [runEmitted_relabel]
    exact ih site
  not arg ih site := by
    rw [runEmitted_not]
    exact (ih (0 :: site)).only.node (Local.proceed fun _ => .pure _ _)
  fold fold ih site := by
    rw [runEmitted_fold fold]
    exact (ih site 0).node (Local.proceed fun _ => .pure _ _)
  call {e funcid collation args} call ih site := by
    cases poly : cat.hasPoly funcid with
    | true =>
      rw [runEmitted_poly call poly]
      exact .pure _ _
    | false =>
      rw [runEmitted_call call poly]
      refine (ih site 0).node (Local.proceed fun ds => ?_)
      exact (Local.callFunction site _ _ _ ds).quietly fun d => ⟨_, rfl⟩
  stuck stuck site := by
    rw [runEmitted_stuck stuck]
    exact .pure _ _
  nil site k := by
    rw [runEmittedArgs_nil]
    exact .pure _ _
  cons e es first rest site k := by
    rw [runEmittedArgs_cons]
    refine (first (k :: site)).next (Local.proceed fun d => ?_)
    refine (rest site (k + 1)).quietly fun o => ?_
    cases o <;> exact ⟨_, rfl⟩

theorem execPlaces : NodeCases cat params
    (fun e => Tier2Tree types e → ∀ site, Local (site <:+ ·) (execEval cat fns params foreign site e))
    (fun es => Tier2Trees types es →
      (∀ site k, Local (UnderArgs site k) (execArgs cat fns params foreign site k es)) ∧
        ∀ isAnd site k anyNull,
          Local (UnderArgs site k) (execBool cat fns params foreign isAnd site k anyNull es)) where
  leaf leaf _ site := by
    rw [execEval_leaf leaf]
    exact .pure _ _
  relabel arg ih tree site := by
    rw [execEval_relabel]
    exact ih tree.relabel site
  not arg ih tree site := by
    rw [execEval_not]
    exact (ih tree.not.1 (0 :: site)).only.node fun _ => .pure _ _
  fold {e isAnd args} fold ih tree site := by
    rw [execEval_fold fold]
    have args := (ih (tree.fold fold).1).2 isAnd site 0 false
    exact ⟨args.within.mono fun _ under => under.under, args.once⟩
  call call ih tree site := by
    rw [execEval_call call]
    exact ((ih (tree.call call)).1 site 0).node fun ds => .callFunction site _ _ _ ds
  stuck stuck tree := (stuck.absurd tree).elim
  nil _ := by
    refine ⟨fun site k => ?_, fun isAnd site k anyNull => ?_⟩
    · rw [execArgs]
      exact .pure _ _
    · rw [execBool]
      exact .pure _ _
  cons e es first rest trees := by
    obtain ⟨restArgs, restBool⟩ := rest trees.cons.2
    refine ⟨fun site k => ?_, fun isAnd site k anyNull => ?_⟩
    · rw [execArgs]
      refine (first trees.cons.1 (k :: site)).next fun d => ?_
      exact (restArgs site (k + 1)).quietly fun ds => ⟨_, rfl⟩
    · rw [execBool]
      refine (first trees.cons.1 (k :: site)).next fun d => ?_
      split
      · exact restBool isAnd site (k + 1) true
      · split
        · exact .pure _ _
        · exact restBool isAnd site (k + 1) anyNull

theorem runEmitted_local (site : Site) (e : PgExpr) :
    Local (site <:+ ·) (runEmitted cat fns params site e) :=
  emittedPlaces.node e site

theorem runEmittedArgs_local (site : Site) (k : Nat) (es : List PgExpr) :
    Local (UnderArgs site k) (runEmittedArgs cat fns params site k es) :=
  emittedPlaces.list es site k

theorem execEval_local {e : PgExpr} (tree : Tier2Tree types e) (site : Site) :
    Local (site <:+ ·) (execEval cat fns params foreign site e) :=
  execPlaces.node e tree site

theorem execArgs_local {es : List PgExpr} (trees : Tier2Trees types es) (site : Site) (k : Nat) :
    Local (UnderArgs site k) (execArgs cat fns params foreign site k es) :=
  (execPlaces.list es trees).1 site k

theorem execBool_local {es : List PgExpr} (trees : Tier2Trees types es) (isAnd : Bool) (site : Site)
    (k : Nat) (anyNull : Bool) :
    Local (UnderArgs site k) (execBool cat fns params foreign isAnd site k anyNull es) :=
  (execPlaces.list es trees).2 isAnd site k anyNull

end Places

end Uplpgsql
