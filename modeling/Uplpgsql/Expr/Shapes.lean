import Uplpgsql.Expr.Tier1

/-!
# What the classifier accepts

The integer expressions and conditions of Tier 1 as derivations: one rule for
each kind of node, with the sizes of its operands. Everything about compiled
expressions goes by induction on these.
-/

namespace Uplpgsql

def IntSize.cls : IntSize → ExprTypeClass
  | .i32 => .int4
  | .i64 => .int8

def TypeOid.isInt : TypeOid → Bool
  | .int4 | .int8 => true
  | _ => false

def Fid.arity : Fid → Nat
  | .int4um | .int8um | .int4abs | .int8abs => 1
  | _ => 2

/-- The sizes of a binary operator's operands and of its result. -/
def Fid.sizes : Fid → Option (IntSize × IntSize × IntSize)
  | .int4pl | .int4mi | .int4mul | .int4div | .int4mod => some (.i32, .i32, .i32)
  | .int8pl | .int8mi | .int8mul | .int8div | .int8mod => some (.i64, .i64, .i64)
  | .int84pl | .int84mi | .int84mul | .int84div => some (.i64, .i32, .i64)
  | .int48pl | .int48mi | .int48mul | .int48div => some (.i32, .i64, .i64)
  | _ => none

-- Many proofs ask for these equations at once; here they are made for all of them.
section Equations

attribute [local simp] classifyExpr classifiesAll classifyFunc Fid.opRule IntSize.cls
  TypeOid.exprClass TypeOid.isInt Fid.sizes Fid.arity

end Equations

theorem Fid.arity_le (fid : Fid) : fid.arity ≤ 2 := by
  unfold Fid.arity
  split <;> decide

section Trees

variable (natives : Nat → Option IntSize)

mutual

/-- Trees over integer and boolean constants and variables and over elements of
integer arrays, as parse analysis leaves them: a boolean Datum is 0 or 1, every
function has its arguments, and the elements of an array have its element type. -/
def intTree : PgExpr → Bool
  | .const ty _ v => ty.isInt || ty = .bool && (v = 0 || v = 1)
  | .param _ _ ty => ty.isInt || ty = .bool
  | .opExpr fid _ args => args.length == fid.arity && intTrees args
  | .funcExpr fid _ args => args.length == fid.arity && intTrees args
  | .relabelType arg => classifyExpr arg ≠ .bool && intTree arg
  | .subscriptingRef ty (.param _ dno _) [idx] _ _ =>
    ty.isInt && intTree idx &&
      match natives dno with
      | some s => ty.exprClass = s.cls
      | none => true
  | _ => false

def intTrees : List PgExpr → Bool
  | [] => true
  | e :: es => intTree e && intTrees es

end

section Equations

attribute [local simp] intTree intTrees

end Equations

/-- An integer expression of a size. -/
inductive IntShape : IntSize → PgExpr → Prop where
  | const {s : IntSize} {ty : TypeOid} {v : BitVec 64} (own : ty.exprClass = s.cls) :
      IntShape s (.const ty false v)
  | param {s : IntSize} {dno : Nat} {ty : TypeOid} (own : ty.exprClass = s.cls) :
      IntShape s (.param true dno ty)
  | binary {sl sr s : IntSize} {fid : Fid} {coll : Nat} {el er : PgExpr}
      (sizes : fid.sizes = some (sl, sr, s)) (left : IntShape sl el) (right : IntShape sr er) :
      IntShape s (.opExpr fid coll [el, er])
  | negate {s : IntSize} {fid : Fid} {coll : Nat} {arg : PgExpr}
      (negates : fid = .int4um ∧ s = .i32 ∨ fid = .int8um ∧ s = .i64) (operand : IntShape s arg) :
      IntShape s (.opExpr fid coll [arg])
  | abs {s : IntSize} {fid : Fid} {coll : Nat} {arg : PgExpr}
      (absolute : fid = .int4abs ∧ s = .i32 ∨ fid = .int8abs ∧ s = .i64) (operand : IntShape s arg) :
      IntShape s (.funcExpr fid coll [arg])
  | relabel {s : IntSize} {arg : PgExpr} (operand : IntShape s arg) : IntShape s (.relabelType arg)
  | elem {s : IntSize} {ty pty : TypeOid} {dno : Nat} {idx : PgExpr} (own : ty.exprClass = s.cls)
      (typed : ∀ t, natives dno = some t → t = s) (subscript : IntShape .i32 idx) :
      IntShape s (.subscriptingRef ty (.param true dno pty) [idx] [] false)

/-- A condition. -/
inductive CondShape : PgExpr → Prop where
  | const {v : BitVec 64} (datum : v = 0 ∨ v = 1) : CondShape (.const .bool false v)
  | param {dno : Nat} : CondShape (.param true dno .bool)
  | compare {sl sr : IntSize} {fid : Fid} {coll : Nat} {el er : PgExpr} {pred : IntPredicate}
      {cross : Bool} (compares : fid.intPredicate = some (pred, cross)) (same : cross = false → sl = sr)
      (left : IntShape natives sl el) (right : IntShape natives sr er) :
      CondShape (.opExpr fid coll [el, er])
  | equate {fid : Fid} {coll : Nat} {el er : PgExpr} (bools : fid = .booleq ∨ fid = .boolne)
      (left : CondShape el) (right : CondShape er) : CondShape (.opExpr fid coll [el, er])

variable {s : IntSize}

theorem IntSize.cls_inj {t : IntSize} (same : s.cls = t.cls) : s = t := by
  cases s <;> cases t <;> first | rfl | cases same

theorem IntSize.unknown_ne_cls (s : IntSize) : ExprTypeClass.unknown ≠ s.cls := by
  cases s <;> decide

theorem IntSize.cls_ne_bool (s : IntSize) : s.cls ≠ .bool := by
  cases s <;> decide

/-- A rule for two operands with an integer result. -/
theorem opRule_two {fid : Fid} {left right : ExprTypeClass}
    (rule : fid.opRule = some (.two left right s.cls)) :
    ∃ sl sr, fid.sizes = some (sl, sr, s) ∧ left = sl.cls ∧ right = sr.cls := by
  cases s <;> cases fid <;> simp_all [Fid.opRule, Fid.sizes, IntSize.cls]

theorem opRule_all_binary {fid : Fid} {result : ExprTypeClass} (rule : fid.opRule = some (.all result))
    (binary : fid.arity = 2) : ∃ t : IntSize, result = t.cls ∧ fid.sizes = some (t, t, t) := by
  cases fid <;> simp [Fid.opRule, Fid.arity] at rule binary <;> subst rule
  all_goals first | exact ⟨.i32, rfl, rfl⟩ | exact ⟨.i64, rfl, rfl⟩

theorem opRule_all_unary {fid : Fid} {result : ExprTypeClass} (rule : fid.opRule = some (.all result))
    (unary : fid.arity = 1) :
    fid = .int4um ∧ result = .int4 ∨ fid = .int8um ∧ result = .int8 := by
  cases fid <;> simp [Fid.opRule, Fid.arity] at rule unary <;> subst rule
  · exact .inl ⟨rfl, rfl⟩
  · exact .inr ⟨rfl, rfl⟩

theorem classify_binary {fid : Fid} {coll : Nat} {el er : PgExpr}
    (cls : classifyExpr (.opExpr fid coll [el, er]) = s.cls) (binary : fid.arity = 2) :
    ∃ sl sr, fid.sizes = some (sl, sr, s) ∧ classifyExpr el = sl.cls ∧ classifyExpr er = sr.cls := by
  rw [classifyExpr] at cls
  split at cls
  next result rule =>
    obtain ⟨t, rfl, sizes⟩ := opRule_all_binary rule binary
    split at cls
    next both =>
      obtain rfl := IntSize.cls_inj cls
      simp only [classifiesAll, Bool.and_true, Bool.and_eq_true, decide_eq_true_eq] at both
      exact ⟨t, t, sizes, both⟩
    next => exact absurd cls s.unknown_ne_cls
  next left right result rule =>
    simp only at cls
    split at cls
    next both =>
      subst cls
      obtain ⟨sl, sr, sizes, rfl, rfl⟩ := opRule_two rule
      exact ⟨sl, sr, sizes, both⟩
    next => exact absurd cls s.unknown_ne_cls
  next => exact absurd cls s.unknown_ne_cls

theorem classify_unary {fid : Fid} {coll : Nat} {arg : PgExpr}
    (cls : classifyExpr (.opExpr fid coll [arg]) = s.cls) (unary : fid.arity = 1) :
    (fid = .int4um ∧ s = .i32 ∨ fid = .int8um ∧ s = .i64) ∧ classifyExpr arg = s.cls := by
  rw [classifyExpr] at cls
  split at cls
  next result rule =>
    split at cls
    next one =>
      simp only [classifiesAll, Bool.and_true, decide_eq_true_eq] at one
      subst cls
      refine ⟨?_, one⟩
      rcases opRule_all_unary rule unary with ⟨rfl, int4⟩ | ⟨rfl, int8⟩
      · exact .inl ⟨rfl, IntSize.cls_inj int4⟩
      · exact .inr ⟨rfl, IntSize.cls_inj int8⟩
    next => exact absurd cls s.unknown_ne_cls
  next => exact absurd cls s.unknown_ne_cls
  next => exact absurd cls s.unknown_ne_cls

theorem classify_abs {fid : Fid} {coll : Nat} {arg : PgExpr}
    (cls : classifyExpr (.funcExpr fid coll [arg]) = s.cls) :
    (fid = .int4abs ∧ s = .i32 ∨ fid = .int8abs ∧ s = .i64) ∧ classifyExpr arg = s.cls := by
  change classifyFunc fid arg.isConst (classifyExpr arg) = s.cls at cls
  unfold classifyFunc at cls
  split at cls
  · split at cls
    next int4 => exact ⟨.inl ⟨rfl, (IntSize.cls_inj (s := .i32) cls).symm⟩, int4.trans cls⟩
    next => exact absurd cls s.unknown_ne_cls
  · split at cls
    next int8 => exact ⟨.inr ⟨rfl, (IntSize.cls_inj (s := .i64) cls).symm⟩, int8.trans cls⟩
    next => exact absurd cls s.unknown_ne_cls
  · split at cls
    · cases s <;> cases cls
    · exact absurd cls s.unknown_ne_cls
  · exact absurd cls s.unknown_ne_cls

theorem classify_subscript {ty pty : TypeOid} {external : Bool} {dno : Nat} {idx : PgExpr}
    {lower : List PgExpr} {assign : Bool}
    (cls : classifyExpr (.subscriptingRef ty (.param external dno pty) [idx] lower assign) ≠ .unknown) :
    classifyExpr (.subscriptingRef ty (.param external dno pty) [idx] lower assign) = ty.exprClass ∧
      classifyExpr idx = IntSize.i32.cls ∧ external = true ∧ lower = [] ∧ assign = false := by
  cases external with
  | false => exact absurd rfl cls
  | true =>
    cases lower with
    | cons _ _ => exact absurd rfl cls
    | nil =>
      cases assign with
      | true => exact absurd rfl cls
      | false =>
        rw [classifyExpr] at cls ⊢
        split at cls
        next int4 => exact ⟨if_pos int4, int4, rfl, rfl, rfl⟩
        next => exact absurd rfl cls

/-- The operators of class bool. -/
theorem opRule_bool {fid : Fid} {left right : ExprTypeClass}
    (rule : fid.opRule = some (.two left right .bool)) :
    (fid = .booleq ∨ fid = .boolne) ∧ left = .bool ∧ right = .bool ∨
    ∃ (sl sr : IntSize) (pred : IntPredicate) (cross : Bool), left = sl.cls ∧ right = sr.cls ∧
      fid.intPredicate = some (pred, cross) ∧ (cross = false → sl = sr) := by
  cases fid <;> simp only [Fid.opRule, Option.some.injEq, OpRule.two.injEq, reduceCtorEq, and_false,
    and_true] at rule <;> obtain ⟨rfl, rfl⟩ := rule
  case booleq => exact .inl ⟨.inl rfl, rfl, rfl⟩
  case boolne => exact .inl ⟨.inr rfl, rfl, rfl⟩
  all_goals
    first
    | exact .inr ⟨.i32, .i32, _, _, rfl, rfl, rfl, fun _ => rfl⟩
    | exact .inr ⟨.i64, .i64, _, _, rfl, rfl, rfl, fun _ => rfl⟩
    | exact .inr ⟨.i64, .i32, _, _, rfl, rfl, rfl, fun same => (nomatch same)⟩
    | exact .inr ⟨.i32, .i64, _, _, rfl, rfl, rfl, fun same => (nomatch same)⟩

theorem classify_bool {fid : Fid} {coll : Nat} {args : List PgExpr}
    (cls : classifyExpr (.opExpr fid coll args) = .bool) :
    ∃ el er left right, args = [el, er] ∧ fid.opRule = some (.two left right .bool) ∧
      classifyExpr el = left ∧ classifyExpr er = right := by
  rw [classifyExpr] at cls
  split at cls
  next result rule =>
    split at cls
    · subst cls
      cases fid <;> simp [Fid.opRule] at rule
    · cases cls
  next left right result rule =>
    split at cls
    next el er =>
      split at cls
      next both =>
        subst cls
        exact ⟨el, er, left, right, rfl, rule, both⟩
      next => cases cls
    next => cases cls
  next => cases cls

theorem classify_func_ne_bool (fid : Fid) (coll : Nat) (args : List PgExpr) :
    classifyExpr (.funcExpr fid coll args) ≠ .bool := by
  match args with
  | [] => nofun
  | _ :: _ :: _ => nofun
  | [arg] =>
    change classifyFunc fid arg.isConst (classifyExpr arg) ≠ .bool
    unfold classifyFunc
    repeat' split
    all_goals nofun

theorem TypeOid.eq_bool {ty : TypeOid} (cls : ty.exprClass = .bool) : ty = .bool := by
  cases ty <;> first | rfl | cases cls

theorem TypeOid.isInt_ne_bool {ty : TypeOid} (int : ty.isInt = true) : ty.exprClass ≠ .bool := by
  cases ty <;> simp_all [TypeOid.isInt, TypeOid.exprClass]

variable {natives}

/-- Every tree that is classified as an integer has a derivation. -/
theorem intShape_of_classify :
    ∀ (e : PgExpr) {s : IntSize}, intTree natives e = true → classifyExpr e = s.cls →
      IntShape natives s e
  | .const ty isnull v, s, tree, cls => by
    rw [classifyExpr] at cls
    split at cls
    next => exact absurd cls s.unknown_ne_cls
    next notnull =>
      obtain rfl : isnull = false := by simpa using notnull
      exact .const cls
  | .param external dno ty, s, tree, cls => by
    rw [classifyExpr] at cls
    split at cls
    next external =>
      subst external
      exact .param cls
    next => exact absurd cls s.unknown_ne_cls
  | .opExpr fid coll [el, er], s, tree, cls => by
    simp only [intTree, intTrees, Bool.and_eq_true, beq_iff_eq] at tree
    obtain ⟨sl, sr, sizes, clsl, clsr⟩ := classify_binary cls tree.1.symm
    exact .binary sizes (intShape_of_classify el tree.2.1 clsl)
      (intShape_of_classify er tree.2.2.1 clsr)
  | .opExpr fid coll [arg], s, tree, cls => by
    simp only [intTree, intTrees, Bool.and_eq_true, beq_iff_eq] at tree
    obtain ⟨negates, clsa⟩ := classify_unary cls tree.1.symm
    exact .negate negates (intShape_of_classify arg tree.2.1 clsa)
  | .opExpr fid coll [], s, tree, cls => by
    cases fid <;> cases tree
  | .opExpr fid coll (_ :: _ :: _ :: _), s, tree, cls => by
    simp only [intTree, List.length_cons, Bool.and_eq_true, beq_iff_eq] at tree
    have few : fid.arity ≤ 2 := fid.arity_le
    omega
  | .funcExpr fid coll [arg], s, tree, cls => by
    simp only [intTree, intTrees, Bool.and_eq_true, beq_iff_eq] at tree
    obtain ⟨absolute, clsa⟩ := classify_abs cls
    exact .abs absolute (intShape_of_classify arg tree.2.1 clsa)
  | .funcExpr fid coll [], s, tree, cls => absurd cls s.unknown_ne_cls
  | .funcExpr fid coll (_ :: _ :: _), s, tree, cls => absurd cls s.unknown_ne_cls
  | .relabelType arg, s, tree, cls => by
    simp only [intTree, Bool.and_eq_true] at tree
    rw [classifyExpr] at cls
    exact .relabel (intShape_of_classify arg tree.2 cls)
  | .subscriptingRef ty (.param external dno pty) [idx] lower assign, s, tree, cls => by
    simp only [intTree, Bool.and_eq_true] at tree
    obtain ⟨own, clsi, rfl, rfl, rfl⟩ :=
      classify_subscript (by rw [cls]; exact s.unknown_ne_cls.symm)
    rw [cls] at own
    refine .elem own.symm (fun t native => ?_) (intShape_of_classify idx tree.1.2 clsi)
    have typed : ty.exprClass = t.cls := by simpa [native] using tree.2
    exact IntSize.cls_inj (typed.symm.trans own.symm)
  | .boolExpr op args, s, tree, cls => absurd cls s.unknown_ne_cls
  | .other, s, tree, cls => absurd cls s.unknown_ne_cls

/-- So has every tree that is classified as a condition. -/
theorem condShape_of_classify :
    ∀ e : PgExpr, intTree natives e = true → classifyExpr e = .bool → CondShape natives e
  | .const ty isnull v, tree, cls => by
    rw [classifyExpr] at cls
    split at cls
    next => cases cls
    next notnull =>
      obtain rfl : isnull = false := by simpa using notnull
      obtain rfl := TypeOid.eq_bool cls
      exact .const (by simpa [intTree, TypeOid.isInt] using tree)
  | .param external dno ty, tree, cls => by
    rw [classifyExpr] at cls
    split at cls
    next external =>
      obtain rfl := TypeOid.eq_bool cls
      subst external
      exact .param
    next => cases cls
  | .opExpr fid coll [el, er], tree, cls => by
    simp only [intTree, intTrees, Bool.and_eq_true, beq_iff_eq] at tree
    obtain ⟨-, treel, treer, -⟩ := tree
    obtain ⟨_, _, left, right, same, rule, clsl, clsr⟩ := classify_bool cls
    cases same
    rcases opRule_bool rule with ⟨bools, rfl, rfl⟩ | ⟨sl, sr, pred, cross, rfl, rfl, compares, sizes⟩
    · exact .equate bools (condShape_of_classify el treel clsl) (condShape_of_classify er treer clsr)
    · exact .compare compares sizes (intShape_of_classify el treel clsl)
        (intShape_of_classify er treer clsr)
  | .opExpr fid coll [], tree, cls | .opExpr fid coll [_], tree, cls
  | .opExpr fid coll (_ :: _ :: _ :: _), tree, cls => by
    obtain ⟨_, _, _, _, same, _⟩ := classify_bool cls
    cases same
  | .funcExpr fid coll args, tree, cls => absurd cls (classify_func_ne_bool fid coll args)
  | .relabelType arg, tree, cls => by
    simp only [intTree, Bool.and_eq_true, decide_eq_true_eq] at tree
    rw [classifyExpr] at cls
    exact absurd cls tree.1
  | .subscriptingRef ty (.param external dno pty) [idx] lower assign, tree, cls => by
    simp only [intTree, Bool.and_eq_true] at tree
    obtain ⟨own, -⟩ := classify_subscript (by rw [cls]; nofun)
    exact absurd (own.symm.trans cls) (TypeOid.isInt_ne_bool tree.1.1)

theorem IntShape.classify {e : PgExpr} (shape : IntShape natives s e) : classifyExpr e = s.cls := by
  induction shape with
  | const own => simpa [classifyExpr] using own
  | param own => simpa [classifyExpr] using own
  | @binary sl sr s fid coll el er sizes _ _ ihl ihr =>
    cases fid <;> simp only [Fid.sizes, reduceCtorEq, Option.some.injEq, Prod.mk.injEq] at sizes <;>
      obtain ⟨rfl, rfl, rfl⟩ := sizes
    all_goals simp [classifyExpr, Fid.opRule, classifiesAll, ihl, ihr, IntSize.cls]
  | negate negates _ ih =>
    rcases negates with ⟨rfl, rfl⟩ | ⟨rfl, rfl⟩
    · simp [classifyExpr, Fid.opRule, classifiesAll, ih, IntSize.cls]
    · simp [classifyExpr, Fid.opRule, classifiesAll, ih, IntSize.cls]
  | abs absolute _ ih =>
    rcases absolute with ⟨rfl, rfl⟩ | ⟨rfl, rfl⟩
    · simp [classifyExpr, classifyFunc, ih, IntSize.cls]
    · simp [classifyExpr, classifyFunc, ih, IntSize.cls]
  | relabel _ ih => rw [classifyExpr, ih]
  | @elem s ty pty dno idx own _ _ ih =>
    have int4 : classifyExpr idx = .int4 := ih
    rw [classifyExpr, if_pos int4, own]

end Trees

end Uplpgsql
