import Uplpgsql.Expr.Generators

/-!
# The classifier and the generators

Once the classifier has named a class, the compiler is committed: a generator
that has no code for the tree throws the whole function back to the
interpreter. What the classifier accepts is a derivation, and the generators
are followed along it.
-/

namespace Uplpgsql.Tier1

/-! ### The callers -/

/-- Where the compiler commits to what the classifier answered. -/
inductive Context where
  /-- Of a variable of a type. -/
  | assignment (target : TypeOid)
  | condition
  /-- The value for an element of a native array, or of an ordinary one. -/
  | nativeElement
  | arrayElement
  | subscript
  deriving DecidableEq, Repr

def Context.commits : Context → PgExpr → Bool
  | .assignment target, e => classifyExpr e ≠ .unknown && classifyExpr e = target.oidToTypeClass
  | .condition, e => classifyExpr e = .bool
  | .nativeElement, e => classifyExpr e ≠ .unknown
  | .arrayElement, e => classifyExpr e ≠ .unknown
  | .subscript, e => classifyExpr e = .int4

inductive Generated where
  | value (v : Value)
  | cond (c : CondCode)

def Generated.type : Generated → LlvmType
  | .value v => v.type
  | .cond _ => .i1

/-- The generators as the caller of a context runs them. -/
def Context.generate (natives : Nat → Option ElemType) (ctx : Context) (e : PgExpr) :
    Gen Generated :=
  match ctx with
  | .assignment _ => do
    let _ ← tier1ExprAnyNull natives e
    let result ← compileExprDatum natives e
    let _ ← nativeToDatum result (classifyExpr e)
    .ok (.value result)
  | .condition => do
    let _ ← tier1ExprAnyNull natives e
    .ok (.cond (← compileExprBool natives e))
  -- a native array's element is stored as it is, and as a Datum on the slow path
  | .nativeElement | .arrayElement => do
    let value ← tier1CompileValueGuarded natives e (classifyExpr e)
    let _ ← nativeToDatum value (classifyExpr e)
    .ok (.value value)
  | .subscript => do
    let _ ← tier1ExprAnyNull natives e
    .ok (.value (← compileExprDatum natives e))

/-! ### What the generators cover -/

def isNullConst : PgExpr → Bool
  | .const _ constisnull _ => constisnull
  | _ => false

mutual

/-- No float4 and no NULL numeric is cast to float8 in the tree. -/
def castsCovered : PgExpr → Bool
  | .opExpr _ _ args => allCastsCovered args
  | .funcExpr fid _ args =>
    floatFid fid ≠ some .float8Float4 && !(fid = .float8Numeric && args.any isNullConst) &&
      allCastsCovered args
  | .relabelType arg => castsCovered arg
  | .boolExpr _ args => allCastsCovered args
  | .subscriptingRef _ refexpr upper _ _ => castsCovered refexpr && allCastsCovered upper
  | _ => true

def allCastsCovered : List PgExpr → Bool
  | [] => true
  | e :: es => castsCovered e && allCastsCovered es

end

mutual

/-- No array element and no relabelled value is a condition by itself, or an operand of
boolean equality. -/
def conditionsCovered : PgExpr → Bool
  | .const _ _ _ => true
  | .param _ _ _ => true
  | .opExpr fid _ args => !(fid = .booleq || fid = .boolne) || allConditionsCovered args
  | _ => false

def allConditionsCovered : List PgExpr → Bool
  | [] => true
  | e :: es => conditionsCovered e && allConditionsCovered es

end

/-- The operators that return a boolean. -/
def returnsBool (fid : Fid) : Bool :=
  ((floatFid fid).bind FloatFid.predicate).isSome || fid.intPredicate.isSome || fid = .booleq ||
    fid = .boolne

/-- A value of type boolean. -/
def isBoolean : PgExpr → Bool
  | .const ty _ _ => ty = .bool
  | .param _ _ ty => ty = .bool
  | .opExpr fid _ _ => returnsBool fid
  | .relabelType arg => isBoolean arg
  | .subscriptingRef ty _ _ _ _ => ty = .bool
  | _ => false

def Context.covers (e : PgExpr) : Context → Bool
  | .assignment _ => castsCovered e
  | .condition => castsCovered e && conditionsCovered e
  | .nativeElement => castsCovered e && !isBoolean e
  | .arrayElement => castsCovered e && !isBoolean e
  | .subscript => castsCovered e

/-! ### Trees as parse analysis leaves them -/

def FloatFid.nargs : FloatFid → Nat
  | .float8pl | .float8mi | .float8mul | .float8div | .float8eq | .float8ne | .float8lt | .float8le
  | .float8gt | .float8ge | .dpow | .powFloat8Float8 | .powerFloat8Float8 => 2
  | _ => 1

/-- The `pronargs` of a function with a name. -/
def nargs (fid : Fid) : Option Nat :=
  match floatFid fid, fid with
  | some f, _ => some f.nargs
  | none, .float8Numeric => some 1
  | none, .other _ => none
  | none, fid => some fid.arity

def elemtypeToClass : ElemType → ExprTypeClass
  | .int4 => .int4
  | .int8 => .int8
  | .float8 => .float8

mutual

/-- A function that Tier 1 knows has its arguments, and what is read from a
native array has its element type. -/
def analysed (natives : Nat → Option ElemType) : PgExpr → Bool
  | .opExpr fid _ args => (nargs fid).all (args.length == ·) && allAnalysed natives args
  | .funcExpr fid _ args => (nargs fid).all (args.length == ·) && allAnalysed natives args
  | .relabelType arg => analysed natives arg
  | .boolExpr _ args => allAnalysed natives args
  | .subscriptingRef ty (.param _ dno _) upper _ _ =>
    (natives dno).all (elemtypeToClass · = ty.exprClass) && allAnalysed natives upper
  | _ => true

def allAnalysed (natives : Nat → Option ElemType) : List PgExpr → Bool
  | [] => true
  | e :: es => analysed natives e && allAnalysed natives es

end

/-! ### Derivations -/

section Accepted

variable (natives : Nat → Option ElemType)

/-- What the classifier accepts, by class. Only the two casts to float8 that it
does not look into have no premise. -/
inductive Accepted : ExprTypeClass → PgExpr → Prop where
  | const {cls : ExprTypeClass} {ty : TypeOid} {v : BitVec 64} (own : ty.exprClass = cls)
      (known : cls ≠ .unknown) : Accepted cls (.const ty false v)
  | param {cls : ExprTypeClass} {ty : TypeOid} {dno : Nat} (own : ty.exprClass = cls)
      (known : cls ≠ .unknown) : Accepted cls (.param true dno ty)
  | binary {sl sr s : IntSize} {fid : Fid} {coll : Nat} {el er : PgExpr}
      (sizes : fid.sizes = some (sl, sr, s)) (left : Accepted sl.cls el)
      (right : Accepted sr.cls er) : Accepted s.cls (.opExpr fid coll [el, er])
  | negate {s : IntSize} {fid : Fid} {coll : Nat} {arg : PgExpr}
      (negates : fid = .int4um ∧ s = .i32 ∨ fid = .int8um ∧ s = .i64)
      (operand : Accepted s.cls arg) : Accepted s.cls (.opExpr fid coll [arg])
  | abs {s : IntSize} {fid : Fid} {coll : Nat} {arg : PgExpr}
      (absolute : fid = .int4abs ∧ s = .i32 ∨ fid = .int8abs ∧ s = .i64)
      (operand : Accepted s.cls arg) : Accepted s.cls (.funcExpr fid coll [arg])
  | floatBinary {f : FloatFid} {fid : Fid} {coll : Nat} {el er : PgExpr}
      (named : floatFid fid = some f) (computes : f.opRule = some (.all .float8))
      (binary : f.nargs = 2) (left : Accepted .float8 el) (right : Accepted .float8 er) :
      Accepted .float8 (.opExpr fid coll [el, er])
  | floatNegate {fid : Fid} {coll : Nat} {arg : PgExpr} (named : floatFid fid = some .float8um)
      (operand : Accepted .float8 arg) : Accepted .float8 (.opExpr fid coll [arg])
  | call {f : FloatFid} {fid : Fid} {coll : Nat} {cls : ExprTypeClass} {arg : PgExpr}
      (named : floatFid fid = some f) (takes : f.classifyFunc cls = .float8)
      (asks : f ≠ .float8Float4) (operand : Accepted cls arg) :
      Accepted .float8 (.funcExpr fid coll [arg])
  | pow {fid : Fid} {coll : Nat} {el er : PgExpr} (power : isPow fid = true)
      (left : Accepted .float8 el) (right : Accepted .float8 er) :
      Accepted .float8 (.funcExpr fid coll [el, er])
  | castFloat4 {fid : Fid} {coll : Nat} {arg : PgExpr} (named : floatFid fid = some .float8Float4) :
      Accepted .float8 (.funcExpr fid coll [arg])
  | castNumeric {coll : Nat} {ty : TypeOid} {isnull : Bool} {v : BitVec 64} :
      Accepted .float8 (.funcExpr .float8Numeric coll [.const ty isnull v])
  | relabel {cls : ExprTypeClass} {arg : PgExpr} (operand : Accepted cls arg) :
      Accepted cls (.relabelType arg)
  | elem {cls : ExprTypeClass} {ty pty : TypeOid} {dno : Nat} {idx : PgExpr}
      (own : ty.exprClass = cls) (known : cls ≠ .unknown)
      (typed : ∀ t, natives dno = some t → elemtypeToClass t = cls)
      (subscript : Accepted .int4 idx) :
      Accepted cls (.subscriptingRef ty (.param true dno pty) [idx] [] false)
  | compare {sl sr : IntSize} {fid : Fid} {coll : Nat} {el er : PgExpr} {pred : IntPredicate}
      {cross : Bool} (rule : fid.opRule = some (.two sl.cls sr.cls .bool))
      (compares : fid.intPredicate = some (pred, cross)) (same : cross = false → sl = sr)
      (left : Accepted sl.cls el) (right : Accepted sr.cls er) :
      Accepted .bool (.opExpr fid coll [el, er])
  | floatCompare {f : FloatFid} {fid : Fid} {coll : Nat} {el er : PgExpr} {pred : FloatPredicate}
      (named : floatFid fid = some f) (compares : f.predicate = some pred)
      (left : Accepted .float8 el) (right : Accepted .float8 er) :
      Accepted .bool (.opExpr fid coll [el, er])
  | equate {fid : Fid} {coll : Nat} {el er : PgExpr} (bools : fid = .booleq ∨ fid = .boolne)
      (left : Accepted .bool el) (right : Accepted .bool er) :
      Accepted .bool (.opExpr fid coll [el, er])

end Accepted

/-! The operators' rules. -/

theorem nargs_of_opRule {fid : Fid} {rule : OpRule} (unnamed : floatFid fid = none)
    (found : fid.opRule = some rule) : nargs fid = some fid.arity := by
  cases fid <;> first | rfl | cases found

/-- An operator whose operands have the class of its result. -/
theorem opRule_all {fid : Fid} {result : ExprTypeClass} (rule : opRule fid = some (.all result)) :
    (∃ s : IntSize, result = s.cls ∧ nargs fid = some 2 ∧ fid.sizes = some (s, s, s)) ∨
    (∃ s : IntSize, result = s.cls ∧ nargs fid = some 1 ∧
      (fid = .int4um ∧ s = .i32 ∨ fid = .int8um ∧ s = .i64)) ∨
    (∃ f, floatFid fid = some f ∧ result = .float8 ∧ f.opRule = some (.all .float8) ∧
      nargs fid = some 2 ∧ f.nargs = 2) ∨
    floatFid fid = some .float8um ∧ result = .float8 ∧ nargs fid = some 1 := by
  cases named : floatFid fid with
  | some f =>
    have own : f.opRule = some (.all result) := by simpa only [opRule, named] using rule
    have pronargs : nargs fid = some f.nargs := by simp only [nargs, named]
    cases f <;> simp only [FloatFid.opRule, Option.some.injEq, OpRule.all.injEq, reduceCtorEq] at own
    case float8um => exact .inr (.inr (.inr ⟨rfl, own.symm, pronargs⟩))
    all_goals exact .inr (.inr (.inl ⟨_, rfl, own.symm, rfl, pronargs, rfl⟩))
  | none =>
    have own : fid.opRule = some (.all result) := by simpa only [opRule, named] using rule
    have pronargs := nargs_of_opRule named own
    cases fid <;> simp only [Fid.opRule, Option.some.injEq, OpRule.all.injEq, reduceCtorEq] at own
    case int4um => exact .inr (.inl ⟨.i32, own.symm, pronargs, .inl ⟨rfl, rfl⟩⟩)
    case int8um => exact .inr (.inl ⟨.i64, own.symm, pronargs, .inr ⟨rfl, rfl⟩⟩)
    all_goals
      first
      | exact .inl ⟨.i32, own.symm, pronargs, rfl⟩
      | exact .inl ⟨.i64, own.symm, pronargs, rfl⟩

/-- An operator between two operands of given classes. -/
theorem opRule_two {fid : Fid} {left right result : ExprTypeClass}
    (rule : opRule fid = some (.two left right result)) :
    (∃ sl sr s : IntSize, fid.sizes = some (sl, sr, s) ∧ left = sl.cls ∧ right = sr.cls ∧
      result = s.cls) ∨
    (∃ (sl sr : IntSize) (pred : IntPredicate) (cross : Bool), left = sl.cls ∧ right = sr.cls ∧
      result = .bool ∧ fid.opRule = some (.two left right .bool) ∧
      fid.intPredicate = some (pred, cross) ∧ (cross = false → sl = sr)) ∨
    (∃ f pred, floatFid fid = some f ∧ f.predicate = some pred ∧ left = .float8 ∧ right = .float8 ∧
      result = .bool) ∨
    (fid = .booleq ∨ fid = .boolne) ∧ left = .bool ∧ right = .bool ∧ result = .bool := by
  cases named : floatFid fid with
  | some f =>
    have own : f.opRule = some (.two left right result) := by simpa only [opRule, named] using rule
    cases f <;> simp only [FloatFid.opRule, Option.some.injEq, OpRule.two.injEq, reduceCtorEq] at own
    all_goals
      obtain ⟨rfl, rfl, rfl⟩ := own
      exact .inr (.inr (.inl ⟨_, _, rfl, rfl, rfl, rfl, rfl⟩))
  | none =>
    have own : fid.opRule = some (.two left right result) := by simpa only [opRule, named] using rule
    cases result with
    | bool =>
      rcases opRule_bool own with bools | ⟨sl, sr, pred, cross, rfl, rfl, compares, same⟩
      · exact .inr (.inr (.inr ⟨bools.1, bools.2.1, bools.2.2, rfl⟩))
      · exact .inr (.inl ⟨sl, sr, pred, cross, rfl, rfl, rfl, own, compares, same⟩)
    | int4 =>
      obtain ⟨sl, sr, sizes, rfl, rfl⟩ := Uplpgsql.opRule_two (s := .i32) own
      exact .inl ⟨sl, sr, .i32, sizes, rfl, rfl, rfl⟩
    | int8 =>
      obtain ⟨sl, sr, sizes, rfl, rfl⟩ := Uplpgsql.opRule_two (s := .i64) own
      exact .inl ⟨sl, sr, .i64, sizes, rfl, rfl, rfl⟩
    | float8 => cases fid <;> simp [Fid.opRule] at own
    | unknown => cases fid <;> simp [Fid.opRule] at own

theorem takes_known {f : FloatFid} {cls : ExprTypeClass} (takes : f.classifyFunc cls = .float8)
    (asks : f ≠ .float8Float4) : cls ≠ .unknown ∧ cls ≠ .bool := by
  cases f <;> cases cls <;> simp [FloatFid.classifyFunc] at takes asks ⊢

/-- A function of one argument. -/
theorem classifyFunc_cases {fid : Fid} {isConst : Bool} {arg : ExprTypeClass}
    (known : classifyFunc fid isConst arg ≠ .unknown) :
    (∃ s : IntSize, classifyFunc fid isConst arg = s.cls ∧ arg = s.cls ∧
      (fid = .int4abs ∧ s = .i32 ∨ fid = .int8abs ∧ s = .i64)) ∨
    classifyFunc fid isConst arg = .float8 ∧
      ((∃ f, floatFid fid = some f ∧ f.classifyFunc arg = .float8 ∧ f ≠ .float8Float4) ∨
        floatFid fid = some .float8Float4 ∨ fid = .float8Numeric ∧ isConst = true) := by
  cases named : floatFid fid with
  | some f =>
    have own : classifyFunc fid isConst arg = f.classifyFunc arg := by simp only [classifyFunc, named]
    rw [own] at known ⊢
    have float8 : f.classifyFunc arg = .float8 := by
      cases f <;> simp only [FloatFid.classifyFunc, ne_eq, not_true_eq_false] at known ⊢ <;>
        (try split at known) <;> simp_all
    by_cases cast : f = .float8Float4
    · exact .inr ⟨float8, .inr (.inl (congrArg some cast))⟩
    · exact .inr ⟨float8, .inl ⟨f, rfl, float8, cast⟩⟩
  | none =>
    have own : classifyFunc fid isConst arg = Uplpgsql.classifyFunc fid isConst arg := by
      simp only [classifyFunc, named]
    rw [own] at known ⊢
    unfold Uplpgsql.classifyFunc at known ⊢
    split at known
    · split at known
      next int4 => exact .inl ⟨.i32, if_pos int4, int4, .inl ⟨rfl, rfl⟩⟩
      next => exact absurd rfl known
    · split at known
      next int8 => exact .inl ⟨.i64, if_pos int8, int8, .inr ⟨rfl, rfl⟩⟩
      next => exact absurd rfl known
    · split at known
      next const => exact .inr ⟨if_pos const, .inr (.inr ⟨rfl, const⟩)⟩
      next => exact absurd rfl known
    · exact absurd rfl known

variable {natives : Nat → Option ElemType}

/-- Every tree the classifier gives a class has a derivation. -/
theorem accepted_of_classify :
    ∀ e : PgExpr, analysed natives e = true → classifyExpr e ≠ .unknown →
      Accepted natives (classifyExpr e) e
  | .const ty isnull v, tree, known => by
    rw [classifyExpr] at known ⊢
    split at known
    next => exact absurd rfl known
    next notnull =>
      obtain rfl : isnull = false := by simpa using notnull
      exact .const rfl known
  | .param external dno ty, tree, known => by
    rw [classifyExpr] at known ⊢
    split at known
    next external =>
      subst external
      exact .param rfl known
    next => exact absurd rfl known
  | .opExpr fid coll args, tree, known => by
    simp only [analysed, Bool.and_eq_true] at tree
    obtain ⟨arity, trees⟩ := tree
    rw [classifyExpr] at known ⊢
    -- The class of an operator is decided by its row in the table, so the cases are the rows.
    cases rule : opRule fid with
    | none => simp [rule] at known
    | some found =>
      cases found with
      | all result =>
        simp only [rule] at known ⊢
        split at known
        next every =>
          rw [if_pos every]
          -- Rows that ask every argument for the class of the result.
          rcases opRule_all rule with
            ⟨s, rfl, two, sizes⟩ | ⟨s, rfl, one, negates⟩ | ⟨f, named, rfl, computes, two, binary⟩ |
              ⟨named, rfl, one⟩
          · match args, two ▸ arity, trees, every with
            | [el, er], _, trees, every =>
              simp only [classifiesAll, Bool.and_true, Bool.and_eq_true, decide_eq_true_eq] at every
              simp only [allAnalysed, Bool.and_true, Bool.and_eq_true] at trees
              exact .binary sizes
                (every.1 ▸ accepted_of_classify el trees.1 (by rw [every.1]; exact known))
                (every.2 ▸ accepted_of_classify er trees.2 (by rw [every.2]; exact known))
          · match args, one ▸ arity, trees, every with
            | [arg], _, trees, every =>
              simp only [classifiesAll, Bool.and_true, decide_eq_true_eq] at every
              simp only [allAnalysed, Bool.and_true] at trees
              exact .negate negates
                (every ▸ accepted_of_classify arg trees (by rw [every]; exact known))
          · match args, two ▸ arity, trees, every with
            | [el, er], _, trees, every =>
              simp only [classifiesAll, Bool.and_true, Bool.and_eq_true, decide_eq_true_eq] at every
              simp only [allAnalysed, Bool.and_true, Bool.and_eq_true] at trees
              exact .floatBinary named computes binary
                (every.1 ▸ accepted_of_classify el trees.1 (by rw [every.1]; exact known))
                (every.2 ▸ accepted_of_classify er trees.2 (by rw [every.2]; exact known))
          · match args, one ▸ arity, trees, every with
            | [arg], _, trees, every =>
              simp only [classifiesAll, Bool.and_true, decide_eq_true_eq] at every
              simp only [allAnalysed, Bool.and_true] at trees
              exact .floatNegate named
                (every ▸ accepted_of_classify arg trees (by rw [every]; exact known))
        next => exact absurd rfl known
      | two left right result =>
        match args, trees with
        | [el, er], trees =>
          simp only [rule] at known ⊢
          simp only [allAnalysed, Bool.and_true, Bool.and_eq_true] at trees
          split at known
          next both =>
            rw [if_pos both]
            -- Each side has a derivation unless its own class is unknown, which no row asks for.
            have accl (own : left ≠ .unknown) : Accepted natives left el :=
              both.1 ▸ accepted_of_classify el trees.1 (by rw [both.1]; exact own)
            have accr (own : right ≠ .unknown) : Accepted natives right er :=
              both.2 ▸ accepted_of_classify er trees.2 (by rw [both.2]; exact own)
            rcases opRule_two rule with
              ⟨sl, sr, s, sizes, rfl, rfl, rfl⟩ |
                ⟨sl, sr, pred, cross, rfl, rfl, rfl, own, compares, same⟩ |
                ⟨f, pred, named, compares, rfl, rfl, rfl⟩ | ⟨bools, rfl, rfl, rfl⟩
            · exact .binary sizes (accl sl.unknown_ne_cls.symm) (accr sr.unknown_ne_cls.symm)
            · exact .compare own compares same (accl sl.unknown_ne_cls.symm)
                (accr sr.unknown_ne_cls.symm)
            · exact .floatCompare named compares (accl (by simp)) (accr (by simp))
            · exact .equate bools (accl (by simp)) (accr (by simp))
          next => exact absurd rfl known
        | [], _ => simp [rule] at known
        | [_], _ => simp [rule] at known
        | _ :: _ :: _ :: _, _ => simp [rule] at known
  -- No rule for a call has no argument.
  | .funcExpr fid coll [], tree, known => absurd rfl known
  | .funcExpr fid coll [arg], tree, known => by
    simp only [analysed, allAnalysed, Bool.and_true, Bool.and_eq_true] at tree
    rw [classifyExpr] at known ⊢
    rcases classifyFunc_cases known with
      ⟨s, cls, operand, absolute⟩ | ⟨cls, ⟨f, named, takes, asks⟩ | named | ⟨rfl, const⟩⟩
    · rw [cls]
      exact .abs absolute
        (operand ▸ accepted_of_classify arg tree.2 (by rw [operand]; exact s.unknown_ne_cls.symm))
    · rw [cls]
      exact .call named takes asks (accepted_of_classify arg tree.2 (takes_known takes asks).1)
    · rw [cls]
      exact .castFloat4 named
    · rw [cls]
      cases arg <;> first | exact .castNumeric | cases const
  | .funcExpr fid coll [el, er], tree, known => by
    simp only [analysed, allAnalysed, Bool.and_true, Bool.and_eq_true] at tree
    rw [classifyExpr] at known ⊢
    split at known
    next both =>
      rw [if_pos both]
      exact .pow both.1
        (both.2.1 ▸ accepted_of_classify el tree.2.1 (by rw [both.2.1]; simp))
        (both.2.2 ▸ accepted_of_classify er tree.2.2 (by rw [both.2.2]; simp))
    next => exact absurd rfl known
  -- Nor one with three.
  | .funcExpr fid coll (_ :: _ :: _ :: _), tree, known => absurd rfl known
  | .relabelType arg, tree, known => by
    simp only [analysed] at tree
    rw [classifyExpr] at known ⊢
    exact .relabel (accepted_of_classify arg tree known)
  | .subscriptingRef ty (.param true dno pty) [idx] [] false, tree, known => by
    simp only [analysed, allAnalysed, Bool.and_true, Bool.and_eq_true] at tree
    rw [classifyExpr] at known ⊢
    split at known
    next int4 =>
      rw [if_pos int4]
      -- The subscript is an int4; the base is a native array whenever the analysis made it one.
      refine .elem rfl known (fun t native => ?_)
        (int4 ▸ accepted_of_classify idx tree.2 (by rw [int4]; simp))
      simpa [native] using tree.1
    next => exact absurd rfl known
  | .boolExpr op args, tree, known => absurd rfl known
  | .other, tree, known => absurd rfl known

theorem floatFid_of_sizes {fid : Fid} {sl sr s : IntSize} (sizes : fid.sizes = some (sl, sr, s)) :
    floatFid fid = none := by
  cases fid <;> first | rfl | cases sizes

theorem floatFid_of_predicate {fid : Fid} {pred : IntPredicate} {cross : Bool}
    (compares : fid.intPredicate = some (pred, cross)) : floatFid fid = none := by
  cases fid <;> first | rfl | cases compares

/-- A derivation gives the class it was made from. -/
theorem Accepted.classify {cls : ExprTypeClass} {e : PgExpr} (accepted : Accepted natives cls e) :
    classifyExpr e = cls := by
  induction accepted with
  | const own => simpa [classifyExpr] using own
  | param own => simpa [classifyExpr] using own
  | @binary sl sr s fid coll el er sizes _ _ ihl ihr =>
    have unnamed := floatFid_of_sizes sizes
    cases fid <;> simp only [Fid.sizes, reduceCtorEq, Option.some.injEq, Prod.mk.injEq] at sizes <;>
      obtain ⟨rfl, rfl, rfl⟩ := sizes
    all_goals simp [classifyExpr, opRule, unnamed, Fid.opRule, classifiesAll, ihl, ihr, IntSize.cls]
  | negate negates _ ih =>
    rcases negates with ⟨rfl, rfl⟩ | ⟨rfl, rfl⟩
    · simp [classifyExpr, opRule, floatFid, Fid.opRule, classifiesAll, ih, IntSize.cls]
    · simp [classifyExpr, opRule, floatFid, Fid.opRule, classifiesAll, ih, IntSize.cls]
  | abs absolute _ ih =>
    rcases absolute with ⟨rfl, rfl⟩ | ⟨rfl, rfl⟩
    · simp [classifyExpr, classifyFunc, floatFid, Uplpgsql.classifyFunc, ih, IntSize.cls]
    · simp [classifyExpr, classifyFunc, floatFid, Uplpgsql.classifyFunc, ih, IntSize.cls]
  | floatBinary named computes _ _ _ ihl ihr =>
    simp [classifyExpr, opRule, named, computes, classifiesAll, ihl, ihr]
  | floatNegate named _ ih => simp [classifyExpr, opRule, named, FloatFid.opRule, classifiesAll, ih]
  | call named takes _ _ ih => simp [classifyExpr, classifyFunc, named, ih, takes]
  | pow power _ _ ihl ihr => simp [classifyExpr, power, ihl, ihr]
  | castFloat4 named => simp [classifyExpr, classifyFunc, named, FloatFid.classifyFunc]
  | castNumeric => rfl
  | relabel _ ih => rw [classifyExpr, ih]
  | elem own _ _ _ ih => rw [classifyExpr, if_pos ih, own]
  | compare rule compares _ _ _ ihl ihr =>
    simp [classifyExpr, opRule, floatFid_of_predicate compares, rule, ihl, ihr]
  | @floatCompare f fid coll el er pred named compares _ _ ihl ihr =>
    have rule : f.opRule = some (.two .float8 .float8 .bool) := by
      cases f <;> first | rfl | cases compares
    simp [classifyExpr, opRule, named, rule, ihl, ihr]
  | equate bools _ _ ihl ihr =>
    rcases bools with rfl | rfl
    · simp [classifyExpr, opRule, floatFid, Fid.opRule, ihl, ihr]
    · simp [classifyExpr, opRule, floatFid, Fid.opRule, ihl, ihr]

/-! ### The generators along a derivation -/

theorem Gen.bind_ok {α β : Type} {x : Gen α} {f : α → Gen β} {b : β} (ok : x >>= f = .ok b) :
    ∃ a, x = .ok a ∧ f a = .ok b := by
  cases x with
  | error err => cases ok
  | ok a => exact ⟨a, rfl, ok⟩

/-- Code of the type its class announces. -/
def Produces (cls : ExprTypeClass) (g : Gen Value) : Prop :=
  ∃ v, g = .ok v ∧ v.type = valueType cls

theorem Produces.of_double {g : Gen Value} (produces : Produces .float8 g) :
    ∃ c, g = .ok (.double c) := by
  obtain ⟨v, rfl, typed⟩ := produces
  match v, typed with
  | .double c, _ => exact ⟨c, rfl⟩
  | .ir ⟨.i1, _⟩, typed => cases typed
  | .ir ⟨.int .i32, _⟩, typed => cases typed
  | .ir ⟨.int .i64, _⟩, typed => cases typed

theorem Produces.of_int {s : IntSize} {g : Gen Value} (produces : Produces s.cls g) :
    ∃ c : Code (.int s), g = .ok (.ir ⟨.int s, c⟩) := by
  obtain ⟨v, rfl, typed⟩ := produces
  cases s with
  | i32 =>
    match v, typed with
    | .ir ⟨.int .i32, c⟩, _ => exact ⟨c, rfl⟩
    | .ir ⟨.int .i64, _⟩, typed => cases typed
    | .ir ⟨.i1, _⟩, typed => cases typed
    | .double _, typed => cases typed
  | i64 =>
    match v, typed with
    | .ir ⟨.int .i64, c⟩, _ => exact ⟨c, rfl⟩
    | .ir ⟨.int .i32, _⟩, typed => cases typed
    | .ir ⟨.i1, _⟩, typed => cases typed
    | .double _, typed => cases typed

theorem compileBinary_produces {fid : Fid} {sl sr s : IntSize}
    (sizes : fid.sizes = some (sl, sr, s)) (l : Code (.int sl)) (r : Code (.int sr)) :
    Produces s.cls (compileBinary fid sl.cls sr.cls (.ir ⟨.int sl, l⟩) (.ir ⟨.int sr, r⟩)) := by
  have unnamed := floatFid_of_sizes sizes
  cases fid <;> simp only [Fid.sizes, Option.some.injEq, Prod.mk.injEq, reduceCtorEq] at sizes
  all_goals
    obtain ⟨rfl, rfl, rfl⟩ := sizes
    exact ⟨_, rfl, rfl⟩

theorem compileFloatBinary_produces {f : FloatFid} {fid : Fid} {cl cr : ExprTypeClass}
    (named : floatFid fid = some f) (computes : f.opRule = some (.all .float8)) (binary : f.nargs = 2)
    (l r : FloatCode) : Produces .float8 (compileBinary fid cl cr (.double l) (.double r)) := by
  simp only [compileBinary, named]
  cases f <;> first | exact ⟨_, rfl, rfl⟩ | exact absurd binary (by decide) | cases computes

/-- A function whose argument has the class it asks for. -/
theorem compileFunc_produces {f : FloatFid} {fid : Fid} {cls : ExprTypeClass} {g : Gen Value}
    (named : floatFid fid = some f) (takes : f.classifyFunc cls = .float8) (asks : f ≠ .float8Float4)
    (produces : Produces cls g) : Produces .float8 (g >>= compileFunc fid) := by
  have own (v : Value) : compileFunc fid v = f.compileFunc fid v := by simp only [compileFunc, named]
  cases cls with
  | int4 =>
    obtain ⟨c, rfl⟩ := produces.of_int (s := .i32)
    change Produces .float8 (compileFunc fid _)
    rw [own]
    cases f <;> first | exact ⟨_, rfl, rfl⟩ | exact absurd rfl asks | cases takes
  | int8 =>
    obtain ⟨c, rfl⟩ := produces.of_int (s := .i64)
    change Produces .float8 (compileFunc fid _)
    rw [own]
    cases f <;> first | exact ⟨_, rfl, rfl⟩ | exact absurd rfl asks | cases takes
  | float8 =>
    obtain ⟨c, rfl⟩ := produces.of_double
    change Produces .float8 (compileFunc fid _)
    rw [own]
    cases f <;> first | exact ⟨_, rfl, rfl⟩ | exact absurd rfl asks | cases takes
  | bool => exact absurd rfl (takes_known takes asks).2
  | unknown => exact absurd rfl (takes_known takes asks).1

theorem compileElem_type {ty : TypeOid} {dno : Nat} {idx : Code (.int .i32)}
    (known : ty.exprClass ≠ .unknown)
    (typed : ∀ t, natives dno = some t → elemtypeToClass t = ty.exprClass) :
    (compileElem natives ty dno idx).type = valueType ty.exprClass := by
  unfold compileElem
  split
  next native => rw [← typed _ native]; rfl
  next native => rw [← typed _ native]; rfl
  next native => rw [← typed _ native]; rfl
  next =>
    cases cls : ty.exprClass with
    | unknown => exact absurd cls known
    | _ => rfl

/-- A function Tier 1 knows by a float8 name is not the cast from numeric. -/
theorem ne_numeric {fid : Fid} {f : FloatFid} (named : floatFid fid = some f) :
    fid ≠ .float8Numeric := by
  rintro rfl
  cases named

theorem pow_named {fid : Fid} (power : isPow fid = true) :
    ∃ f, floatFid fid = some f ∧ f.isPow = true := by
  unfold isPow at power
  cases named : floatFid fid with
  | none => simp [named] at power
  | some f => exact ⟨f, rfl, by simpa [named] using power⟩

/-- The value generator follows the classifier wherever the casts are covered. -/
theorem Accepted.compiles {cls : ExprTypeClass} {e : PgExpr} (accepted : Accepted natives cls e)
    (value : cls ≠ .bool) (covered : castsCovered e = true) :
    Produces cls (compileExprDatum natives e) := by
  induction accepted with
  | @const cls ty v own known =>
    subst own
    simp only [compileExprDatum, classifyExpr, Bool.false_eq_true, if_false]
    cases cls : ty.exprClass with
    | bool => exact absurd cls value
    | unknown => exact absurd cls known
    | _ => exact ⟨_, rfl, rfl⟩
  | @param cls ty dno own known =>
    subst own
    simp only [compileExprDatum, classifyExpr, if_true]
    cases cls : ty.exprClass with
    | bool => exact absurd cls value
    | unknown => exact absurd cls known
    | _ => exact ⟨_, rfl, rfl⟩
  -- Both operands give integer code, and the widths the row asks for.
  | @binary sl sr s fid coll el er sizes left right ihl ihr =>
    simp only [castsCovered, allCastsCovered, Bool.and_true, Bool.and_eq_true] at covered
    obtain ⟨l, eql⟩ := (ihl sl.cls_ne_bool covered.1).of_int
    obtain ⟨r, eqr⟩ := (ihr sr.cls_ne_bool covered.2).of_int
    rw [compileExprDatum, eql, eqr, left.classify, right.classify]
    exact compileBinary_produces sizes l r
  | @negate s fid coll arg negates operand ih =>
    simp only [castsCovered, allCastsCovered, Bool.and_true] at covered
    obtain ⟨c, eq⟩ := (ih s.cls_ne_bool covered).of_int
    rw [compileExprDatum, eq]
    rcases negates with ⟨rfl, rfl⟩ | ⟨rfl, rfl⟩
    · exact ⟨_, rfl, rfl⟩
    · exact ⟨_, rfl, rfl⟩
  | @abs s fid coll arg absolute operand ih =>
    simp only [castsCovered, allCastsCovered, Bool.and_true, Bool.and_eq_true] at covered
    obtain ⟨c, eq⟩ := (ih s.cls_ne_bool covered.2).of_int
    rcases absolute with ⟨rfl, rfl⟩ | ⟨rfl, rfl⟩
    · rw [compileExprDatum, eq]
      exact ⟨_, rfl, rfl⟩
    · rw [compileExprDatum, eq]
      exact ⟨_, rfl, rfl⟩
  | @floatBinary f fid coll el er named computes binary left right ihl ihr =>
    simp only [castsCovered, allCastsCovered, Bool.and_true, Bool.and_eq_true] at covered
    obtain ⟨l, eql⟩ := (ihl (by simp) covered.1).of_double
    obtain ⟨r, eqr⟩ := (ihr (by simp) covered.2).of_double
    rw [compileExprDatum, eql, eqr, left.classify, right.classify]
    change Produces .float8 (compileBinary fid .float8 .float8 (.double l) (.double r))
    exact compileFloatBinary_produces named computes binary l r
  | @floatNegate fid coll arg named operand ih =>
    simp only [castsCovered, allCastsCovered, Bool.and_true] at covered
    obtain ⟨c, eq⟩ := (ih (by simp) covered).of_double
    rw [compileExprDatum, eq]
    change Produces .float8 (compileUnary fid (.double c))
    simp only [compileUnary, named]
    exact ⟨_, rfl, rfl⟩
  | call named takes asks operand ih =>
    simp only [castsCovered, allCastsCovered, Bool.and_true, Bool.and_eq_true] at covered
    rw [compileExprDatum, if_neg (ne_numeric named)]
    exact compileFunc_produces named takes asks (ih (takes_known takes asks).2 covered.2)
  -- The check for pow comes before the table of one-argument functions.
  | pow power left right ihl ihr =>
    simp only [castsCovered, allCastsCovered, Bool.and_true, Bool.and_eq_true] at covered
    obtain ⟨f, named, -⟩ := pow_named power
    obtain ⟨l, eql⟩ := (ihl (by simp) covered.2.1).of_double
    obtain ⟨r, eqr⟩ := (ihr (by simp) covered.2.2).of_double
    rw [compileExprDatum, if_neg (ne_numeric named), if_pos power, eql, eqr]
    exact ⟨_, rfl, rfl⟩
  -- No value is generated for these casts, which is what `covered` excludes.
  | castFloat4 named =>
    simp [castsCovered, named] at covered
  | @castNumeric coll ty isnull v =>
    cases isnull with
    | true => simp [castsCovered, isNullConst] at covered
    | false => exact ⟨_, rfl, rfl⟩
  | relabel operand ih => exact ih value covered
  | @elem cls ty pty dno idx own known typed subscript ih =>
    simp only [castsCovered, allCastsCovered, Bool.and_true, Bool.true_and] at covered
    obtain ⟨c, eq⟩ := (ih (by simp) covered).of_int (s := .i32)
    subst own
    rw [compileExprDatum, eq]
    exact ⟨_, rfl, compileElem_type known typed⟩
  | compare => exact absurd rfl value
  | floatCompare => exact absurd rfl value
  | equate => exact absurd rfl value

/-- Where it gets to the end, the casts were covered. -/
theorem Accepted.covered {cls : ExprTypeClass} {e : PgExpr} (accepted : Accepted natives cls e)
    {v : Value} (compiled : compileExprDatum natives e = .ok v) : castsCovered e = true := by
  induction accepted generalizing v with
  | const => rfl
  | param => rfl
  | binary _ _ _ ihl ihr | floatBinary _ _ _ _ _ ihl ihr | compare _ _ _ _ _ ihl ihr
  | floatCompare _ _ _ _ ihl ihr | equate _ _ _ ihl ihr =>
    rw [compileExprDatum] at compiled
    obtain ⟨lhs, eql, rest⟩ := Gen.bind_ok compiled
    obtain ⟨rhs, eqr, -⟩ := Gen.bind_ok rest
    simp [castsCovered, allCastsCovered, ihl eql, ihr eqr]
  | negate _ _ ih | floatNegate _ _ ih =>
    rw [compileExprDatum] at compiled
    obtain ⟨arg, eq, -⟩ := Gen.bind_ok compiled
    simp [castsCovered, allCastsCovered, ih eq]
  | abs absolute _ ih =>
    rcases absolute with ⟨rfl, rfl⟩ | ⟨rfl, rfl⟩
    · rw [compileExprDatum, if_neg (by simp)] at compiled
      obtain ⟨arg, eq, -⟩ := Gen.bind_ok compiled
      simp [castsCovered, allCastsCovered, floatFid, ih eq]
    · rw [compileExprDatum, if_neg (by simp)] at compiled
      obtain ⟨arg, eq, -⟩ := Gen.bind_ok compiled
      simp [castsCovered, allCastsCovered, floatFid, ih eq]
  | call named _ asks _ ih =>
    rw [compileExprDatum, if_neg (ne_numeric named)] at compiled
    obtain ⟨arg, eq, -⟩ := Gen.bind_ok compiled
    simp [castsCovered, allCastsCovered, named, asks, ne_numeric named, ih eq]
  | pow power _ _ ihl ihr =>
    obtain ⟨f, named, pow⟩ := pow_named power
    rw [compileExprDatum, if_neg (ne_numeric named), if_pos power] at compiled
    obtain ⟨lhs, eql, rest⟩ := Gen.bind_ok compiled
    obtain ⟨rhs, eqr, -⟩ := Gen.bind_ok rest
    have asks : f ≠ .float8Float4 := by
      rintro rfl
      cases pow
    simp [castsCovered, allCastsCovered, named, asks, ne_numeric named, ihl eql, ihr eqr]
  | castFloat4 named =>
    -- whatever the argument compiles to, it is no float
    rw [compileExprDatum, if_neg (ne_numeric named)] at compiled
    obtain ⟨arg, -, rest⟩ := Gen.bind_ok compiled
    simp only [compileFunc, named] at rest
    cases rest
  | @castNumeric coll ty isnull v =>
    cases isnull with
    | true => cases compiled
    | false => rfl
  | relabel _ ih => exact ih compiled
  | elem _ _ _ _ ih =>
    rw [compileExprDatum] at compiled
    obtain ⟨idx, eq, -⟩ := Gen.bind_ok compiled
    simp [castsCovered, allCastsCovered, ih eq]

theorem compileSubscript_ok {idx : PgExpr} (produces : Produces .int4 (compileExprDatum natives idx)) :
    ∃ c, compileSubscript natives idx = .ok c := by
  obtain ⟨c, eq⟩ := produces.of_int (s := .i32)
  exact ⟨c, by rw [compileSubscript, eq]; rfl⟩

/-- The NULL test goes through the arguments. -/
theorem anyNullArgs_ok {acc : Option (Code .i1)} {args : List PgExpr}
    (tests : ∀ e ∈ args, ∃ t, tier1ExprAnyNull natives e = .ok t) :
    ∃ t, tier1AnyNullArgs natives acc args = .ok t := by
  induction args generalizing acc with
  | nil => exact ⟨acc, rfl⟩
  | cons e es ih =>
    obtain ⟨t, eq⟩ := tests e List.mem_cons_self
    have rest : ∃ u, tier1AnyNullArgs natives (orNull acc t) es = .ok u :=
      ih fun e' mem => tests e' (List.mem_cons_of_mem e mem)
    obtain ⟨u, rest⟩ := rest
    exact ⟨u, by rw [tier1AnyNullArgs, eq]; exact rest⟩

/-- The NULL test has code wherever the value has. -/
theorem Accepted.tests {cls : ExprTypeClass} {e : PgExpr} (accepted : Accepted natives cls e)
    (covered : castsCovered e = true) : ∃ test, tier1ExprAnyNull natives e = .ok test := by
  induction accepted with
  | const => exact ⟨_, rfl⟩
  | param => exact ⟨_, rfl⟩
  | binary _ _ _ ihl ihr | floatBinary _ _ _ _ _ ihl ihr | compare _ _ _ _ _ ihl ihr
  | floatCompare _ _ _ _ ihl ihr | equate _ _ _ ihl ihr =>
    simp only [castsCovered, allCastsCovered, Bool.and_true, Bool.and_eq_true] at covered
    rw [tier1ExprAnyNull]
    exact anyNullArgs_ok (by simpa using ⟨ihl covered.1, ihr covered.2⟩)
  | negate _ _ ih | floatNegate _ _ ih =>
    simp only [castsCovered, allCastsCovered, Bool.and_true] at covered
    rw [tier1ExprAnyNull]
    exact anyNullArgs_ok (by simpa using ih covered)
  | abs _ _ ih | call _ _ _ _ ih =>
    simp only [castsCovered, allCastsCovered, Bool.and_true, Bool.and_eq_true] at covered
    rw [tier1ExprAnyNull]
    exact anyNullArgs_ok (by simpa using ih covered.2)
  | pow _ _ _ ihl ihr =>
    simp only [castsCovered, allCastsCovered, Bool.and_true, Bool.and_eq_true] at covered
    rw [tier1ExprAnyNull]
    exact anyNullArgs_ok (by simpa using ⟨ihl covered.2.1, ihr covered.2.2⟩)
  | castFloat4 named => simp [castsCovered, named] at covered
  | castNumeric => exact ⟨_, rfl⟩
  | relabel _ ih => exact ih covered
  | @elem cls ty pty dno idx _ _ _ subscript ih =>
    simp only [castsCovered, allCastsCovered, Bool.and_true, Bool.true_and] at covered
    obtain ⟨t, eq⟩ := ih covered
    obtain ⟨c, sub⟩ := compileSubscript_ok (subscript.compiles (by simp) covered)
    cases native : natives dno with
    | some _ =>
      refine ⟨orNull t (some (.nativeIsnull dno c)), ?_⟩
      simp only [tier1ExprAnyNull, native, eq, sub, bind, Except.bind]
    | none =>
      refine ⟨orNull (orNull (some (.loadIsnull dno)) t) (some (.arrayElemIsnull dno c)), ?_⟩
      simp only [tier1ExprAnyNull, native, eq, sub, bind, Except.bind, List.isEmpty_nil, if_true]

/-- The condition generator: the casts, and the conditions it has a case for. -/
theorem Accepted.condition {e : PgExpr} (accepted : Accepted natives .bool e) :
    (∃ c, compileExprBool natives e = .ok c) ↔
      castsCovered e = true ∧ conditionsCovered e = true := by
  generalize which : ExprTypeClass.bool = cls at accepted
  induction accepted with
  | const => exact ⟨fun _ => ⟨rfl, rfl⟩, fun _ => ⟨_, rfl⟩⟩
  | param => exact ⟨fun _ => ⟨rfl, rfl⟩, fun _ => ⟨_, rfl⟩⟩
  -- These have the class of a number.
  | @binary _ _ s | @negate s | @abs s => exact absurd which.symm s.cls_ne_bool
  | floatBinary | floatNegate | call | pow | castFloat4 | castNumeric => cases which
  -- A relabelled condition and an element of a boolean array have no case in the generator.
  | relabel =>
    refine ⟨fun ⟨c, compiled⟩ => ?_, fun ⟨_, conditions⟩ => ?_⟩
    · cases compiled
    · cases conditions
  | elem =>
    refine ⟨fun ⟨c, compiled⟩ => ?_, fun ⟨_, conditions⟩ => ?_⟩
    · cases compiled
    · cases conditions
  -- The sides of a comparison are numbers: only their casts matter.
  | @compare sl sr fid coll el er pred cross rule compares same left right =>
    have unnamed := floatFid_of_predicate compares
    have notEquate : ¬(fid = .booleq ∨ fid = .boolne) := by
      rintro (rfl | rfl) <;> cases compares
    have equation : compileExprBool natives (.opExpr fid coll [el, er]) = (do
        let lhs ← compileExprDatum natives el
        let rhs ← compileExprDatum natives er
        compileIntCmp pred cross (classifyExpr el) (classifyExpr er) lhs rhs) := by
      simp only [compileExprBool, unnamed, Option.bind_none, if_neg notEquate, compares]
    have conditions : conditionsCovered (.opExpr fid coll [el, er]) = true := by
      simp only [not_or] at notEquate
      simp [conditionsCovered, notEquate]
    rw [equation]
    constructor
    · rintro ⟨c, compiled⟩
      obtain ⟨lhs, eql, rest⟩ := Gen.bind_ok compiled
      obtain ⟨rhs, eqr, -⟩ := Gen.bind_ok rest
      refine ⟨?_, conditions⟩
      simp [castsCovered, allCastsCovered, left.covered eql, right.covered eqr]
    · rintro ⟨covered, -⟩
      simp only [castsCovered, allCastsCovered, Bool.and_true, Bool.and_eq_true] at covered
      obtain ⟨l, eql⟩ := (left.compiles sl.cls_ne_bool covered.1).of_int
      obtain ⟨r, eqr⟩ := (right.compiles sr.cls_ne_bool covered.2).of_int
      rw [eql, eqr, left.classify, right.classify]
      cases cross with
      | true => cases sl <;> cases sr <;> exact ⟨_, rfl⟩
      | false =>
        obtain rfl := same rfl
        cases sl <;> exact ⟨_, rfl⟩
  | @floatCompare f fid coll el er pred named compares left right =>
    have notEquate : ¬(fid = .booleq ∨ fid = .boolne) := by
      rintro (rfl | rfl) <;> cases named
    have equation : compileExprBool natives (.opExpr fid coll [el, er]) = (do
        let lhs ← compileExprDatum natives el
        let rhs ← compileExprDatum natives er
        .ok (.fcmp pred (← lhs.asDouble) (← rhs.asDouble))) := by
      simp only [compileExprBool, named, Option.bind_some, compares]
    have conditions : conditionsCovered (.opExpr fid coll [el, er]) = true := by
      simp only [not_or] at notEquate
      simp [conditionsCovered, notEquate]
    rw [equation]
    constructor
    · rintro ⟨c, compiled⟩
      obtain ⟨lhs, eql, rest⟩ := Gen.bind_ok compiled
      obtain ⟨rhs, eqr, -⟩ := Gen.bind_ok rest
      refine ⟨?_, conditions⟩
      simp [castsCovered, allCastsCovered, left.covered eql, right.covered eqr]
    · rintro ⟨covered, -⟩
      simp only [castsCovered, allCastsCovered, Bool.and_true, Bool.and_eq_true] at covered
      obtain ⟨l, eql⟩ := (left.compiles (by simp) covered.1).of_double
      obtain ⟨r, eqr⟩ := (right.compiles (by simp) covered.2).of_double
      rw [eql, eqr]
      exact ⟨_, rfl⟩
  -- The sides of an equality of booleans are conditions themselves.
  | @equate fid coll el er bools left right ihl ihr =>
    have equation : compileExprBool natives (.opExpr fid coll [el, er]) = (do
        let lhs ← compileExprBool natives el
        let rhs ← compileExprBool natives er
        .ok (.icmpBool (fid = .booleq) lhs rhs)) := by
      have unnamed : floatFid fid = none := by rcases bools with rfl | rfl <;> rfl
      simp only [compileExprBool, unnamed, Option.bind_none, if_pos bools]
    have operands : conditionsCovered (.opExpr fid coll [el, er]) =
        (conditionsCovered el && conditionsCovered er) := by
      rcases bools with rfl | rfl <;> simp [conditionsCovered, allConditionsCovered]
    rw [equation, operands]
    simp only [castsCovered, allCastsCovered, Bool.and_true, Bool.and_eq_true]
    constructor
    · rintro ⟨c, compiled⟩
      obtain ⟨lhs, eql, rest⟩ := Gen.bind_ok compiled
      obtain ⟨rhs, eqr, -⟩ := Gen.bind_ok rest
      have l := (ihl rfl).mp ⟨lhs, eql⟩
      have r := (ihr rfl).mp ⟨rhs, eqr⟩
      exact ⟨⟨l.1, r.1⟩, l.2, r.2⟩
    · rintro ⟨⟨castl, castr⟩, condl, condr⟩
      obtain ⟨l, eql⟩ := (ihl rfl).mpr ⟨castl, condl⟩
      obtain ⟨r, eqr⟩ := (ihr rfl).mpr ⟨castr, condr⟩
      rw [eql, eqr]
      exact ⟨_, rfl⟩

/-! ### Over integer expressions

The derivations of class int4 and int8 are those of the integers alone, and their
code is the same.
-/

def IntSize.elemType : IntSize → ElemType
  | .i32 => .int4
  | .i64 => .int8

/-- The native arrays of a function that has arrays of integers only. -/
def intArrays (ints : Nat → Option IntSize) (dno : Nat) : Option ElemType :=
  (ints dno).map IntSize.elemType

section Integers

variable {ints : Nat → Option IntSize} {s : IntSize} {e : PgExpr}

theorem elemType_cls {dno : Nat} :
    (∀ t, intArrays ints dno = some t → elemtypeToClass t = s.cls) ↔
      ∀ t, ints dno = some t → t = s := by
  have same (t : IntSize) : elemtypeToClass (IntSize.elemType t) = t.cls := by cases t <;> rfl
  cases native : ints dno with
  | none => simp [intArrays, native]
  | some t =>
    simp only [intArrays, native, Option.map_some, Option.some.injEq, forall_eq', same]
    exact ⟨IntSize.cls_inj, congrArg _⟩

theorem accepted_of_intShape (shape : IntShape ints s e) : Accepted (intArrays ints) s.cls e := by
  induction shape with
  | @const s ty v own => exact .const own s.unknown_ne_cls.symm
  | @param s dno ty own => exact .param own s.unknown_ne_cls.symm
  | binary sizes _ _ ihl ihr => exact .binary sizes ihl ihr
  | negate negates _ ih => exact .negate negates ih
  | abs absolute _ ih => exact .abs absolute ih
  | relabel _ ih => exact .relabel ih
  | @elem s ty pty dno idx own typed _ ih =>
    exact .elem own s.unknown_ne_cls.symm (elemType_cls.mpr typed) ih

theorem intShape_of_accepted (accepted : Accepted (intArrays ints) s.cls e) : IntShape ints s e := by
  generalize which : s.cls = cls at accepted
  induction accepted generalizing s with
  | const own known => exact .const (own.trans which.symm)
  | param own known => exact .param (own.trans which.symm)
  | binary sizes _ _ ihl ihr =>
    obtain rfl := IntSize.cls_inj which
    exact .binary sizes (ihl rfl) (ihr rfl)
  | negate negates _ ih =>
    obtain rfl := IntSize.cls_inj which
    exact .negate negates (ih rfl)
  | abs absolute _ ih =>
    obtain rfl := IntSize.cls_inj which
    exact .abs absolute (ih rfl)
  | relabel _ ih => exact .relabel (ih which)
  | elem own known typed _ ih =>
    subst which
    exact .elem own (elemType_cls.mp typed) (ih (s := .i32) rfl)
  | floatBinary | floatNegate | call | pow | castFloat4 | castNumeric => cases s <;> cases which
  | compare | floatCompare | equate => exact absurd which s.cls_ne_bool

/-- The same code as the integers' own generator. -/
theorem compileExprDatum_of_intShape (shape : IntShape ints s e) :
    ∃ c : Code (.int s), Uplpgsql.compileExprDatum ints e = .ok ⟨.int s, c⟩ ∧
      compileExprDatum (intArrays ints) e = .ok (.ir ⟨.int s, c⟩) := by
  induction shape with
  | @const s ty v own =>
    have leaf : IntShape ints s (.const ty false v) := .const own
    rw [Uplpgsql.compileExprDatum, compileExprDatum, leaf.classify,
      (accepted_of_intShape leaf).classify]
    cases s <;> exact ⟨_, rfl, rfl⟩
  | @param s dno ty own =>
    have leaf : IntShape ints s (.param true dno ty) := .param own
    rw [Uplpgsql.compileExprDatum, compileExprDatum, leaf.classify,
      (accepted_of_intShape leaf).classify]
    cases s <;> exact ⟨_, rfl, rfl⟩
  | @binary sl sr s fid coll el er sizes left right ihl ihr =>
    obtain ⟨l, oldl, newl⟩ := ihl
    obtain ⟨r, oldr, newr⟩ := ihr
    rw [Uplpgsql.compileExprDatum, compileExprDatum, oldl, oldr, newl, newr, left.classify,
      right.classify, (accepted_of_intShape left).classify, (accepted_of_intShape right).classify]
    cases fid <;> simp only [Fid.sizes, Option.some.injEq, Prod.mk.injEq, reduceCtorEq] at sizes
    all_goals
      obtain ⟨rfl, rfl, rfl⟩ := sizes
      exact ⟨_, rfl, rfl⟩
  | negate negates operand ih =>
    obtain ⟨c, old, new⟩ := ih
    rw [Uplpgsql.compileExprDatum, compileExprDatum, old, new]
    rcases negates with ⟨rfl, rfl⟩ | ⟨rfl, rfl⟩ <;> exact ⟨_, rfl, rfl⟩
  | abs absolute operand ih =>
    obtain ⟨c, old, new⟩ := ih
    rcases absolute with ⟨rfl, rfl⟩ | ⟨rfl, rfl⟩
    · rw [Uplpgsql.compileExprDatum, compileExprDatum, old, new]
      exact ⟨_, rfl, rfl⟩
    · rw [Uplpgsql.compileExprDatum, compileExprDatum, old, new]
      exact ⟨_, rfl, rfl⟩
  | relabel _ ih => exact ih
  | @elem s ty pty dno idx own typed subscript ih =>
    obtain ⟨c, old, new⟩ := ih
    rw [Uplpgsql.compileExprDatum, compileExprDatum, old, new]
    cases native : ints dno with
    | none =>
      have foreign : intArrays ints dno = none := by simp [intArrays, native]
      simp only [bind, Except.bind, AnyCode.asInt, Value.asInt, emitted, compileElem,
        Uplpgsql.compileElem, native, foreign, own]
      cases s <;> exact ⟨_, rfl, rfl⟩
    | some t =>
      obtain rfl := typed t native
      have element : intArrays ints dno = some (IntSize.elemType t) := by simp [intArrays, native]
      simp only [bind, Except.bind, AnyCode.asInt, Value.asInt, emitted, compileElem,
        Uplpgsql.compileElem, native, element]
      cases t <;> exact ⟨_, rfl, rfl⟩

end Integers

/-! ### The callers along a derivation -/

theorem floatFid_other {fid : Fid} {f : FloatFid} (named : floatFid fid = some f) :
    ∃ oid, fid = .other oid := by
  cases fid <;> first | exact ⟨_, rfl⟩ | cases named

/-- The class says whether the value is a boolean. -/
theorem Accepted.isBoolean_iff {cls : ExprTypeClass} {e : PgExpr} (accepted : Accepted natives cls e) :
    isBoolean e = true ↔ cls = .bool := by
  induction accepted with
  | @const _ ty _ own | @param _ ty _ own | @elem _ ty _ _ _ own =>
    subst own
    cases ty <;> simp [isBoolean, TypeOid.exprClass]
  | @binary sl sr s fid coll el er sizes =>
    have value : returnsBool fid = false := by cases fid <;> first | rfl | cases sizes
    simp [isBoolean, value, s.cls_ne_bool]
  | @negate s fid coll arg negates =>
    have value : returnsBool fid = false := by rcases negates with ⟨rfl, _⟩ | ⟨rfl, _⟩ <;> rfl
    simp [isBoolean, value, s.cls_ne_bool]
  | @floatBinary f fid coll el er named computes =>
    obtain ⟨oid, rfl⟩ := floatFid_other named
    have value : f.predicate = none := by cases f <;> first | rfl | cases computes
    simp [isBoolean, returnsBool, named, value, Fid.intPredicate]
  | @floatNegate fid coll arg named =>
    obtain ⟨oid, rfl⟩ := floatFid_other named
    simp [isBoolean, returnsBool, named, FloatFid.predicate, Fid.intPredicate]
  | @abs s => simp [isBoolean, s.cls_ne_bool]
  | call | pow | castFloat4 | castNumeric => simp [isBoolean]
  | relabel _ ih => simpa only [isBoolean] using ih
  | compare _ compares => simp [isBoolean, returnsBool, compares]
  | floatCompare named compares => simp [isBoolean, returnsBool, named, compares]
  | equate bools => rcases bools with rfl | rfl <;> simp [isBoolean, returnsBool]

theorem nativeToDatum_ok {cls : ExprTypeClass} {v : Value} (typed : v.type = valueType cls)
    (known : cls ≠ .unknown) (value : cls ≠ .bool) : ∃ d, nativeToDatum v cls = .ok d := by
  have produces : Produces cls (.ok v) := ⟨v, rfl, typed⟩
  cases cls with
  | int4 =>
    obtain ⟨c, same⟩ := produces.of_int (s := .i32)
    cases same
    exact ⟨_, rfl⟩
  | int8 =>
    obtain ⟨c, same⟩ := produces.of_int (s := .i64)
    cases same
    exact ⟨_, rfl⟩
  | float8 =>
    obtain ⟨c, same⟩ := produces.of_double
    cases same
    exact ⟨_, rfl⟩
  | bool => exact absurd rfl value
  | unknown => exact absurd rfl known

theorem compiled_of_guarded {e : PgExpr} {cls : ExprTypeClass} {v : Value}
    (guarded : tier1CompileValueGuarded natives e cls = .ok v) :
    ∃ u, compileExprDatum natives e = .ok u := by
  rw [tier1CompileValueGuarded] at guarded
  obtain ⟨test, -, rest⟩ := Gen.bind_ok guarded
  cases test with
  | none => exact ⟨v, rest⟩
  | some _ =>
    obtain ⟨u, compiled, -⟩ := Gen.bind_ok rest
    exact ⟨u, compiled⟩

/-- A value whose type is announced goes through the phi. -/
theorem guarded_of_compiled {e : PgExpr} {cls : ExprTypeClass} {test : Option (Code .i1)}
    (tests : tier1ExprAnyNull natives e = .ok test)
    (produces : Produces cls (compileExprDatum natives e)) :
    Produces cls (tier1CompileValueGuarded natives e cls) := by
  rw [tier1CompileValueGuarded, tests]
  obtain ⟨v, compiled, typed⟩ := produces
  cases test with
  | none => exact ⟨v, compiled, typed⟩
  | some _ =>
    refine ⟨v, ?_, typed⟩
    simp only [bind, Except.bind, compiled, typed, if_true]

/-- A value in a context that stores it: of a class other than bool. -/
theorem Accepted.value {cls : ExprTypeClass} {e : PgExpr} (accepted : Accepted natives cls e)
    (value : cls ≠ .bool) :
    Produces cls (compileExprDatum natives e) ↔ castsCovered e = true :=
  ⟨fun ⟨_, compiled, _⟩ => accepted.covered compiled, accepted.compiles value⟩

theorem Accepted.assignment {e : PgExpr} {target : TypeOid}
    (accepted : Accepted natives (classifyExpr e) e) (known : classifyExpr e ≠ .unknown)
    (value : classifyExpr e ≠ .bool) :
    (∃ g, (Context.assignment target).generate natives e = .ok g ∧
      g.type = valueType (classifyExpr e)) ↔ castsCovered e = true := by
  simp only [Context.generate]
  constructor
  · rintro ⟨g, generated, -⟩
    obtain ⟨test, -, rest⟩ := Gen.bind_ok generated
    obtain ⟨v, compiled, -⟩ := Gen.bind_ok rest
    exact accepted.covered compiled
  · intro covered
    obtain ⟨test, tests⟩ := accepted.tests covered
    obtain ⟨v, compiled, typed⟩ := accepted.compiles value covered
    obtain ⟨d, datum⟩ := nativeToDatum_ok typed known value
    refine ⟨.value v, ?_, typed⟩
    simp only [tests, compiled, datum, bind, Except.bind]

theorem Accepted.subscript {e : PgExpr} (accepted : Accepted natives .int4 e) :
    (∃ g, Context.subscript.generate natives e = .ok g ∧ g.type = .i32) ↔ castsCovered e = true := by
  simp only [Context.generate]
  constructor
  · rintro ⟨g, generated, -⟩
    obtain ⟨test, -, rest⟩ := Gen.bind_ok generated
    obtain ⟨v, compiled, -⟩ := Gen.bind_ok rest
    exact accepted.covered compiled
  · intro covered
    obtain ⟨test, tests⟩ := accepted.tests covered
    obtain ⟨v, compiled, typed⟩ := accepted.compiles (by simp) covered
    refine ⟨.value v, ?_, typed⟩
    simp only [tests, compiled, bind, Except.bind]

/-- The value of an element, guarded: a boolean has no Datum. -/
theorem Accepted.element {e : PgExpr} (accepted : Accepted natives (classifyExpr e) e)
    (known : classifyExpr e ≠ .unknown) :
    (∃ g, Context.arrayElement.generate natives e = .ok g ∧ g.type = valueType (classifyExpr e)) ↔
      (castsCovered e && !isBoolean e) = true := by
  have boolean := accepted.isBoolean_iff
  simp only [Context.generate, Bool.and_eq_true, Bool.not_eq_true', Bool.eq_false_iff, ne_eq, boolean]
  constructor
  · rintro ⟨g, generated, -⟩
    obtain ⟨v, guarded, rest⟩ := Gen.bind_ok generated
    obtain ⟨u, compiled⟩ := compiled_of_guarded guarded
    refine ⟨accepted.covered compiled, fun cls => ?_⟩
    rw [cls] at rest
    cases rest
  · rintro ⟨covered, value⟩
    obtain ⟨test, tests⟩ := accepted.tests covered
    obtain ⟨v, guarded, typed⟩ := guarded_of_compiled tests (accepted.compiles value covered)
    obtain ⟨d, datum⟩ := nativeToDatum_ok typed known value
    refine ⟨.value v, ?_, typed⟩
    simp only [guarded, datum, bind, Except.bind]

/-- Once a caller has committed to a tree, the generators have code for it, of the type
its class announces, if and only if the tree is one they cover. -/
theorem generators_agree (ctx : Context) {e : PgExpr} (tree : analysed natives e = true)
    (commits : ctx.commits e = true) :
    (∃ g, ctx.generate natives e = .ok g ∧ g.type = valueType (classifyExpr e)) ↔
      ctx.covers e = true := by
  cases ctx with
  | assignment target =>
    simp only [Context.commits, Bool.and_eq_true, decide_eq_true_eq] at commits
    have value : classifyExpr e ≠ .bool := by
      rw [commits.2]
      cases target <;> simp [TypeOid.oidToTypeClass]
    exact (accepted_of_classify e tree commits.1).assignment commits.1 value
  | condition =>
    simp only [Context.commits, decide_eq_true_eq] at commits
    have accepted := accepted_of_classify e tree (by rw [commits]; simp)
    rw [commits] at accepted
    simp only [Context.generate, Context.covers, Bool.and_eq_true, ← accepted.condition, commits]
    constructor
    · rintro ⟨g, generated, -⟩
      obtain ⟨test, -, rest⟩ := Gen.bind_ok generated
      obtain ⟨c, compiled, -⟩ := Gen.bind_ok rest
      exact ⟨c, compiled⟩
    · rintro ⟨c, compiled⟩
      obtain ⟨test, tests⟩ := accepted.tests (accepted.condition.mp ⟨c, compiled⟩).1
      refine ⟨.cond c, ?_, rfl⟩
      simp only [tests, compiled, bind, Except.bind]
  | nativeElement =>
    simp only [Context.commits, decide_eq_true_eq] at commits
    exact (accepted_of_classify e tree commits).element commits
  | arrayElement =>
    simp only [Context.commits, decide_eq_true_eq] at commits
    exact (accepted_of_classify e tree commits).element commits
  | subscript =>
    simp only [Context.commits, decide_eq_true_eq] at commits
    have accepted := accepted_of_classify e tree (by rw [commits]; simp)
    rw [commits] at accepted ⊢
    exact accepted.subscript

/-- `y * 2.0`, as it is parsed for a float8 `y`. -/
def twice : PgExpr :=
  .opExpr (.other 216) 0
    [.param true 0 .float8, .funcExpr .float8Numeric 0 [.const (.other 1700) false 2]]

theorem generators_agree_twice :
    ∃ g, (Context.assignment .float8).generate (fun _ => none) twice = .ok g ∧ g.type = .double :=
  (generators_agree (.assignment .float8) (by decide) (by decide)).mpr (by decide)

/-- `r`, a real, assigned to a float8: the classifier takes the cast for a float8 whatever
is under it, and the generator has no code for a real. -/
theorem float4_has_no_code :
    ¬ ∀ (natives : Nat → Option ElemType) (ctx : Context) (e : PgExpr), analysed natives e = true →
      ctx.commits e = true →
      ∃ g, ctx.generate natives e = .ok g ∧ g.type = valueType (classifyExpr e) := by
  intro agree
  obtain ⟨g, generated, -⟩ := agree (fun _ => none) (.assignment .float8)
    (.funcExpr (.other 311) 0 [.param true 1 (.other 700)]) (by decide) (by decide)
  cases generated

end Uplpgsql.Tier1
