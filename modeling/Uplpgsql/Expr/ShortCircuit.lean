import Uplpgsql.Expr.Evaluation

/-!
# Operands that are not evaluated

The executor does not evaluate the operands after one that decides an AND or an
OR. Compiled code evaluates all of them. The two call the same functions, and
end alike, where the operands the executor leaves out call no function.
-/

namespace Uplpgsql

open Lib Traced

/-! ### Evaluation without calls -/

/-- The value of an expression if it needs no call, or what comes first: a node
that is not compiled, or a call. -/
inductive Silent (α : Type) where
  | value (a : α)
  | stuck
  | calls
  deriving DecidableEq

def Silent.bind {α β : Type} (s : Silent α) (f : α → Silent β) : Silent β :=
  match s with
  | .value a => f a
  | .stuck => .stuck
  | .calls => .calls

section Silence

variable (cat : Catalog) (params : Nat → NullableDatum)

/-- Only strict functions of a NULL need no call. -/
def silentCall (funcid : Fid) (args : Silent (List NullableDatum)) : Silent NullableDatum :=
  if cat.hasPoly funcid then .stuck
  else args.bind fun ds => if cat.fnStrict funcid && ds.any (·.isnull) then .value ⟨0, true⟩ else .calls

mutual

def silentEval : PgExpr → Silent NullableDatum
  | .const _ constisnull constvalue => .value ⟨if constisnull then 0 else constvalue, constisnull⟩
  | .param _ dno _ => .value (params dno)
  | .relabelType arg => silentEval arg
  | .boolExpr .not [arg] => (silentEval arg).bind fun d => .value ⟨boolDatum (!datumBit d), d.isnull⟩
  | .boolExpr .not _ => .stuck
  | .boolExpr .and args => (silentArgs args).bind fun ds => .value (foldBool true ds)
  | .boolExpr .or args => (silentArgs args).bind fun ds => .value (foldBool false ds)
  | .opExpr funcid _ args => silentCall cat funcid (silentArgs args)
  | .funcExpr funcid _ args =>
    match foldedNumeric funcid args with
    | some c => .value ⟨if c.isnull then 0 else cat.numericFloat8 c.value, c.isnull⟩
    | none => silentCall cat funcid (silentArgs args)
  | .subscriptingRef _ _ _ _ _ => .stuck
  | .other => .stuck

def silentArgs : List PgExpr → Silent (List NullableDatum)
  | [] => .value []
  | e :: es => (silentEval e).bind fun d => (silentArgs es).bind fun ds => .value (d :: ds)

end

end Silence

section Silence

variable {σ : Type} {cat : Catalog} {fns : Functions σ} {params : Nat → NullableDatum}

/-- What running emitted code does, as far as no call is made. -/
def Silent.Describes {α : Type} (x : Eval σ (Option α)) : Silent α → Prop
  | .value a => x = pure (some a)
  | .stuck => x = pure none
  | .calls => ∀ w, (x w).trace ≠ []

theorem Silent.Describes.bind {α β : Type} {x : Eval σ (Option α)} {s : Silent α}
    {f : α → Eval σ (Option β)} {g : α → Silent β} (first : s.Describes x)
    (rest : ∀ a, (g a).Describes (f a)) : (s.bind g).Describes (x >>= proceed f) := by
  cases s with
  | value a =>
    simp only [Describes] at first
    rw [first, pure_bind]
    exact rest a
  | stuck =>
    simp only [Describes] at first
    rw [first, pure_bind]
    rfl
  | calls =>
    intro w
    obtain ⟨more, trace, -⟩ := bind_trace x (proceed f) w
    rw [trace]
    exact fun empty => first w (List.append_eq_nil_iff.mp empty).1

theorem silentCases : NodeCases cat params
    (fun e => ∀ site, (silentEval cat params e).Describes (runEmitted cat fns params site e))
    (fun es => ∀ site k, (silentArgs cat params es).Describes (runEmittedArgs cat fns params site k es)) where
  leaf leaf site := by
    rw [runEmitted_leaf leaf]
    cases leaf with
    | const ty isnull v => rfl
    | param external dno ty => rfl
    | folded collation isConst => simp only [silentEval, isConst, Silent.Describes]
  relabel arg ih site := by
    rw [runEmitted_relabel]
    simp only [silentEval]
    exact ih site
  not arg ih site := by
    rw [runEmitted_not]
    simp only [silentEval]
    exact (ih (0 :: site)).bind fun d => rfl
  fold fold ih site := by
    rw [runEmitted_fold fold]
    cases fold <;> simp only [silentEval] <;> exact (ih site 0).bind fun ds => rfl
  call {e funcid collation args} call ih site := by
    have silent : silentEval cat params e = silentCall cat funcid (silentArgs cat params args) := by
      cases call with
      | op => simp only [silentEval]
      | func collation notConst => simp only [silentEval, notConst]
    rw [silent, silentCall]
    cases poly : cat.hasPoly funcid with
    | true =>
      rw [runEmitted_poly call poly]
      rfl
    | false =>
      rw [runEmitted_call call poly]
      refine (ih site 0).bind fun ds => ?_
      cases skips : cat.fnStrict funcid && ds.any (·.isnull) with
      | true => simp [callFunction, skips, Silent.Describes]
      | false =>
        intro w
        simp only [callFunction, skips, Bool.false_eq_true, if_false]
        obtain ⟨more, trace, -⟩ :=
          bind_trace (event site (fns funcid collation ds)) (fun d => pure (some d)) w
        rw [trace]
        nofun
  stuck stuck site := by
    rw [runEmitted_stuck stuck]
    cases stuck <;> rfl
  nil site k := by
    rw [runEmittedArgs_nil]
    rfl
  cons e es first rest site k := by
    rw [runEmittedArgs_cons]
    simp only [silentArgs]
    exact (first (k :: site)).bind fun d => (rest site (k + 1)).bind fun ds => rfl

/-- Running emitted code calls a function if and only if it needs to. -/
theorem runEmittedArgs_silent_iff (site : Site) (k : Nat) (es : List PgExpr) (w : σ) :
    (runEmittedArgs cat fns params site k es w).trace = [] ↔ silentArgs cat params es ≠ .calls := by
  have described : (silentArgs cat params es).Describes (runEmittedArgs cat fns params site k es) :=
    silentCases.list es site k
  cases silent : silentArgs cat params es with
  | value ds =>
    rw [silent] at described
    simp only [Silent.Describes] at described
    simp [described]
  | stuck =>
    rw [silent] at described
    simp only [Silent.Describes] at described
    simp [described]
  | calls =>
    rw [silent] at described
    simp [described w]

end Silence

/-! ### The condition -/

/-- The operand decides an AND, or an OR, on its own. -/
def NullableDatum.decides (isAnd : Bool) (d : NullableDatum) : Bool := !d.isnull && ((d.value != 0) != isAnd)

section Condition

variable {σ : Type} (cat : Catalog) (fns : Functions σ) (params : Nat → NullableDatum)
  (foreign : Site → PgExpr → Eval σ NullableDatum)

mutual

/-- Along the executor's evaluation, and as far as the tree is compiled, no
operand that is left out needs a call. -/
def Guarded (site : Site) : PgExpr → σ → Prop
  | .relabelType arg, w => Guarded site arg w
  | .boolExpr .not args, w => GuardedArgs site 0 args w
  | .boolExpr .and args, w => GuardedBool true site 0 args w
  | .boolExpr .or args, w => GuardedBool false site 0 args w
  | .opExpr funcid _ args, w => cat.hasPoly funcid = true ∨ GuardedArgs site 0 args w
  | .funcExpr funcid _ args, w =>
    (foldedNumeric funcid args).isSome = true ∨ cat.hasPoly funcid = true ∨ GuardedArgs site 0 args w
  | _, _ => True

def GuardedArgs (site : Site) (k : Nat) : List PgExpr → σ → Prop
  | [], _ => True
  | e :: es, w =>
    Guarded (k :: site) e w ∧
      ((compileExprFmgrFull cat e).isSome = true →
        ∀ d, (execEval cat fns params foreign (k :: site) e w).result = .ok d →
          GuardedArgs site (k + 1) es (execEval cat fns params foreign (k :: site) e w).world)

def GuardedBool (isAnd : Bool) (site : Site) (k : Nat) : List PgExpr → σ → Prop
  | [], _ => True
  | e :: es, w =>
    Guarded (k :: site) e w ∧
      ((compileExprFmgrFull cat e).isSome = true →
        ∀ d, (execEval cat fns params foreign (k :: site) e w).result = .ok d →
          if d.decides isAnd then silentArgs cat params es ≠ .calls
          else GuardedBool isAnd site (k + 1) es (execEval cat fns params foreign (k :: site) e w).world)

end

end Condition

/-! ### In step -/

section Steps

variable {σ α β γ δ : Type}

/-- Emitted code has done what the executor does, or stopped on the way there. -/
inductive InStep (related : α → β → Prop) :
    Lib.Outcome σ ErrorData Site (Option α) → Lib.Outcome σ ErrorData Site β → Prop where
  | done {trace : List Site} {w : σ} {a : α} {b : β} (values : related a b) :
      InStep related ⟨trace, .ok (some a), w⟩ ⟨trace, .ok b, w⟩
  | raised {trace : List Site} {w : σ} {err : ErrorData} :
      InStep related ⟨trace, .error err, w⟩ ⟨trace, .error err, w⟩
  | stopped {trace trace' : List Site} {w w' : σ} {result : Except ErrorData β} (before : trace <+: trace') :
      InStep related ⟨trace, .ok none, w⟩ ⟨trace', result, w'⟩

variable {related : α → β → Prop} {related' : γ → δ → Prop}

theorem InStep.bind {x : Eval σ (Option α)} {y : Eval σ β} {f : α → Eval σ (Option γ)} {g : β → Eval σ δ}
    {w : σ} (first : InStep related (x w) (y w))
    (rest : ∀ a b, related a b → (x w).result = .ok (some a) → (y w).result = .ok b →
      InStep related' (f a (y w).world) (g b (y w).world)) :
    InStep related' ((x >>= proceed f) w) ((y >>= g) w) := by
  generalize left : x w = ox at first rest
  generalize right : y w = oy at first rest
  cases first with
  | @done trace w' a b values =>
    have next := rest a b values rfl rfl
    rw [bind_ok (by rw [left]), bind_ok (by rw [right]), left, right]
    simp only [proceed]
    generalize f a w' = of at next ⊢
    generalize g b w' = og at next ⊢
    cases next with
    | done values' => exact .done values'
    | raised => exact .raised
    | stopped before => exact .stopped ((List.prefix_append_right_inj _).mpr before)
  | raised =>
    rw [bind_error (by rw [left]), bind_error (by rw [right]), left, right]
    exact .raised
  | @stopped trace trace' w' w'' result before =>
    rw [bind_ok (by rw [left]), left]
    simp only [proceed, pure_apply, List.append_nil]
    obtain ⟨more, longer, -⟩ := bind_trace y g w
    rw [right] at longer
    generalize outcome : (y >>= g) w = o at longer ⊢
    obtain ⟨t, r, v⟩ := o
    subst longer
    exact .stopped (before.trans (List.prefix_append _ _))

theorem InStep.initial {x : Lib.Outcome σ ErrorData Site (Option α)} {y : Lib.Outcome σ ErrorData Site β}
    (follows : InStep related x y) : x.trace <+: y.trace := by
  cases follows with
  | done => exact List.prefix_refl _
  | raised => exact List.prefix_refl _
  | stopped before => exact before

theorem InStep.map {x : Eval σ (Option α)} {y : Lib.Outcome σ ErrorData Site δ} {w : σ} {h : α → γ}
    {from_ : α → δ → Prop} (follows : InStep from_ (x w) y) (next : ∀ a b, from_ a b → related' (h a) b) :
    InStep related' ((x >>= proceed fun a => pure (some (h a))) w) y := by
  generalize left : x w = o at follows
  cases follows with
  | done values =>
    rw [bind_ok (by rw [left]), left]
    simp only [proceed, pure_apply, List.append_nil]
    exact .done (next _ _ values)
  | raised =>
    rw [bind_error (by rw [left]), left]
    exact .raised
  | stopped before =>
    rw [bind_ok (by rw [left]), left]
    simp only [proceed, pure_apply, List.append_nil]
    exact .stopped before

/-- Emitted code that has not stopped where the executor has a value. -/
theorem InStep.value {x : Lib.Outcome σ ErrorData Site (Option α)} {y : Lib.Outcome σ ErrorData Site β} {b : β}
    (follows : InStep related x y) (complete : x.result ≠ .ok none) (ok : y.result = .ok b) :
    ∃ a, related a b ∧ x = ⟨y.trace, .ok (some a), y.world⟩ := by
  cases follows with
  | done values =>
    cases ok
    exact ⟨_, values, rfl⟩
  | raised => cases ok
  | stopped => exact absurd rfl complete

end Steps

/-! ### Conventions -/

/-- What functions and variables keep to: nothing behind a NULL argument is
looked at, and booleans are 0 or 1. -/
structure Conventions {σ : Type} (types : BoolTypes) (fns : Functions σ)
    (params : Nat → NullableDatum) : Prop where
  nulls : ∀ funcid collation {ds ds' : List NullableDatum} (w : σ),
    ds.map (·.toOption) = ds'.map (·.toOption) →
      (fns funcid collation ds w).1.map (·.toOption) = (fns funcid collation ds' w).1.map (·.toOption) ∧
        (fns funcid collation ds w).2 = (fns funcid collation ds' w).2
  booleanFn : ∀ funcid, types.fn funcid = true → ∀ collation ds w d,
    (fns funcid collation ds w).1 = .ok d → IsTruth d.toOption
  booleanVar : ∀ dno, types.var dno = true → IsTruth (params dno).toOption
  float8 : types.fn .float8Numeric = false

section Truth

variable {σ : Type} {types : BoolTypes} {cat : Catalog} {fns : Functions σ} {params : Nat → NullableDatum}
  {foreign : Site → PgExpr → Eval σ NullableDatum}

theorem isTruth_null : IsTruth (⟨0, true⟩ : NullableDatum).toOption := nofun

theorem isTruth_boolDatum (b isnull : Bool) : IsTruth (⟨boolDatum b, isnull⟩ : NullableDatum).toOption := by
  intro d here
  cases isnull with
  | true => cases here
  | false => cases b <;> cases here <;> decide

theorem execBool_isTruth {isAnd : Bool} {es : List PgExpr} {site : Site} {k : Nat} {anyNull : Bool} {w : σ}
    {d : NullableDatum} (ok : (execBool cat fns params foreign isAnd site k anyNull es w).result = .ok d) :
    IsTruth d.toOption := by
  induction es generalizing k anyNull w with
  | nil =>
    rw [execBool] at ok
    cases ok
    split
    · exact isTruth_null
    · exact isTruth_boolDatum _ _
  | cons e es ih =>
    rw [execBool] at ok
    obtain ⟨first, -, ok⟩ := bind_result_ok ok
    split at ok
    · exact ih ok
    · split at ok
      · cases ok
        exact isTruth_boolDatum _ _
      · exact ih ok

/-- A boolean expression has a boolean value. -/
theorem execEval_isTruth (conventions : Conventions types fns params) {e : PgExpr} (tree : Tier2Tree types e)
    (boolean : e.isBoolean types = true) {site : Site} {w : σ} {d : NullableDatum}
    (ok : (execEval cat fns params foreign site e w).result = .ok d) : IsTruth d.toOption := by
  -- A call: by the convention of boolean functions, or null for a strict one.
  have call {funcid : Fid} {collation : Nat} {args : List PgExpr} (isCall : IsCall e funcid collation args)
      (isBool : types.fn funcid = true) : IsTruth d.toOption := by
    rw [execEval_call isCall] at ok
    obtain ⟨ds, -, ok⟩ := bind_result_ok ok
    unfold callFunction at ok
    split at ok
    · cases ok
      exact isTruth_null
    · exact conventions.booleanFn funcid isBool collation ds _ d ok
  have fold {isAnd : Bool} {args : List PgExpr} (isFold : IsFold e isAnd args) : IsTruth d.toOption := by
    rw [execEval_fold isFold] at ok
    exact execBool_isTruth ok
  match e with
  | .const ty isnull v =>
    rw [execEval] at ok
    cases ok
    simp only [PgExpr.isBoolean, Bool.and_eq_true, Bool.or_eq_true, decide_eq_true_eq] at boolean
    intro v' here
    cases isnull with
    | true => cases here
    | false =>
      cases here
      simpa using boolean.2
  | .param external dno ty =>
    rw [execEval] at ok
    cases ok
    exact conventions.booleanVar dno boolean
  | .relabelType arg =>
    rw [execEval] at ok
    exact execEval_isTruth conventions tree.relabel boolean ok
  | .boolExpr .not [arg] =>
    rw [execEval_not] at ok
    obtain ⟨inner, -, ok⟩ := bind_result_ok ok
    cases ok
    exact isTruth_boolDatum _ _
  | .boolExpr .not [] => exact (IsStuck.notNone.absurd tree).elim
  | .boolExpr .not (e :: e' :: es) => exact ((IsStuck.notMany e e' es).absurd tree).elim
  | .boolExpr .and args => exact fold (.and args)
  | .boolExpr .or args => exact fold (.or args)
  | .opExpr funcid collation args => exact call (.op funcid collation args) boolean
  | .funcExpr funcid collation args =>
    -- A folded constant is a float8 and not a boolean.
    cases folded : foldedNumeric funcid args with
    | none => exact call (.func collation folded) boolean
    | some c =>
      have isNumeric : funcid = .float8Numeric := by
        unfold foldedNumeric at folded
        split at folded
        · rfl
        · cases folded
      rw [PgExpr.isBoolean, isNumeric, conventions.float8] at boolean
      cases boolean
  | .subscriptingRef _ _ _ _ _ | .other => cases boolean

end Truth

/-! ### Guarded evaluations are in step -/

/-- The same value, whatever is behind a NULL. -/
def Same (d d' : NullableDatum) : Prop := d.toOption = d'.toOption

def SameAll (ds ds' : List NullableDatum) : Prop := ds.map (·.toOption) = ds'.map (·.toOption)

/-- The rest of an AND or an OR, after operands that did not decide it. -/
def FoldsTo (isAnd anyNull : Bool) (ds : List NullableDatum) (d : NullableDatum) : Prop :=
  d.toOption = ofTruth (Kleene.fold isAnd ((if anyNull then [none] else []) ++ ds.map (·.bit)))

theorem FoldsTo.nil (isAnd anyNull : Bool) :
    FoldsTo isAnd anyNull [] (if anyNull then ⟨0, true⟩ else ⟨boolDatum isAnd, false⟩) := by
  cases anyNull <;> cases isAnd <;> rfl

section Operand

variable {isAnd anyNull : Bool} {d d' result : NullableDatum} {ds : List NullableDatum}

theorem bit_of_same (same : Same d d') (boolean : IsTruth d'.toOption) : d.bit = truth d'.toOption := by
  rw [Same] at same
  rw [bit_eq_truth (same ▸ boolean), same]

theorem FoldsTo.null (bit : d.bit = none) (rest : FoldsTo isAnd true ds result) :
    FoldsTo isAnd anyNull (d :: ds) result := by
  rw [FoldsTo] at rest ⊢
  rw [rest]
  congr 1
  apply Kleene.fold_congr <;> cases anyNull <;> simp [bit]

theorem FoldsTo.undecided (bit : d.bit = some isAnd) (rest : FoldsTo isAnd anyNull ds result) :
    FoldsTo isAnd anyNull (d :: ds) result := by
  rw [FoldsTo] at rest ⊢
  rw [rest]
  congr 1
  apply Kleene.fold_congr <;> cases anyNull <;> cases isAnd <;> simp [bit]

theorem FoldsTo.decided (bit : d.bit = some !isAnd) :
    FoldsTo isAnd anyNull (d :: ds) ⟨boolDatum !isAnd, false⟩ := by
  rw [FoldsTo, Kleene.fold_eq, if_pos (by simp [bit])]
  rfl

theorem FoldsTo.whole (rest : FoldsTo isAnd false ds result) : Same (foldBool isAnd ds) result := by
  rw [FoldsTo] at rest
  rw [Same, foldBool_toOption, rest]
  rfl

end Operand

section Guarded

variable {σ : Type} {types : BoolTypes} {cat : Catalog} {fns : Functions σ} {params : Nat → NullableDatum}
  {foreign : Site → PgExpr → Eval σ NullableDatum}

theorem callFunction_inStep (conventions : Conventions types fns params) {ds ds' : List NullableDatum}
    (same : SameAll ds ds') (site : Site) (fnStrict : Bool) (funcid : Fid) (collation : Nat) (w : σ) :
    InStep Same ((callFunction fns site fnStrict funcid collation ds >>= fun d => pure (some d)) w)
      (callFunction fns site fnStrict funcid collation ds' w) := by
  have anyNull : ds.any (·.isnull) = ds'.any (·.isnull) := by
    rw [any_isnull_eq, any_isnull_eq, same]
  unfold callFunction
  rw [anyNull]
  split
  · exact .done rfl
  · obtain ⟨results, worlds⟩ := conventions.nulls funcid collation w same
    cases left : (fns funcid collation ds w).1 with
    | error err =>
      rw [bind_error (e := err) (by simp [left])]
      cases right : (fns funcid collation ds' w).1 with
      | error err' =>
        rw [left, right] at results
        cases results
        simp only [event_apply, right, worlds]
        exact .raised
      | ok d' => rw [left, right] at results; cases results
    | ok d =>
      rw [bind_ok (a := d) (by simp [left])]
      cases right : (fns funcid collation ds' w).1 with
      | error err' => rw [left, right] at results; cases results
      | ok d' =>
        rw [left, right] at results
        simp only [event_apply, pure_apply, right, worlds, List.append_nil]
        exact .done (Except.ok.inj results)

theorem compiled_of_value {e : PgExpr} {site : Site} {w : σ} {d : NullableDatum}
    (complete : (runEmitted cat fns params site e w).result = .ok (some d)) :
    (compileExprFmgrFull cat e).isSome = true := by
  rw [← emitExprFmgrFull_toOption site]
  unfold runEmitted at complete
  cases emitted : emitExprFmgrFull cat site e with
  | ok code => rfl
  | error pieces =>
    rw [emitted] at complete
    obtain ⟨-, -, stopped⟩ := bind_result_ok complete
    cases stopped

theorem complete_of_compiled {e : PgExpr} (compiled : (compileExprFmgrFull cat e).isSome = true)
    (site : Site) (w : σ) : (runEmitted cat fns params site e w).result ≠ .ok none := by
  obtain ⟨code, compiled⟩ := Option.isSome_iff_exists.mp compiled
  intro stopped
  rw [runEmitted, emit_of_compiled compiled site] at stopped
  obtain ⟨d, -, none⟩ := bind_result_ok stopped
  cases none

theorem guardedCases (conventions : Conventions types fns params) : NodeCases cat params
    (fun e => Tier2Tree types e → ∀ site w, Guarded cat fns params foreign site e w →
      InStep Same (runEmitted cat fns params site e w) (execEval cat fns params foreign site e w))
    (fun es => Tier2Trees types es →
      (∀ site k w, GuardedArgs cat fns params foreign site k es w →
        InStep SameAll (runEmittedArgs cat fns params site k es w)
          (execArgs cat fns params foreign site k es w)) ∧
      (es.all (·.isBoolean types) = true → ∀ isAnd site k anyNull w,
        GuardedBool cat fns params foreign isAnd site k es w →
          InStep (FoldsTo isAnd anyNull) (runEmittedArgs cat fns params site k es w)
            (execBool cat fns params foreign isAnd site k anyNull es w))) where
  -- A leaf calls nothing on either side.
  leaf leaf _ site w _ := by
    rw [runEmitted_leaf leaf, execEval_leaf leaf]
    refine .done ?_
    cases leaf with
    | const ty isnull v => cases isnull <;> rfl
    | param external dno ty => rfl
    | folded collation isConst => rfl
  relabel arg ih tree site w guarded := by
    rw [runEmitted_relabel, execEval_relabel]
    exact ih tree.relabel site w (by simpa only [Guarded] using guarded)
  not arg ih tree site w guarded := by
    obtain ⟨tree, boolean⟩ := tree.not
    simp only [Guarded, GuardedArgs] at guarded
    rw [runEmitted_not, execEval_not]
    refine (ih tree _ w guarded.1).bind fun d d' same _ ok => .done ?_
    -- NOT reads one bit of the word, so the operand has to be a truth value.
    have isTruth := execEval_isTruth conventions tree boolean ok
    rw [Same, not_eq_sql (same ▸ isTruth), same]
    obtain ⟨v, isnull⟩ := d'
    cases isnull with
    | true => rfl
    | false => rcases isTruth v rfl with rfl | rfl <;> rfl
  fold {e isAnd args} fold ih tree site w guarded := by
    obtain ⟨trees, boolean⟩ := tree.fold fold
    have guardedArgs : GuardedBool cat fns params foreign isAnd site 0 args w := by
      cases fold <;> simpa only [Guarded] using guarded
    rw [runEmitted_fold fold, execEval_fold fold]
    exact ((ih trees).2 boolean isAnd site 0 false w guardedArgs).map fun ds d => FoldsTo.whole
  call {e funcid collation args} call ih tree site w guarded := by
    cases poly : cat.hasPoly funcid with
    | true =>
      -- The compiler gives up at a polymorphic function, before any call.
      rw [runEmitted_poly call poly]
      exact .stopped (List.nil_prefix)
    | false =>
      have guardedArgs : GuardedArgs cat fns params foreign site 0 args w := by
        cases call with
        | op => simpa only [Guarded, poly, Bool.false_eq_true, false_or] using guarded
        | func collation notConst =>
          simpa only [Guarded, poly, notConst, Option.isSome_none, Bool.false_eq_true, false_or] using guarded
      rw [runEmitted_call call poly, execEval_call call]
      refine ((ih (tree.call call)).1 site 0 w guardedArgs).bind fun ds ds' same _ _ => ?_
      exact callFunction_inStep conventions same site _ _ _ _
  stuck stuck tree := (stuck.absurd tree).elim
  nil _ := by
    refine ⟨fun site k w _ => ?_, fun _ isAnd site k anyNull w _ => ?_⟩
    · rw [runEmittedArgs_nil, execArgs]
      exact .done rfl
    · rw [runEmittedArgs_nil, execBool]
      exact .done (.nil isAnd anyNull)
  cons e es first rest trees := by
    obtain ⟨tree, others⟩ := trees.cons
    obtain ⟨restArgs, restBool⟩ := rest others
    refine ⟨fun site k w guarded => ?_, fun boolean isAnd site k anyNull w guarded => ?_⟩
    · simp only [GuardedArgs] at guarded
      rw [runEmittedArgs_cons, execArgs]
      refine (first tree _ w guarded.1).bind fun d d' same complete ok => ?_
      refine InStep.bind (restArgs site (k + 1) _ (guarded.2 (compiled_of_value complete) d' ok)) ?_
      intro ds ds' sameAll _ _
      refine .done ?_
      simp only [SameAll, List.map_cons] at sameAll ⊢
      rw [same, sameAll]
    · simp only [GuardedBool] at guarded
      simp only [List.all_cons, Bool.and_eq_true] at boolean
      rw [runEmittedArgs_cons, execBool]
      refine (first tree _ w guarded.1).bind fun d d' same complete ok => ?_
      have next := guarded.2 (compiled_of_value complete) d' ok
      have bit := bit_of_same same (execEval_isTruth conventions tree boolean.1 ok)
      -- An operand that is null decides nothing, and both sides go on.
      cases isnull : d'.isnull with
      | true =>
        have unknown : d.bit = none := by simp [bit, NullableDatum.toOption, isnull, truth]
        simp only [NullableDatum.decides, isnull, Bool.not_true, Bool.false_and, Bool.false_eq_true,
          if_false] at next
        simp only [if_true]
        exact (restBool boolean.2 isAnd site (k + 1) true _ next).map fun ds result => .null unknown
      | false =>
        have known : d.bit = some (d'.value != 0) := by simp [bit, NullableDatum.toOption, isnull, truth]
        simp only [NullableDatum.decides, isnull, Bool.not_false, Bool.true_and] at next
        simp only [Bool.false_eq_true, if_false]
        -- The executor stops at the operand that decides; the emitted code goes on.
        cases decides : (d'.value != 0) != isAnd with
        | true =>
          rw [if_pos rfl]
          have bit : d.bit = some !isAnd := by
            rw [known]
            cases isAnd <;> simpa using decides
          -- What it goes on with calls nothing, by the guard.
          have described : (silentArgs cat params es).Describes
              (runEmittedArgs cat fns params site (k + 1) es) := silentCases.list es site (k + 1)
          rw [decides, if_pos rfl] at next
          cases silent : silentArgs cat params es with
          | value ds =>
            simp only [silent, Silent.Describes] at described
            rw [described, pure_bind]
            exact .done (.decided bit)
          | stuck =>
            simp only [silent, Silent.Describes] at described
            rw [described, pure_bind]
            exact .stopped (List.prefix_refl _)
          | calls => exact absurd silent next
        | false =>
          have bit : d.bit = some isAnd := by
            rw [known]
            simpa using decides
          rw [decides, if_neg Bool.false_ne_true] at next
          rw [if_neg Bool.false_ne_true]
          exact (restBool boolean.2 isAnd site (k + 1) anyNull _ next).map fun ds result => .undecided bit

theorem proceed_quiet {α β : Type} {f : α → β} (o : Option α) :
    ∃ b, (proceed (fun a => pure (some (f a))) o : Eval σ (Option β)) = pure b := by
  cases o <;> exact ⟨_, rfl⟩

/-- Once the first operand is known to be in step, the others start from the same
world. -/
theorem guarded_head (conventions : Conventions types fns params) {e : PgExpr} {es : List PgExpr}
    (tree : Tier2Tree types e) {γ : Type} {site : Site} {k : Nat} {w : σ} {g : NullableDatum → Eval σ γ}
    (first : (runEmitted cat fns params (k :: site) e w).trace ⊆
        (execEval cat fns params foreign (k :: site) e w).trace →
      Guarded cat fns params foreign (k :: site) e w)
    (places : ∀ d, Within (UnderArgs site (k + 1)) (g d))
    (subset : (runEmittedArgs cat fns params site k (e :: es) w).trace ⊆
      ((execEval cat fns params foreign (k :: site) e >>= g) w).trace) :
    Guarded cat fns params foreign (k :: site) e w ∧
      ((compileExprFmgrFull cat e).isSome = true →
        ∀ d, (execEval cat fns params foreign (k :: site) e w).result = .ok d →
          (runEmittedArgs cat fns params site (k + 1) es
              (execEval cat fns params foreign (k :: site) e w).world).trace ⊆
            (g d (execEval cat fns params foreign (k :: site) e w).world).trace) := by
  rw [runEmittedArgs_cons] at subset
  have emitted : Within ((k :: site) <:+ ·) (runEmitted cat fns params (k :: site) e) :=
    (runEmitted_local (k :: site) e).within
  have executed : Within ((k :: site) <:+ ·) (execEval cat fns params foreign (k :: site) e) :=
    (execEval_local tree (k :: site)).within
  have later (o : Option NullableDatum) : Within (UnderArgs site (k + 1)) (proceed (fun d =>
      runEmittedArgs cat fns params site (k + 1) es >>= proceed fun ds => pure (some (d :: ds))) o) := by
    refine (Local.proceed (fun d => ?_) o).within
    exact (runEmittedArgs_local site (k + 1) es).quietly proceed_quiet
  have guarded := first (bind_subset_left (fun _ => UnderArgs.apart) emitted later executed places subset)
  refine ⟨guarded, fun compiled d ok => ?_⟩
  have inStep := (guardedCases conventions).node e tree (k :: site) w guarded
  obtain ⟨a, -, outcome⟩ := inStep.value (complete_of_compiled compiled _ w) ok
  have tails := bind_subset_right (fun _ => UnderArgs.apart) emitted later executed places
    (by rw [outcome]) ok subset
  simp only [proceed, outcome] at tails
  rwa [bind_quiet_trace proceed_quiet] at tails

/-- Emitted code that calls nothing the executor does not call is in step. -/
theorem subsetCases (conventions : Conventions types fns params) : NodeCases cat params
    (fun e => Tier2Tree types e → ∀ site w,
      (runEmitted cat fns params site e w).trace ⊆ (execEval cat fns params foreign site e w).trace →
        Guarded cat fns params foreign site e w)
    (fun es => Tier2Trees types es →
      (∀ site k w, (runEmittedArgs cat fns params site k es w).trace ⊆
          (execArgs cat fns params foreign site k es w).trace →
        GuardedArgs cat fns params foreign site k es w) ∧
      (es.all (·.isBoolean types) = true → ∀ isAnd site k anyNull w,
        (runEmittedArgs cat fns params site k es w).trace ⊆
            (execBool cat fns params foreign isAnd site k anyNull es w).trace →
          GuardedBool cat fns params foreign isAnd site k es w)) where
  leaf leaf _ site w _ := by
    cases leaf with
    | const ty isnull v => simp only [Guarded]
    | param external dno ty => simp only [Guarded]
    | folded collation isConst => simp only [Guarded, isConst, Option.isSome_some, true_or]
  relabel arg ih tree site w subset := by
    rw [runEmitted_relabel, execEval_relabel] at subset
    simp only [Guarded]
    exact ih tree.relabel site w subset
  not arg ih tree site w subset := by
    rw [runEmitted_not, execEval_not] at subset
    simp only [Guarded, GuardedArgs, implies_true, and_true]
    -- What follows the operand calls nothing, so the calls are those of the operand.
    refine ih tree.not.1 _ w ?_
    rw [bind_quiet_trace fun d => ⟨_, rfl⟩, bind_quiet_trace proceed_quiet] at subset
    exact subset
  fold {e isAnd args} fold ih tree site w subset := by
    obtain ⟨trees, boolean⟩ := tree.fold fold
    rw [runEmitted_fold fold, execEval_fold fold] at subset
    have guarded : GuardedBool cat fns params foreign isAnd site 0 args w := by
      rw [bind_quiet_trace proceed_quiet] at subset
      exact (ih trees).2 boolean isAnd site 0 false w subset
    cases fold <;> simpa only [Guarded] using guarded
  call {e funcid collation args} call ih tree site w subset := by
    cases poly : cat.hasPoly funcid with
    | true => cases call <;> simp only [Guarded, poly, true_or, or_true]
    | false =>
      rw [runEmitted_call call poly, execEval_call call] at subset
      have trees := tree.call call
      have guarded : GuardedArgs cat fns params foreign site 0 args w := by
        -- The call itself is at this site, and those of the arguments are below it.
        refine (ih trees).1 site 0 w (bind_subset_left (fun _ => UnderArgs.ne)
          (runEmittedArgs_local site 0 args).within (fun o => ?_) (execArgs_local trees site 0).within
          (fun ds => (Local.callFunction site _ _ _ ds).within) subset)
        refine (Local.proceed (fun ds => ?_) o).within
        exact (Local.callFunction site _ _ _ ds).quietly fun d => ⟨_, rfl⟩
      cases call <;> simp only [Guarded, guarded, or_true]
  stuck stuck tree := (stuck.absurd tree).elim
  nil _ := by
    refine ⟨fun site k w _ => ?_, fun _ isAnd site k anyNull w _ => ?_⟩
    · simp only [GuardedArgs]
    · simp only [GuardedBool]
  cons e es first rest trees := by
    obtain ⟨tree, others⟩ := trees.cons
    obtain ⟨restArgs, restBool⟩ := rest others
    refine ⟨fun site k w subset => ?_, fun boolean isAnd site k anyNull w subset => ?_⟩
    · rw [execArgs] at subset
      -- The other operands are at other sites than the first.
      have later (d : NullableDatum) : Within (UnderArgs site (k + 1))
          (execArgs cat fns params foreign site (k + 1) es >>= fun ds => pure (d :: ds)) :=
        ((execArgs_local others site (k + 1)).quietly fun ds => ⟨_, rfl⟩).within
      obtain ⟨guarded, tails⟩ := guarded_head conventions tree (first tree _ w) later subset
      simp only [GuardedArgs]
      refine ⟨guarded, fun compiled d ok => restArgs site (k + 1) _ ?_⟩
      have tail := tails compiled d ok
      rwa [bind_quiet_trace fun ds => ⟨_, rfl⟩] at tail
    · rw [execBool] at subset
      simp only [List.all_cons, Bool.and_eq_true] at boolean
      -- The same, whatever the first operand makes the executor do.
      have later (d : NullableDatum) : Within (UnderArgs site (k + 1))
          (if d.isnull then execBool cat fns params foreign isAnd site (k + 1) true es
            else if (d.value != 0) != isAnd then pure ⟨boolDatum !isAnd, false⟩
            else execBool cat fns params foreign isAnd site (k + 1) anyNull es) := by
        split
        · exact (execBool_local others isAnd site (k + 1) true).within
        · split
          · exact .pure _ _
          · exact (execBool_local others isAnd site (k + 1) anyNull).within
      obtain ⟨guarded, tails⟩ := guarded_head conventions tree (first tree _ w) later subset
      simp only [GuardedBool]
      refine ⟨guarded, fun compiled d ok => ?_⟩
      have tail := tails compiled d ok
      cases isnull : d.isnull with
      | true =>
        simp only [isnull, if_true] at tail
        simp only [NullableDatum.decides, isnull, Bool.not_true, Bool.false_and, Bool.false_eq_true, if_false]
        exact restBool boolean.2 isAnd site (k + 1) true _ tail
      | false =>
        simp only [isnull, Bool.false_eq_true, if_false] at tail
        simp only [NullableDatum.decides, isnull, Bool.not_false, Bool.true_and]
        split
        next decides =>
          -- The executor has stopped, so the rest of the emitted code has no call at all.
          rw [if_pos decides, pure_apply, List.subset_nil] at tail
          exact (runEmittedArgs_silent_iff site (k + 1) es _).mp tail
        next decides =>
          rw [if_neg decides] at tail
          exact restBool boolean.2 isAnd site (k + 1) anyNull _ tail

/-- The same calls in the same order, the same result and the same world. -/
def EvaluatedAlike (o o' : Lib.Outcome σ ErrorData Site NullableDatum) : Prop :=
  o.trace = o'.trace ∧ o.result.map (·.toOption) = o'.result.map (·.toOption) ∧ o.world = o'.world

end Guarded

/-! ### A guard against division by zero -/

/-- `n = 0 OR 10 / n > 3`. -/
def guardedDivision : PgExpr :=
  .boolExpr .or [.opExpr .int4eq 0 [.param true 0 .int4, .const .int4 false 0],
    .opExpr .int4gt 0 [.opExpr .int4div 0 [.const .int4 false 10, .param true 0 .int4],
      .const .int4 false 3]]

def guardedDivisionCode : FmgrCode :=
  .fold false [.call .int4eq true 0 [.load 0, .const ⟨0, false⟩],
    .call .int4gt true 0 [.call .int4div true 0 [.const ⟨10, false⟩, .load 0], .const ⟨3, false⟩]]

/-- A function of two numbers. -/
def ofTwo (f : BitVec 64 → BitVec 64 → Except ErrorData NullableDatum) :
    List (Option (BitVec 64)) → Except ErrorData NullableDatum
  | [some a, some b] => f a b
  | _ => .ok ⟨0, true⟩

/-- The functions it calls, on small positive numbers. -/
def divisionFns : Functions Unit := fun funcid _ ds w =>
  match funcid with
  | .int4eq => (ofTwo (fun a b => .ok ⟨boolDatum (a == b), false⟩) (ds.map (·.toOption)), w)
  | .int4gt => (ofTwo (fun a b => .ok ⟨boolDatum (b < a), false⟩) (ds.map (·.toOption)), w)
  | .int4div =>
    (ofTwo (fun a b => if b = 0 then .error ⟨makeSqlstate '2' '2' '0' '1' '2', "division by zero"⟩
      else .ok ⟨a / b, false⟩) (ds.map (·.toOption)), w)
  | _ => (.ok ⟨0, true⟩, w)

/-- Comparisons are boolean. -/
def comparisons : BoolTypes := ⟨fun funcid => funcid = .int4eq ∨ funcid = .int4gt, fun _ => false⟩

theorem divisionFns_conventions (n : BitVec 64) :
    Conventions comparisons divisionFns fun _ => ⟨n, false⟩ := by
  have compares {f : BitVec 64 → BitVec 64 → Bool} {vs : List (Option (BitVec 64))} {d : NullableDatum}
      (ok : ofTwo (fun a b => .ok ⟨boolDatum (f a b), false⟩) vs = .ok d) : IsTruth d.toOption := by
    unfold ofTwo at ok
    split at ok
    · cases ok
      exact isTruth_boolDatum _ _
    · cases ok
      exact isTruth_null
  refine ⟨fun funcid collation ds ds' w same => ?_, fun funcid isBool collation ds w d ok => ?_, nofun, rfl⟩
  · simp only [divisionFns, same, and_self]
  · simp only [comparisons, decide_eq_true_eq] at isBool
    rcases isBool with rfl | rfl
    · exact compares ok
    · exact compares ok

end Uplpgsql
