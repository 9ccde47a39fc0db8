import Uplpgsql.Env
import Mathlib.Data.List.Dedup

/-!
# Queries that are taken for expressions

An expression of PL/pgSQL is a query without SELECT, and may have all the clauses
of one. `exec_is_simple_query` tells which queries are plain expressions, and
`uplpgsql_prepare_and_get_expr` has a list of its own. It does not look at
GROUPING SETS, WINDOW, DISTINCT, ORDER BY, OFFSET and LIMIT.
-/

namespace Uplpgsql

/-! ### The tests -/

inductive CmdType where
  | select
  | update
  | insert
  | delete
  | merge
  | utility
  deriving DecidableEq, Repr

/-- What a bound in OFFSET or LIMIT evaluates to; it may be NULL. -/
abbrev Bound := Except ErrorData (Option Int)

/-- An analysed query, by the clauses it has. Of a list that is only compared with
NIL there is the length. -/
structure Query (τ : Type) where
  commandType : CmdType
  rtable : Nat
  hasAggs : Bool
  hasWindowFuncs : Bool
  hasTargetSRFs : Bool
  hasSubLinks : Bool
  cteList : Nat
  fromlist : Nat
  quals : Bool
  groupClause : Nat
  /-- The sets it expands to. Without a group clause all of them are empty. -/
  groupingSets : Nat
  havingQual : Bool
  windowClause : Nat
  distinctClause : Nat
  sortClause : Nat
  limitOffset : Option Bound
  limitCount : Option Bound
  /-- FETCH FIRST ... WITH TIES, which needs an ORDER BY. -/
  withTies : Bool
  setOperations : Bool
  targetList : List τ

section Tests

variable {τ : Type}

/-- The clauses both functions look at. -/
def Query.plainSelect (q : Query τ) : Bool :=
  q.commandType = .select && q.rtable = 0 && !q.hasAggs && !q.hasWindowFuncs && !q.hasTargetSRFs &&
    !q.hasSubLinks && q.cteList = 0 && q.fromlist = 0 && !q.quals && q.groupClause = 0 && !q.havingQual

/-- A plan has a list of plan sources, each with its list of queries. -/
def uplpgsqlPrepareAndGetExpr : List (List (Query τ)) → Option τ
  | [[q]] =>
    if q.plainSelect then
      match q.targetList with
      | [target] => some target
      | _ => none
    else none
  | _ => none

def execIsSimpleQuery : List (List (Query τ)) → Bool
  | [[q]] =>
    q.plainSelect && q.groupingSets = 0 && q.windowClause = 0 && q.distinctClause = 0 && q.sortClause = 0 &&
      q.limitOffset.isNone && q.limitCount.isNone && !q.setOperations && q.targetList.length = 1
  | _ => false

end Tests

/-! ### Running a query -/

/-- The rows, how often the target was evaluated, and the world after it. -/
structure QueryRun (σ α : Type) where
  result : Except ErrorData (List α)
  evaluations : Nat
  world : σ

def errcodeInvalidRowCountInResultOffset : Nat := makeSqlstate '2' '2' '0' '1' 'X'
def errcodeInvalidRowCountInLimit : Nat := makeSqlstate '2' '2' '0' '1' 'W'

/-- `recompute_limits`: NULL is no bound. -/
def recomputeLimit (negative : ErrorData) : Option Bound → Except ErrorData (Option Nat)
  | none => .ok none
  | some (.error err) => .error err
  | some (.ok none) => .ok none
  | some (.ok (some n)) => if n < 0 then .error negative else .ok (some n.toNat)

def offsetNegative : ErrorData := ⟨errcodeInvalidRowCountInResultOffset, "OFFSET must not be negative"⟩
def limitNegative : ErrorData := ⟨errcodeInvalidRowCountInLimit, "LIMIT must not be negative"⟩

section Rows

variable {σ α : Type} (eval : σ → Except ErrorData α × σ)

/-- The target, evaluated a number of times until it raises. -/
def evalRows : Nat → σ → QueryRun σ α
  | 0, w => ⟨.ok [], 0, w⟩
  | n + 1, w =>
    match eval w with
    | (.error err, w') => ⟨.error err, 1, w'⟩
    | (.ok v, w') =>
      let rest := evalRows n w'
      ⟨rest.result.map (v :: ·), rest.evaluations + 1, rest.world⟩

variable [DecidableEq α] (sortRows : List α → List α) {τ : Type} (q : Query τ)

/-- A query without input tables has one input row, so each grouping set has one
row. -/
def Query.groups : Nat := if q.groupingSets = 0 then 1 else q.groupingSets

/-- DISTINCT and ORDER BY need all rows before there is a first. -/
def Query.blocking : Bool := q.distinctClause ≠ 0 || q.sortClause ≠ 0

/-- The rows that are fetched from the groups. -/
def Query.fetched (offset : Nat) (limit : Option Nat) : Nat :=
  if q.blocking then q.groups
  else
    match limit with
    | none => q.groups
    | some n => min q.groups (offset + n)

def takeRows (withTies : Bool) (limit : Option Nat) (rows : List α) : List α :=
  match limit with
  | none => rows
  | some n =>
    rows.take n ++
      if withTies then (rows.drop n).takeWhile fun v => (rows.take n).getLast? = some v else []

/-- DISTINCT, ORDER BY, OFFSET and LIMIT, in this order. -/
def Query.finish (offset : Nat) (limit : Option Nat) (rows : List α) : List α :=
  let rows := if q.distinctClause = 0 then rows else rows.dedup
  let rows := if q.sortClause = 0 then rows else sortRows rows
  takeRows q.withTies limit (rows.drop offset)

/-- A query that passes the tests. With LIMIT 0 nothing is fetched. -/
def runSelect (w : σ) : QueryRun σ α :=
  match recomputeLimit offsetNegative q.limitOffset, recomputeLimit limitNegative q.limitCount with
  | .error err, _ => ⟨.error err, 0, w⟩
  | .ok _, .error err => ⟨.error err, 0, w⟩
  | .ok offset, .ok limit =>
    if limit = some 0 then ⟨.ok [], 0, w⟩
    else
      let run := evalRows eval (q.fetched (offset.getD 0) limit) w
      ⟨run.result.map (q.finish sortRows (offset.getD 0) limit), run.evaluations, run.world⟩

/-- The target evaluated once, for one row: what a compiled expression does. -/
def evalOnce (w : σ) : QueryRun σ α := ⟨(eval w).1.map fun v => [v], 1, (eval w).2⟩

end Rows

/-! ### One row -/

section OneRow

variable {τ : Type} (q : Query τ)

/-- One row, from one evaluation. -/
structure OneRow : Prop where
  offset : recomputeLimit offsetNegative q.limitOffset = .ok none ∨
    recomputeLimit offsetNegative q.limitOffset = .ok (some 0)
  limit : recomputeLimit limitNegative q.limitCount = .ok none ∨
    ∃ n, recomputeLimit limitNegative q.limitCount = .ok (some (n + 1))
  groups : q.groups = 1 ∨
    recomputeLimit limitNegative q.limitCount = .ok (some 1) ∧ q.blocking = false

variable {q} {σ α : Type} {eval : σ → Except ErrorData α × σ} {sortRows : List α → List α}

theorem evalRows_one (w : σ) : evalRows eval 1 w = evalOnce eval w := by
  unfold evalOnce
  simp only [evalRows]
  cases eval w with
  | mk result world => cases result <;> rfl

/-- A target that always has the same value. -/
theorem evalRows_constant (v : α) (n : Nat) (w : σ) :
    evalRows (fun w => (.ok v, w)) n w = ⟨.ok (List.replicate n v), n, w⟩ := by
  induction n with
  | zero => rfl
  | succ n ih => simp [evalRows, ih, Except.map, List.replicate_succ]

theorem sortRows_one (sorts : ∀ rows, (sortRows rows).Perm rows) (v : α) : sortRows [v] = [v] :=
  List.perm_singleton.mp (sorts [v])

variable [DecidableEq α]

/-- One row passes through all clauses but an OFFSET and a LIMIT 0. -/
theorem finish_one (sorts : ∀ rows, (sortRows rows).Perm rows) {limit : Option Nat} (notZero : limit ≠ some 0)
    (v : α) : q.finish sortRows 0 limit [v] = [v] := by
  have distinct : (if q.distinctClause = 0 then [v] else [v].dedup) = [v] := by
    split <;> simp
  have sorted : (if q.sortClause = 0 then [v] else sortRows [v]) = [v] := by
    split
    · rfl
    · exact sortRows_one sorts v
  simp only [Query.finish, distinct, sorted, List.drop_zero]
  cases limit with
  | none => rfl
  | some n =>
    obtain ⟨m, rfl⟩ : ∃ m, n = m + 1 := Nat.exists_eq_succ_of_ne_zero fun zero => notZero (by rw [zero])
    cases q.withTies <;> simp [takeRows]

theorem runSelect_one (sorts : ∀ rows, (sortRows rows).Perm rows) (one : OneRow q) (w : σ) :
    runSelect eval sortRows q w = evalOnce eval w := by
  have offset : ∃ o, recomputeLimit offsetNegative q.limitOffset = .ok o ∧ o.getD 0 = 0 := by
    rcases one.offset with absent | zero
    · exact ⟨none, absent, rfl⟩
    · exact ⟨some 0, zero, rfl⟩
  have limit : ∃ l, recomputeLimit limitNegative q.limitCount = .ok l ∧ l ≠ some 0 := by
    rcases one.limit with absent | ⟨n, more⟩
    · exact ⟨none, absent, by simp⟩
    · exact ⟨some (n + 1), more, by simp⟩
  obtain ⟨o, offset, zero⟩ := offset
  obtain ⟨l, limit, notZero⟩ := limit
  have fetched : q.fetched 0 l = 1 := by
    unfold Query.fetched
    rcases one.groups with groups | ⟨single, streaming⟩
    · cases l with
      | none => simp [groups]
      | some n =>
        have positive : 0 < n := Nat.pos_of_ne_zero fun isZero => notZero (by rw [isZero])
        simp only [groups]
        split
        · rfl
        · omega
    · rw [limit] at single
      cases single
      have positive : 0 < q.groups := by
        unfold Query.groups
        split <;> omega
      simp only [streaming, Bool.false_eq_true, if_false]
      omega
  simp only [runSelect, offset, limit, notZero, if_false, zero, fetched, evalRows_one, evalOnce]
  cases (eval w).1 with
  | error err => rfl
  | ok v => simp only [Except.map, finish_one sorts notZero]

/-- Past the only row there is nothing. -/
theorem finish_offset (sorts : ∀ rows, (sortRows rows).Perm rows) (offset : Nat) (limit : Option Nat) (v : α)
    (row : q.finish sortRows (offset + 1) limit [v] = [v]) : False := by
  have distinct : (if q.distinctClause = 0 then [v] else [v].dedup) = [v] := by
    split <;> simp
  have sorted : (if q.sortClause = 0 then [v] else sortRows [v]) = [v] := by
    split
    · rfl
    · exact sortRows_one sorts v
  simp only [Query.finish, distinct, sorted, List.drop_succ_cons, List.drop_nil] at row
  cases limit with
  | none => cases row
  | some n => cases q.withTies <;> simp [takeRows] at row

theorem oneRow_of_runSelect (sorts : ∀ rows, (sortRows rows).Perm rows) {v : α} {w : σ}
    (once : runSelect (fun w => (.ok v, w)) sortRows q w = evalOnce (fun w => (.ok v, w)) w) : OneRow q := by
  unfold runSelect evalOnce at once
  cases offset : recomputeLimit offsetNegative q.limitOffset with
  | error err => simp [offset, Except.map] at once
  | ok o =>
    cases limit : recomputeLimit limitNegative q.limitCount with
    | error err => simp [offset, limit, Except.map] at once
    | ok l =>
      simp only [offset, limit] at once
      split at once
      next => simp [Except.map] at once
      next notZero =>
        simp only [evalRows_constant, Except.map, QueryRun.mk.injEq, Except.ok.injEq, and_true] at once
        obtain ⟨rows, fetched⟩ := once
        rw [fetched, List.replicate_one] at rows
        have start : o.getD 0 = 0 := by
          cases here : o.getD 0 with
          | zero => rfl
          | succ n =>
            rw [here] at rows
            exact (finish_offset sorts n l v rows).elim
        refine ⟨?_, ?_, ?_⟩
        · rw [offset]
          cases o with
          | none => exact .inl rfl
          | some n =>
            cases start
            exact .inr rfl
        · rw [limit]
          cases l with
          | none => exact .inl rfl
          | some n =>
            obtain ⟨m, rfl⟩ : ∃ m, n = m + 1 :=
              Nat.exists_eq_succ_of_ne_zero fun zero => notZero (by rw [zero])
            exact .inr ⟨m, rfl⟩
        · rw [limit]
          rw [start] at fetched
          unfold Query.fetched at fetched
          cases blocking : q.blocking with
          | true => exact .inl (by simpa [blocking] using fetched)
          | false =>
            simp only [blocking, Bool.false_eq_true, if_false] at fetched
            cases l with
            | none => exact .inl fetched
            | some n =>
              simp only [Nat.zero_add] at fetched
              by_cases groups : q.groups = 1
              · exact .inl groups
              · refine .inr ⟨?_, rfl⟩
                have single : n = 1 := by omega
                rw [single]

theorem oneRow_of_simple (simple : execIsSimpleQuery [[q]] = true) : OneRow q := by
  simp only [execIsSimpleQuery, Bool.and_eq_true, decide_eq_true_eq, Option.isNone_iff_eq_none] at simple
  obtain ⟨⟨⟨⟨⟨⟨⟨⟨-, sets⟩, -⟩, -⟩, -⟩, offset⟩, limit⟩, -⟩, -⟩ := simple
  refine ⟨.inl (by rw [offset]; rfl), .inl (by rw [limit]; rfl), .inl ?_⟩
  rw [Query.groups, if_pos sets]

end OneRow

/-- A query that the compiler takes for an expression has one row, with the target
evaluated once, if and only if no OFFSET skips it, no LIMIT leaves it out and there
is one grouping set, or only the first is fetched. All queries that
`exec_is_simple_query` accepts are of this kind. -/
theorem accepted_query_is_expression {τ σ α : Type} [DecidableEq α] [Inhabited α] [Inhabited σ]
    {plansources : List (List (Query τ))} {target : τ} {sortRows : List α → List α}
    (sorts : ∀ rows, (sortRows rows).Perm rows)
    (accepted : uplpgsqlPrepareAndGetExpr plansources = some target) :
    ∃ q, plansources = [[q]] ∧ q.targetList = [target] ∧
      ((∀ (eval : τ → σ → Except ErrorData α × σ) (w : σ),
          runSelect (eval target) sortRows q w = evalOnce (eval target) w) ↔ OneRow q) ∧
      (execIsSimpleQuery plansources = true → OneRow q) := by
  unfold uplpgsqlPrepareAndGetExpr at accepted
  split at accepted
  next q =>
    refine ⟨q, rfl, ?_, ⟨fun once => ?_, fun one eval w => runSelect_one sorts one w⟩, oneRow_of_simple⟩
    · split at accepted
      · split at accepted
        next targets =>
          cases accepted
          exact targets
        next => cases accepted
      · cases accepted
    · have same := once (fun _ w => (.ok default, w)) default
      exact oneRow_of_runSelect sorts same
  next => cases accepted

/-- `1` with some clauses. -/
def oneWith (limitCount : Option Bound) (groupingSets : Nat) : Query Nat :=
  { commandType := .select, rtable := 0, hasAggs := false, hasWindowFuncs := false,
    hasTargetSRFs := false, hasSubLinks := false, cteList := 0, fromlist := 0, quals := false,
    groupClause := 0, groupingSets := groupingSets, havingQual := false, windowClause := 0,
    distinctClause := 0, sortClause := 0, limitOffset := none, limitCount := limitCount,
    withTies := false, setOperations := false, targetList := [1] }

/-- `1 LIMIT 3` is an expression. -/
theorem accepted_limit_three :
    runSelect (fun w : Unit => (.ok 1, w)) id (oneWith (some (.ok (some 3))) 0) () =
      evalOnce (fun w : Unit => (.ok 1, w)) () := by
  have accepted : uplpgsqlPrepareAndGetExpr [[oneWith (some (.ok (some 3))) 0]] = some 1 := rfl
  have sorts : ∀ rows : List Nat, (id rows).Perm rows := fun rows => List.Perm.refl rows
  obtain ⟨q, same, -, meaning, -⟩ := accepted_query_is_expression (σ := Unit) sorts accepted
  cases same
  exact meaning.mpr ⟨.inl rfl, .inr ⟨2, rfl⟩, .inl rfl⟩ (fun _ w => (.ok 1, w)) ()

/-- `1 LIMIT 0` is accepted but has no row, and `1 GROUP BY GROUPING SETS ((), ())`
has two. -/
theorem accepted_limit_zero :
    ¬(∀ (q : Query Nat) (target : Nat), uplpgsqlPrepareAndGetExpr [[q]] = some target →
      ∀ (eval : Nat → Unit → Except ErrorData Nat × Unit),
        runSelect (eval target) id q () = evalOnce (eval target) ()) ∧
      (runSelect (fun w : Unit => (.ok 1, w)) id (oneWith none 2) ()).result.toOption = some [1, 1] := by
  refine ⟨fun always => ?_, rfl⟩
  have same := always (oneWith (some (.ok (some 0))) 0) 1 rfl fun target w => (.ok target, w)
  cases same

end Uplpgsql
