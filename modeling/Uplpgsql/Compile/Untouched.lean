import Uplpgsql.Compile.SharedDatums

/-!
# Datums left as they were

A part of the compilation is described by what it leaves of headers and of
loops under way, whether it ends or raises. The description composes, and the
walk over the statements has it.
-/

namespace Uplpgsql.Shared

open Lib

variable {σ : Type}

section Steps

variable (env : Surroundings σ) (fn : FunctionTree)

def FunctionTree.IsRecord (dno : Nat) : Prop := ∃ rectypeid, fn.datums dno = .record rectypeid

/-- Asking for the type makes a header: the datum is a field of a variable of a
composite type that has none. -/
def instantiates (w : CompileWorld σ) (dno : Nat) : Prop :=
  ∃ recparentno fieldname typid desc, fn.datums dno = .recfield recparentno fieldname ∧
    fn.datums recparentno = .record (some typid) ∧ w.erh recparentno = none ∧
      env.rowType typid = some desc

/-- A step that leaves nothing behind: no header is made for a composite variable,
and an error is raised only where no record has a temporary header. -/
def Harmless : CompileWorld σ × CompileStep → Prop
  | (w, .paramType dno) => ¬instantiates env fn w dno
  | (w, .raise) => w.installed = []

end Steps

variable {env : Surroundings σ} {fn : FunctionTree}

/-! ### The analysis -/

theorem fieldOwner_world (w : CompileWorld σ) (recparentno : Nat) :
    (∃ desc, w.erh recparentno = some desc ∧ fieldOwner env fn w recparentno = some (desc, w)) ∨
    (∃ typid desc, fn.datums recparentno = .record (some typid) ∧ w.erh recparentno = none ∧
      env.rowType typid = some desc ∧
      fieldOwner env fn w recparentno = some (desc, w.setErh recparentno desc)) ∨
    w.erh recparentno = none ∧ fieldOwner env fn w recparentno = none ∧
      ∀ typid, fn.datums recparentno = .record (some typid) → env.rowType typid = none := by
  unfold fieldOwner
  cases header : w.erh recparentno with
  | some desc => exact .inl ⟨desc, rfl, rfl⟩
  | none =>
    cases decl : fn.datums recparentno with
    | record rectypeid =>
      cases rectypeid with
      | none => exact .inr (.inr ⟨rfl, rfl, by simp⟩)
      | some typid =>
        cases row : env.rowType typid with
        | none => exact .inr (.inr ⟨rfl, by simp [row], by simp [row]⟩)
        | some desc => exact .inr (.inl ⟨typid, desc, rfl, rfl, row, by simp [row]⟩)
    | var _ => exact .inr (.inr ⟨rfl, rfl, by simp⟩)
    | row => exact .inr (.inr ⟨rfl, rfl, by simp⟩)
    | recfield _ _ => exact .inr (.inr ⟨rfl, rfl, by simp⟩)

/-- The one effect of asking for a type. -/
theorem datumTypeInfo_world (dno : Nat) (w : CompileWorld σ) :
    (¬instantiates env fn w dno ∧ (datumTypeInfo env fn dno w).2 = w) ∨
    instantiates env fn w dno ∧ ∃ recparentno typid desc,
      fn.datums recparentno = .record (some typid) ∧ w.erh recparentno = none ∧
      (datumTypeInfo env fn dno w).2 = w.setErh recparentno (some desc) := by
  have unless_field (other : ∀ r f, fn.datums dno ≠ .recfield r f) :
      ¬instantiates env fn w dno := by
    rintro ⟨r, f, _, _, field, _⟩
    exact other r f field
  cases decl : fn.datums dno with
  | var typoid => exact .inl ⟨unless_field (by simp [decl]), by simp only [datumTypeInfo, decl]⟩
  | row => exact .inl ⟨unless_field (by simp [decl]), by simp only [datumTypeInfo, decl]⟩
  | record rectypeid =>
    refine .inl ⟨unless_field (by simp [decl]), ?_⟩
    cases rectypeid <;> simp only [datumTypeInfo, decl]
  | recfield recparentno fieldname =>
    rcases @fieldOwner_world _ env fn w recparentno with
      ⟨desc, header, owner⟩ | ⟨typid, desc, record, none, row, owner⟩ | ⟨none, owner, gone⟩
    · refine .inl ⟨?_, ?_⟩
      · rintro ⟨r, f, typid, _, field, _, none, _⟩
        cases decl.symm.trans field
        rw [header] at none
        cases none
      · simp only [datumTypeInfo, decl, owner]
        cases env.fieldType desc fieldname <;> rfl
    · refine .inr ⟨⟨recparentno, fieldname, typid, desc, decl, record, none, row⟩, ?_⟩
      refine ⟨recparentno, typid, desc, record, none, ?_⟩
      simp only [datumTypeInfo, decl, owner]
      cases env.fieldType desc fieldname <;> rfl
    · refine .inl ⟨?_, by simp only [datumTypeInfo, decl, owner]⟩
      rintro ⟨r, f, typid, desc, field, record, _, row⟩
      cases decl.symm.trans field
      rw [gone typid record] at row
      cases row

/-- A header where there was none, in a record. -/
def Installed (fn : FunctionTree) (w w' : CompileWorld σ) : Prop :=
  ∃ dno, fn.IsRecord dno ∧ w.erh dno = none ∧ w'.erh dno ≠ none

/-- Headers stay where they are. -/
def HeadersKept (w w' : CompileWorld σ) : Prop :=
  ∀ dno desc, w.erh dno = some desc → w'.erh dno = some desc

theorem HeadersKept.refl (w : CompileWorld σ) : HeadersKept w w := fun _ _ header => header

theorem HeadersKept.trans {w w' w'' : CompileWorld σ} (first : HeadersKept w w')
    (second : HeadersKept w' w'') : HeadersKept w w'' :=
  fun dno desc header => second dno desc (first dno desc header)

theorem Installed.mono {w w' w'' : CompileWorld σ} (there : Installed fn w w')
    (kept : HeadersKept w' w'') : Installed fn w w'' := by
  obtain ⟨dno, record, none, some⟩ := there
  obtain ⟨desc, header⟩ := Option.ne_none_iff_exists'.mp some
  exact ⟨dno, record, none, by simp [kept dno desc header]⟩

/-- What an analysis leaves: nothing but headers of composite variables. -/
structure AnalysedFrom (env : Surroundings σ) (fn : FunctionTree) (w : CompileWorld σ)
    (trace : List (CompileWorld σ × CompileStep)) (w' : CompileWorld σ) : Prop where
  only : w' = { w with erh := w'.erh }
  kept : HeadersKept w w'
  untyped : ∀ dno, fn.datums dno = .record none → w'.erh dno = w.erh dno
  clean : (∀ step ∈ trace, Harmless env fn step) → w'.erh = w.erh
  dirty : (∃ step ∈ trace, ¬Harmless env fn step) → Installed fn w w'

theorem AnalysedFrom.refl (w : CompileWorld σ) : AnalysedFrom env fn w [] w where
  only := rfl
  kept := .refl w
  untyped _ _ := rfl
  clean _ := rfl
  dirty := by simp

theorem makeDatumParam_analysed (dno : Nat) (w : CompileWorld σ) :
    AnalysedFrom env fn w [(w, .paramType dno)] (datumTypeInfo env fn dno w).2 := by
  rcases @datumTypeInfo_world _ env fn dno w with
    ⟨quiet, same⟩ | ⟨made, recparentno, typid, desc, record, none, same⟩
  · rw [same]
    refine ⟨rfl, .refl w, fun _ _ => rfl, fun _ => rfl, fun harm => ?_⟩
    obtain ⟨step, mem, harm⟩ := harm
    obtain rfl := List.mem_singleton.mp mem
    exact absurd quiet harm
  · rw [same]
    refine ⟨rfl, fun d header there => ?_, fun d untyped => ?_, fun clean => ?_, fun _ => ?_⟩
    · have ne : d ≠ recparentno := by
        rintro rfl
        rw [none] at there
        cases there
      simpa [CompileWorld.setErh, Function.update_of_ne ne] using there
    · have ne : d ≠ recparentno := by
        rintro rfl
        cases untyped.symm.trans record
      simp [CompileWorld.setErh, Function.update_of_ne ne]
    · exact absurd made (clean _ (List.mem_singleton_self _))
    · exact ⟨recparentno, ⟨_, record⟩, none, by simp [CompileWorld.setErh]⟩

theorem AnalysedFrom.trans {w w' w'' : CompileWorld σ} {t t' : List (CompileWorld σ × CompileStep)}
    (first : AnalysedFrom env fn w t w') (second : AnalysedFrom env fn w' t' w'') :
    AnalysedFrom env fn w (t ++ t') w'' where
  only := by rw [second.only, first.only]
  kept := first.kept.trans second.kept
  untyped dno untyped := (second.untyped dno untyped).trans (first.untyped dno untyped)
  clean harmless := by
    rw [second.clean fun step mem => harmless step (List.mem_append_right t mem),
      first.clean fun step mem => harmless step (List.mem_append_left t' mem)]
  dirty := by
    rintro ⟨step, mem, harm⟩
    rcases List.mem_append.mp mem with here | there
    · exact (first.dirty ⟨step, here, harm⟩).mono second.kept
    · by_cases quiet : ∀ step ∈ t, Harmless env fn step
      · obtain ⟨dno, record, none, some⟩ := second.dirty ⟨step, there, harm⟩
        rw [first.clean quiet] at none
        exact ⟨dno, record, none, some⟩
      · push Not at quiet
        exact (first.dirty quiet).mono second.kept

theorem Parsing.run_analysed (parsing : Parsing) (w : CompileWorld σ) :
    AnalysedFrom env fn w (parsing.run env fn w).trace (parsing.run env fn w).world := by
  induction parsing generalizing w with
  | done plan => exact .refl w
  | error => exact .refl w
  | param dno next ih =>
    have asked := @makeDatumParam_analysed _ env fn dno w
    rw [Parsing.run]
    cases answer : (makeDatumParam env fn dno w).result with
    | error e =>
      rw [Traced.bind_error answer]
      exact asked
    | ok ty =>
      rw [Traced.bind_ok answer]
      exact asked.trans (ih ty _)

/-! ### Parts of the compilation -/

/-- What a part of the compilation leaves, run in `w`: headers that were there, the
caller's state, and, unless it raises, the loops under way. An error leaves the
temporary headers of the loops it leaves. -/
structure Leaves {α : Type} (env : Surroundings σ) (fn : FunctionTree) (x : Pass σ α)
    (w : CompileWorld σ) : Prop where
  estate : (x w).world.curEstate = w.curEstate
  kept : HeadersKept w (x w).world
  loops : ∀ a, (x w).result = .ok a → (x w).world.installed = w.installed
  raised : ∀ e, (x w).result = .error e → ∃ more, (x w).world.installed = more ++ w.installed ∧
    ∀ dno ∈ more, fn.IsRecord dno ∧ w.erh dno = none ∧ (x w).world.erh dno ≠ none
  clean : (∀ step ∈ (x w).trace, Harmless env fn step) → (x w).world.erh = w.erh ∧
    ∀ e, (x w).result = .error e → (x w).world.installed = []
  dirty : (∃ step ∈ (x w).trace, ¬Harmless env fn step) → Installed fn w (x w).world ∨
    (∃ e, (x w).result = .error e) ∧ (x w).world.installed ≠ []

namespace Leaves

variable {α β : Type} {x : Pass σ α} {f : α → Pass σ β} {w : CompileWorld σ}

/-- A part that takes no step and leaves headers, loops and state alone. -/
theorem of_quiet {a : α} {w' : CompileWorld σ} (ran : x w = ⟨[], .ok a, w'⟩)
    (erh : w'.erh = w.erh) (installed : w'.installed = w.installed)
    (estate : w'.curEstate = w.curEstate) : Leaves env fn x w where
  estate := by rw [ran]; exact estate
  kept := by
    rw [ran]
    intro dno desc header
    rw [erh]
    exact header
  loops _ _ := by rw [ran]; exact installed
  raised e error := by rw [ran] at error; cases error
  clean _ := by
    rw [ran]
    exact ⟨erh, fun e error => by cases error⟩
  dirty := by simp [ran]

protected theorem pure (a : α) (w : CompileWorld σ) : Leaves env fn (pure a : Pass σ α) w :=
  .of_quiet (Traced.pure_apply a w) rfl rfl rfl

protected theorem read (f : CompileWorld σ → α) (w : CompileWorld σ) :
    Leaves env fn (Pass.read f) w :=
  .of_quiet rfl rfl rfl rfl

theorem setPlan (expr : Nat) (plan : Option Plan) (w : CompileWorld σ) :
    Leaves env fn (Pass.change fun w => w.setPlan expr plan) w :=
  .of_quiet rfl rfl rfl rfl

/-- One part after the other. -/
protected theorem bind (first : Leaves env fn x w)
    (rest : ∀ a, (x w).result = .ok a → Leaves env fn (f a) (x w).world) :
    Leaves env fn (x >>= f) w := by
  cases result : (x w).result with
  | error e =>
    have ran := Traced.bind_error (f := f) result
    refine ⟨?_, ?_, ?_, ?_, ?_, ?_⟩ <;> rw [ran]
    · exact first.estate
    · exact first.kept
    · exact fun a ok => by cases ok
    · exact fun e' _ => first.raised e result
    · exact fun clean => ⟨(first.clean clean).1, fun _ _ => (first.clean clean).2 e result⟩
    · intro harm
      rcases first.dirty harm with installed | ⟨-, loops⟩
      · exact .inl installed
      · exact .inr ⟨⟨e, rfl⟩, loops⟩
  | ok a =>
    have next := rest a result
    have loops := first.loops a result
    have ran := Traced.bind_ok (f := f) result
    refine ⟨?_, ?_, ?_, ?_, ?_, ?_⟩ <;> rw [ran]
    · exact next.estate.trans first.estate
    · exact first.kept.trans next.kept
    · exact fun b ok => (next.loops b ok).trans loops
    · intro e error
      obtain ⟨more, under, records⟩ := next.raised e error
      refine ⟨more, under.trans (by rw [loops]), fun dno mem => ?_⟩
      obtain ⟨record, none, some⟩ := records dno mem
      refine ⟨record, ?_, some⟩
      -- a header that was there before `x` is there after it
      cases header : w.erh dno with
      | none => rfl
      | some desc =>
        rw [first.kept dno desc header] at none
        cases none
    · intro clean
      have first' := first.clean fun step mem => clean step (List.mem_append_left _ mem)
      have next' := next.clean fun step mem => clean step (List.mem_append_right _ mem)
      exact ⟨next'.1.trans first'.1, next'.2⟩
    · rintro ⟨step, mem, harm⟩
      by_cases quiet : ∀ step ∈ (x w).trace, Harmless env fn step
      · rcases List.mem_append.mp mem with here | there
        · exact absurd (quiet step here) harm
        · rcases next.dirty ⟨step, there, harm⟩ with ⟨dno, record, none, some⟩ | raised
          · rw [(first.clean quiet).1] at none
            exact .inl ⟨dno, record, none, some⟩
          · exact .inr raised
      · push Not at quiet
        rcases first.dirty quiet with installed | ⟨⟨e, error⟩, -⟩
        · exact .inl (installed.mono next.kept)
        · rw [result] at error
          cases error

end Leaves

section Parts

variable {w : CompileWorld σ}

/-- The analysis of an expression: an error of the parser is caught. -/
theorem leaves_prepareExtended (expr : Nat) : Leaves env fn (prepareExtended env fn expr) w := by
  have analysed := @Parsing.run_analysed _ env fn (env.parse expr) { w with curEstate := .fake }
  have steps {P : CompileWorld σ × CompileStep → Prop} :
      (∀ step ∈ ((env.parse expr).run env fn { w with curEstate := .fake }).trace, P step) ↔
        ∀ step ∈ (prepareExtended env fn expr w).trace, P step := Iff.rfl
  have only := analysed.only
  refine ⟨rfl, fun dno desc header => analysed.kept dno desc header, fun _ _ => ?_,
    fun e error => ?_, fun clean => ?_, fun harm => ?_⟩
  · change ((env.parse expr).run env fn { w with curEstate := .fake }).world.installed = _
    rw [only]
  · cases error
  · exact ⟨analysed.clean clean, fun e error => by cases error⟩
  · exact .inl (analysed.dirty harm)

theorem leaves_prepareAndGetExpr (expr : Nat) :
    Leaves env fn (prepareAndGetExpr env fn expr) w := by
  refine .bind (.read _ w) fun plan _ => ?_
  cases plan with
  | some plan => exact .pure _ _
  | none =>
    refine .bind (leaves_prepareExtended expr) fun plan _ => ?_
    cases plan with
    | none => exact .pure _ _
    | some plan => exact .bind (.setPlan expr plan _) fun _ _ => .pure _ _

/-- Other work may raise: the error is harmless where no loop is under way. -/
theorem leaves_perform (task : Task) : Leaves env fn (perform env task) w := by
  cases worked : env.work task w.erh w.rest with
  | some done =>
    obtain ⟨b, rest⟩ := done
    have ran : perform env task w = ⟨[], .ok b, { w with rest := rest }⟩ := by
      simp only [perform, worked]
    exact .of_quiet ran rfl rfl rfl
  | none =>
    have ran : perform env task w = ⟨[(w, .raise)], .error (), w⟩ := by simp only [perform, worked]
    refine ⟨?_, ?_, ?_, ?_, ?_, ?_⟩ <;> rw [ran]
    · exact .refl w
    · exact fun a ok => by cases ok
    · exact fun e _ => ⟨[], rfl, by simp⟩
    · exact fun clean => ⟨rfl, fun _ _ => clean _ (List.mem_singleton_self _)⟩
    · rintro ⟨step, mem, harm⟩
      obtain rfl := List.mem_singleton.mp mem
      exact .inr ⟨⟨(), rfl⟩, harm⟩

theorem leaves_doTask (task : Task) : Leaves env fn (doTask env task) w :=
  .bind (leaves_perform task) fun _ _ => .pure _ _

theorem leaves_tryCompileAssign (varno expr : Nat) :
    Leaves env fn (tryCompileAssign env fn varno expr) w := by
  unfold tryCompileAssign
  split
  · refine .bind (leaves_prepareAndGetExpr expr) fun e _ => ?_
    cases e with
    | none => exact .pure _ _
    | some e => exact leaves_perform _
  · exact .pure _ _

theorem leaves_compileAssign (varno expr : Nat) :
    Leaves env fn (compileAssign env fn varno expr) w := by
  refine .bind (leaves_tryCompileAssign varno expr) fun inlined _ => ?_
  cases inlined with
  | true => exact .pure _ _
  | false => exact .bind (leaves_doTask _) fun _ _ => .setPlan expr none _

theorem leaves_codeForCondition (expr : Nat) (e : PgExpr) :
    Leaves env fn (codeForCondition env expr e) w := by
  refine .bind (leaves_perform _) fun inlined _ => ?_
  cases inlined with
  | true => exact .pure _ _
  | false => exact .bind (.setPlan expr none _) fun _ _ => .pure _ _

theorem leaves_evalBool (deferCondPlan : Bool) (expr : Nat) :
    Leaves env fn (evalBool env fn deferCondPlan expr) w := by
  refine .bind ?_ fun inlined _ => ?_
  · cases deferCondPlan with
    | true => exact .pure _ _
    | false =>
      refine .bind (leaves_prepareAndGetExpr expr) fun e _ => ?_
      cases e with
      | none => exact .pure _ _
      | some e => exact leaves_codeForCondition expr e
  · cases inlined with
    | true => exact .pure _ _
    | false => exact leaves_doTask _

end Parts

/-! ### The temporary header -/

section Temporary

variable {w : CompileWorld σ} {dno query : Nat}

theorem leaves_temporaryDesc : Leaves env fn (temporaryDesc env fn dno query) w := by
  unfold temporaryDesc
  split
  · refine .bind (.read _ w) fun busy _ => ?_
    cases busy with
    | true => exact .pure _ _
    | false =>
      refine .bind (leaves_prepareExtended query) fun plan _ => ?_
      cases plan with
      | none => exact .pure _ _
      | some plan =>
        refine .bind (.setPlan query plan _) fun _ _ => ?_
        cases plan.resultDesc with
        | none => exact .pure _ _
        | some desc => exact .bind (leaves_doTask _) fun _ _ => .pure _ _
  · exact .pure _ _

/-- A part that gives the record no header. -/
def GivesNone {α : Type} (dno : Nat) (x : Pass σ α) : Prop :=
  ∀ w, w.erh dno = none → (x w).world.erh dno = none

theorem GivesNone.bind {α β : Type} {x : Pass σ α} {f : α → Pass σ β} (first : GivesNone dno x)
    (rest : ∀ a, GivesNone dno (f a)) : GivesNone dno (x >>= f) := by
  intro w none
  cases result : (x w).result with
  | error e =>
    rw [Traced.bind_error result]
    exact first w none
  | ok a =>
    rw [Traced.bind_ok result]
    exact rest a _ (first w none)

theorem GivesNone.pure {α : Type} (a : α) : GivesNone dno (pure a : Pass σ α) := fun _ none => none

theorem givesNone_perform (task : Task) : GivesNone dno (perform env task) := by
  intro w none
  unfold perform
  split <;> exact none

/-- Only composite variables get a header from the analysis. -/
theorem givesNone_prepareExtended (untyped : fn.datums dno = .record none) (expr : Nat) :
    GivesNone dno (prepareExtended env fn expr) := fun w none =>
  (((env.parse expr).run_analysed { w with curEstate := .fake }).untyped dno untyped).trans none

theorem givesNone_temporaryDesc (untyped : fn.datums dno = .record none) :
    GivesNone dno (temporaryDesc env fn dno query) := by
  simp only [temporaryDesc, untyped]
  refine .bind (fun _ none => none) fun busy => ?_
  cases busy with
  | true => exact .pure _
  | false =>
    refine .bind (givesNone_prepareExtended untyped query) fun plan => ?_
    cases plan with
    | none => exact .pure _
    | some plan =>
      refine .bind (fun _ none => none) fun _ => ?_
      cases plan.resultDesc with
      | none => exact .pure _
      | some desc => exact .bind (.bind (givesNone_perform _) fun _ => .pure _) fun _ => .pure _

/-- A header is to be put into a RECORD variable that has none. -/
theorem temporaryDesc_some {desc : Nat}
    (found : (temporaryDesc env fn dno query w).result = .ok (some desc)) :
    fn.datums dno = .record none ∧ (temporaryDesc env fn dno query w).world.erh dno = none := by
  have untyped : fn.datums dno = .record none := by
    by_contra typed
    have declined : temporaryDesc env fn dno query = pure none := by
      unfold temporaryDesc
      split
      next untyped => exact absurd untyped typed
      next => rfl
    rw [declined] at found
    cases found
  refine ⟨untyped, givesNone_temporaryDesc untyped w ?_⟩
  cases header : w.erh dno with
  | none => rfl
  | some held =>
    simp only [temporaryDesc, untyped] at found
    rw [Traced.bind_ok (rfl : (Pass.read _ w).result = .ok _)] at found
    simp only [header, Option.isSome_some, Bool.true_or, if_true] at found
    cases found

/-- The world a loop's body is compiled in. -/
def inLoop (w : CompileWorld σ) (dno desc : Nat) : CompileWorld σ :=
  { w.setErh dno desc with installed := dno :: w.installed }

theorem withTemporary_run (desc : Nat) (body : Pass σ Unit) :
    withTemporary dno desc body w =
      (body >>= fun _ => restoreErh dno (w.erh dno)) (inLoop w dno desc) := rfl

theorem inLoop_erh_ne {desc d : Nat} (ne : d ≠ dno) : (inLoop w dno desc).erh d = w.erh d := by
  simp [inLoop, CompileWorld.setErh, Function.update_of_ne ne]

theorem inLoop_erh_self {desc : Nat} : (inLoop w dno desc).erh dno = some desc := by
  simp [inLoop, CompileWorld.setErh]

/-- The loop's body is compiled with the header in place. Where it ends, the header goes;
where it raises, the header stays. -/
theorem leaves_withTemporary {desc : Nat} {body : Pass σ Unit}
    (untyped : fn.datums dno = .record none) (free : w.erh dno = none)
    (part : Leaves env fn body (inLoop w dno desc)) :
    Leaves env fn (withTemporary dno desc body) w := by
  have held : (body (inLoop w dno desc)).world.erh dno = some desc :=
    part.kept dno desc inLoop_erh_self
  have named {d header : Nat} (there : w.erh d = some header) : d ≠ dno := by
    rintro rfl
    rw [free] at there
    cases there
  -- what is new inside the loop is new outside, but for the loop's own record
  have outside {d : Nat} (none : (inLoop w dno desc).erh d = none) :
      d ≠ dno ∧ w.erh d = Option.none := by
    have ne : d ≠ dno := by
      rintro rfl
      rw [inLoop_erh_self] at none
      cases none
    exact ⟨ne, (inLoop_erh_ne ne).symm.trans none⟩
  cases result : (body (inLoop w dno desc)).result with
  | error e =>
    have ran := (withTemporary_run desc body).trans (Traced.bind_error result)
    obtain ⟨more, under, records⟩ := part.raised e result
    have loops : (body (inLoop w dno desc)).world.installed ≠ [] := by
      rw [under]
      simp [inLoop]
    refine ⟨?_, ?_, ?_, ?_, ?_, ?_⟩ <;> rw [ran]
    · exact part.estate
    · intro d header there
      exact part.kept d header ((inLoop_erh_ne (named there)).trans there)
    · exact fun a ok => by cases ok
    · refine fun _ _ => ⟨more ++ [dno], by simpa [inLoop] using under, fun d mem => ?_⟩
      rcases List.mem_append.mp mem with mem | mem
      · obtain ⟨record, none, some⟩ := records d mem
        exact ⟨record, (outside none).2, some⟩
      · obtain rfl := List.mem_singleton.mp mem
        exact ⟨⟨_, untyped⟩, free, by simp [held]⟩
    · exact fun clean => absurd ((part.clean clean).2 e result) loops
    · exact fun _ => .inr ⟨⟨e, rfl⟩, loops⟩
  | ok a =>
    have ran := (withTemporary_run desc body).trans (Traced.bind_ok result)
    have restored {d : Nat} (ne : d ≠ dno) :
        (restoreErh dno (w.erh dno) (body (inLoop w dno desc)).world).world.erh d =
          (body (inLoop w dno desc)).world.erh d := by
      simp [restoreErh, Pass.change, CompileWorld.setErh, Function.update_of_ne ne]
    refine ⟨?_, ?_, ?_, ?_, ?_, ?_⟩ <;> rw [ran]
    · exact part.estate
    · intro d header there
      have ne := named there
      exact (restored ne).trans (part.kept d header ((inLoop_erh_ne ne).trans there))
    · intro _ _
      change (body (inLoop w dno desc)).world.installed.tail = _
      rw [part.loops a result]
      rfl
    · exact fun e error => by cases error
    · intro clean
      simp only [restoreErh, Pass.change, List.append_nil] at clean
      refine ⟨?_, fun e error => by cases error⟩
      funext d
      by_cases own : d = dno
      · subst own
        simp [restoreErh, Pass.change, CompileWorld.setErh]
      · change (restoreErh dno (w.erh dno) (body (inLoop w dno desc)).world).world.erh d = _
        rw [restored own, (part.clean clean).1, inLoop_erh_ne own]
    · intro harm
      simp only [restoreErh, Pass.change, List.append_nil] at harm
      rcases part.dirty harm with ⟨d, record, none, some⟩ | ⟨⟨e, error⟩, -⟩
      · obtain ⟨ne, free'⟩ := outside none
        exact .inl ⟨d, record, free', by rw [restored ne]; exact some⟩
      · rw [result] at error
        cases error

theorem leaves_compileFors {body : Pass σ Unit} (parts : ∀ w, Leaves env fn body w) :
    Leaves env fn (compileFors env fn dno query body) w := by
  refine .bind leaves_temporaryDesc fun found result => ?_
  cases found with
  | none => exact parts _
  | some desc =>
    obtain ⟨untyped, free⟩ := temporaryDesc_some result
    exact leaves_withTemporary untyped free (parts _)

end Temporary

/-! ### The walk over the statements -/

theorem leaves_compileLeaf (leaf : LeafStmt) (w : CompileWorld σ) :
    Leaves env fn (compileLeaf env fn leaf) w := by
  cases leaf with
  | assign varno expr => exact leaves_compileAssign varno expr
  | assert cond => exact leaves_evalBool false cond
  | other => exact .pure _ _

theorem leaves_compileExitCond (cond : Option Nat) (w : CompileWorld σ) :
    Leaves env fn (compileExitCond env fn cond) w := by
  cases cond with
  | none => exact .pure _ _
  | some expr => exact leaves_evalBool false expr

theorem leaves_around {stmt : Stmt} {parts : Pass σ Unit} (each : ∀ w, Leaves env fn parts w)
    (w : CompileWorld σ) : Leaves env fn (around env stmt parts) w :=
  .bind (leaves_doTask _) fun _ _ => .bind (each _) fun _ _ => leaves_doTask _

mutual

theorem leaves_compileStmt (stmt : Stmt) (w : CompileWorld σ) :
    Leaves env fn (compileStmt env fn stmt) w := by
  match stmt with
  | .leaf id =>
    rw [compileStmt]
    exact leaves_around (leaves_compileLeaf _) w
  | .block label initvars body =>
    rw [compileStmt]
    exact leaves_around (leaves_compileStmts body) w
  | .blockExceptions label initvars body exceptions =>
    rw [compileStmt]
    exact leaves_around
      (fun _ => .bind (leaves_compileStmts body _) fun _ _ => leaves_compileExceptions exceptions _) w
  | .cond expr thenBody elsifs elseBody =>
    rw [compileStmt]
    refine leaves_around (fun _ => ?_) w
    exact .bind (leaves_evalBool false expr) fun _ _ =>
      .bind (leaves_compileStmts thenBody _) fun _ _ =>
      .bind (leaves_compileWhens false elsifs _) fun _ _ => leaves_compileStmts elseBody _
  | .case test whens haveElse elseStmts =>
    rw [compileStmt]
    refine leaves_around (fun _ => .bind (leaves_compileWhens test.isSome whens _) fun _ _ => ?_) w
    cases haveElse with
    | true => exact leaves_compileStmts elseStmts _
    | false => exact .pure _ _
  | .condLoop label expr testAtTop body =>
    rw [compileStmt]
    refine leaves_around (fun _ => ?_) w
    cases testAtTop with
    | true => exact .bind (leaves_evalBool false expr) fun _ _ => leaves_compileStmts body _
    | false => exact .bind (leaves_compileStmts body _) fun _ _ => leaves_evalBool false expr
  | .loop label body =>
    rw [compileStmt]
    exact leaves_around (leaves_compileStmts body) w
  | .fori label var lower upper step reverse body =>
    rw [compileStmt]
    exact leaves_around (leaves_compileStmts body) w
  | .forq .fors label id body =>
    rw [compileStmt]
    exact leaves_around (fun _ => leaves_compileFors (leaves_compileStmts body)) w
  | .forq .forc label id body =>
    rw [compileStmt]
    exact leaves_around (leaves_compileStmts body) w
  | .forq .dynfors label id body =>
    rw [compileStmt]
    exact leaves_around (leaves_compileStmts body) w
  | .foreachA label id body =>
    rw [compileStmt]
    exact leaves_around (fun _ => .pure _ _) w
  | .exit isExit label cond =>
    rw [compileStmt]
    exact leaves_around (leaves_compileExitCond cond) w
  | .ret id =>
    rw [compileStmt]
    exact leaves_around (fun _ => .pure _ _) w

theorem leaves_compileStmts (stmts : Stmts) (w : CompileWorld σ) :
    Leaves env fn (compileStmts env fn stmts) w := by
  match stmts with
  | .nil => exact .pure _ _
  | .cons head tail =>
    rw [compileStmts]
    exact .bind (leaves_compileStmt head w) fun _ _ => leaves_compileStmts tail _

theorem leaves_compileWhens (deferCondPlan : Bool) (whens : Whens) (w : CompileWorld σ) :
    Leaves env fn (compileWhens env fn deferCondPlan whens) w := by
  cases whens with
  | nil => exact .pure _ _
  | cons expr body rest =>
    rw [compileWhens]
    exact .bind (leaves_evalBool deferCondPlan expr) fun _ _ =>
      .bind (leaves_compileStmts body _) fun _ _ => leaves_compileWhens deferCondPlan rest _

theorem leaves_compileExceptions (exceptions : Exceptions) (w : CompileWorld σ) :
    Leaves env fn (compileExceptions env fn exceptions) w := by
  cases exceptions with
  | nil => exact .pure _ _
  | cons conditions action rest =>
    rw [compileExceptions]
    exact .bind (leaves_compileStmts action w) fun _ _ => leaves_compileExceptions rest _

end

/-! ### The whole compilation -/

/-- `uplpgsql_compile_function`, with the function as it is before. -/
def compileWith (env : Surroundings σ) (fn : FunctionTree) (f : FuncState) :
    Lib.Outcome (CompileWorld σ) Unit (CompileWorld σ × CompileStep) Unit :=
  compilePass env fn { f with installed := [], rest := env.start }

inductive CopiedDatum where
  | record (rectypeid : Option Nat) (erh : Option Nat)
  | decl (decl : DatumDecl)
  deriving DecidableEq, Repr

/-- `copy_uplpgsql_datums`: what a call starts with. A record is copied with its header. -/
def copyDatums (fn : FunctionTree) (f : FuncState) (dno : Nat) : CopiedDatum :=
  match fn.datums dno with
  | .record rectypeid => .record rectypeid (f.erh dno)
  | decl => .decl decl

theorem leaves_compilePass (w : CompileWorld σ) : Leaves env fn (compilePass env fn) w :=
  .bind (leaves_doTask _) fun _ _ =>
    .bind (leaves_compileStmt fn.action _) fun _ _ => leaves_doTask _

/-- A compilation, whether it ends or raises, leaves the caller's state and the datums
that later calls copy as they were if and only if each of its steps is harmless. -/
theorem compile_leaves_datums (env : Surroundings σ) (fn : FunctionTree) (f : FuncState) :
    ((compileWith env fn f).world.curEstate = f.curEstate ∧
      copyDatums fn (compileWith env fn f).world.toFuncState = copyDatums fn f) ↔
    ∀ step ∈ (compileWith env fn f).trace, Harmless env fn step := by
  have part : Leaves env fn (compilePass env fn) { f with installed := [], rest := env.start } :=
    leaves_compilePass _
  have copied {d : Nat}
      (same : copyDatums fn (compileWith env fn f).world.toFuncState = copyDatums fn f)
      (record : fn.IsRecord d) : (compileWith env fn f).world.erh d = f.erh d := by
    obtain ⟨rectypeid, decl⟩ := record
    simpa [copyDatums, decl] using congrFun same d
  constructor
  · rintro ⟨-, same⟩
    by_contra harm
    push Not at harm
    rcases part.dirty harm with ⟨d, record, none, some⟩ | ⟨⟨e, error⟩, loops⟩
    · exact some ((copied same record).trans none)
    · -- every loop that the error left has its header in place
      obtain ⟨more, under, records⟩ := part.raised e error
      obtain ⟨d, mem⟩ := List.exists_mem_of_ne_nil _ loops
      rw [under, List.append_nil] at mem
      obtain ⟨record, none, some⟩ := records d mem
      exact some ((copied same record).trans none)
  · intro clean
    refine ⟨part.estate, ?_⟩
    have erh : (compileWith env fn f).world.erh = f.erh := (part.clean clean).1
    funext d
    simp only [copyDatums, erh]

/-- `x := p.a` for a variable `p` of a composite type. -/
def readsField : FunctionTree where
  datums dno := if dno = 0 then .record (some 600) else if dno = 1 then .recfield 0 0 else .var 23
  leaf _ := .assign 2 0
  fors _ := (0, 0)
  action := .block none [] (.cons (.leaf 0) .nil)

/-- The parser asks for the type of `p.a`; nothing raises. -/
def pointType : Surroundings Unit where
  parse _ := .param 1 fun _ => .done ⟨some (.param true 1 .int4), none⟩
  rowType typid := some typid
  descType desc := some desc
  fieldType _ _ := some (some 23)
  work _ _ _ := some (true, ())
  start := ()

/-- The header that analysis makes for `p` stays in the function. -/
theorem composite_field_leaves_header :
    ¬ ∀ (env : Surroundings Unit) (fn : FunctionTree) (f : FuncState),
      (compileWith env fn f).world.curEstate = f.curEstate ∧
        copyDatums fn (compileWith env fn f).world.toFuncState = copyDatums fn f := by
  intro untouched
  have same := congrFun (untouched pointType readsField ⟨fun _ => none, .null, fun _ => none⟩).2 0
  exact absurd same (by decide +kernel)

end Uplpgsql.Shared
