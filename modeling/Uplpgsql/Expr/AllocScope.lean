import Uplpgsql.Expr.Fmgr

/-!
# Allocation scopes

A Tier 2 expression that calls a function with a by-reference result is
evaluated with the per-tuple context as `CurrentMemoryContext`, and that context
is reset when the value has been used. What is told apart here is which context
a Datum points into.
-/

namespace Uplpgsql

/-! ### Memory -/

/-- Memory contexts. Only the per-tuple context is reset by a scope. -/
inductive MemoryContext where
  /-- `eval_econtext->ecxt_per_tuple_memory`. -/
  | perTuple
  /-- `datum_context`. -/
  | datum
  /-- `TopMemoryContext`. -/
  | top
  | other (id : Nat)
  deriving DecidableEq, Repr

/-- A Datum and the context it points into; a by-value Datum points nowhere. -/
structure HomedDatum extends NullableDatum where
  home : Option MemoryContext
  deriving DecidableEq, Repr

inductive ScopeEvent where
  | enter
  | exit
  /-- `copy_assign_var_datum_scoped`, which ends the scope as well. -/
  | copyAssign
  deriving DecidableEq, Repr

structure ScopeState (σ : Type) where
  /-- `CurrentMemoryContext`. -/
  current : MemoryContext
  vars : Nat → HomedDatum
  /-- The promises that are not fulfilled yet. -/
  armed : Nat → Bool
  /-- The context of the expanded record of a record variable, if it has one. -/
  erh : Nat → Option MemoryContext
  events : List ScopeEvent
  world : σ

def ScopeState.setVar {σ : Type} (s : ScopeState σ) (dno : Nat) (d : HomedDatum) : ScopeState σ :=
  { s with vars := fun k => if k = dno then d else s.vars k }

/-- What a parameter of an expression stands for. -/
inductive ParamKind where
  | var
  | promise
  | recfield (recparentno : Nat)
  deriving DecidableEq, Repr

/-- What the compiler looks up. -/
structure ScopeCatalog where
  cat : Catalog
  /-- `get_typbyval`. -/
  typbyval : TypeOid → Bool
  typisarray : TypeOid → Bool
  /-- `opresulttype` and `funcresulttype`. -/
  resulttype : Fid → List PgExpr → TypeOid
  decl : Nat → TypeOid
  kind : Nat → ParamKind
  natives : List Nat
  bool_byval : typbyval .bool = true
  /-- Arrays are varlenas, and only variables are made native. -/
  native_byref : ∀ dno ∈ natives, typbyval (decl dno) = false

/-- `OidIsValid`. -/
def TypeOid.isInvalid : TypeOid → Bool
  | .other oid => oid == 0
  | _ => false

namespace ScopeCatalog

variable (C : ScopeCatalog)

/-- `find_native_array`. -/
def isNative (dno : Nat) : Bool := C.natives.contains dno

/-- A call whose result is passed by reference. -/
def resultAllocates (funcid : Fid) (args : List PgExpr) : Bool :=
  !(C.resulttype funcid args).isInvalid && !C.typbyval (C.resulttype funcid args)

mutual

/-- `fmgr_expr_allocates`. -/
def fmgrExprAllocates : PgExpr → Bool
  | .opExpr funcid _ args => C.resultAllocates funcid args || fmgrExprsAllocate args
  | .funcExpr funcid _ args => C.resultAllocates funcid args || fmgrExprsAllocate args
  | .relabelType arg => fmgrExprAllocates arg
  | .boolExpr _ args => fmgrExprsAllocate args
  | _ => false

def fmgrExprsAllocate : List PgExpr → Bool
  | [] => false
  | e :: es => fmgrExprAllocates e || fmgrExprsAllocate es

end

mutual

/-- `fmgr_expr_reads_native_array`. -/
def fmgrExprReadsNativeArray : PgExpr → Bool
  | .param external dno _ => external && C.isNative dno
  | .relabelType arg => fmgrExprReadsNativeArray arg
  | .opExpr _ _ args => fmgrExprsReadNativeArray args
  | .funcExpr _ _ args => fmgrExprsReadNativeArray args
  | .boolExpr _ args => fmgrExprsReadNativeArray args
  | _ => false

def fmgrExprsReadNativeArray : List PgExpr → Bool
  | [] => false
  | e :: es => fmgrExprReadsNativeArray e || fmgrExprsReadNativeArray es

end

def fmgrExprWantsAllocScope (e : PgExpr) : Bool :=
  C.fmgrExprAllocates e && !C.fmgrExprReadsNativeArray e

/-- `get_typbyval` of the type of an expression. A relabelling changes neither
the Datum nor how it is passed. -/
def byValue : PgExpr → Bool
  | .const consttype _ _ => C.typbyval consttype
  | .param _ dno _ => C.typbyval (C.decl dno)
  | .relabelType arg => byValue arg
  | .boolExpr _ _ => true
  | .opExpr funcid _ args => C.typbyval (C.resulttype funcid args)
  | .funcExpr funcid _ args => C.typbyval (C.resulttype funcid args)
  | _ => false

end ScopeCatalog

/-- What the emitted code calls: the C functions of built-in operators and
functions, and what is behind promises, records, flat memory and the executor. -/
structure ScopeFns (σ : Type) where
  /-- A C function sees `CurrentMemoryContext`. -/
  fn : Fid → Nat → List HomedDatum → MemoryContext → σ → Except ErrorData (HomedDatum × σ)
  promised : Nat → σ → Except ErrorData NullableDatum
  field : Nat → σ → Except ErrorData NullableDatum
  /-- The array that `construct_md_array` builds; there is none if the flat array
  is empty. -/
  marshalled : Nat → σ → Option (BitVec 64)
  refresh : Nat → HomedDatum → σ → Except ErrorData σ
  /-- The store or the append into flat memory, if the subscript allows one. -/
  nativeStore : Nat → BitVec 32 → NullableDatum → σ → Option σ
  /-- `array_set_element` returns an array, or has changed the given one. -/
  arraySetElement : HomedDatum → BitVec 32 → NullableDatum → σ → Except ErrorData (Option (BitVec 64) × σ)
  /-- The variables the executor fetches, and its value after a cast. -/
  fetched : PgExpr → σ → List Nat
  execute : PgExpr → (Nat → HomedDatum) → σ → Except ErrorData (HomedDatum × σ)

abbrev ScopeRun (σ α : Type) := StateT (ScopeState σ) (Except ErrorData) α

section Run

variable {σ : Type} (C : ScopeCatalog) (fns : ScopeFns σ)

/-! ### Loading variables -/

/-- `uplpgsql_emit_sync_native_array`: the array is built in the current context. -/
def marshal (dno : Nat) : ScopeRun σ Unit := fun s =>
  match fns.marshalled dno s.world with
  | none => .ok ((), s)
  | some v => .ok ((), s.setVar dno ⟨⟨v, false⟩, some s.current⟩)

def marshalIfNative (dno : Nat) : ScopeRun σ Unit :=
  if C.isNative dno then marshal fns dno else pure ()

/-- Where a Datum of the type is kept when it is stored in the context. -/
def homeIn (typ : TypeOid) (context : MemoryContext) : Option MemoryContext :=
  if C.typbyval typ then none else some context

/-- `uplpgsql_fulfill_promise` works in the `datum_context`. -/
def fulfillPromise (dno : Nat) : ScopeRun σ Unit := fun s =>
  if s.armed dno then
    match fns.promised dno s.world with
    | .error edata => .error edata
    | .ok d =>
      .ok ((), { s.setVar dno ⟨d, homeIn C (C.decl dno) .datum⟩ with
        armed := fun k => if k = dno then false else s.armed k })
  else .ok ((), s)

/-- `instantiate_empty_record_variable`. -/
def instantiateRecord (recparentno : Nat) : ScopeRun σ Unit := fun s =>
  match s.erh recparentno with
  | some _ => .ok ((), s)
  | none => .ok ((), { s with erh := fun k => if k = recparentno then some .datum else s.erh k })

/-- The Datum of a field is stored with its record. -/
def fieldHome (dno recparentno : Nat) (s : ScopeState σ) : Option MemoryContext :=
  if C.typbyval (C.decl dno) then none else s.erh recparentno

def getField (dno recparentno : Nat) : ScopeRun σ HomedDatum := fun s =>
  match fns.field dno s.world with
  | .error edata => .error edata
  | .ok d => .ok (⟨d, fieldHome C dno recparentno s⟩, s)

def getVar (dno : Nat) : ScopeRun σ HomedDatum := fun s => .ok (s.vars dno, s)

/-- `exec_eval_datum`. -/
def execEvalDatum (dno : Nat) : ScopeRun σ HomedDatum :=
  match C.kind dno with
  | .var => getVar dno
  | .promise => do
    fulfillPromise C fns dno
    getVar dno
  | .recfield recparentno => do
    instantiateRecord recparentno
    getField C fns dno recparentno

/-- `uplpgsql_emit_load_param_isnull`. -/
def loadParamIsnull (dno : Nat) : ScopeRun σ Bool :=
  match C.kind dno with
  | .promise | .recfield _ => pure false
  | .var => do
    marshalIfNative C fns dno
    let d ← getVar dno
    pure d.isnull

/-- `uplpgsql_rt_get_recfield` has no flag for NULL. -/
def zeroIfNull (d : HomedDatum) : HomedDatum := if d.isnull then ⟨⟨0, true⟩, none⟩ else d

/-- `uplpgsql_emit_load_param_datum`. -/
def loadParamDatum (dno : Nat) : ScopeRun σ HomedDatum := do
  marshalIfNative C fns dno
  let d ← execEvalDatum C fns dno
  pure (match C.kind dno with
    | .var => d
    | _ => zeroIfNull d)

def loadParam (dno : Nat) : ScopeRun σ HomedDatum := do
  let isnull ← loadParamIsnull C fns dno
  let d ← loadParamDatum C fns dno
  pure ⟨⟨d.value, isnull⟩, d.home⟩

/-! ### Evaluating -/

/-- A strict function is not called with a NULL. -/
def callHomed (funcid : Fid) (collation : Nat) (ds : List HomedDatum) : ScopeRun σ HomedDatum := fun s =>
  if C.cat.fnStrict funcid && ds.any (·.isnull) then .ok (⟨⟨0, true⟩, none⟩, s)
  else
    match fns.fn funcid collation ds s.current s.world with
    | .error edata => .error edata
    | .ok (d, world) => .ok (d, { s with world := world })

/-- A by-reference constant is copied into `TopMemoryContext`. -/
def constDatum (consttype : TypeOid) (constisnull : Bool) (constvalue : BitVec 64) : HomedDatum :=
  ⟨⟨if constisnull then 0 else constvalue, constisnull⟩,
    if constisnull then none else homeIn C consttype .top⟩

def registerDatum (d : NullableDatum) : HomedDatum := ⟨d, none⟩

/-- The call, unless the arguments were not compiled. -/
def callUnlessBailed (funcid : Fid) (collation : Nat) :
    Option (List HomedDatum) → ScopeRun σ (Option HomedDatum)
  | none => pure none
  | some ds => do
    let d ← callHomed C fns funcid collation ds
    pure (some d)

mutual

/-- The code that `uplpgsql_compile_expr_fmgr_full` has emitted when it returns.
`none` is a bail-out: what was emitted before runs all the same. -/
def fmgrEval : PgExpr → ScopeRun σ (Option HomedDatum)
  | .const consttype constisnull constvalue => pure (some (constDatum C consttype constisnull constvalue))
  | .param _ dno _ => do
    let d ← loadParam C fns dno
    pure (some d)
  | .relabelType arg => fmgrEval arg
  | .boolExpr .not [arg] => do
    let d ← fmgrEval arg
    pure (d.map fun d => registerDatum ⟨boolDatum (!datumBit d.toNullableDatum), d.isnull⟩)
  | .boolExpr .not _ => pure none
  | .boolExpr .and args => do
    let ds ← fmgrEvalArgs args
    pure (ds.map fun ds => registerDatum (foldBool true (ds.map (·.toNullableDatum))))
  | .boolExpr .or args => do
    let ds ← fmgrEvalArgs args
    pure (ds.map fun ds => registerDatum (foldBool false (ds.map (·.toNullableDatum))))
  | .opExpr funcid collation args =>
    if C.cat.hasPoly funcid then pure none
    else do
      let ds ← fmgrEvalArgs args
      callUnlessBailed C fns funcid collation ds
  | .funcExpr funcid collation args =>
    match foldedNumeric funcid args with
    | some c =>
      pure (some (registerDatum ⟨if c.isnull then 0 else C.cat.numericFloat8 c.value, c.isnull⟩))
    | none =>
      if C.cat.hasPoly funcid then pure none
      else do
        let ds ← fmgrEvalArgs args
        callUnlessBailed C fns funcid collation ds
  | .subscriptingRef _ _ _ _ _ => pure none
  | .other => pure none

/-- Arguments from left to right, up to the first that is not compiled. -/
def fmgrEvalArgs : List PgExpr → ScopeRun σ (Option (List HomedDatum))
  | [] => pure (some [])
  | e :: es => do
    match ← fmgrEval e with
    | none => pure none
    | some d =>
      let ds ← fmgrEvalArgs es
      pure (ds.map (d :: ·))

end

/-! ### Scopes -/

/-- `uplpgsql_rt_alloc_scope_enter` returns the previous context. -/
def allocScopeEnter : ScopeRun σ MemoryContext := fun s =>
  .ok (s.current, { s with current := .perTuple, events := s.events ++ [.enter] })

/-- `uplpgsql_rt_alloc_scope_exit`. -/
def allocScopeExit (old : MemoryContext) : ScopeRun σ Unit := fun s =>
  .ok ((), { s with current := old, events := s.events ++ [.exit] })

/-- A variable gets a copy of the Datum in the current context. -/
def copyHomed (d : HomedDatum) (context : MemoryContext) : HomedDatum :=
  if d.isnull then ⟨⟨0, true⟩, none⟩ else ⟨d.toNullableDatum, some context⟩

/-- `uplpgsql_rt_copy_assign_var_datum`. -/
def copyAssignVarDatum (dno : Nat) (d : HomedDatum) : ScopeRun σ Unit := fun s =>
  .ok ((), s.setVar dno (copyHomed d s.current))

/-- `uplpgsql_rt_copy_assign_var_datum_scoped`. -/
def copyAssignVarDatumScoped (dno : Nat) (d : HomedDatum) (old : MemoryContext) : ScopeRun σ Unit := fun s =>
  .ok ((), { s.setVar dno (copyHomed d old) with
    current := old, events := s.events ++ [.copyAssign] })

def storeVarDatumIsnull (dno : Nat) (d : HomedDatum) : ScopeRun σ Unit := fun s =>
  .ok ((), s.setVar dno d)

/-- The scope is entered if the expression wants one. -/
def enterIf (wants : Bool) : ScopeRun σ (Option MemoryContext) :=
  if wants then do
    let old ← allocScopeEnter
    pure (some old)
  else pure none

def exitIf : Option MemoryContext → ScopeRun σ Unit
  | none => pure ()
  | some old => allocScopeExit old

/-! ### The interpreter -/

def fetchAll : List Nat → ScopeRun σ Unit
  | [] => pure ()
  | dno :: rest => do
    let _ ← execEvalDatum C fns dno
    fetchAll rest

/-- `exec_eval_expr`: the executor fetches variables and computes. -/
def execEvalExpr (e : PgExpr) : ScopeRun σ HomedDatum := fun s =>
  match fetchAll C fns (fns.fetched e s.world) s with
  | .error edata => .error edata
  | .ok (_, s) =>
    match fns.execute e s.vars s.world with
    | .error edata => .error edata
    | .ok (d, world) => .ok (d, { s with world := world })

/-- `exec_assign_value` expands an array in the `datum_context` and copies any
other Datum that is passed by reference. -/
def execAssignValueHomed (dno : Nat) (d : HomedDatum) : ScopeRun σ Unit := fun s =>
  .ok ((), s.setVar dno ⟨d.toNullableDatum,
    if d.isnull then none
    else homeIn C (C.decl dno) (if C.typisarray (C.decl dno) then .datum else s.current)⟩)

def refreshIfNative (dno : Nat) : ScopeRun σ Unit := fun s =>
  if C.isNative dno then
    match fns.refresh dno (s.vars dno) s.world with
    | .error edata => .error edata
    | .ok world => .ok ((), { s with world := world })
  else .ok ((), s)

def marshalAll : List Nat → ScopeRun σ Unit
  | [] => pure ()
  | dno :: rest => do
    marshal fns dno
    marshalAll rest

/-- The end of `uplpgsql_compile_assign`. -/
def assignByInterpreter (dno : Nat) (e : PgExpr) (paramnos : List Nat) : ScopeRun σ Unit := do
  marshalAll fns (C.natives.filter paramnos.contains)
  let d ← execEvalExpr C fns e
  execAssignValueHomed C dno d
  refreshIfNative C fns dno

/-- `uplpgsql_rt_eval_bool`, after all native arrays are marshalled. -/
def conditionByInterpreter (e : PgExpr) : ScopeRun σ HomedDatum := do
  marshalAll fns C.natives
  let d ← execEvalExpr C fns e
  pure (registerDatum ⟨boolDatum (datumBit d.toNullableDatum && !d.isnull), false⟩)

/-! ### Statements -/

/-- What a Tier 2 value is computed for. -/
inductive Tier2Use where
  | assign (dno : Nat)
  | condition
  /-- An element of the native array, at a subscript that has been computed. -/
  | element (dno : Nat) (idx : BitVec 32)
  deriving DecidableEq, Repr

structure Tier2Stmt where
  use : Tier2Use
  expr : PgExpr
  /-- The variables the parser found in the expression. -/
  paramnos : List Nat

/-- A by-reference Datum is copied out of the scope, or just copied. -/
def copyAssign (dno : Nat) (d : HomedDatum) : Option MemoryContext → ScopeRun σ Unit
  | some old => copyAssignVarDatumScoped dno d old
  | none => copyAssignVarDatum dno d

/-- `uplpgsql_rt_array_set_element`. -/
def setElementHomed (dno : Nat) (idx : BitVec 32) (d : NullableDatum) : ScopeRun σ Unit := fun s =>
  match fns.arraySetElement (s.vars dno) idx d s.world with
  | .error edata => .error edata
  | .ok (none, world) => .ok ((), { s with world := world })
  | .ok (some v, world) => .ok ((), { s.setVar dno ⟨⟨v, false⟩, some .datum⟩ with world := world })

/-- The write of a native element, when its value is in a register. -/
def storeElement (dno : Nat) (idx : BitVec 32) (d : HomedDatum) : ScopeRun σ Unit := fun s =>
  match fns.nativeStore dno idx d.toNullableDatum s.world with
  | some world => .ok ((), { s with world := world })
  | none =>
    (do marshal fns dno
        setElementHomed fns dno idx d.toNullableDatum
        refreshIfNative C fns dno : ScopeRun σ Unit) s

/-- The end of a Tier 2 assignment to a by-value variable. The list is what is
still used after the scope. -/
def finishByVal (dno : Nat) (stmt : Tier2Stmt) (old : Option MemoryContext) :
    Option HomedDatum → ScopeRun σ (List HomedDatum)
  | some d => do
    storeVarDatumIsnull dno d
    exitIf old
    pure []
  | none => do
    exitIf old
    assignByInterpreter C fns dno stmt.expr stmt.paramnos
    pure []

def finishByRef (dno : Nat) (stmt : Tier2Stmt) (old : Option MemoryContext) :
    Option HomedDatum → ScopeRun σ (List HomedDatum)
  | some d => do
    copyAssign dno d old
    refreshIfNative C fns dno
    pure []
  | none => do
    exitIf old
    assignByInterpreter C fns dno stmt.expr stmt.paramnos
    pure []

def finishCondition (stmt : Tier2Stmt) (old : Option MemoryContext) :
    Option HomedDatum → ScopeRun σ (List HomedDatum)
  | some d => do
    exitIf old
    pure [registerDatum ⟨boolDatum (datumBit d.toNullableDatum && !d.isnull), false⟩]
  | none => do
    exitIf old
    let d ← conditionByInterpreter C fns stmt.expr
    pure [d]

def finishElement (dno : Nat) (idx : BitVec 32) (stmt : Tier2Stmt) (old : Option MemoryContext) :
    Option HomedDatum → ScopeRun σ (List HomedDatum)
  | some d => do
    exitIf old
    storeElement C fns dno idx d
    pure [d]
  | none => do
    exitIf old
    assignByInterpreter C fns dno stmt.expr stmt.paramnos
    pure []

def finish (stmt : Tier2Stmt) (old : Option MemoryContext) (d : Option HomedDatum) :
    ScopeRun σ (List HomedDatum) :=
  match stmt.use with
  | .assign dno =>
    if C.typbyval (C.decl dno) then finishByVal C fns dno stmt old d else finishByRef C fns dno stmt old d
  | .condition => finishCondition C fns stmt old d
  | .element dno idx => finishElement C fns dno idx stmt old d

/-- The Tier 2 sites of `uplpgsql_try_compile_assign` and `uplpgsql_try_compile_bool`,
with what follows if the compiler bails out. -/
def Tier2Stmt.exec (stmt : Tier2Stmt) : ScopeRun σ (List HomedDatum) := do
  let old ← enterIf (C.fmgrExprWantsAllocScope stmt.expr)
  let d ← fmgrEval C fns stmt.expr
  finish C fns stmt old d

/-- One statement after another. -/
def execTier2 : List Tier2Stmt → ScopeRun σ (List HomedDatum)
  | [] => pure []
  | stmt :: rest => do
    let used ← stmt.exec C fns
    let more ← execTier2 rest
    pure (used ++ more)

end Run

/-! ### Where Datums live -/

/-- The calling conventions of C functions: a by-value result is a value, and any
other result is allocated in the current context or is one of the arguments, if
it is not somewhere more durable. -/
structure ScopeFns.Homed {σ : Type} (C : ScopeCatalog) (fns : ScopeFns σ) : Prop where
  byval : ∀ {funcid collation args ds context w d w'}, C.cat.hasPoly funcid = false →
    C.typbyval (C.resulttype funcid args) = true →
    fns.fn funcid collation ds context w = .ok (d, w') → d.home = none
  placed : ∀ {funcid collation ds context w d w'},
    fns.fn funcid collation ds context w = .ok (d, w') → d.home = some .perTuple →
    context = .perTuple ∨ ∃ a ∈ ds, a.home = some .perTuple

/-- No variable points into the per-tuple context. -/
structure ScopeState.Settled {σ : Type} (C : ScopeCatalog) (s : ScopeState σ) : Prop where
  vars : ∀ dno, (s.vars dno).home ≠ some .perTuple
  byval : ∀ dno, C.typbyval (C.decl dno) = true → (s.vars dno).home = none
  erh : ∀ dno, s.erh dno ≠ some .perTuple

section Settled

variable {σ : Type} {C : ScopeCatalog} {fns : ScopeFns σ} {α β : Type} {s s' : ScopeState σ}

theorem ScopeRun.bind_ok {x : ScopeRun σ α} {f : α → ScopeRun σ β} {r : β × ScopeState σ}
    (ok : (x >>= f) s = .ok r) : ∃ a s₁, x s = .ok (a, s₁) ∧ f a s₁ = .ok r := by
  change (x s >>= fun p => f p.1 p.2) = .ok r at ok
  cases first : x s with
  | error edata =>
    rw [first] at ok
    cases ok
  | ok p =>
    rw [first] at ok
    exact ⟨p.1, p.2, rfl, ok⟩

theorem ScopeState.Settled.setVar (settled : s.Settled C) {dno : Nat} {d : HomedDatum}
    (durable : d.home ≠ some .perTuple) (byval : C.typbyval (C.decl dno) = true → d.home = none) :
    (s.setVar dno d).Settled C where
  vars k := by
    by_cases same : k = dno
    · simpa [ScopeState.setVar, same] using durable
    · simpa [ScopeState.setVar, same] using settled.vars k
  byval k isByval := by
    by_cases same : k = dno
    · subst same
      simpa [ScopeState.setVar] using byval isByval
    · simpa [ScopeState.setVar, same] using settled.byval k isByval
  erh := settled.erh

theorem homeIn_ne {typ : TypeOid} {context : MemoryContext} (durable : context ≠ .perTuple) :
    homeIn C typ context ≠ some .perTuple := by
  unfold homeIn
  split
  · simp
  · exact fun same => durable (Option.some.inj same)

theorem homeIn_byval {typ : TypeOid} {context : MemoryContext} (byval : C.typbyval typ = true) :
    homeIn C typ context = none := by
  rw [homeIn, if_pos byval]

theorem ScopeState.Settled.setVar_homeIn (settled : s.Settled C) {dno : Nat} {d : NullableDatum}
    {context : MemoryContext} (durable : context ≠ .perTuple) :
    (s.setVar dno ⟨d, homeIn C (C.decl dno) context⟩).Settled C :=
  settled.setVar (homeIn_ne durable) homeIn_byval

/-- An action that works where Datums are durable. -/
structure Unmoved (C : ScopeCatalog) (s s' : ScopeState σ) : Prop where
  current : s'.current = s.current
  events : s'.events = s.events
  settled : s.Settled C → s'.Settled C

theorem Unmoved.refl (s : ScopeState σ) : Unmoved C s s := ⟨rfl, rfl, id⟩

theorem Unmoved.trans {s₁ : ScopeState σ} (first : Unmoved C s s₁)
    (second : Unmoved C s₁ s') : Unmoved C s s' :=
  ⟨second.current.trans first.current, second.events.trans first.events, second.settled ∘ first.settled⟩

/-! ### Loading -/

/-- Marshalling an array is harmless outside a scope. -/
theorem marshal_unmoved {dno : Nat} (native : C.isNative dno = true) (durable : s.current ≠ .perTuple)
    {r : Unit} (ok : marshal fns dno s = .ok (r, s')) : Unmoved C s s' := by
  unfold marshal at ok
  split at ok
  next =>
    cases ok
    exact .refl _
  next v _ =>
    cases ok
    refine ⟨rfl, rfl, fun settled => settled.setVar (fun same => durable (Option.some.inj same)) ?_⟩
    intro byval
    -- The marshalled array is a pointer, and the variable is declared for one.
    rw [C.native_byref dno (List.contains_iff_mem.mp native)] at byval
    cases byval

theorem marshalIfNative_unmoved {dno : Nat} (outside : C.isNative dno = true → s.current ≠ .perTuple)
    {r : Unit} (ok : marshalIfNative C fns dno s = .ok (r, s')) : Unmoved C s s' := by
  unfold marshalIfNative at ok
  split at ok
  next native => exact marshal_unmoved native (outside native) ok
  next =>
    cases ok
    exact .refl _

theorem marshalAll_unmoved {dnos : List Nat} (natives : ∀ dno ∈ dnos, C.isNative dno = true)
    (durable : s.current ≠ .perTuple) {r : Unit} (ok : marshalAll fns dnos s = .ok (r, s')) :
    Unmoved C s s' := by
  induction dnos generalizing s with
  | nil =>
    cases ok
    exact .refl _
  | cons dno rest ih =>
    obtain ⟨_, s₁, first, others⟩ := ScopeRun.bind_ok ok
    have here := marshal_unmoved (natives dno (by simp)) durable first
    have there := ih (fun dno' member => natives dno' (by simp [member])) (here.current ▸ durable) others
    exact here.trans there

/-- Promises are fulfilled in the `datum_context`, whatever the current one is. -/
theorem fulfillPromise_unmoved {dno : Nat} {r : Unit} (ok : fulfillPromise C fns dno s = .ok (r, s')) :
    Unmoved C s s' := by
  unfold fulfillPromise at ok
  split at ok
  next =>
    split at ok
    next => cases ok
    next d _ =>
      cases ok
      refine ⟨rfl, rfl, fun settled => ?_⟩
      have stored := @ScopeState.Settled.setVar_homeIn σ C s settled dno d .datum (by simp)
      exact ⟨stored.vars, stored.byval, stored.erh⟩
  next =>
    cases ok
    exact .refl _

theorem instantiateRecord_unmoved {recparentno : Nat} {r : Unit}
    (ok : instantiateRecord recparentno s = .ok (r, s')) : Unmoved C s s' := by
  unfold instantiateRecord at ok
  split at ok
  next =>
    cases ok
    exact .refl _
  next =>
    cases ok
    refine ⟨rfl, rfl, fun settled => ⟨settled.vars, settled.byval, fun k => ?_⟩⟩
    dsimp only
    split
    · simp
    · exact settled.erh k

/-- What is fetched from a variable is where the variable keeps it. -/
structure Fetched (C : ScopeCatalog) (dno : Nat) (d : HomedDatum) : Prop where
  durable : d.home ≠ some .perTuple
  byval : C.typbyval (C.decl dno) = true → d.home = none

theorem getVar_fetched {dno : Nat} {d : HomedDatum} (settled : s.Settled C)
    (ok : getVar dno s = .ok (d, s')) : s' = s ∧ Fetched C dno d := by
  cases ok
  exact ⟨rfl, settled.vars dno, settled.byval dno⟩

theorem execEvalDatum_fetched {dno : Nat} {d : HomedDatum} (settled : s.Settled C)
    (ok : execEvalDatum C fns dno s = .ok (d, s')) : Unmoved C s s' ∧ Fetched C dno d := by
  cases kind : C.kind dno with
  | var =>
    rw [execEvalDatum, kind] at ok
    obtain ⟨rfl, fetched⟩ := getVar_fetched settled ok
    exact ⟨.refl _, fetched⟩
  | promise =>
    rw [execEvalDatum, kind] at ok
    obtain ⟨_, s₁, fulfilled, got⟩ := ScopeRun.bind_ok ok
    have here : Unmoved C s s₁ := fulfillPromise_unmoved fulfilled
    obtain ⟨rfl, fetched⟩ := getVar_fetched (here.settled settled) got
    exact ⟨here, fetched⟩
  | recfield recparentno =>
    rw [execEvalDatum, kind] at ok
    obtain ⟨_, s₁, instantiated, got⟩ := ScopeRun.bind_ok ok
    have here : Unmoved C s s₁ := instantiateRecord_unmoved instantiated
    unfold getField at got
    split at got
    next => cases got
    next =>
      cases got
      refine ⟨here, ?_, fun byval => if_pos byval⟩
      unfold fieldHome
      dsimp only
      split
      · simp
      · exact (here.settled settled).erh recparentno

theorem zeroIfNull_fetched {dno : Nat} {d : HomedDatum} (fetched : Fetched C dno d) :
    Fetched C dno (zeroIfNull d) := by
  unfold zeroIfNull
  split
  · exact ⟨by simp, fun _ => rfl⟩
  · exact fetched

theorem loadParamDatum_fetched {dno : Nat} {d : HomedDatum} (settled : s.Settled C)
    (outside : C.isNative dno = true → s.current ≠ .perTuple)
    (ok : loadParamDatum C fns dno s = .ok (d, s')) : Unmoved C s s' ∧ Fetched C dno d := by
  obtain ⟨_, s₁, marshalled, ok⟩ := ScopeRun.bind_ok ok
  have here := marshalIfNative_unmoved outside marshalled
  obtain ⟨d₁, s₂, evaluated, ok⟩ := ScopeRun.bind_ok ok
  obtain ⟨there, fetched⟩ := execEvalDatum_fetched (here.settled settled) evaluated
  cases ok
  refine ⟨here.trans there, ?_⟩
  cases C.kind dno with
  | var => exact fetched
  | promise => exact zeroIfNull_fetched fetched
  | recfield recparentno => exact zeroIfNull_fetched fetched

theorem loadParamIsnull_unmoved {dno : Nat} {isnull : Bool}
    (outside : C.isNative dno = true → s.current ≠ .perTuple)
    (ok : loadParamIsnull C fns dno s = .ok (isnull, s')) : Unmoved C s s' := by
  cases kind : C.kind dno with
  | promise =>
    rw [loadParamIsnull, kind] at ok
    cases ok
    exact .refl _
  | recfield recparentno =>
    rw [loadParamIsnull, kind] at ok
    cases ok
    exact .refl _
  | var =>
    rw [loadParamIsnull, kind] at ok
    obtain ⟨_, s₁, marshalled, ok⟩ := ScopeRun.bind_ok ok
    obtain ⟨d, s₂, got, ok⟩ := ScopeRun.bind_ok ok
    cases got
    cases ok
    exact marshalIfNative_unmoved outside marshalled

theorem loadParam_fetched {dno : Nat} {d : HomedDatum} (settled : s.Settled C)
    (outside : C.isNative dno = true → s.current ≠ .perTuple)
    (ok : loadParam C fns dno s = .ok (d, s')) : Unmoved C s s' ∧ Fetched C dno d := by
  obtain ⟨isnull, s₁, flag, ok⟩ := ScopeRun.bind_ok ok
  have here := loadParamIsnull_unmoved outside flag
  obtain ⟨d₁, s₂, loaded, ok⟩ := ScopeRun.bind_ok ok
  obtain ⟨there, fetched⟩ :=
    loadParamDatum_fetched (here.settled settled) (fun native => here.current ▸ outside native) loaded
  cases ok
  exact ⟨here.trans there, fetched.durable, fetched.byval⟩

/-! ### Evaluating -/

/-- A value of the expression: outside a scope it is nowhere near the per-tuple
context. -/
structure Placed (C : ScopeCatalog) (e : PgExpr) (context : MemoryContext) (d : HomedDatum) : Prop where
  durable : context ≠ .perTuple → d.home ≠ some .perTuple
  byval : C.byValue e = true → d.home = none

theorem Placed.register {e : PgExpr} {context : MemoryContext} (d : NullableDatum) :
    Placed C e context (registerDatum d) :=
  ⟨fun _ => by simp [registerDatum], fun _ => rfl⟩

theorem constDatum_placed (consttype : TypeOid) (constisnull : Bool) (constvalue : BitVec 64)
    (context : MemoryContext) :
    Placed C (.const consttype constisnull constvalue) context
      (constDatum C consttype constisnull constvalue) := by
  unfold constDatum
  refine ⟨fun _ => ?_, fun byval => ?_⟩
  · dsimp only
    split
    · simp
    · exact homeIn_ne (by simp)
  · dsimp only
    split
    · rfl
    · exact homeIn_byval byval

/-- Arguments that are all evaluated outside a scope are durable. -/
def PlacedAll (context : MemoryContext) (ds : List HomedDatum) : Prop :=
  context ≠ .perTuple → ∀ d ∈ ds, d.home ≠ some .perTuple

theorem callHomed_placed (homed : fns.Homed C) {funcid : Fid} {collation : Nat} {ds : List HomedDatum}
    {d : HomedDatum} (mono : C.cat.hasPoly funcid = false) (placed : PlacedAll s.current ds)
    (ok : callHomed C fns funcid collation ds s = .ok (d, s')) :
    Unmoved C s s' ∧ (s.current ≠ .perTuple → d.home ≠ some .perTuple) ∧
      ∀ args, C.typbyval (C.resulttype funcid args) = true → d.home = none := by
  unfold callHomed at ok
  split at ok
  next =>
    cases ok
    exact ⟨.refl _, fun _ => by simp, fun _ _ => rfl⟩
  next =>
    split at ok
    next => cases ok
    next d w called =>
      cases ok
      refine ⟨⟨rfl, rfl, fun settled => ⟨settled.vars, settled.byval, settled.erh⟩⟩, ?_, ?_⟩
      · intro durable inScope
        rcases homed.placed called inScope with current | ⟨a, member, home⟩
        · exact durable current
        · exact placed durable a member home
      · exact fun args byval => homed.byval mono byval called

theorem callUnlessBailed_placed (homed : fns.Homed C) {funcid : Fid} {collation : Nat}
    {ds : Option (List HomedDatum)} {r : Option HomedDatum} {s₁ : ScopeState σ}
    (mono : ¬C.cat.hasPoly funcid = true)
    (args : Unmoved C s s₁ ∧ ∀ ds', ds = some ds' → PlacedAll s.current ds')
    (ok : callUnlessBailed C fns funcid collation ds s₁ = .ok (r, s')) :
    Unmoved C s s' ∧ ∀ d, r = some d → (s.current ≠ .perTuple → d.home ≠ some .perTuple) ∧
      ∀ args, C.typbyval (C.resulttype funcid args) = true → d.home = none := by
  obtain ⟨here, placed⟩ := args
  cases ds with
  | none =>
    cases ok
    exact ⟨here, by simp⟩
  | some ds =>
    obtain ⟨d, s₂, called, ok⟩ := ScopeRun.bind_ok ok
    cases ok
    obtain ⟨there, durable, byval⟩ :=
      callHomed_placed homed (Bool.eq_false_iff.mpr mono) (here.current ▸ placed ds rfl) called
    refine ⟨here.trans there, fun d' same => ?_⟩
    obtain rfl := Option.some.inj same
    exact ⟨here.current ▸ durable, byval⟩

/-- A boolean is a register, whatever its inputs were. -/
theorem registers_placed {γ : Type} {e : PgExpr} {context : MemoryContext} (f : γ → NullableDatum)
    (r : Option γ) (d : HomedDatum) (result : r.map (fun x => registerDatum (f x)) = some d) :
    Placed C e context d := by
  obtain ⟨x, -, rfl⟩ := Option.map_eq_some_iff.mp result
  exact .register _

mutual

/-- Code that reads no native array, or runs outside a scope, leaves no variable
pointing into the scope. -/
theorem fmgrEval_placed (homed : fns.Homed C) (e : PgExpr) {r : Option HomedDatum} {s s' : ScopeState σ}
    (can : canFmgrCompile e = true) (settled : s.Settled C)
    (outside : C.fmgrExprReadsNativeArray e = true → s.current ≠ .perTuple)
    (ok : fmgrEval C fns e s = .ok (r, s')) :
    Unmoved C s s' ∧ ∀ d, r = some d → Placed C e s.current d := by
  match e with
  | .const consttype constisnull constvalue =>
    rw [fmgrEval] at ok
    cases ok
    refine ⟨.refl _, fun d same => ?_⟩
    obtain rfl := Option.some.inj same
    exact constDatum_placed consttype constisnull constvalue _
  | .param external dno paramtype =>
    rw [canFmgrCompile] at can
    subst can
    rw [fmgrEval] at ok
    obtain ⟨d, s₁, loaded, ok⟩ := ScopeRun.bind_ok ok
    cases ok
    -- What a variable holds outlives the scope.
    obtain ⟨undisturbed, fetched⟩ := loadParam_fetched settled outside loaded
    refine ⟨undisturbed, fun d' same => ?_⟩
    obtain rfl := Option.some.inj same
    exact ⟨fun _ => fetched.durable, fetched.byval⟩
  | .relabelType arg =>
    rw [fmgrEval] at ok
    obtain ⟨undisturbed, placed⟩ := fmgrEval_placed homed arg can settled outside ok
    exact ⟨undisturbed, fun d same => ⟨(placed d same).durable, (placed d same).byval⟩⟩
  | .boolExpr .not [arg] =>
    rw [fmgrEval] at ok
    obtain ⟨r₁, s₁, evaluated, ok⟩ := ScopeRun.bind_ok ok
    cases ok
    have canArg : canFmgrCompile arg = true := by
      simpa [canFmgrCompile, canFmgrCompileAll] using can
    have undisturbed := (fmgrEval_placed homed arg canArg settled (fun reads => outside (by
      simp [ScopeCatalog.fmgrExprReadsNativeArray, ScopeCatalog.fmgrExprsReadNativeArray, reads]))
      evaluated).1
    -- The answer of NOT is a word, wherever the operand was.
    exact ⟨undisturbed, registers_placed _ r₁⟩
  | .boolExpr .not [] | .boolExpr .not (_ :: _ :: _) =>
    rw [fmgrEval] at ok
    · cases ok
      exact ⟨.refl _, by simp⟩
    · simp
  | .boolExpr .and args =>
    rw [fmgrEval] at ok
    obtain ⟨r₁, s₁, evaluated, ok⟩ := ScopeRun.bind_ok ok
    cases ok
    exact ⟨(fmgrEvalArgs_placed homed args can settled outside evaluated).1, registers_placed _ r₁⟩
  | .boolExpr .or args =>
    rw [fmgrEval] at ok
    obtain ⟨r₁, s₁, evaluated, ok⟩ := ScopeRun.bind_ok ok
    cases ok
    exact ⟨(fmgrEvalArgs_placed homed args can settled outside evaluated).1, registers_placed _ r₁⟩
  | .opExpr funcid collation args =>
    rw [fmgrEval] at ok
    split at ok
    next =>
      cases ok
      exact ⟨.refl _, by simp⟩
    next mono =>
      obtain ⟨ds, s₁, evaluated, ok⟩ := ScopeRun.bind_ok ok
      rw [canFmgrCompile, Bool.and_eq_true] at can
      obtain ⟨undisturbed, results⟩ := callUnlessBailed_placed homed mono
        (fmgrEvalArgs_placed homed args can.2 settled outside evaluated) ok
      exact ⟨undisturbed, fun d same => ⟨(results d same).1, (results d same).2 args⟩⟩
  | .funcExpr funcid collation args =>
    rw [fmgrEval] at ok
    cases folded : foldedNumeric funcid args with
    | some c =>
      rw [folded] at ok
      cases ok
      refine ⟨.refl _, fun d same => ?_⟩
      obtain rfl := Option.some.inj same
      exact .register _
    | none =>
      rw [folded] at ok
      dsimp only at ok
      split at ok
      next =>
        cases ok
        exact ⟨.refl _, by simp⟩
      next mono =>
        obtain ⟨ds, s₁, evaluated, ok⟩ := ScopeRun.bind_ok ok
        rw [canFmgrCompile, Bool.and_eq_true] at can
        obtain ⟨undisturbed, results⟩ := callUnlessBailed_placed homed mono
          (fmgrEvalArgs_placed homed args can.2 settled outside evaluated) ok
        exact ⟨undisturbed, fun d same => ⟨(results d same).1, (results d same).2 args⟩⟩
  | .subscriptingRef _ _ _ _ _ | .other => simp [canFmgrCompile] at can

theorem fmgrEvalArgs_placed (homed : fns.Homed C) (es : List PgExpr) {r : Option (List HomedDatum)}
    {s s' : ScopeState σ} (can : canFmgrCompileAll es = true) (settled : s.Settled C)
    (outside : C.fmgrExprsReadNativeArray es = true → s.current ≠ .perTuple)
    (ok : fmgrEvalArgs C fns es s = .ok (r, s')) :
    Unmoved C s s' ∧ ∀ ds, r = some ds → PlacedAll s.current ds := by
  match es with
  | [] =>
    rw [fmgrEvalArgs] at ok
    cases ok
    refine ⟨.refl _, fun ds same => ?_⟩
    obtain rfl := Option.some.inj same
    exact fun _ d member => absurd member List.not_mem_nil
  | e :: es =>
    rw [canFmgrCompileAll, Bool.and_eq_true] at can
    rw [ScopeCatalog.fmgrExprsReadNativeArray, Bool.or_eq_true] at outside
    rw [fmgrEvalArgs] at ok
    obtain ⟨r₁, s₁, first, ok⟩ := ScopeRun.bind_ok ok
    obtain ⟨here, placed⟩ :=
      fmgrEval_placed homed e can.1 settled (fun reads => outside (.inl reads)) first
    cases r₁ with
    | none =>
      cases ok
      exact ⟨here, by simp⟩
    | some d =>
      obtain ⟨r₂, s₂, rest, ok⟩ := ScopeRun.bind_ok ok
      cases ok
      obtain ⟨there, others⟩ := fmgrEvalArgs_placed homed es can.2 (here.settled settled)
        (fun reads => here.current ▸ outside (.inr reads)) rest
      refine ⟨here.trans there, fun ds same durable => ?_⟩
      obtain ⟨ds', result, rfl⟩ := Option.map_eq_some_iff.mp same
      intro d' member
      rcases List.mem_cons.mp member with rfl | inside
      · exact (placed d' rfl).durable durable
      · exact others ds' result (here.current ▸ durable) d' inside

end

/-! ### The interpreter -/

theorem fetchAll_unmoved {dnos : List Nat} (settled : s.Settled C) {r : Unit}
    (ok : fetchAll C fns dnos s = .ok (r, s')) : Unmoved C s s' := by
  induction dnos generalizing s with
  | nil =>
    cases ok
    exact .refl _
  | cons dno rest ih =>
    obtain ⟨d, s₁, first, others⟩ := ScopeRun.bind_ok ok
    have here := (execEvalDatum_fetched settled first).1
    exact here.trans (ih (here.settled settled) others)

theorem execEvalExpr_unmoved {e : PgExpr} {d : HomedDatum} (settled : s.Settled C)
    (ok : execEvalExpr C fns e s = .ok (d, s')) : Unmoved C s s' := by
  unfold execEvalExpr at ok
  split at ok
  next => cases ok
  next r s₁ fetched =>
    have here := fetchAll_unmoved settled fetched
    split at ok
    next => cases ok
    next =>
      cases ok
      exact ⟨here.current, here.events, fun before =>
        ⟨(here.settled before).vars, (here.settled before).byval, (here.settled before).erh⟩⟩

theorem execAssignValueHomed_unmoved {dno : Nat} {d : HomedDatum} (durable : s.current ≠ .perTuple) {r : Unit}
    (ok : execAssignValueHomed C dno d s = .ok (r, s')) : Unmoved C s s' := by
  cases ok
  refine ⟨rfl, rfl, fun settled => settled.setVar ?_ fun byval => ?_⟩
  · split
    · simp
    · refine homeIn_ne ?_
      split
      · simp
      · exact durable
  · split
    · rfl
    · exact homeIn_byval byval

theorem refreshIfNative_unmoved {dno : Nat} {r : Unit} (ok : refreshIfNative C fns dno s = .ok (r, s')) :
    Unmoved C s s' := by
  unfold refreshIfNative at ok
  split at ok
  next =>
    split at ok
    next => cases ok
    next =>
      cases ok
      exact ⟨rfl, rfl, fun settled => ⟨settled.vars, settled.byval, settled.erh⟩⟩
  next =>
    cases ok
    exact .refl _

theorem isNative_of_mem {dno : Nat} (member : dno ∈ C.natives) : C.isNative dno = true :=
  List.contains_iff_mem.mpr member

theorem assignByInterpreter_unmoved {dno : Nat} {e : PgExpr} {paramnos : List Nat}
    (settled : s.Settled C) (durable : s.current ≠ .perTuple) {r : Unit}
    (ok : assignByInterpreter C fns dno e paramnos s = .ok (r, s')) : Unmoved C s s' := by
  obtain ⟨_, s₁, marshalled, ok⟩ := ScopeRun.bind_ok ok
  have first : Unmoved C s s₁ := marshalAll_unmoved
    (fun _ member => isNative_of_mem (List.mem_filter.mp member).1) durable marshalled
  obtain ⟨d, s₂, evaluated, ok⟩ := ScopeRun.bind_ok ok
  have second := first.trans (execEvalExpr_unmoved (first.settled settled) evaluated)
  obtain ⟨_, s₃, assigned, ok⟩ := ScopeRun.bind_ok ok
  have third := second.trans (execAssignValueHomed_unmoved (second.current ▸ durable) assigned)
  exact third.trans (refreshIfNative_unmoved ok)

theorem conditionByInterpreter_unmoved {e : PgExpr} {d : HomedDatum} (settled : s.Settled C)
    (durable : s.current ≠ .perTuple) (ok : conditionByInterpreter C fns e s = .ok (d, s')) :
    Unmoved C s s' ∧ d.home = none := by
  obtain ⟨_, s₁, marshalled, ok⟩ := ScopeRun.bind_ok ok
  have first : Unmoved C s s₁ :=
    marshalAll_unmoved (fun _ member => isNative_of_mem member) durable marshalled
  obtain ⟨d, s₂, evaluated, ok⟩ := ScopeRun.bind_ok ok
  cases ok
  exact ⟨first.trans (execEvalExpr_unmoved (first.settled settled) evaluated), rfl⟩

/-! ### Elements -/

theorem setElementHomed_unmoved {dno : Nat} {idx : BitVec 32} {d : NullableDatum}
    (native : C.isNative dno = true) {r : Unit} (ok : setElementHomed fns dno idx d s = .ok (r, s')) :
    Unmoved C s s' := by
  unfold setElementHomed at ok
  split at ok
  next => cases ok
  next =>
    cases ok
    exact ⟨rfl, rfl, fun settled => ⟨settled.vars, settled.byval, settled.erh⟩⟩
  next v world _ =>
    cases ok
    refine ⟨rfl, rfl, fun settled => ?_⟩
    have byref := C.native_byref dno (List.contains_iff_mem.mp native)
    have stored := @ScopeState.Settled.setVar σ C s settled dno ⟨⟨v, false⟩, some .datum⟩ (by simp)
      (by simp [byref])
    exact ⟨stored.vars, stored.byval, stored.erh⟩

theorem storeElement_unmoved {dno : Nat} {idx : BitVec 32} {d : HomedDatum}
    (native : C.isNative dno = true) (durable : s.current ≠ .perTuple) {r : Unit}
    (ok : storeElement C fns dno idx d s = .ok (r, s')) : Unmoved C s s' := by
  unfold storeElement at ok
  split at ok
  next =>
    cases ok
    exact ⟨rfl, rfl, fun settled => ⟨settled.vars, settled.byval, settled.erh⟩⟩
  next =>
    obtain ⟨_, s₁, marshalled, ok⟩ := ScopeRun.bind_ok ok
    obtain ⟨_, s₂, set, ok⟩ := ScopeRun.bind_ok ok
    have first : Unmoved C s s₁ := marshal_unmoved native durable marshalled
    have second := first.trans (setElementHomed_unmoved native set)
    exact second.trans (refreshIfNative_unmoved ok)

/-! ### Scopes are closed -/

/-- The scopes of one statement. -/
inductive MatchedOnce : List ScopeEvent → Prop where
  | unscoped : MatchedOnce []
  | exited : MatchedOnce [.enter, .exit]
  | copied : MatchedOnce [.enter, .copyAssign]

/-- The statement that began in one state is over in the other. -/
structure ScopeClosed (C : ScopeCatalog) (s s' : ScopeState σ) : Prop where
  current : s'.current = s.current
  settled : s'.Settled C
  events : ∃ trace, s'.events = s.events ++ trace ∧ MatchedOnce trace

theorem ScopeClosed.followed {s₁ : ScopeState σ} (closed : ScopeClosed C s s₁)
    (undisturbed : Unmoved C s₁ s') : ScopeClosed C s s' where
  current := undisturbed.current.trans closed.current
  settled := undisturbed.settled closed.settled
  events := by
    rw [undisturbed.events]
    exact closed.events

/-- The value has been computed, in a scope or not. -/
inductive ScopeEntered (s s₁ : ScopeState σ) : Option MemoryContext → Prop where
  | outside (current : s₁.current = s.current) (events : s₁.events = s.events) : ScopeEntered s s₁ none
  | inside (events : s₁.events = s.events ++ [.enter]) : ScopeEntered s s₁ (some s.current)

theorem ScopeEntered.setVar {s₁ : ScopeState σ} {old : Option MemoryContext} (evaluated : ScopeEntered s s₁ old)
    (dno : Nat) (d : HomedDatum) : ScopeEntered s (s₁.setVar dno d) old := by
  cases evaluated with
  | outside current events => exact .outside current events
  | inside events => exact .inside events

theorem exitIf_closed {s₁ : ScopeState σ} {old : Option MemoryContext} (evaluated : ScopeEntered s s₁ old)
    (settled : s₁.Settled C) {r : Unit} (ok : exitIf old s₁ = .ok (r, s')) : ScopeClosed C s s' := by
  cases evaluated with
  | outside current events =>
    cases ok
    exact ⟨current, settled, [], by rw [events, List.append_nil], .unscoped⟩
  | inside events =>
    cases ok
    refine ⟨rfl, ⟨settled.vars, settled.byval, settled.erh⟩, [.enter, .exit], ?_, .exited⟩
    simp [events]

theorem copyHomed_ne {d : HomedDatum} {context : MemoryContext} (durable : context ≠ .perTuple) :
    (copyHomed d context).home ≠ some .perTuple := by
  unfold copyHomed
  split
  · simp
  · exact fun same => durable (Option.some.inj same)

theorem copyAssign_closed {s₁ : ScopeState σ} {old : Option MemoryContext} {dno : Nat} {d : HomedDatum}
    (durable : s.current ≠ .perTuple) (evaluated : ScopeEntered s s₁ old) (settled : s₁.Settled C)
    (byref : ¬C.typbyval (C.decl dno) = true) {r : Unit} (ok : copyAssign dno d old s₁ = .ok (r, s')) :
    ScopeClosed C s s' := by
  have stored {context : MemoryContext} (outside : context ≠ .perTuple) :
      (s₁.setVar dno (copyHomed d context)).Settled C :=
    settled.setVar (copyHomed_ne outside) fun byval => absurd byval byref
  cases evaluated with
  | outside current events =>
    cases ok
    refine ⟨current, stored (current ▸ durable), [], ?_, .unscoped⟩
    exact events.trans (List.append_nil _).symm
  | inside events =>
    -- The copy is made in the previous context, before the reset.
    cases ok
    have copied := stored durable
    refine ⟨rfl, ⟨copied.vars, copied.byval, copied.erh⟩, [.enter, .copyAssign], ?_, .copied⟩
    simp [events]

/-- What the parser and the choice of the path guarantee of a statement: the value
has the type of the variable or of the element, and native arrays hold by-value
elements. -/
structure Tier2Stmt.Analysed (C : ScopeCatalog) (stmt : Tier2Stmt) : Prop where
  can : canFmgrCompile stmt.expr = true
  assigned : ∀ dno, stmt.use = .assign dno → C.typbyval (C.decl dno) = true → C.byValue stmt.expr = true
  element : ∀ dno idx, stmt.use = .element dno idx → C.isNative dno = true ∧ C.byValue stmt.expr = true

/-- The statement is over and nothing that is still used went with the scope. -/
def Finished (C : ScopeCatalog) (s s' : ScopeState σ) (used : List HomedDatum) : Prop :=
  ScopeClosed C s s' ∧ ∀ d ∈ used, d.home ≠ some .perTuple

theorem Finished.of_closed (closed : ScopeClosed C s s') : Finished C s s' [] :=
  ⟨closed, fun _ member => absurd member List.not_mem_nil⟩

theorem Finished.of_register {d : HomedDatum} (closed : ScopeClosed C s s') (register : d.home = none) :
    Finished C s s' [d] := by
  refine ⟨closed, fun d' member => ?_⟩
  obtain rfl := List.mem_singleton.mp member
  simp [register]

section Finish

variable {stmt : Tier2Stmt} {old : Option MemoryContext} {s₁ : ScopeState σ} {used : List HomedDatum}
  {d : Option HomedDatum}

/-- After a bail-out the scope is closed first, and then the interpreter assigns. -/
theorem bail_closed {dno : Nat} (durable : s.current ≠ .perTuple) (evaluated : ScopeEntered s s₁ old)
    (settled : s₁.Settled C)
    (ok : (do exitIf old; assignByInterpreter C fns dno stmt.expr stmt.paramnos; pure [] :
      ScopeRun σ (List HomedDatum)) s₁ = .ok (used, s')) : Finished C s s' used := by
  obtain ⟨_, s₂, exited, ok⟩ := ScopeRun.bind_ok ok
  have closed : ScopeClosed C s s₂ := exitIf_closed evaluated settled exited
  obtain ⟨_, s₃, assigned, ok⟩ := ScopeRun.bind_ok ok
  cases ok
  exact .of_closed (closed.followed
    (assignByInterpreter_unmoved closed.settled (closed.current ▸ durable) assigned))

theorem finish_finished (analysed : stmt.Analysed C) (durable : s.current ≠ .perTuple)
    (evaluated : ScopeEntered s s₁ old) (settled : s₁.Settled C) {context : MemoryContext}
    (placed : ∀ d', d = some d' → Placed C stmt.expr context d')
    (ok : finish C fns stmt old d s₁ = .ok (used, s')) : Finished C s s' used := by
  unfold finish at ok
  cases use : stmt.use with
  | assign dno =>
    rw [use] at ok
    dsimp only at ok
    split at ok
    next byval =>
      cases d with
      | none => exact bail_closed durable evaluated settled ok
      | some d =>
        obtain ⟨_, s₂, stored, rest⟩ := ScopeRun.bind_ok ok
        obtain ⟨_, s₃, exited, ended⟩ := ScopeRun.bind_ok rest
        cases stored
        cases ended
        -- The Datum is stored before the scope ends, so it must not point into it.
        have register := (placed d rfl).byval (analysed.assigned dno use byval)
        exact .of_closed (exitIf_closed (evaluated.setVar dno d)
          (settled.setVar (by simp [register]) fun _ => register) exited)
    next byref =>
      cases d with
      | none => exact bail_closed durable evaluated settled ok
      | some d =>
        obtain ⟨_, s₂, copied, ok⟩ := ScopeRun.bind_ok ok
        obtain ⟨_, s₃, refreshed, ok⟩ := ScopeRun.bind_ok ok
        cases ok
        exact .of_closed ((copyAssign_closed durable evaluated settled byref copied).followed
          (refreshIfNative_unmoved refreshed))
  | condition =>
    rw [use] at ok
    cases d with
    | none =>
      obtain ⟨_, s₂, exited, ok⟩ := ScopeRun.bind_ok ok
      have closed : ScopeClosed C s s₂ := exitIf_closed evaluated settled exited
      obtain ⟨d, s₃, tested, ok⟩ := ScopeRun.bind_ok ok
      cases ok
      obtain ⟨undisturbed, register⟩ :=
        conditionByInterpreter_unmoved closed.settled (closed.current ▸ durable) tested
      exact .of_register (closed.followed undisturbed) register
    | some d =>
      obtain ⟨_, s₂, exited, ok⟩ := ScopeRun.bind_ok ok
      cases ok
      exact .of_register (exitIf_closed evaluated settled exited) rfl
  | element dno idx =>
    rw [use] at ok
    obtain ⟨native, byval⟩ := analysed.element dno idx use
    cases d with
    | none => exact bail_closed durable evaluated settled ok
    | some d =>
      obtain ⟨_, s₂, exited, ok⟩ := ScopeRun.bind_ok ok
      have closed : ScopeClosed C s s₂ := exitIf_closed evaluated settled exited
      obtain ⟨_, s₃, stored, ok⟩ := ScopeRun.bind_ok ok
      cases ok
      exact .of_register
        (closed.followed (storeElement_unmoved native (closed.current ▸ durable) stored))
        ((placed d rfl).byval byval)

end Finish

/-! ### Runs -/

/-- An expression that wants a scope reads no native array, so nothing is
marshalled inside it. -/
theorem exec_finished (homed : fns.Homed C) {stmt : Tier2Stmt} (analysed : stmt.Analysed C)
    (settled : s.Settled C) (durable : s.current ≠ .perTuple) {used : List HomedDatum}
    (ok : stmt.exec C fns s = .ok (used, s')) : Finished C s s' used := by
  obtain ⟨old, s₁, entered, rest⟩ := ScopeRun.bind_ok ok
  obtain ⟨d, s₂, computed, ended⟩ := ScopeRun.bind_ok rest
  unfold enterIf at entered
  split at entered
  next wants =>
    cases entered
    rw [ScopeCatalog.fmgrExprWantsAllocScope, Bool.and_eq_true, Bool.not_eq_true'] at wants
    obtain ⟨undisturbed, placed⟩ := fmgrEval_placed homed stmt.expr analysed.can
      (s := { s with current := .perTuple, events := s.events ++ [.enter] })
      ⟨settled.vars, settled.byval, settled.erh⟩ (fun reads => by simp [wants.2] at reads) computed
    exact finish_finished analysed durable (.inside undisturbed.events)
      (undisturbed.settled ⟨settled.vars, settled.byval, settled.erh⟩) placed ended
  next =>
    cases entered
    obtain ⟨undisturbed, placed⟩ :=
      fmgrEval_placed homed stmt.expr analysed.can settled (fun _ => durable) computed
    exact finish_finished analysed durable (.outside undisturbed.current undisturbed.events)
      (undisturbed.settled settled) placed ended

end Settled

/-- Tier 2 statements that run without an error leave `CurrentMemoryContext` as it
was and every variable outside the per-tuple context, and what they still use
after a scope is not in it; each of them has entered at most one scope and left it
once, also if the compiler bailed out in between. -/
theorem alloc_scopes_closed {σ : Type} (C : ScopeCatalog) (fns : ScopeFns σ) (homed : fns.Homed C)
    (stmts : List Tier2Stmt) (analysed : ∀ stmt ∈ stmts, stmt.Analysed C) (s s' : ScopeState σ)
    (used : List HomedDatum) (settled : s.Settled C) (durable : s.current ≠ .perTuple)
    (run : execTier2 C fns stmts s = .ok (used, s')) :
    s'.current = s.current ∧ s'.Settled C ∧ (∀ d ∈ used, d.home ≠ some .perTuple) ∧
      ∃ traces : List (List ScopeEvent), traces.length = stmts.length ∧
        (∀ trace ∈ traces, MatchedOnce trace) ∧ s'.events = s.events ++ traces.flatten := by
  induction stmts generalizing s used with
  | nil =>
    cases run
    exact ⟨rfl, settled, fun _ member => absurd member List.not_mem_nil, [], rfl,
      fun _ member => absurd member List.not_mem_nil, (List.append_nil _).symm⟩
  | cons stmt rest ih =>
    obtain ⟨here, s₁, first, others⟩ := ScopeRun.bind_ok run
    obtain ⟨more, s₂, later, ended⟩ := ScopeRun.bind_ok others
    cases ended
    obtain ⟨closed, nothingGone⟩ := exec_finished homed (analysed stmt (by simp)) settled durable first
    obtain ⟨trace, events, matched⟩ := closed.events
    obtain ⟨current, settledAfter, stillThere, traces, length, allMatched, more⟩ :=
      ih (fun stmt' member => analysed stmt' (by simp [member])) s₁ _ closed.settled
        (closed.current ▸ durable) later
    refine ⟨current.trans closed.current, settledAfter, fun d member => ?_, trace :: traces,
      by simp [length], List.forall_mem_cons.mpr ⟨matched, allMatched⟩, ?_⟩
    · rcases List.mem_append.mp member with first | second
      · exact nothingGone d first
      · exact stillThere d second
    · rw [more, events, List.flatten_cons, List.append_assoc]

/-! ### length(upper(t)) -/

/-- t is a text, x an integer and a an array that is native. -/
def textCatalog : ScopeCatalog where
  cat := ⟨fun _ => true, fun _ => false, id⟩
  typbyval typ := typ = .int4 || typ = .bool
  typisarray typ := typ = .other 1007
  resulttype funcid _ := if funcid = .other 871 then .other 25 else .int4
  decl dno := if dno = 0 then .other 25 else if dno = 1 then .int4 else .other 1007
  kind _ := .var
  natives := [2]
  bool_byval := rfl
  native_byref dno member := by
    obtain rfl := List.mem_singleton.mp member
    rfl

/-- `upper` returns a new text, `length` a number. -/
def textFns : ScopeFns Unit where
  fn funcid _ _ context w :=
    if funcid = .other 871 then .ok (⟨⟨4096, false⟩, some context⟩, w) else .ok (⟨⟨3, false⟩, none⟩, w)
  promised _ _ := .ok ⟨0, true⟩
  field _ _ := .ok ⟨0, true⟩
  marshalled _ _ := none
  refresh _ _ w := .ok w
  nativeStore _ _ _ w := some w
  arraySetElement _ _ _ w := .ok (none, w)
  fetched _ _ := []
  execute _ _ w := .ok (⟨⟨0, true⟩, none⟩, w)

theorem textFns_homed : textFns.Homed textCatalog where
  byval {funcid _ _ _ _ _ _ _} _ byval called := by
    by_cases upper : funcid = .other 871
    · simp [textCatalog, upper] at byval
    · simp only [textFns, upper, if_false] at called
      cases called
      rfl
  placed {funcid _ _ context _ _ _} called inScope := by
    by_cases upper : funcid = .other 871
    · simp only [textFns, upper, if_true] at called
      cases called
      exact .inl (Option.some.inj inScope)
    · simp only [textFns, upper, if_false] at called
      cases called
      simp at inScope

/-- x := length(upper(t)). -/
def lengthOfUpper : Tier2Stmt where
  use := .assign 1
  expr := .funcExpr (.other 1317) 0 [.funcExpr (.other 871) 100 [.param true 0 (.other 25)]]
  paramnos := [0]

def textStart : ScopeState Unit where
  current := .other 1
  vars dno := if dno = 0 then ⟨⟨512, false⟩, some .datum⟩ else ⟨⟨0, true⟩, none⟩
  armed _ := false
  erh _ := none
  events := []
  world := ()

def textEnd : ScopeState Unit :=
  { textStart.setVar 1 ⟨⟨3, false⟩, none⟩ with events := [.enter, .exit] }

theorem alloc_scopes_closed_lengthOfUpper :
    execTier2 textCatalog textFns [lengthOfUpper] textStart = .ok ([], textEnd) ∧
      textEnd.current = .other 1 ∧ textEnd.Settled textCatalog := by
  have run : execTier2 textCatalog textFns [lengthOfUpper] textStart = .ok ([], textEnd) := rfl
  have analysed : lengthOfUpper.Analysed textCatalog :=
    ⟨rfl, fun _ _ _ => rfl, fun _ _ use => by simp [lengthOfUpper] at use⟩
  have settled : textStart.Settled textCatalog := by
    refine ⟨fun dno => ?_, fun dno byval => ?_, fun _ => by simp [textStart]⟩
    · by_cases zero : dno = 0 <;> simp [textStart, zero]
    · by_cases zero : dno = 0
      · simp [textCatalog, zero] at byval
      · simp [textStart, zero]
  obtain ⟨current, after, -⟩ := alloc_scopes_closed textCatalog textFns textFns_homed [lengthOfUpper]
    (by simpa using analysed) textStart textEnd [] settled (by simp [textStart]) run
  exact ⟨run, current, after⟩

end Uplpgsql
