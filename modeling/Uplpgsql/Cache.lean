import Mathlib.Logic.Function.Basic
import Mathlib.Logic.Relation
import Mathlib.Data.List.Induction

/-!
# The cache of compiled functions

`core/upl_cache.c` and what the call handler does with it. The cache has one
entry for each function OID. An entry is valid for the version of the pg_proc
row and the address of the function struct it was stored with; a lookup that
finds another entry removes it.

Struct addresses are used again: a struct whose pg_proc row has changed is
rebuilt where it is. `generation` tells the builds apart. It is not something
the code can see.
-/

namespace Uplpgsql

structure ItemPointerData where
  blkid : Nat
  posid : Nat
  deriving DecidableEq, Repr

/-- `UPLpgSQL_function`, as far as the call handler looks at it. -/
structure PlFunction where
  fnOid : Nat
  fnXmin : Nat
  fnTid : ItemPointerData
  /-- The address of the struct. -/
  addr : Nat
  isEventTrigger : Bool
  generation : Nat
  deriving DecidableEq, Repr

/-- What an entry is valid for. -/
structure Identity where
  fnOid : Nat
  fnXmin : Nat
  fnTid : ItemPointerData
  langFunc : Nat
  deriving DecidableEq, Repr

def PlFunction.identity (f : PlFunction) : Identity := ⟨f.fnOid, f.fnXmin, f.fnTid, f.addr⟩

/-- Compiled code, with pointers into the struct it was compiled from. -/
structure UplFunc where
  source : PlFunction
  deriving DecidableEq, Repr

inductive JitFunc where
  | null
  /-- `UPL_SKIP_JIT`. -/
  | skip
  | code (f : UplFunc)
  deriving DecidableEq, Repr

structure CacheEntry where
  jitFunc : JitFunc
  fnXmin : Nat
  fnTid : ItemPointerData
  langFunc : Nat
  deriving DecidableEq, Repr

def CacheEntry.identity (entry : CacheEntry) (fnOid : Nat) : Identity :=
  ⟨fnOid, entry.fnXmin, entry.fnTid, entry.langFunc⟩

/-- `upl_cache_htab`; `none` before the first store. -/
abbrev UplCache := Option (Nat → Option CacheEntry)

def UplCache.entry (cache : UplCache) (fnOid : Nat) : Option CacheEntry :=
  cache.bind fun htab => htab fnOid

inductive CacheStatus where
  | miss
  | skip
  | hit (f : UplFunc)
  deriving DecidableEq, Repr

/-- `upl_cache_check_fn`. -/
abbrev CacheCheckFn := Nat → Nat → Bool

def uplpgsqlCacheCheck : CacheCheckFn := fun cached current => cached == current

def uplCacheLookup (cache : UplCache) (fnOid fnXmin : Nat) (fnTid : ItemPointerData)
    (currentLangFunc : Nat) (checkFn : Option CacheCheckFn) : CacheStatus × UplCache :=
  match cache with
  | none => (.miss, none)
  | some htab =>
    match htab fnOid with
    | none => (.miss, some htab)
    | some entry =>
      if entry.fnXmin != fnXmin || entry.fnTid != fnTid ||
          checkFn.any (fun check => !check entry.langFunc currentLangFunc) then
        (.miss, some (Function.update htab fnOid none))
      else
        match entry.jitFunc with
        | .skip => (.skip, some htab)
        | .null => (.miss, some htab)
        | .code f => (.hit f, some htab)

def uplCacheStore (cache : UplCache) (fnOid fnXmin : Nat) (fnTid : ItemPointerData) (langFunc : Nat)
    (jitFunc : JitFunc) : UplCache :=
  some (Function.update (cache.getD fun _ => none) fnOid (some ⟨jitFunc, fnXmin, fnTid, langFunc⟩))

def uplCacheStoreSkip (cache : UplCache) (fnOid fnXmin : Nat) (fnTid : ItemPointerData)
    (langFunc : Nat) : UplCache :=
  uplCacheStore cache fnOid fnXmin fnTid langFunc .skip

/-! ### The call handler -/

/-- What the handler does with a function that is not in the cache: the heuristic
turns it down, or its compilation succeeds or raises an error. -/
inductive Outcome where
  | skips
  | compiles
  | fails
  deriving DecidableEq, Repr

structure Call where
  /-- The answer of the cache; `none` if it was not asked. -/
  status : Option CacheStatus
  /-- Whether a compilation was attempted. -/
  attempted : Bool
  /-- The code that is run; `none` for the interpreter. -/
  jitfunc : Option UplFunc
  cache : UplCache

def lookupFunction (cache : UplCache) (f : PlFunction) : CacheStatus × UplCache :=
  uplCacheLookup cache f.fnOid f.fnXmin f.fnTid f.addr (some uplpgsqlCacheCheck)

def uplpgsqlCallHandler (cache : UplCache) (f : PlFunction) (outcome : Outcome) : Call :=
  if f.isEventTrigger then ⟨none, false, none, cache⟩
  else
    match lookupFunction cache f with
    | (.miss, cache) =>
      match outcome with
      | .skips =>
        ⟨some .miss, false, none, uplCacheStoreSkip cache f.fnOid f.fnXmin f.fnTid f.addr⟩
      | .compiles =>
        ⟨some .miss, true, some ⟨f⟩, uplCacheStore cache f.fnOid f.fnXmin f.fnTid f.addr (.code ⟨f⟩)⟩
      -- The error is caught outside the store: nothing is remembered.
      | .fails => ⟨some .miss, true, none, cache⟩
    | (.skip, cache) => ⟨some .skip, false, none, cache⟩
    | (.hit code, cache) => ⟨some (.hit code), false, some code, cache⟩

/-! ### What lookup and store do to an entry -/

@[simp] theorem entry_store (cache : UplCache) (f : PlFunction) (jitFunc : JitFunc) (oid : Nat) :
    (uplCacheStore cache f.fnOid f.fnXmin f.fnTid f.addr jitFunc).entry oid =
      if oid = f.fnOid then some ⟨jitFunc, f.fnXmin, f.fnTid, f.addr⟩ else cache.entry oid := by
  unfold uplCacheStore UplCache.entry
  cases cache <;> by_cases same : oid = f.fnOid <;> simp [same]

/-- The answer of a lookup, and what it leaves behind. -/
theorem lookup_cases (cache : UplCache) (f : PlFunction) :
    (∃ entry, cache.entry f.fnOid = some entry ∧ entry.identity f.fnOid = f.identity ∧
      (lookupFunction cache f).2 = cache ∧
      (lookupFunction cache f).1 = match entry.jitFunc with
        | .skip => .skip
        | .null => .miss
        | .code code => .hit code) ∨
    ((∀ entry, cache.entry f.fnOid = some entry → entry.identity f.fnOid ≠ f.identity) ∧
      (lookupFunction cache f).1 = .miss ∧
      ∀ oid, (lookupFunction cache f).2.entry oid = if oid = f.fnOid then none else cache.entry oid) := by
  unfold lookupFunction uplCacheLookup
  cases cache with
  | none =>
    refine .inr ⟨fun entry eq => (nomatch eq), rfl, fun oid => ?_⟩
    simp [UplCache.entry]
  | some htab =>
    cases found : htab f.fnOid with
    | none =>
      refine .inr ⟨fun entry eq => ?_, by simp only [found], fun oid => ?_⟩
      · simp [UplCache.entry, found] at eq
      · by_cases same : oid = f.fnOid <;> simp [UplCache.entry, found, same]
    | some entry =>
      have here : UplCache.entry (some htab) f.fnOid = some entry := found
      by_cases valid : entry.identity f.fnOid = f.identity
      · refine .inl ⟨entry, here, valid, ?_⟩
        simp only [CacheEntry.identity, PlFunction.identity, Identity.mk.injEq, true_and] at valid
        obtain ⟨xmin, tid, ptr⟩ := valid
        simp only [found, xmin, tid, ptr, uplpgsqlCacheCheck, bne_self_eq_false, Bool.or_self,
          Option.any_some, beq_self_eq_true, Bool.not_true, Bool.false_eq_true, if_false]
        cases entry.jitFunc <;> exact ⟨rfl, rfl⟩
      · refine .inr ⟨fun other eq => ?_, ?_⟩
        · rw [here] at eq
          cases eq
          exact valid
        · have stale : (entry.fnXmin != f.fnXmin || entry.fnTid != f.fnTid ||
              (some uplpgsqlCacheCheck).any (fun check => !check entry.langFunc f.addr)) = true := by
            by_contra fresh
            simp only [Bool.or_eq_true, not_or, Option.any_some, uplpgsqlCacheCheck, bne_iff_ne, ne_eq,
              not_not, Bool.not_eq_true', beq_eq_false_iff_ne] at fresh
            obtain ⟨⟨xmin, tid⟩, ptr⟩ := fresh
            exact valid (by simp [CacheEntry.identity, PlFunction.identity, xmin, tid, ptr])
          simp only [found, stale, if_true, true_and]
          intro oid
          by_cases same : oid = f.fnOid <;> simp [UplCache.entry, same]

/-! ### Histories -/

/-- What happens in a backend: the front end builds a struct, at an address of
its choice and for any version of any function; it frees one; a function is
called. -/
inductive CacheEvent where
  | rebuild (f : PlFunction)
  | free (addr : Nat)
  | call (f : PlFunction) (outcome : Outcome)

structure History where
  cache : UplCache
  /-- The struct that is at an address now. -/
  live : Nat → Option PlFunction
  built : Nat
  /-- What was stored last for an identity. -/
  stored : Identity → Option JitFunc

namespace History

def start : History := ⟨none, fun _ => none, 0, fun _ => none⟩

/-- What a call stores. -/
def storedBy (cache : UplCache) (f : PlFunction) (outcome : Outcome) : Option JitFunc :=
  if f.isEventTrigger then none
  else
    match (lookupFunction cache f).1, outcome with
    | .miss, .skips => some .skip
    | .miss, .compiles => some (.code ⟨f⟩)
    | _, _ => none

def after (h : History) : CacheEvent → History
  | .rebuild f => { h with live := Function.update h.live f.addr (some f), built := h.built + 1 }
  | .free addr => { h with live := Function.update h.live addr none }
  | .call f outcome =>
    { h with
      cache := (uplpgsqlCallHandler h.cache f outcome).cache
      stored := match storedBy h.cache f outcome with
        | none => h.stored
        | some jitFunc => Function.update h.stored f.identity (some jitFunc) }

/-- A build is a new generation, and a call is given the struct that is there. -/
def Legal (h : History) : CacheEvent → Prop
  | .rebuild f => f.generation = h.built
  | .free _ => True
  | .call f _ => h.live f.addr = some f

/-- No struct is built under an identity for which the cache holds code. -/
def Fresh (h : History) : CacheEvent → Prop
  | .rebuild f => ∀ entry code, h.cache.entry f.fnOid = some entry →
      entry.identity f.fnOid = f.identity → entry.jitFunc ≠ .code code
  | _ => True

def Step (h h' : History) : Prop := ∃ e, h.Legal e ∧ h' = h.after e

def FreshStep (h h' : History) : Prop := ∃ e, h.Legal e ∧ h.Fresh e ∧ h' = h.after e

end History

/-- The answer to a lookup for the struct `f` is sound. -/
structure LookupSound (h : History) (f : PlFunction) : Prop where
  hit : ∀ code, (lookupFunction h.cache f).1 = .hit code → code.source = f
  skip : (lookupFunction h.cache f).1 = .skip → h.stored f.identity = some .skip
  miss : (lookupFunction h.cache f).1 = .miss →
    ∀ entry, (lookupFunction h.cache f).2.entry f.fnOid = some entry →
      entry.identity f.fnOid = f.identity

/-- The entry is what was stored last for its identity, and its code belongs to
the struct that has this identity now, if there is one. -/
structure EntrySound (h : History) (oid : Nat) (entry : CacheEntry) : Prop where
  stored : h.stored (entry.identity oid) = some entry.jitFunc
  source : ∀ code, entry.jitFunc = .code code → ∀ g, h.live entry.langFunc = some g →
    g.identity = entry.identity oid → code.source = g

def CacheSound (h : History) : Prop := ∀ oid entry, h.cache.entry oid = some entry → EntrySound h oid entry

theorem CacheSound.lookup {h : History} (sound : CacheSound h) {f : PlFunction}
    (live : h.live f.addr = some f) : LookupSound h f := by
  rcases lookup_cases h.cache f with ⟨entry, found, same, kept, answer⟩ | ⟨-, answer, left⟩
  · have fine := sound f.fnOid entry found
    have addr : entry.langFunc = f.addr := congrArg Identity.langFunc same
    refine ⟨fun code hit => ?_, fun skip => ?_, fun _ other eq => ?_⟩
    · rw [answer] at hit
      split at hit
      · cases hit
      · cases hit
      next code' eq =>
        cases hit
        exact fine.source code eq f (by rw [addr]; exact live) same.symm
    · rw [answer] at skip
      split at skip
      next eq => rw [← same, fine.stored, eq]
      · cases skip
      · cases skip
    · rw [kept, found] at eq
      cases eq
      exact same
  · refine ⟨fun code hit => ?_, fun skip => ?_, fun _ other eq => ?_⟩
    · rw [answer] at hit
      cases hit
    · rw [answer] at skip
      cases skip
    · rw [left, if_pos rfl] at eq
      cases eq

/-- A lookup adds no entry. -/
theorem entry_of_lookup {cache : UplCache} {f : PlFunction} {oid : Nat} {entry : CacheEntry}
    (found : (lookupFunction cache f).2.entry oid = some entry) : cache.entry oid = some entry := by
  rcases lookup_cases cache f with ⟨-, -, -, kept, -⟩ | ⟨-, -, left⟩
  · rwa [kept] at found
  · rw [left] at found
    split at found
    · cases found
    · exact found

/-- An entry after a call was there before, or is what the call has stored. -/
theorem entry_of_call {cache : UplCache} {f : PlFunction} {outcome : Outcome} {oid : Nat}
    {entry : CacheEntry} (found : (uplpgsqlCallHandler cache f outcome).cache.entry oid = some entry) :
    (History.storedBy cache f outcome = none ∨ oid ≠ f.fnOid) ∧ cache.entry oid = some entry ∨
      (History.storedBy cache f outcome = some entry.jitFunc ∧ entry.identity oid = f.identity) := by
  unfold uplpgsqlCallHandler at found
  unfold History.storedBy
  have before : (lookupFunction cache f).2.entry oid = some entry → cache.entry oid = some entry :=
    entry_of_lookup
  split at found
  next event => exact .inl ⟨.inl (by simp [event]), found⟩
  next event =>
    generalize lookupFunction cache f = looked at found before ⊢
    obtain ⟨status, cache'⟩ := looked
    cases status with
    | miss =>
      cases outcome with
      | skips | compiles =>
        simp only [uplCacheStoreSkip, entry_store] at found
        split at found
        next same =>
          cases found
          exact .inr ⟨by simp [event], by rw [same]; rfl⟩
        next other => exact .inl ⟨.inr other, before found⟩
      | fails => exact .inl ⟨.inl (by simp), before found⟩
    | skip => exact .inl ⟨.inl (by simp), before found⟩
    | hit code => exact .inl ⟨.inl (by simp), before found⟩

/-- A call stores code of the struct it was given. -/
theorem storedBy_code {cache : UplCache} {f : PlFunction} {outcome : Outcome} {code : UplFunc}
    (stored : History.storedBy cache f outcome = some (.code code)) : code.source = f := by
  unfold History.storedBy at stored
  split at stored
  · cases stored
  · split at stored
    · cases stored
    · cases stored
      rfl
    · cases stored

theorem CacheSound.step {h h' : History} (sound : CacheSound h) (step : h.FreshStep h') :
    CacheSound h' := by
  obtain ⟨e, legal, fresh, rfl⟩ := step
  intro oid entry found
  cases e with
  | rebuild f =>
    have before := sound oid entry found
    refine ⟨before.stored, fun code eq g live same => ?_⟩
    change Function.update h.live f.addr (some f) entry.langFunc = some g at live
    by_cases here : entry.langFunc = f.addr
    · -- The struct that is there now is the new one, and it has another identity.
      rw [here, Function.update_self] at live
      cases live
      have oidEq : f.fnOid = oid := congrArg Identity.fnOid same
      subst oidEq
      exact absurd eq (fresh entry code found same.symm)
    · rw [Function.update_of_ne here] at live
      exact before.source code eq g live same
  -- A struct that is freed is not alive, and about the others nothing changes.
  | free addr =>
    have before := sound oid entry found
    refine ⟨before.stored, fun code eq g live same => ?_⟩
    change Function.update h.live addr none entry.langFunc = some g at live
    by_cases here : entry.langFunc = addr
    · rw [here, Function.update_self] at live
      cases live
    · rw [Function.update_of_ne here] at live
      exact before.source code eq g live same
  | call f outcome =>
    -- The entry is an old one, or the one that this call has stored.
    rcases entry_of_call found with ⟨untouched, before⟩ | ⟨new, same⟩
    · have fine := sound oid entry before
      refine ⟨?_, fine.source⟩
      cases new : History.storedBy h.cache f outcome with
      | none =>
        simp only [History.after, new]
        exact fine.stored
      | some jitFunc =>
        have other : oid ≠ f.fnOid := by simpa [new] using untouched
        simp only [History.after, new]
        rw [Function.update_of_ne fun same => other (congrArg Identity.fnOid same)]
        exact fine.stored
    · refine ⟨?_, fun code eq g live sameG => ?_⟩
      · simp only [History.after, new, same]
        exact Function.update_self ..
      · rw [eq] at new
        have addr : entry.langFunc = f.addr := congrArg Identity.langFunc same
        change h.live entry.langFunc = some g at live
        rw [addr, legal] at live
        cases live
        exact storedBy_code new

/-- In every history in which no struct is built under an identity for which the
cache still holds code, every lookup for a struct that is alive is answered
soundly. -/
theorem cache_sound {h : History} (reached : Relation.ReflTransGen History.FreshStep .start h)
    {f : PlFunction} (live : h.live f.addr = some f) : LookupSound h f := by
  have sound : CacheSound h := by
    clear live
    induction reached with
    | refl => exact fun _ _ found => nomatch found
    | tail _ step ih => exact ih.step step
  exact sound.lookup live

/-- A function, a replacement of it built at the same address, and the function
again, after the replacement was rolled back. -/
def original : PlFunction := ⟨1, 10, ⟨0, 1⟩, 100, false, 0⟩
def replacement : PlFunction := ⟨1, 20, ⟨0, 2⟩, 100, false, 1⟩
def rebuilt : PlFunction := ⟨1, 10, ⟨0, 1⟩, 100, false, 2⟩

def calledOnce : History := (History.start.after (.rebuild original)).after (.call original .compiles)

theorem calledOnce_sound : LookupSound calledOnce original ∧
    (lookupFunction calledOnce.cache original).1 = .hit ⟨original⟩ := by
  have built : History.FreshStep .start (History.start.after (.rebuild original)) :=
    ⟨.rebuild original, rfl, fun _ _ found => (nomatch found), rfl⟩
  have called : History.FreshStep (History.start.after (.rebuild original)) calledOnce :=
    ⟨.call original .compiles, rfl, trivial, rfl⟩
  exact ⟨cache_sound (.tail (.single built) called) rfl, by decide +kernel⟩

/-- With the replacement built by the validator, and no call in between, the
struct that is built last is given the code of the first one. -/
theorem rebuilt_hits_stale_code :
    ¬∀ h : History, Relation.ReflTransGen History.Step .start h →
      ∀ f, h.live f.addr = some f → LookupSound h f := by
  intro sound
  have built : History.Step .start (History.start.after (.rebuild original)) :=
    ⟨.rebuild original, rfl, rfl⟩
  have called : History.Step (History.start.after (.rebuild original)) calledOnce :=
    ⟨.call original .compiles, rfl, rfl⟩
  have replaced : History.Step calledOnce (calledOnce.after (.rebuild replacement)) :=
    ⟨.rebuild replacement, rfl, rfl⟩
  have again : History.Step (calledOnce.after (.rebuild replacement))
      ((calledOnce.after (.rebuild replacement)).after (.rebuild rebuilt)) :=
    ⟨.rebuild rebuilt, rfl, rfl⟩
  have reached := (((Relation.ReflTransGen.single built).tail called).tail replaced).tail again
  have hit := (sound _ reached rebuilt rfl).hit ⟨original⟩ (by decide +kernel)
  revert hit
  decide

/-! ### How often a function is compiled -/

section Calls

variable (verdict : PlFunction → Outcome)

/-- The cache after a sequence of calls. -/
def cacheAfter (calls : List PlFunction) : UplCache :=
  calls.foldl (fun cache f => (uplpgsqlCallHandler cache f (verdict f)).cache) none

/-- The call of `f` after the calls `before`. -/
def callAfter (before : List PlFunction) (f : PlFunction) : Call :=
  uplpgsqlCallHandler (cacheAfter verdict before) f (verdict f)

/-- The last call for an OID that reached the cache. -/
def lastCall (calls : List PlFunction) (oid : Nat) : Option PlFunction :=
  (calls.filter fun g => !g.isEventTrigger && g.fnOid == oid).getLast?

/-- What a struct leaves in the cache. -/
def leavesEntry (f : PlFunction) : Option CacheEntry :=
  match verdict f with
  | .skips => some ⟨.skip, f.fnXmin, f.fnTid, f.addr⟩
  | .compiles => some ⟨.code ⟨f⟩, f.fnXmin, f.fnTid, f.addr⟩
  | .fails => none

variable {verdict}

theorem lastCall_mem {calls : List PlFunction} {oid : Nat} {g : PlFunction}
    (last : lastCall calls oid = some g) : g ∈ calls :=
  (List.mem_filter.mp (List.mem_of_getLast? last)).1

theorem lastCall_snoc (calls : List PlFunction) (f : PlFunction) (oid : Nat) :
    lastCall (calls ++ [f]) oid =
      if f.isEventTrigger = false ∧ f.fnOid = oid then some f else lastCall calls oid := by
  unfold lastCall
  rw [List.filter_append]
  by_cases here : f.isEventTrigger = false ∧ f.fnOid = oid
  · simp [here.1, here.2]
  · have skipped : [f].filter (fun g => !g.isEventTrigger && g.fnOid == oid) = [] := by
      simpa using here
    rw [skipped, List.append_nil, if_neg here]

theorem leavesEntry_identity {f : PlFunction} {entry : CacheEntry}
    (eq : leavesEntry verdict f = some entry) : entry.identity f.fnOid = f.identity := by
  unfold leavesEntry at eq
  split at eq <;> cases eq <;> rfl

/-- A call for one of several live structs, from a cache that holds what the last
struct with its OID has left. -/
theorem call_entry {cache : UplCache} {f : PlFunction} {last : Option PlFunction}
    (event : f.isEventTrigger = false)
    (holds : cache.entry f.fnOid = last.bind (leavesEntry verdict))
    (same : ∀ g, last = some g → g.addr = f.addr → g = f) :
    (uplpgsqlCallHandler cache f (verdict f)).cache.entry f.fnOid = leavesEntry verdict f ∧
    (∀ oid, oid ≠ f.fnOid →
      (uplpgsqlCallHandler cache f (verdict f)).cache.entry oid = cache.entry oid) ∧
    ((uplpgsqlCallHandler cache f (verdict f)).status =
      some (if last = some f then
        match verdict f with
        | .skips => .skip
        | .compiles => .hit ⟨f⟩
        | .fails => .miss
      else .miss)) := by
  unfold uplpgsqlCallHandler
  simp only [event, Bool.false_eq_true, if_false]
  rcases lookup_cases cache f with ⟨entry, found, identity, kept, answer⟩ | ⟨other, answer, left⟩
  · -- A valid entry is the one `f` itself has left.
    rw [holds] at found
    obtain ⟨g, isLast, leaves⟩ := Option.bind_eq_some_iff.mp found
    have addr : entry.langFunc = g.addr := congrArg Identity.langFunc (leavesEntry_identity leaves)
    have addr' : entry.langFunc = f.addr := congrArg Identity.langFunc identity
    obtain rfl : g = f := same g isLast (addr.symm.trans addr')
    generalize lookupFunction cache g = looked at kept answer
    obtain ⟨status, cache'⟩ := looked
    dsimp only at kept answer
    subst kept answer
    rw [isLast, Option.bind_some] at holds
    unfold leavesEntry at leaves holds ⊢
    cases outcome : verdict g with
    | skips =>
      rw [outcome] at leaves holds
      cases leaves
      exact ⟨holds, fun _ _ => rfl, by simp [isLast]⟩
    | compiles =>
      rw [outcome] at leaves holds
      cases leaves
      exact ⟨holds, fun _ _ => rfl, by simp [isLast]⟩
    | fails =>
      rw [outcome] at leaves
      cases leaves
  -- No valid entry: whatever is stored under the OID belongs to another struct.
  · have missed : (if last = some f then
        match verdict f with
        | .skips => CacheStatus.skip
        | .compiles => .hit ⟨f⟩
        | .fails => .miss
      else .miss) = .miss := by
      split
      next isLast =>
        cases outcome : verdict f with
        | fails => rfl
        | skips | compiles =>
          exfalso
          rw [isLast, Option.bind_some, leavesEntry, outcome] at holds
          exact other _ holds rfl
      next => rfl
    generalize lookupFunction cache f = looked at answer left
    obtain ⟨status, cache'⟩ := looked
    dsimp only at answer left
    subst answer
    rw [missed]
    unfold leavesEntry
    cases verdict f with
    | skips | compiles =>
      simp only [uplCacheStoreSkip, entry_store, if_true, true_and, and_true]
      intro oid ne
      rw [if_neg ne, left, if_neg ne]
    | fails =>
      refine ⟨by rw [left, if_pos rfl], fun oid ne => by rw [left, if_neg ne], rfl⟩

/-- After any sequence of calls of live structs the cache holds what the last
struct called under each OID has left. -/
theorem entry_cacheAfter {calls : List PlFunction}
    (distinct : ∀ f ∈ calls, ∀ g ∈ calls, f.addr = g.addr → f = g) (oid : Nat) :
    (cacheAfter verdict calls).entry oid = (lastCall calls oid).bind (leavesEntry verdict) := by
  induction calls using List.reverseRecOn generalizing oid with
  | nil => rfl
  | append_singleton calls f ih =>
    have inner := ih fun f mem g mem' => distinct f (by simp [mem]) g (by simp [mem'])
    rw [lastCall_snoc]
    simp only [cacheAfter, List.foldl_append, List.foldl_cons, List.foldl_nil]
    change (uplpgsqlCallHandler (cacheAfter verdict calls) f (verdict f)).cache.entry oid = _
    by_cases event : f.isEventTrigger = true
    · simp [uplpgsqlCallHandler, event, inner]
    · have plain : f.isEventTrigger = false := by simpa using event
      obtain ⟨here, elsewhere, -⟩ := call_entry plain (inner f.fnOid) fun g last =>
        distinct g (by simp [lastCall_mem last]) f (by simp)
      by_cases same : f.fnOid = oid
      · subst same
        simpa [plain] using here
      · rw [elsewhere oid (Ne.symm same), inner, if_neg fun both => same both.2]

/-- A call of a struct that has been called before. -/
structure Served (verdict : PlFunction → Outcome) (before : List PlFunction) (f : PlFunction) :
    Prop where
  notAttempted : (callAfter verdict before f).attempted = false
  hit : f.isEventTrigger = false → verdict f = .compiles →
    (callAfter verdict before f).status = some (.hit ⟨f⟩)
  interpreted : verdict f ≠ .compiles → (callAfter verdict before f).jitfunc = none

/-- The call of a struct that is not the last one called under its OID. -/
theorem served_iff {before : List PlFunction} {f : PlFunction}
    (distinct : ∀ g ∈ before, g.addr = f.addr → g = f)
    (live : ∀ g ∈ before, ∀ g' ∈ before, g.addr = g'.addr → g = g') :
    Served verdict before f ↔
      f.isEventTrigger = true ∨ verdict f = .skips ∨
        (verdict f = .compiles ∧ lastCall before f.fnOid = some f) := by
  -- Event triggers are interpreted and never come to the cache.
  by_cases event : f.isEventTrigger = true
  · simp only [event, true_or, iff_true]
    constructor <;> simp [callAfter, uplpgsqlCallHandler, event]
  · have plain : f.isEventTrigger = false := by simpa using event
    have holds : (cacheAfter verdict before).entry f.fnOid = _ := entry_cacheAfter live f.fnOid
    obtain ⟨-, -, status⟩ := call_entry plain holds fun g last => distinct g (lastCall_mem last)
    change (callAfter verdict before f).status = _ at status
    -- A compilation is tried at a miss only, and there is code after a hit only.
    have shape : (callAfter verdict before f).attempted =
          decide ((callAfter verdict before f).status = some .miss ∧ verdict f ≠ .skips) ∧
        (verdict f ≠ .compiles → (∀ code, (callAfter verdict before f).status ≠ some (.hit code)) →
          (callAfter verdict before f).jitfunc = none) := by
      unfold callAfter uplpgsqlCallHandler
      simp only [plain, Bool.false_eq_true, if_false]
      generalize lookupFunction (cacheAfter verdict before) f = looked
      obtain ⟨answer, cache⟩ := looked
      cases answer <;> cases verdict f <;> simp
    simp only [plain, Bool.false_eq_true, false_or]
    cases outcome : verdict f with
    | skips =>
      simp only [reduceCtorEq, true_or, iff_true]
      refine ⟨by simp [shape.1, outcome], fun _ => by simp [outcome], fun _ => shape.2 (by simp [outcome]) ?_⟩
      intro code
      rw [status, outcome]
      split <;> simp
    | compiles =>
      simp only [reduceCtorEq, true_and, false_or]
      constructor
      · intro served
        have hit := served.hit plain outcome
        rw [status] at hit
        split at hit
        next last => exact last
        next => simp at hit
      · intro last
        rw [if_pos last, outcome] at status
        exact ⟨by simp [shape.1, status], fun _ _ => status, fun other => absurd outcome other⟩
    | fails =>
      simp only [reduceCtorEq, false_and, or_self, iff_false]
      intro served
      have attempted := served.notAttempted
      rw [shape.1, status, outcome] at attempted
      simp at attempted

/-- In a sequence of calls of live structs, every call of a struct after its
first is served without a compilation if and only if a struct that cannot be
compiled is not called again, and one that can be is called again only when the
last call under its OID was its own. -/
theorem compiled_once (verdict : PlFunction → Outcome) (calls : List PlFunction)
    (live : ∀ f ∈ calls, ∀ g ∈ calls, f.addr = g.addr → f = g) :
    (∀ before f rest, calls = before ++ f :: rest → f ∈ before → Served verdict before f) ↔
      ∀ before f rest, calls = before ++ f :: rest → f ∈ before →
        f.isEventTrigger = true ∨ verdict f = .skips ∨
          (verdict f = .compiles ∧ lastCall before f.fnOid = some f) := by
  have each (before : List PlFunction) (f : PlFunction) (rest : List PlFunction)
      (split : calls = before ++ f :: rest) : Served verdict before f ↔ _ :=
    served_iff (fun g member => live g (by simp [split, member]) f (by simp [split]))
      fun g member g' member' => live g (by simp [split, member]) g' (by simp [split, member'])
  constructor
  · exact fun served before f rest split again =>
      (each before f rest split).mp (served before f rest split again)
  · exact fun condition before f rest split again =>
      (each before f rest split).mpr (condition before f rest split again)

end Calls

/-- Two structs of one polymorphic function. -/
def polyInt : PlFunction := ⟨1, 10, ⟨0, 1⟩, 100, false, 0⟩
def polyText : PlFunction := ⟨1, 10, ⟨0, 1⟩, 200, false, 1⟩

theorem polyInt_compiled_once : Served (fun _ => .compiles) [polyInt] polyInt := by
  refine (compiled_once (fun _ => .compiles) [polyInt, polyInt] (by decide)).mpr ?_ [polyInt] polyInt []
    rfl (by decide)
  intro before f rest split again
  right
  right
  match before, split, again with
  | [], _, again => cases again
  | [a], split, again =>
    simp only [List.cons_append, List.nil_append, List.cons.injEq] at split
    obtain ⟨rfl, rfl, -⟩ := split
    exact ⟨rfl, by decide⟩
  | a :: b :: more, split, again => simp at split

/-- Called in turn, the two structs evict each other and are compiled each time. -/
theorem polyInt_compiled_twice :
    ¬∀ (verdict : PlFunction → Outcome) (calls : List PlFunction),
      (∀ f ∈ calls, ∀ g ∈ calls, f.addr = g.addr → f = g) →
      ∀ before f rest, calls = before ++ f :: rest → f ∈ before → Served verdict before f := by
  intro served
  have again := (served (fun _ => .compiles) [polyInt, polyText, polyInt] (by decide)
    [polyInt, polyText] polyInt [] rfl (by decide)).notAttempted
  revert again
  decide +kernel

end Uplpgsql
