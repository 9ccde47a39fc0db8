import Uplpgsql.Lib.Chains

/-!
# Names

A compound name is resolved twice: by the scanner, when the function is parsed, and by
the column reference hooks, when the expression is parsed by the SQL parser in the course
of execution. In between more names are declared and more fields are referred to.
-/

namespace Uplpgsql.Parser

open Lib

/-! ### Namespaces -/

inductive NsType where
  | label
  | var
  | record
  deriving DecidableEq, Repr

/-- `UPLpgSQL_nsitem` -/
structure NsItem where
  itemtype : NsType
  itemno : Nat
  name : String
  deriving DecidableEq, Repr

/-- A namespace chain, from the youngest item to the root. -/
abbrev Namespace := List NsItem

/-- The items of the topmost block level, its label, and the levels above. A chain that
ends without a label would be followed through a null pointer. -/
def level : Namespace → Option (List NsItem × NsItem × Namespace)
  | [] => none
  | item :: prev =>
    if item.itemtype = .label then some ([], item, prev)
    else (level prev).map fun l => (item :: l.1, l.2.1, l.2.2)

theorem level_length {ns : Namespace} {l : List NsItem × NsItem × Namespace} (eq : level ns = some l) :
    l.2.2.length < ns.length := by
  induction ns generalizing l with
  | nil => cases eq
  | cons item prev ih =>
    unfold level at eq
    split at eq
    · cases eq
      exact Nat.lt_succ_self _
    · cases rest : level prev with
      | none =>
        rw [rest] at eq
        cases eq
      | some l' =>
        rw [rest] at eq
        cases eq
        have shorter := ih rest
        exact Nat.lt_succ_of_lt shorter

theorem level_mem {ns : Namespace} {l : List NsItem × NsItem × Namespace} (eq : level ns = some l) :
    (∀ item ∈ l.1, item ∈ ns ∧ item.itemtype ≠ .label) ∧ ∀ item ∈ l.2.2, item ∈ ns := by
  induction ns generalizing l with
  | nil => cases eq
  | cons first prev ih =>
    unfold level at eq
    split at eq
    · cases eq
      exact ⟨fun item mem => (List.not_mem_nil mem).elim, fun item mem => List.mem_cons_of_mem _ mem⟩
    next notLabel =>
      obtain ⟨l', eq', rfl⟩ := Option.map_eq_some_iff.mp eq
      obtain ⟨items, above⟩ := ih eq'
      refine ⟨fun item mem => ?_, fun item mem => List.mem_cons_of_mem _ (above item mem)⟩
      rcases List.mem_cons.mp mem with rfl | mem
      · exact ⟨List.mem_cons_self, notLabel⟩
      · exact ⟨List.mem_cons_of_mem _ (items item mem).1, (items item mem).2⟩

/-- An item that is called `name`; a scalar variable does not count if more names follow. -/
def NsItem.isMatch (name : String) (next : Option String) (item : NsItem) : Bool :=
  item.name = name && (next.isNone || item.itemtype ≠ .var)

/-- One block level: an unqualified variable, or one that is qualified by the label.
The result comes with the number of names that were used. -/
def lookupLevel (items : List NsItem) (label : NsItem) (name1 : String) (name2 name3 : Option String) :
    Option (NsItem × Nat) :=
  match items.find? (NsItem.isMatch name1 name2) with
  | some item => some (item, 1)
  | none =>
    match name2 with
    | none => none
    | some name2 =>
      if label.name = name1 then (items.find? (NsItem.isMatch name2 name3)).map fun item => (item, 2)
      else none

/-- `uplpgsql_ns_lookup` -/
def nsLookup (ns : Namespace) (localmode : Bool) (name1 : String) (name2 name3 : Option String) :
    Option (NsItem × Nat) :=
  match _here : level ns with
  | none => none
  | some l =>
    match lookupLevel l.1 l.2.1 name1 name2 name3 with
    | some found => some found
    | none => if localmode then none else nsLookup l.2.2 localmode name1 name2 name3
termination_by ns.length
decreasing_by exact level_length _here

theorem nsLookup_of_level {ns : Namespace} {l : List NsItem × NsItem × Namespace} {name1 : String}
    {name2 name3 : Option String} {found : NsItem × Nat} (here : level ns = some l)
    (eq : lookupLevel l.1 l.2.1 name1 name2 name3 = some found) (localmode : Bool) :
    nsLookup ns localmode name1 name2 name3 = some found := by
  unfold nsLookup
  split
  next none => rw [here] at none; cases none
  next l' same =>
    obtain rfl : l = l' := Option.some.inj (here.symm.trans same)
    rw [eq]

/-- What a lookup can find. -/
structure Found (items : List NsItem) (name2 name3 : Option String) (found : NsItem × Nat) : Prop where
  mem : found.1 ∈ items
  used : found.2 = 1 ∨ found.2 = 2
  one : found.2 = 1 → name2 ≠ none → found.1.itemtype ≠ .var
  two : found.2 = 2 → name3 ≠ none → found.1.itemtype ≠ .var

theorem not_var_of_isMatch {name : String} {next : Option String} {item : NsItem}
    (matched : NsItem.isMatch name next item = true) (more : next ≠ none) : item.itemtype ≠ .var := by
  cases next with
  | none => exact absurd rfl more
  | some next => simpa [NsItem.isMatch] using (Bool.and_eq_true_iff.mp matched).2

theorem lookupLevel_found {items : List NsItem} {label : NsItem} {name1 : String} {name2 name3 : Option String}
    {found : NsItem × Nat} (eq : lookupLevel items label name1 name2 name3 = some found) :
    Found items name2 name3 found := by
  unfold lookupLevel at eq
  split at eq
  next item first =>
    cases eq
    exact ⟨List.mem_of_find?_eq_some first, .inl rfl,
      fun _ more => not_var_of_isMatch (List.find?_some first) more, by simp⟩
  next =>
    split at eq
    · cases eq
    · split at eq
      · obtain ⟨item, second, rfl⟩ := Option.map_eq_some_iff.mp eq
        exact ⟨List.mem_of_find?_eq_some second, .inr rfl, by simp,
          fun _ more => not_var_of_isMatch (List.find?_some second) more⟩
      · cases eq

theorem nsLookup_found {ns : Namespace} {localmode : Bool} {name1 : String} {name2 name3 : Option String}
    {found : NsItem × Nat} (eq : nsLookup ns localmode name1 name2 name3 = some found) :
    Found ns name2 name3 found ∧ found.1.itemtype ≠ .label := by
  fun_induction nsLookup ns localmode name1 name2 name3 with
  | case1 => cases eq
  | case2 ns l here found' first =>
    cases eq
    have at_ := lookupLevel_found first
    obtain ⟨mem, notLabel⟩ := (level_mem here).1 _ at_.mem
    exact ⟨⟨mem, at_.used, at_.one, at_.two⟩, notLabel⟩
  | case3 => cases eq
  | case4 ns l here _ _ ih =>
    obtain ⟨at_, notLabel⟩ := ih eq
    exact ⟨⟨(level_mem here).2 _ at_.mem, at_.used, at_.one, at_.two⟩, notLabel⟩

/-! ### Datums -/

/-- `UPLpgSQL_datum`, as far as names are concerned. -/
inductive Datum where
  | var (refname : String)
  | record (refname : String) (firstfield : Option Nat)
  | recfield (fieldname : String) (recparentno : Nat) (nextfield : Option Nat)
  | row
  deriving DecidableEq, Repr

structure Compile where
  datums : List Datum
  nsTop : Namespace
  deriving DecidableEq, Repr

/-- Where the chain of fields goes on after datum `i`. -/
def link (datums : List Datum) (i : Nat) : Option (Option Nat) :=
  match datums[i]? with
  | some (.recfield _ _ nextfield) => some nextfield
  | _ => none

def fieldName (datums : List Datum) (i : Nat) : Option String :=
  match datums[i]? with
  | some (.recfield fieldname _ _) => some fieldname
  | _ => none

/-- The loop over the fields of a record, in `uplpgsql_build_recfield` and in
`resolve_column_ref`. No chain is longer than the table of datums. -/
def findField (datums : List Datum) (firstfield : Option Nat) (name : String) : Option Nat :=
  walk (link datums) (fun i => fieldName datums i = some name) datums.length firstfield

/-- `uplpgsql_build_recfield`; `none` if the datum is not a record. -/
def buildRecfield (recno : Nat) (name : String) (s : Compile) : Option (Nat × Compile) :=
  match s.datums[recno]? with
  | some (.record refname firstfield) =>
    match findField s.datums firstfield name with
    | some dno => some (dno, s)
    | none =>
      let datums := s.datums ++ [.recfield name recno firstfield]
      -- the new field becomes the first one of the record
      some (s.datums.length, { s with datums := datums.set recno (.record refname (some s.datums.length)) })
  | _ => none

/-! ### Words -/

/-- `IdentifierLookup` -/
inductive LookupMode where
  | normal
  | declare
  | expr
  deriving DecidableEq, Repr

/-- What the scanner makes of a compound word: a datum, with the names that belong to
it, or nothing known. -/
inductive Word where
  | wdatum (dno : Nat) (idents : List String)
  | cword (idents : List String)
  deriving DecidableEq, Repr

/-- `uplpgsql_parse_dblword` -/
def parseDblword (mode : LookupMode) (word1 word2 : String) (s : Compile) : Option (Word × Compile) :=
  if mode = .declare then some (.cword [word1, word2], s)
  else
    match nsLookup s.nsTop false word1 (some word2) none with
    | none => some (.cword [word1, word2], s)
    | some (item, nnames) =>
      match item.itemtype with
      | .var => some (.wdatum item.itemno [word1, word2], s)
      | .record =>
        if nnames = 1 then
          (buildRecfield item.itemno word2 s).map fun o => (.wdatum o.1 [word1, word2], o.2)
        else some (.wdatum item.itemno [word1, word2], s)
      | .label => some (.cword [word1, word2], s)

/-- `uplpgsql_parse_tripword` -/
def parseTripword (mode : LookupMode) (word1 word2 word3 : String) (s : Compile) : Option (Word × Compile) :=
  if mode = .declare then some (.cword [word1, word2, word3], s)
  else
    match nsLookup s.nsTop false word1 (some word2) (some word3) with
    | none => some (.cword [word1, word2, word3], s)
    | some (item, nnames) =>
      match item.itemtype with
      | .record =>
        if nnames = 1 then
          (buildRecfield item.itemno word2 s).map fun o => (.wdatum o.1 [word1, word2], o.2)
        else
          (buildRecfield item.itemno word3 s).map fun o => (.wdatum o.1 [word1, word2, word3], o.2)
      | _ => some (.cword [word1, word2, word3], s)

/-- A compound name of two or three words. -/
inductive Compound where
  | dblword (word1 word2 : String)
  | tripword (word1 word2 word3 : String)
  deriving DecidableEq, Repr

def Compound.names : Compound → List String
  | .dblword word1 word2 => [word1, word2]
  | .tripword word1 word2 word3 => [word1, word2, word3]

def Compound.parse (mode : LookupMode) : Compound → Compile → Option (Word × Compile)
  | .dblword word1 word2 => parseDblword mode word1 word2
  | .tripword word1 word2 word3 => parseTripword mode word1 word2 word3

/-! ### Column references -/

inductive Field where
  | name (s : String)
  | star
  deriving DecidableEq, Repr

inductive Resolved where
  | param (dno : Nat)
  | unknown
  /-- field name "..." is a reserved key word -/
  | reservedKeyWord (colname : String)
  deriving DecidableEq, Repr

/-- How many names each kind of reference would use. -/
structure Expected where
  name1 : String
  name2 : Option String
  name3 : Option String
  colname : Option String
  scalar : Nat
  wholerow : Nat
  field : Nat

/-- The first switch of `resolve_column_ref`. A column reference begins with a name. -/
def expected : List Field → Option Expected
  | [.name a] => some ⟨a, none, none, none, 1, 1, 0⟩
  | [.name a, .star] => some ⟨a, some "*", none, none, 0, 1, 0⟩
  | [.name a, .name b] => some ⟨a, some b, none, some b, 2, 2, 1⟩
  | [.name a, .name b, .star] => some ⟨a, some b, some "*", none, 0, 2, 0⟩
  | [.name a, .name b, .name c] => some ⟨a, some b, some c, some c, 0, 0, 2⟩
  | _ => none

/-- `resolve_column_ref`, with the namespace of the expression and the datums of the
execution. -/
def resolveColumnRef (ns : Namespace) (datums : List Datum) (fields : List Field) (errorIfNoField : Bool) :
    Resolved :=
  match expected fields with
  | none => .unknown
  | some e =>
    match nsLookup ns false e.name1 e.name2 e.name3 with
    | none => .unknown
    | some (item, nnames) =>
      match item.itemtype with
      | .label => .unknown
      | .var => if nnames = e.scalar then .param item.itemno else .unknown
      | .record =>
        if nnames = e.wholerow then .param item.itemno
        else if nnames = e.field then
          match datums[item.itemno]? with
          | some (.record _ firstfield) =>
            match findField datums firstfield (e.colname.getD "") with
            | some dno => .param dno
            | none => if errorIfNoField then .reservedKeyWord (e.colname.getD "") else .unknown
          | _ => .unknown
        else .unknown

/-! ### Parsing -/

/-- What the parser does to the names and the datums. -/
inductive Op where
  | nsPush (label : Option String)
  | nsPop
  | buildVariable (refname : String) (add2namespace : Bool)
  | buildRecord (refname : String) (add2namespace : Bool)
  | buildRow
  /-- `ALIAS FOR`, and the names of parameters -/
  | additem (itemtype : NsType) (itemno : Nat) (name : String)
  | compound (mode : LookupMode) (words : Compound)
  deriving DecidableEq, Repr

def adddatum (d : Datum) (item : Option NsItem) (s : Compile) : Compile where
  datums := s.datums ++ [d]
  nsTop := item.toList ++ s.nsTop

/-- Is there such a datum, for an item of this type? -/
def Datum.fits (itemtype : NsType) : Option Datum → Bool
  | some (.var _) => itemtype = .var
  | some (.record _ _) => itemtype = .record
  | _ => false

/-- An item is added for a datum that exists, as its type says. -/
def Op.step (s : Compile) : Op → Option Compile
  | .nsPush label => some { s with nsTop := ⟨.label, 0, label.getD ""⟩ :: s.nsTop }
  | .nsPop => (level s.nsTop).map fun l => { s with nsTop := l.2.2 }
  | .buildVariable refname add => some
    (adddatum (.var refname) (if add then some ⟨.var, s.datums.length, refname⟩ else none) s)
  | .buildRecord refname add => some
    (adddatum (.record refname none) (if add then some ⟨.record, s.datums.length, refname⟩ else none) s)
  | .buildRow => some (adddatum .row none s)
  | .additem itemtype itemno name =>
    if Datum.fits itemtype s.datums[itemno]? then
      some { s with nsTop := ⟨itemtype, itemno, name⟩ :: s.nsTop }
    else none
  | .compound mode words => (words.parse mode s).map Prod.snd

def Op.run : List Op → Compile → Option Compile
  | [], s => some s
  | op :: ops, s => (op.step s).bind (Op.run ops)

/-- `uplpgsql_ns_init` and `uplpgsql_start_datums` -/
def Compile.start : Compile := ⟨[], []⟩

end Uplpgsql.Parser
