import Uplpgsql.Parser.Names

/-!
# Fields of records

## Main result

`compound_resolves`: a column reference finds the datum that the scanner found for the
same words, whatever was declared or referred to in between.

## Proof strategy

The fields of a record that have been referred to are linked into a chain. Every operation
of the parser keeps these chains: each has all the fields of its record, and no name twice.
The namespace of an expression is never changed, and a datum stays what it is.
-/

namespace Uplpgsql.Parser

open Lib

/-! ### The chains of fields -/

def IsRecord (datums : List Datum) (recno : Nat) : Prop :=
  ∃ refname first, datums[recno]? = some (Datum.record refname first)

def IsField (datums : List Datum) (i recno : Nat) (name : String) : Prop :=
  ∃ next, datums[i]? = some (Datum.recfield name recno next)

/-- The chain of a record has all its fields, and no name twice. -/
structure Fields (datums : List Datum) (recno : Nat) (first : Option Nat) (nodes : List Nat) : Prop where
  chain : Chain (link datums) first nodes
  distinct : nodes.Pairwise fun i j => fieldName datums i ≠ fieldName datums j
  own : ∀ i ∈ nodes, ∃ name, IsField datums i recno name
  all : ∀ i name, IsField datums i recno name → i ∈ nodes

/-- What the parser keeps. -/
structure Sound (s : Compile) : Prop where
  fields : ∀ recno refname first, s.datums[recno]? = some (Datum.record refname first) →
    ∃ nodes, Fields s.datums recno first nodes
  parents : ∀ i recno name, IsField s.datums i recno name → IsRecord s.datums recno
  items : ∀ item ∈ s.nsTop, item.itemtype = .record → IsRecord s.datums item.itemno

/-- Records stay records, and fields what they are. -/
structure Grows (datums datums' : List Datum) : Prop where
  records : ∀ i, IsRecord datums i → IsRecord datums' i
  fields : ∀ i recno name, IsField datums i recno name → IsField datums' i recno name

section Chains

variable {datums : List Datum} {recno : Nat} {first : Option Nat} {nodes : List Nat}

theorem IsField.name_eq {i : Nat} {name : String} (field : IsField datums i recno name) :
    fieldName datums i = some name := by
  obtain ⟨next, here⟩ := field
  rw [fieldName, here]

theorem IsField.lt {i : Nat} {name : String} (field : IsField datums i recno name) : i < datums.length := by
  obtain ⟨next, here⟩ := field
  exact (List.getElem?_eq_some_iff.mp here).1

/-- The loop comes by every field. -/
theorem Fields.find_eq (fields : Fields datums recno first nodes) (name : String) :
    findField datums first name = nodes.find? fun i => fieldName datums i = some name := by
  have distinct : nodes.Nodup := fields.distinct.imp fun ne same => ne (congrArg _ same)
  have below : ∀ i ∈ nodes, i < datums.length := fun i mem => (fields.own i mem).elim fun _ field => field.lt
  exact fields.chain.walk_eq (length_le_of_nodup distinct below)

theorem Fields.find_of_field (fields : Fields datums recno first nodes) {dno : Nat} {name : String}
    (field : IsField datums dno recno name) : findField datums first name = some dno := by
  rw [fields.find_eq, ← field.name_eq]
  exact find?_of_mem fields.distinct (fields.all dno name field)

/-- The nodes are looked at as they are in the table, and nothing else is. -/
theorem Fields.congr {datums' : List Datum} (fields : Fields datums recno first nodes)
    (same : ∀ i ∈ nodes, datums'[i]? = datums[i]?)
    (none_new : ∀ i name, IsField datums' i recno name → IsField datums i recno name) :
    Fields datums' recno first nodes where
  chain := fields.chain.congr fun i mem => by rw [link, same i mem, link]
  distinct := fields.distinct.imp_of_mem fun memi memj ne => by
    rwa [fieldName, same _ memi, fieldName, same _ memj]
  own i mem := by
    obtain ⟨name, next, here⟩ := fields.own i mem
    exact ⟨name, next, (same i mem).trans here⟩
  all i name field := fields.all i name (none_new i name field)

theorem Grows.refl (datums : List Datum) : Grows datums datums :=
  ⟨fun _ here => here, fun _ _ _ here => here⟩

theorem Grows.trans {d₁ d₂ d₃ : List Datum} (one : Grows d₁ d₂) (two : Grows d₂ d₃) : Grows d₁ d₃ where
  records i here := two.records i (one.records i here)
  fields i recno name here := two.fields i recno name (one.fields i recno name here)

end Chains

/-! ### A new datum -/

section Append

variable {datums : List Datum} {d : Datum}

theorem getElem?_append_one {i : Nat} {d' : Datum} (here : datums[i]? = some d') :
    (datums ++ [d])[i]? = some d' := by
  rw [List.getElem?_append_left (List.getElem?_eq_some_iff.mp here).1, here]

theorem of_getElem?_append_one {i : Nat} {d' : Datum} (here : (datums ++ [d])[i]? = some d') :
    datums[i]? = some d' ∨ i = datums.length ∧ d' = d := by
  rcases lt_trichotomy i datums.length with lt | rfl | gt
  · exact .inl (by rwa [List.getElem?_append_left lt] at here)
  · rw [List.getElem?_append_right le_rfl, Nat.sub_self] at here
    exact .inr ⟨rfl, (Option.some.inj here).symm⟩
  · rw [List.getElem?_eq_none (by rw [List.length_append, List.length_singleton]; omega)] at here
    cases here

theorem Grows.append (datums : List Datum) (d : Datum) : Grows datums (datums ++ [d]) where
  records _ := fun ⟨refname, first, here⟩ => ⟨refname, first, getElem?_append_one here⟩
  fields _ _ _ := fun ⟨next, here⟩ => ⟨next, getElem?_append_one here⟩

/-- A new record has no fields yet. -/
def Datum.isFresh : Datum → Bool
  | .recfield _ _ _ => false
  | .record _ first => first.isNone
  | _ => true

theorem IsField.of_append {i recno : Nat} {name : String} (fresh : d.isFresh = true)
    (field : IsField (datums ++ [d]) i recno name) : IsField datums i recno name := by
  obtain ⟨next, here⟩ := field
  rcases of_getElem?_append_one here with old | ⟨-, rfl⟩
  · exact ⟨next, old⟩
  · cases fresh

theorem Sound.adddatum {s : Compile} (sound : Sound s) {item : Option NsItem} (fresh : d.isFresh = true)
    (fits : ∀ i ∈ item, i.itemtype = .record → i.itemno = s.datums.length ∧ ∃ refname first, d = .record refname first) :
    Sound (adddatum d item s) where
  fields recno refname first here := by
    rcases of_getElem?_append_one here with old | ⟨rfl, rfl⟩
    · obtain ⟨nodes, fields⟩ := sound.fields recno refname first old
      refine ⟨nodes, fields.congr (fun i mem => ?_) fun i name field => field.of_append fresh⟩
      obtain ⟨name, field⟩ := fields.own i mem
      exact List.getElem?_append_left field.lt
    · obtain rfl : first = none := Option.isNone_iff_eq_none.mp fresh
      refine ⟨[], .nil, .nil, fun i mem => (List.not_mem_nil mem).elim, fun i name field => ?_⟩
      -- the fields of a record come after the record
      obtain ⟨refname', first', parent⟩ := sound.parents i _ name (field.of_append fresh)
      exact absurd (List.getElem?_eq_some_iff.mp parent).1 (Nat.lt_irrefl _)
  parents i recno name field :=
    (Grows.append _ _).records _ (sound.parents i recno name (field.of_append fresh))
  items i mem isRecord := by
    rcases List.mem_append.mp mem with new | old
    · obtain ⟨at_, refname, first, rfl⟩ := fits i (Option.mem_toList.mp new) isRecord
      refine ⟨refname, first, ?_⟩
      rw [at_]
      exact List.getElem?_concat_length
    · exact (Grows.append _ _).records _ (sound.items i old isRecord)

end Append

/-! ### A new field -/

section NewField

/-- The table after a new field was linked into the chain of its record. -/
def newField (datums : List Datum) (recno : Nat) (refname name : String) (first : Option Nat) : List Datum :=
  (datums ++ [Datum.recfield name recno first]).set recno (.record refname (some datums.length))

variable {datums : List Datum} {recno : Nat} {refname name : String} {first : Option Nat}

theorem getElem?_newField_record (lt : recno < datums.length) :
    (newField datums recno refname name first)[recno]? = some (.record refname (some datums.length)) := by
  rw [newField, List.getElem?_set_self (by rw [List.length_append]; omega)]

theorem getElem?_newField_field (lt : recno < datums.length) :
    (newField datums recno refname name first)[datums.length]? = some (.recfield name recno first) := by
  rw [newField, List.getElem?_set_ne (Nat.ne_of_lt lt)]
  exact List.getElem?_concat_length

theorem getElem?_newField_old {i : Nat} (lt : i < datums.length) (ne : i ≠ recno) :
    (newField datums recno refname name first)[i]? = datums[i]? := by
  rw [newField, List.getElem?_set_ne ne.symm, List.getElem?_append_left lt]

theorem of_getElem?_newField (lt : recno < datums.length) {i : Nat} {d : Datum}
    (here : (newField datums recno refname name first)[i]? = some d) :
    i = recno ∧ d = .record refname (some datums.length) ∨
      i = datums.length ∧ d = .recfield name recno first ∨ i ≠ recno ∧ datums[i]? = some d := by
  by_cases isRec : i = recno
  · subst isRec
    rw [getElem?_newField_record lt] at here
    exact .inl ⟨rfl, (Option.some.inj here).symm⟩
  · rw [newField, List.getElem?_set_ne (Ne.symm isRec)] at here
    rcases of_getElem?_append_one here with old | new
    · exact .inr (.inr ⟨isRec, old⟩)
    · exact .inr (.inl new)

theorem Grows.newField (here : datums[recno]? = some (.record refname first)) :
    Grows datums (newField datums recno refname name first) where
  records i := fun ⟨refname', first', there⟩ => by
    by_cases same : i = recno
    · subst same
      exact ⟨_, _, getElem?_newField_record (List.getElem?_eq_some_iff.mp here).1⟩
    · exact ⟨refname', first', (getElem?_newField_old (List.getElem?_eq_some_iff.mp there).1 same).trans there⟩
  fields i recno' name' := fun ⟨next, there⟩ => by
    have ne : i ≠ recno := by
      rintro rfl
      rw [here] at there
      cases there
    exact ⟨next, (getElem?_newField_old (List.getElem?_eq_some_iff.mp there).1 ne).trans there⟩

theorem IsField.of_newField (lt : recno < datums.length) {i recno' : Nat} {name' : String}
    (field : IsField (newField datums recno refname name first) i recno' name') :
    i = datums.length ∧ recno' = recno ∧ name' = name ∨ IsField datums i recno' name' := by
  obtain ⟨next, here⟩ := field
  obtain ⟨-, isRecord⟩ | ⟨rfl, isField⟩ | ⟨-, old⟩ := of_getElem?_newField lt here
  · cases isRecord
  · cases isField
    exact .inl ⟨rfl, rfl, rfl⟩
  · exact .inr ⟨next, old⟩

/-- The fields of the record, with the new one in front. -/
theorem Fields.newField {nodes : List Nat} (fields : Fields datums recno first nodes)
    (here : datums[recno]? = some (.record refname first)) (fresh : findField datums first name = none) :
    Fields (newField datums recno refname name first) recno (some datums.length) (datums.length :: nodes) := by
  have lt : recno < datums.length := (List.getElem?_eq_some_iff.mp here).1
  have same : ∀ i ∈ nodes, (Parser.newField datums recno refname name first)[i]? = datums[i]? := by
    intro i mem
    obtain ⟨name', field⟩ := fields.own i mem
    refine getElem?_newField_old field.lt ?_
    rintro rfl
    obtain ⟨next, there⟩ := field
    rw [here] at there
    cases there
  have newName : (Parser.newField datums recno refname name first)[datums.length]? =
      some (.recfield name recno first) := getElem?_newField_field lt
  constructor
  case chain =>
    refine .cons ?_ (fields.chain.congr fun i mem => ?_)
    · rw [link, newName]
    · rw [link, same i mem, link]
  case distinct =>
    refine List.pairwise_cons.mpr ⟨fun i mem => ?_, fields.distinct.imp_of_mem fun memi memj ne => ?_⟩
    · -- a field with this name would have been found
      rw [fields.find_eq, List.find?_eq_none] at fresh
      have other := fresh i mem
      rw [fieldName, newName, fieldName, same i mem]
      exact fun eq => other (decide_eq_true eq.symm)
    · rwa [fieldName, same _ memi, fieldName, same _ memj]
  case own =>
    intro i mem
    rcases List.mem_cons.mp mem with rfl | old
    · exact ⟨name, first, newName⟩
    · obtain ⟨name', next, there⟩ := fields.own i old
      exact ⟨name', next, (same i old).trans there⟩
  case all =>
    intro i name' field
    rcases field.of_newField lt with ⟨rfl, -, -⟩ | old
    · exact List.mem_cons_self
    · exact List.mem_cons_of_mem _ (fields.all i name' old)

theorem Sound.newField {s : Compile} (sound : Sound s)
    (here : s.datums[recno]? = some (.record refname first)) (fresh : findField s.datums first name = none) :
    Sound { s with datums := newField s.datums recno refname name first } := by
  have lt : recno < s.datums.length := (List.getElem?_eq_some_iff.mp here).1
  have grows : Grows s.datums (Parser.newField s.datums recno refname name first) := .newField here
  constructor
  case fields =>
    intro recno' refname' first' there
    obtain ⟨rfl, isRecord⟩ | ⟨rfl, isField⟩ | ⟨ne, old⟩ := of_getElem?_newField lt there
    · cases isRecord
      obtain ⟨nodes, fields⟩ := sound.fields recno' _ _ here
      exact ⟨_, fields.newField here fresh⟩
    · cases isField
    · obtain ⟨nodes, fields⟩ := sound.fields recno' refname' first' old
      refine ⟨nodes, fields.congr (fun i mem => ?_) fun i name' field => ?_⟩
      · obtain ⟨name', field⟩ := fields.own i mem
        refine getElem?_newField_old field.lt ?_
        rintro rfl
        obtain ⟨next, there⟩ := field
        rw [here] at there
        cases there
      · exact (field.of_newField lt).resolve_left fun new => ne new.2.1
  case parents =>
    intro i recno' name' field
    rcases field.of_newField lt with ⟨-, rfl, -⟩ | old
    · exact grows.records _ ⟨refname, first, here⟩
    · exact grows.records _ (sound.parents i recno' name' old)
  case items =>
    exact fun item mem isRecord => grows.records _ (sound.items item mem isRecord)

end NewField

/-! ### The parser keeps the chains -/

/-- `s'` is what the parser may make of `s`. -/
structure Keeps (s s' : Compile) : Prop where
  sound : Sound s'
  grows : Grows s.datums s'.datums

theorem Keeps.refl {s : Compile} (sound : Sound s) : Keeps s s := ⟨sound, .refl _⟩

theorem Keeps.trans {s₁ s₂ s₃ : Compile} (one : Keeps s₁ s₂) (two : Keeps s₂ s₃) : Keeps s₁ s₃ :=
  ⟨two.sound, one.grows.trans two.grows⟩

/-- A field that was referred to is found from then on. -/
theorem Keeps.find {s s' : Compile} (keeps : Keeps s s') {dno recno : Nat} {name : String}
    (field : IsField s.datums dno recno name) :
    ∃ refname first, s'.datums[recno]? = some (.record refname first) ∧ findField s'.datums first name = some dno := by
  have field' := keeps.grows.fields dno recno name field
  obtain ⟨refname, first, here⟩ := keeps.sound.parents dno recno name field'
  obtain ⟨nodes, fields⟩ := keeps.sound.fields recno refname first here
  exact ⟨refname, first, here, fields.find_of_field field'⟩

theorem Datum.fits_record {datums : List Datum} {itemtype : NsType} {itemno : Nat}
    (fits : Datum.fits itemtype datums[itemno]? = true) (isRecord : itemtype = .record) : IsRecord datums itemno := by
  subst isRecord
  unfold Datum.fits at fits
  split at fits
  · cases fits
  next refname first here => exact ⟨refname, first, here⟩
  · cases fits

theorem buildRecfield_spec {s : Compile} (sound : Sound s) {recno : Nat} (isRecord : IsRecord s.datums recno)
    (name : String) :
    ∃ dno s', buildRecfield recno name s = some (dno, s') ∧ Keeps s s' ∧ s'.nsTop = s.nsTop ∧
      IsField s'.datums dno recno name := by
  obtain ⟨refname, first, here⟩ := isRecord
  unfold buildRecfield
  rw [here]
  dsimp only
  cases found : findField s.datums first name with
  | some dno =>
    refine ⟨dno, s, rfl, ⟨sound, .refl _⟩, rfl, ?_⟩
    obtain ⟨nodes, fields⟩ := sound.fields recno refname first here
    rw [fields.find_eq] at found
    obtain ⟨name', field⟩ := fields.own dno (List.mem_of_find?_eq_some found)
    have called : decide (fieldName s.datums dno = some name) = true := by simpa using List.find?_some found
    rw [decide_eq_true_iff, field.name_eq] at called
    cases called
    exact field
  | none =>
    have lt := (List.getElem?_eq_some_iff.mp here).1
    exact ⟨_, _, rfl, ⟨sound.newField here found, .newField here⟩, rfl, _, getElem?_newField_field lt⟩

/-- What a word stands for in a column reference with the same names. If more names
follow the datum's own, it is none. -/
def Word.meaning (names : List String) : Word → Resolved
  | .wdatum dno idents => if idents = names then .param dno else .unknown
  | .cword _ => .unknown

/-- `word` is what the scanner makes of the words in `s`, and it stays so. -/
structure Scanned (mode : LookupMode) (words : Compound) (s : Compile) (word : Word) (s' : Compile) : Prop where
  keeps : Keeps s s'
  resolves : mode ≠ .declare → ∀ s₂, Keeps s' s₂ → ∀ errorIfNoField,
    resolveColumnRef s.nsTop s₂.datums (words.names.map .name) errorIfNoField = word.meaning words.names

theorem parseDblword_spec {s : Compile} (sound : Sound s) (mode : LookupMode) (word1 word2 : String) :
    ∃ word s', parseDblword mode word1 word2 s = some (word, s') ∧
      Scanned mode (.dblword word1 word2) s word s' := by
  unfold parseDblword
  by_cases declare : mode = .declare
  · rw [if_pos declare]
    exact ⟨_, _, rfl, .refl sound, fun normal => absurd declare normal⟩
  rw [if_neg declare]
  cases looked : nsLookup s.nsTop false word1 (some word2) none with
  | none =>
    refine ⟨_, _, rfl, .refl sound, fun _ s₂ _ e => ?_⟩
    simp only [resolveColumnRef, Compound.names, List.map_cons, List.map_nil, expected, looked, Word.meaning]
  | some found =>
    obtain ⟨item, nnames⟩ := found
    obtain ⟨at_, notLabel⟩ := nsLookup_found looked
    dsimp only
    cases type : item.itemtype with
    | label => exact absurd type notLabel
    | var =>
      refine ⟨_, _, rfl, .refl sound, fun _ s₂ _ e => ?_⟩
      have two : nnames = 2 := at_.used.resolve_left fun one => at_.one one (by simp) type
      simp [resolveColumnRef, Compound.names, expected, looked, type, two, Word.meaning]
    | record =>
      have isRecord := sound.items item at_.mem type
      dsimp only
      split
      next one =>
        obtain ⟨dno, s', built, keeps, -, field⟩ := buildRecfield_spec sound isRecord word2
        rw [built]
        refine ⟨_, _, rfl, keeps, fun _ s₂ later e => ?_⟩
        obtain ⟨refname, first, here, find⟩ := later.find field
        simp [resolveColumnRef, Compound.names, expected, looked, type, one, here, find, Word.meaning]
      next notOne =>
        refine ⟨_, _, rfl, .refl sound, fun _ s₂ _ e => ?_⟩
        have two : nnames = 2 := at_.used.resolve_left notOne
        simp [resolveColumnRef, Compound.names, expected, looked, type, two, Word.meaning]

theorem parseTripword_spec {s : Compile} (sound : Sound s) (mode : LookupMode) (word1 word2 word3 : String) :
    ∃ word s', parseTripword mode word1 word2 word3 s = some (word, s') ∧
      Scanned mode (.tripword word1 word2 word3) s word s' := by
  unfold parseTripword
  by_cases declare : mode = .declare
  · rw [if_pos declare]
    exact ⟨_, _, rfl, .refl sound, fun normal => absurd declare normal⟩
  rw [if_neg declare]
  cases looked : nsLookup s.nsTop false word1 (some word2) (some word3) with
  | none =>
    refine ⟨_, _, rfl, .refl sound, fun _ s₂ _ e => ?_⟩
    simp only [resolveColumnRef, Compound.names, List.map_cons, List.map_nil, expected, looked, Word.meaning]
  | some found =>
    obtain ⟨item, nnames⟩ := found
    obtain ⟨at_, notLabel⟩ := nsLookup_found looked
    dsimp only
    cases type : item.itemtype with
    | label => exact absurd type notLabel
    | var =>
      -- two names are left after a variable
      rcases at_.used with one | two
      · exact absurd type (at_.one one (by simp))
      · exact absurd type (at_.two two (by simp))
    | record =>
      have isRecord := sound.items item at_.mem type
      dsimp only
      split
      next one =>
        obtain ⟨dno, s', built, keeps, -, field⟩ := buildRecfield_spec sound isRecord word2
        rw [built]
        refine ⟨_, _, rfl, keeps, fun _ s₂ later e => ?_⟩
        simp [resolveColumnRef, Compound.names, expected, looked, type, one, Word.meaning]
      next notOne =>
        have two : nnames = 2 := at_.used.resolve_left notOne
        obtain ⟨dno, s', built, keeps, -, field⟩ := buildRecfield_spec sound isRecord word3
        rw [built]
        refine ⟨_, _, rfl, keeps, fun _ s₂ later e => ?_⟩
        obtain ⟨refname, first, here, find⟩ := later.find field
        simp [resolveColumnRef, Compound.names, expected, looked, type, two, here, find, Word.meaning]

theorem parse_spec {s : Compile} (sound : Sound s) (mode : LookupMode) (words : Compound) :
    ∃ word s', words.parse mode s = some (word, s') ∧ Scanned mode words s word s' :=
  match words with
  | .dblword word1 word2 => parseDblword_spec sound mode word1 word2
  | .tripword word1 word2 word3 => parseTripword_spec sound mode word1 word2 word3

theorem Op.step_keeps {s s' : Compile} {op : Op} (sound : Sound s) (eq : op.step s = some s') : Keeps s s' := by
  cases op with
  | nsPush label =>
    cases eq
    refine ⟨⟨sound.fields, sound.parents, fun item mem isRecord => ?_⟩, .refl _⟩
    rcases List.mem_cons.mp mem with rfl | old
    · cases isRecord
    · exact sound.items item old isRecord
  | nsPop =>
    obtain ⟨l, here, rfl⟩ := Option.map_eq_some_iff.mp eq
    exact ⟨⟨sound.fields, sound.parents, fun item mem => sound.items item ((level_mem here).2 item mem)⟩, .refl _⟩
  | buildVariable refname add =>
    cases eq
    refine ⟨sound.adddatum rfl fun i mem isRecord => ?_, .append _ _⟩
    cases add <;> cases mem
    cases isRecord
  | buildRecord refname add =>
    cases eq
    refine ⟨sound.adddatum rfl fun i mem isRecord => ?_, .append _ _⟩
    cases add <;> cases mem
    exact ⟨rfl, refname, none, rfl⟩
  | buildRow =>
    cases eq
    exact ⟨sound.adddatum rfl fun i mem => (by cases mem), .append _ _⟩
  | additem itemtype itemno name =>
    rw [Op.step] at eq
    split at eq
    next fits =>
      cases eq
      refine ⟨⟨sound.fields, sound.parents, fun item mem isRecord => ?_⟩, .refl _⟩
      rcases List.mem_cons.mp mem with rfl | old
      · exact Datum.fits_record fits isRecord
      · exact sound.items item old isRecord
    · cases eq
  | compound mode words =>
    obtain ⟨word, s'', parsed, scanned⟩ := parse_spec sound mode words
    rw [Op.step] at eq
    rw [parsed] at eq
    cases eq
    exact scanned.keeps

theorem Op.run_keeps {ops : List Op} {s s' : Compile} (sound : Sound s) (eq : Op.run ops s = some s') :
    Keeps s s' := by
  induction ops generalizing s with
  | nil =>
    cases eq
    exact .refl sound
  | cons op ops ih =>
    obtain ⟨s₁, first, rest⟩ := Option.bind_eq_some_iff.mp eq
    have one := Op.step_keeps sound first
    exact one.trans (ih one.sound rest)

theorem Compile.start_sound : Sound .start where
  fields _ _ _ here := by cases here
  parents _ _ _ := fun ⟨_, here⟩ => by cases here
  items _ mem := by cases mem

/-- Whatever was declared and referred to before, the scanner makes a word of the names;
and whatever follows, a column reference of the same names in the same namespace then
finds the datum of that word, or nothing where the names are not all the datum's own. -/
theorem compound_resolves {before : List Op} {s : Compile} {mode : LookupMode} {words : Compound}
    (parsed : Op.run before .start = some s) (normal : mode ≠ .declare) :
    ∃ word s₁, words.parse mode s = some (word, s₁) ∧
      ∀ later s₂ errorIfNoField, Op.run later s₁ = some s₂ →
        resolveColumnRef s.nsTop s₂.datums (words.names.map .name) errorIfNoField = word.meaning words.names := by
  have sound := (Op.run_keeps Compile.start_sound parsed).sound
  obtain ⟨word, s₁, eq, scanned⟩ := parse_spec sound mode words
  exact ⟨word, s₁, eq, fun later s₂ e rest =>
    scanned.resolves normal s₂ (Op.run_keeps scanned.keeps.sound rest) e⟩

/-- `r.c` after `r.a`, in a block with a record `r` and a variable `c`. -/
theorem compound_resolves_field :
    let r : Compile := ⟨[.record "r" (some 2), .var "c", .recfield "a" 0 none],
      [⟨.var, 1, "c"⟩, ⟨.record, 0, "r"⟩, ⟨.label, 0, "b"⟩]⟩
    ∃ word s₁, (Compound.dblword "r" "c").parse .expr r = some (word, s₁) ∧
      ∀ later s₂ errorIfNoField, Op.run later s₁ = some s₂ →
        resolveColumnRef r.nsTop s₂.datums [.name "r", .name "c"] errorIfNoField = word.meaning ["r", "c"] :=
  compound_resolves
    (show Op.run [.nsPush (some "b"), .buildRecord "r" true, .buildVariable "c" true,
        .compound .expr (.dblword "r" "a")] .start = some _ by
      simp only [Op.run, Op.step, Compound.parse, parseDblword, Option.bind_some]
      rw [show nsLookup _ false "r" (some "a") none = some (⟨.record, 0, "r"⟩, 1) from nsLookup_of_level rfl rfl _]
      rfl)
    (by decide)

end Uplpgsql.Parser
