import Mathlib.Tactic.Common
import Uplpgsql.Env

/-!
# SQLSTATE codes

An SQLSTATE has five characters, which are packed into a number. Conditions are compared
as numbers; this is what it says of the characters.
-/

namespace Uplpgsql.Errors

/-- One of "0123456789ABCDEFGHIJKLMNOPQRSTUVWXYZ" -/
def isSqlstateChar (ch : Char) : Bool := ('0' ≤ ch && ch ≤ '9') || ('A' ≤ ch && ch ≤ 'Z')

structure Sqlstate where
  (c₁ c₂ c₃ c₄ c₅ : Char)
  (valid₁ : isSqlstateChar c₁ = true)
  (valid₂ : isSqlstateChar c₂ = true)
  (valid₃ : isSqlstateChar c₃ = true)
  (valid₄ : isSqlstateChar c₄ = true)
  (valid₅ : isSqlstateChar c₅ = true)
  deriving DecidableEq

/-- The five characters, if that is what `s` has. -/
def Sqlstate.ofString (s : String) : Option Sqlstate :=
  match s.toList with
  | [c₁, c₂, c₃, c₄, c₅] =>
    if h : (isSqlstateChar c₁ ∧ isSqlstateChar c₂ ∧ isSqlstateChar c₃ ∧ isSqlstateChar c₄ ∧ isSqlstateChar c₅) then
      some ⟨c₁, c₂, c₃, c₄, c₅, h.1, h.2.1, h.2.2.1, h.2.2.2.1, h.2.2.2.2⟩
    else none
  | _ => none

def Sqlstate.code (s : Sqlstate) : Nat := makeSqlstate s.c₁ s.c₂ s.c₃ s.c₄ s.c₅

/-- `PGUNSIXBIT` -/
def pgUnsixbit (val : Nat) : Char := Char.ofNat (val % 64 + '0'.toNat)

/-- `unpack_sql_state` -/
def unpackSqlState (code : Nat) : String :=
  String.ofList [pgUnsixbit code, pgUnsixbit (code / 2 ^ 6), pgUnsixbit (code / 2 ^ 12),
    pgUnsixbit (code / 2 ^ 18), pgUnsixbit (code / 2 ^ 24)]

theorem pgSixbit_lt (ch : Char) : pgSixbit ch < 64 := Nat.mod_lt _ (by decide)

theorem pgUnsixbit_pgSixbit {ch : Char} (valid : isSqlstateChar ch = true) : pgUnsixbit (pgSixbit ch) = ch := by
  have bounds : 48 ≤ ch.toNat ∧ ch.toNat < 48 + 64 := by
    simp only [isSqlstateChar, Bool.or_eq_true, Bool.and_eq_true, decide_eq_true_eq, Char.le_def,
      UInt32.le_iff_toNat_le] at valid
    have : ch.toNat = ch.val.toNat := rfl
    have : '0'.val.toNat = 48 := rfl
    have : '9'.val.toNat = 57 := rfl
    have : 'A'.val.toNat = 65 := rfl
    have : 'Z'.val.toNat = 90 := rfl
    omega
  have zero : '0'.toNat = 48 := rfl
  rw [pgUnsixbit, pgSixbit, zero, Nat.mod_mod, Nat.mod_eq_of_lt (by omega), Nat.sub_add_cancel bounds.1]
  exact Char.ofNat_toNat ch

theorem pgSixbit_inj {a b : Char} (validA : isSqlstateChar a = true) (validB : isSqlstateChar b = true)
    (eq : pgSixbit a = pgSixbit b) : a = b := by
  rw [← pgUnsixbit_pgSixbit validA, eq, pgUnsixbit_pgSixbit validB]

theorem pgSixbit_eq_zero {ch : Char} (valid : isSqlstateChar ch = true) : pgSixbit ch = 0 ↔ ch = '0' :=
  ⟨pgSixbit_inj valid (b := '0') rfl, fun eq => eq ▸ rfl⟩

namespace Sqlstate

variable (s t : Sqlstate)

/-- Nothing is lost in packing. -/
theorem unpack_code : unpackSqlState s.code = String.ofList [s.c₁, s.c₂, s.c₃, s.c₄, s.c₅] := by
  have bounds := And.intro (pgSixbit_lt s.c₁) (And.intro (pgSixbit_lt s.c₂) (And.intro (pgSixbit_lt s.c₃)
    (And.intro (pgSixbit_lt s.c₄) (pgSixbit_lt s.c₅))))
  have first : s.code % 64 = pgSixbit s.c₁ := by unfold code makeSqlstate; omega
  have second : s.code / 2 ^ 6 % 64 = pgSixbit s.c₂ := by unfold code makeSqlstate; omega
  have third : s.code / 2 ^ 12 % 64 = pgSixbit s.c₃ := by unfold code makeSqlstate; omega
  have fourth : s.code / 2 ^ 18 % 64 = pgSixbit s.c₄ := by unfold code makeSqlstate; omega
  have fifth : s.code / 2 ^ 24 % 64 = pgSixbit s.c₅ := by unfold code makeSqlstate; omega
  have char {n : Nat} {ch : Char} (valid : isSqlstateChar ch = true) (eq : n % 64 = pgSixbit ch) :
      pgUnsixbit n = ch := by
    rw [← pgUnsixbit_pgSixbit valid, ← eq, pgUnsixbit, pgUnsixbit, Nat.mod_mod]
  rw [unpackSqlState, char s.valid₁ first, char s.valid₂ second, char s.valid₃ third, char s.valid₄ fourth,
    char s.valid₅ fifth]

theorem code_inj {s t : Sqlstate} (eq : s.code = t.code) : s = t := by
  have same := s.unpack_code
  rw [eq, t.unpack_code] at same
  obtain ⟨c₁, c₂, c₃, c₄, c₅, _⟩ := s
  obtain ⟨d₁, d₂, d₃, d₄, d₅, _⟩ := t
  have chars := congrArg String.toList same
  simp only [String.toList_ofList, List.cons.injEq, and_true] at chars
  obtain ⟨rfl, rfl, rfl, rfl, rfl⟩ := chars
  rfl

/-- A class of codes: the last three characters are zeros. -/
def IsClass : Prop := s.c₃ = '0' ∧ s.c₄ = '0' ∧ s.c₅ = '0'

instance : Decidable s.IsClass := inferInstanceAs (Decidable (_ ∧ _ ∧ _))

theorem isCategory_code : errcodeIsCategory s.code = true ↔ s.IsClass := by
  have first := pgSixbit_lt s.c₁
  have second := pgSixbit_lt s.c₂
  rw [IsClass, ← pgSixbit_eq_zero s.valid₃, ← pgSixbit_eq_zero s.valid₄, ← pgSixbit_eq_zero s.valid₅,
    errcodeIsCategory, beq_iff_eq, code, makeSqlstate]
  omega

theorem toCategory_code (isClass : s.IsClass) : errcodeToCategory t.code = s.code ↔ s.c₁ = t.c₁ ∧ s.c₂ = t.c₂ := by
  have first := pgSixbit_lt s.c₁
  have second := pgSixbit_lt s.c₂
  have first' := pgSixbit_lt t.c₁
  have second' := pgSixbit_lt t.c₂
  have code_eq : s.code = pgSixbit s.c₁ + pgSixbit s.c₂ * 2 ^ 6 := by
    obtain ⟨third, fourth, fifth⟩ := isClass
    rw [← pgSixbit_eq_zero s.valid₃] at third
    rw [← pgSixbit_eq_zero s.valid₄] at fourth
    rw [← pgSixbit_eq_zero s.valid₅] at fifth
    rw [code, makeSqlstate, third, fourth, fifth]
    omega
  have packed : errcodeToCategory t.code = pgSixbit t.c₁ + pgSixbit t.c₂ * 2 ^ 6 := by
    unfold errcodeToCategory code makeSqlstate
    omega
  rw [packed, code_eq]
  constructor
  · intro eq
    exact ⟨pgSixbit_inj s.valid₁ t.valid₁ (by omega), pgSixbit_inj s.valid₂ t.valid₂ (by omega)⟩
  · rintro ⟨same, same'⟩
    rw [same, same']

/-- What a condition with this code matches. -/
theorem matches_code (message : String) :
    (Condition.sqlstate s.code).matchesError ⟨t.code, message⟩ = true ↔
      s = t ∨ s.IsClass ∧ s.c₁ = t.c₁ ∧ s.c₂ = t.c₂ := by
  rw [Condition.matchesError, Bool.or_eq_true, Bool.and_eq_true, beq_iff_eq, beq_iff_eq, isCategory_code]
  constructor
  · rintro (same | ⟨isClass, category⟩)
    · exact .inl (code_inj same).symm
    · exact .inr ⟨isClass, (s.toCategory_code t isClass).mp category⟩
  · rintro (rfl | ⟨isClass, category⟩)
    · exact .inl rfl
    · exact .inr ⟨isClass, (s.toCategory_code t isClass).mpr category⟩

end Sqlstate

end Uplpgsql.Errors
