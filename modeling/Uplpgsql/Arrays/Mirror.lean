import Uplpgsql.Expr.Tree
import Uplpgsql.Lib.Words

/-!
# Array variables and their mirrors

A local array of integers is kept in flat memory while compiled code runs: a
data buffer, a length, a lower bound and, if some element is NULL, a buffer of
flags. `ArrayDatum` is the array the interpreter sees. Elements are Datums
throughout; an int4 element is its Datum's low half.
-/

namespace Uplpgsql

open Lib.Words

/-- What an array variable's Datum stands for. -/
inductive ArrayDatum where
  | null
  /-- No dimension. -/
  | empty
  /-- One dimension. -/
  | flat (lb : BitVec 32) (elems : List (Option (BitVec 64)))
  /-- Several dimensions, each with a length and a lower bound. -/
  | multi (dims : List (Nat × BitVec 32)) (elems : List (Option (BitVec 64)))
  deriving DecidableEq, Repr

def NullableDatum.null : NullableDatum := ⟨0, true⟩

def NullableDatum.ofOption : Option (BitVec 64) → NullableDatum
  | none => .null
  | some d => ⟨d, false⟩

/-- `array_get_element` with one subscript. -/
def arrayGetElement (subscript : BitVec 32) : ArrayDatum → NullableDatum
  | .flat lb elems =>
    if subscript.toInt < lb.toInt ∨ lb.toInt + elems.length ≤ subscript.toInt then .null
    else .ofOption (elems[(subscript.toInt - lb.toInt).toNat]?.join)
  | _ => .null

/-- `UPLpgSQL_native_array` at run time: what its slots hold. A buffer is `none`
where the pointer is NULL, and otherwise as long as it was allocated. -/
structure Mirror where
  data : Option (List (BitVec 64))
  len : BitVec 32
  lb : BitVec 32
  nulls : Option (List Bool)
  deriving DecidableEq, Repr

/-- A load from a buffer. -/
def loadAt {ε α : Type} (buffer : Option (List α)) (idx0 : BitVec 32) : Native ε α :=
  match buffer with
  | none => .undefined
  | some xs =>
    if idx0.toInt < 0 then .undefined
    else
      match xs[idx0.toInt.toNat]? with
      | none => .undefined
      | some x => .ok x

/-- The mirror of an array. A mirror of an array with several dimensions has the
length -1 and no elements. -/
def Mirror.Denotes (m : Mirror) : ArrayDatum → Prop
  | .null => m.len = 0 ∧ m.lb = 1 ∧ m.nulls = none
  | .empty => m.len = 0 ∧ m.lb = 1 ∧ m.nulls = none
  | .multi _ _ => m.len = -1 ∧ m.nulls = none
  | .flat lb elems =>
    m.lb = lb ∧ 0 < elems.length ∧ m.len.toInt = elems.length ∧
      lb.toInt + elems.length ≤ 2 ^ 31 ∧
      ∃ buf, m.data = some buf ∧ elems.length ≤ buf.length ∧
        (∀ flags, m.nulls = some flags → elems.length ≤ flags.length) ∧
        ∀ k < elems.length, elems[k]? =
          (if ((m.nulls.bind (·[k]?)).getD false) = true then some none else (buf[k]?).map some)

end Uplpgsql
