import Mathlib.Data.List.Count
import Mathlib.Tactic.Common

/-!
# Line numbers

The scanner keeps the ends of the line that it was last asked for, since it is mostly
asked for larger and larger locations.

## Main result

`locations_to_lineno`: it makes no difference in what order the locations come.
-/

namespace Uplpgsql.Parser

/-- `strchr(start, '\n')` -/
def strchr (text : List Char) (start : Nat) : Option Nat :=
  ((text.drop start).findIdx? (· = '\n')).map (start + ·)

def newlines (text : List Char) (location : Nat) : Nat := (text.take location).count '\n'

section Newlines

variable {text : List Char} {start : Nat}

theorem newlines_add (k : Nat) :
    newlines text (start + k) = newlines text start + ((text.drop start).take k).count '\n' := by
  rw [newlines, List.take_add, List.count_append, newlines]

theorem newlines_of_strchr_none (none : strchr text start = none) {location : Nat} (le : start ≤ location) :
    newlines text location = newlines text start := by
  obtain ⟨k, rfl⟩ := Nat.exists_eq_add_of_le le
  rw [strchr, Option.map_eq_none_iff, List.findIdx?_eq_none_iff] at none
  rw [newlines_add, Nat.add_eq_left, List.count_eq_zero]
  exact fun mem => by simpa using none _ (List.mem_of_mem_take mem)

/-- The newline that was found, and that there is none before it. -/
theorem strchr_some {stop : Nat} (found : strchr text start = some stop) :
    start ≤ stop ∧ stop < text.length ∧ newlines text (stop + 1) = newlines text start + 1 ∧
      ∀ location, start ≤ location → location ≤ stop → newlines text location = newlines text start := by
  obtain ⟨i, first, rfl⟩ := Option.map_eq_some_iff.mp found
  obtain ⟨lt, here, before⟩ := List.findIdx?_eq_some_iff_getElem.mp first
  have none_before (k : Nat) (le : k ≤ i) : ((text.drop start).take k).count '\n' = 0 := by
    rw [List.count_eq_zero]
    intro mem
    obtain ⟨j, bound, eq⟩ := List.mem_take_iff_getElem.mp mem
    exact before j (by omega) (decide_eq_true eq)
  refine ⟨Nat.le_add_right _ _, ?_, ?_, fun location ge le => ?_⟩
  · rw [List.length_drop] at lt
    omega
  · rw [Nat.add_assoc, newlines_add, List.take_succ_eq_append_getElem lt, List.count_append, none_before i (Nat.le_refl i),
      of_decide_eq_true here]
    rfl
  · obtain ⟨k, rfl⟩ := Nat.exists_eq_add_of_le ge
    rw [newlines_add, none_before k (by omega), Nat.add_zero]

end Newlines

/-! ### The current line -/

/-- The state for `uplpgsql_location_to_lineno`: the line is known, and where it ends. -/
structure CurLine (text : List Char) where
  curLineStart : Nat
  curLineEnd : Option Nat
  curLineNum : Nat
  isEnd : curLineEnd = strchr text curLineStart
  isNum : curLineNum = newlines text curLineStart + 1

/-- `location_lineno_init` -/
def locationLinenoInit (text : List Char) : CurLine text where
  curLineStart := 0
  curLineEnd := strchr text 0
  curLineNum := 1
  isEnd := rfl
  isNum := rfl

namespace CurLine

variable {text : List Char}

/-- The line after this one, which ends at `stop`. -/
def nextLine (l : CurLine text) (stop : Nat) (isEnd : l.curLineEnd = some stop) : CurLine text where
  curLineStart := stop + 1
  curLineEnd := strchr text (stop + 1)
  curLineNum := l.curLineNum + 1
  isEnd := rfl
  isNum := by
    rw [(strchr_some (l.isEnd ▸ isEnd)).2.2.1, l.isNum]

/-- The loop of `uplpgsql_location_to_lineno` -/
def advance (location : Nat) (l : CurLine text) : CurLine text :=
  match here : l.curLineEnd with
  | none => l
  | some stop => if stop < location then advance location (l.nextLine stop here) else l
termination_by text.length - l.curLineStart
decreasing_by
  have found := strchr_some (l.isEnd ▸ here)
  simp only [nextLine]
  omega

/-- `uplpgsql_location_to_lineno` -/
def locationToLineno (location : Int) (l : CurLine text) : Nat × CurLine text :=
  if location < 0 then (0, l)
  else
    -- correct, but not fast, if the location goes backwards
    let l := if location.toNat < l.curLineStart then locationLinenoInit text else l
    let l := l.advance location.toNat
    (l.curLineNum, l)

theorem advance_curLineNum {location : Nat} {l : CurLine text} (ge : l.curLineStart ≤ location) :
    (l.advance location).curLineNum = newlines text location + 1 := by
  fun_induction advance location l with
  | case1 l here => rw [l.isNum, newlines_of_strchr_none (l.isEnd ▸ here) ge]
  | case2 l stop here lt ih => exact ih lt
  | case3 l stop here le =>
    obtain ⟨-, -, -, same⟩ := strchr_some (l.isEnd ▸ here)
    rw [l.isNum, same location ge (Nat.le_of_not_lt le)]

end CurLine

/-- The line of a location, counted from the start of the text. -/
def lineno (text : List Char) (location : Int) : Nat :=
  if location < 0 then 0 else newlines text location.toNat + 1

theorem CurLine.locationToLineno_fst {text : List Char} (l : CurLine text) (location : Int) :
    (l.locationToLineno location).1 = lineno text location := by
  unfold locationToLineno lineno
  split
  · rfl
  · apply advance_curLineNum
    split
    · exact Nat.zero_le _
    · omega

/-- `uplpgsql_latest_lineno` -/
def CurLine.latestLineno {text : List Char} (l : CurLine text) : Nat := l.curLineNum

theorem CurLine.latestLineno_snd {text : List Char} (l : CurLine text) (location : Int) :
    (l.locationToLineno location).2.latestLineno =
      if location < 0 then l.latestLineno else lineno text location := by
  have answer := l.locationToLineno_fst location
  unfold locationToLineno at answer ⊢
  split
  · rfl
  next known =>
    rw [if_neg known] at answer
    exact answer

/-- The answers to a sequence of questions, and the state after them. -/
def CurLine.askAll {text : List Char} : CurLine text → List Int → List Nat × CurLine text
  | l, [] => ([], l)
  | l, location :: locations =>
    let rest := (l.locationToLineno location).2.askAll locations
    ((l.locationToLineno location).1 :: rest.1, rest.2)

/-- The latest location that was asked for, as far as it was known. -/
def latest (locations : List Int) : Option Int := (locations.filter fun location => 0 ≤ location).getLast?

theorem latest_cons (location : Int) (locations : List Int) :
    latest (location :: locations) = if location < 0 then latest locations else some ((latest locations).getD location) := by
  unfold latest
  split
  · rw [List.filter_cons_of_neg (by simpa using ‹location < 0›)]
  · rw [List.filter_cons_of_pos (by simpa using ‹¬location < 0›), List.getLast?_cons]

theorem CurLine.askAll_eq {text : List Char} (l : CurLine text) (locations : List Int) :
    (l.askAll locations).1 = locations.map (lineno text) ∧
      (l.askAll locations).2.latestLineno = ((latest locations).map (lineno text)).getD l.latestLineno := by
  induction locations generalizing l with
  | nil => exact ⟨rfl, rfl⟩
  | cons location locations ih =>
    obtain ⟨answers, last⟩ := ih (l.locationToLineno location).2
    constructor
    · rw [askAll, List.map_cons, ← answers, l.locationToLineno_fst]
    · rw [askAll, latest_cons]
      dsimp only
      rw [last, l.latestLineno_snd]
      split
      · rfl
      · cases latest locations <;> rfl

/-- Whatever is asked in whatever order, the line of each location is the number of
newlines before it, and one; and the latest line is that of the latest location. -/
theorem locations_to_lineno (text : List Char) (locations : List Int) :
    ((locationLinenoInit text).askAll locations).1 = locations.map (lineno text) ∧
      ((locationLinenoInit text).askAll locations).2.latestLineno =
        ((latest locations).map (lineno text)).getD 1 :=
  (locationLinenoInit text).askAll_eq locations

end Uplpgsql.Parser
