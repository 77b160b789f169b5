/-
A queue kept at the front of an array: a count and the slots.

Adding writes the slot behind the last one.  Taking the first moves every later
slot down by one, one slot after the other.  Read as a list of its first `count`
slots, adding appends and taking drops the head; proofs about such a queue then
speak of lists only.
-/
import Mathlib.Data.List.Basic

namespace Dingoo.Lib

/-- The number of slots in use, and the slots. -/
structure ArrayQueue (α : Type) where
  count : Nat
  slot : Nat → α

variable {α : Type}

/-- Copies slot `i + 1` to slot `i`, for `n` slots from `i` on, in order. -/
def shiftDown : Nat → Nat → (Nat → α) → Nat → α
  | _, 0, slot => slot
  | i, n + 1, slot => shiftDown (i + 1) n (Function.update slot i (slot (i + 1)))

theorem shiftDown_apply :
    ∀ (n i : Nat) (slot : Nat → α) (j : Nat),
      shiftDown i n slot j = if i ≤ j ∧ j < i + n then slot (j + 1) else slot j := by
  intro n
  induction n with
  | zero =>
    intro i slot j
    rw [if_neg (by omega)]
    rfl
  | succ n ih =>
    intro i slot j
    unfold shiftDown
    rw [ih]
    by_cases hin : i + 1 ≤ j ∧ j < i + 1 + n
    · rw [if_pos hin, if_pos (by omega), Function.update_of_ne (by omega)]
    · rw [if_neg hin]
      by_cases hj : j = i
      · rw [hj, Function.update_self, if_pos (by omega)]
      · rw [Function.update_of_ne hj, if_neg (by omega)]

namespace ArrayQueue

/-- The elements, first in first. -/
def toList (q : ArrayQueue α) : List α := (List.range q.count).map q.slot

/-- Writes the slot behind the last one in use. -/
def push (q : ArrayQueue α) (a : α) : ArrayQueue α :=
  ⟨q.count + 1, Function.update q.slot q.count a⟩

/-- Drops the first element by moving the others down. -/
def dropFirst (q : ArrayQueue α) : ArrayQueue α :=
  ⟨q.count - 1, shiftDown 0 (q.count - 1) q.slot⟩

/-- Marks every slot as unused. -/
def clear (q : ArrayQueue α) : ArrayQueue α := { q with count := 0 }

@[simp] theorem toList_clear (q : ArrayQueue α) : q.clear.toList = [] := rfl

@[simp] theorem length_toList (q : ArrayQueue α) : q.toList.length = q.count := by
  simp [toList]

theorem count_eq_zero (q : ArrayQueue α) : q.count = 0 ↔ q.toList = [] := by
  rw [← length_toList, List.length_eq_zero_iff]

@[simp] theorem toList_push (q : ArrayQueue α) (a : α) : (q.push a).toList = q.toList ++ [a] := by
  show (List.range (q.count + 1)).map (Function.update q.slot q.count a) = _
  rw [List.range_succ, List.map_append, List.map_singleton, Function.update_self]
  congr 1
  refine List.map_congr_left fun i hi => Function.update_of_ne ?_ _ _
  exact Nat.ne_of_lt (List.mem_range.mp hi)

theorem toList_dropFirst {q : ArrayQueue α} (h : q.count ≠ 0) :
    q.toList = q.slot 0 :: q.dropFirst.toList := by
  obtain ⟨n, hn⟩ := Nat.exists_eq_succ_of_ne_zero h
  unfold toList dropFirst
  rw [hn, List.range_succ_eq_map, List.map_cons, List.map_map]
  congr 1
  refine List.map_congr_left fun i hi => ?_
  show q.slot (i + 1) = shiftDown 0 n q.slot i
  rw [shiftDown_apply, if_pos ⟨Nat.zero_le i, by simpa using hi⟩]

end ArrayQueue

end Dingoo.Lib
