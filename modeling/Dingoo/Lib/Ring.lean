/-
A queue in a ring of slots: the index of the oldest element and a count.

The element that comes `i`-th is in the slot `i` behind the oldest one, modulo the number
of slots.  Read that way, as a list, taking the oldest element drops the head, and
writing the slot behind the newest one appends; if the ring is full that slot is the
one of the oldest element, so the list loses its head at the same time.
-/
import Mathlib.Data.List.Basic

namespace Dingoo.Lib

variable {α : Type} {n out count : Nat} {slot : Nat → α}

/-- The elements of a ring of `n` slots, oldest first. -/
def ringList (n : Nat) (slot : Nat → α) (out count : Nat) : List α :=
  (List.range count).map fun i => slot ((out + i) % n)

theorem length_ringList : (ringList n slot out count).length = count := by
  rw [ringList, List.length_map, List.length_range]

theorem ring_ne {i j : Nat} (hi : i < j) (hj : j < n) : (out + i) % n ≠ (out + j) % n := by
  intro heq
  have hzero := Nat.sub_mod_eq_zero_of_mod_eq heq.symm
  rw [Nat.mod_eq_of_lt (by omega)] at hzero
  omega

theorem ringList_push (a : α) (hcount : count < n) :
    ringList n (Function.update slot ((out + count) % n) a) out (count + 1) =
      ringList n slot out count ++ [a] := by
  rw [ringList, List.range_succ, List.map_append, List.map_singleton, Function.update_self,
    ringList]
  congr 1
  refine List.map_congr_left fun i hi => ?_
  rw [Function.update_of_ne (ring_ne (List.mem_range.mp hi) hcount)]

theorem ringList_pop :
    ringList n slot out (count + 1) = slot (out % n) :: ringList n slot ((out + 1) % n) count := by
  rw [ringList, List.range_succ_eq_map, List.map_cons, List.map_map, Nat.add_zero, ringList]
  congr 1
  refine List.map_congr_left fun i _ => ?_
  show slot ((out + (i + 1)) % n) = slot (((out + 1) % n + i) % n)
  rw [Nat.mod_add_mod, Nat.add_assoc, Nat.add_comm 1]

/-- A full ring: the newest element comes in the place of the oldest one. -/
theorem ringList_replace (a : α) (hn : 0 < n) :
    ringList n (Function.update slot (out % n) a) ((out + 1) % n) n =
      (ringList n slot out n).tail ++ [a] := by
  obtain ⟨m, rfl⟩ := Nat.exists_eq_succ_of_ne_zero (Nat.ne_of_gt hn)
  have hplace : ((out + 1) % (m + 1) + m) % (m + 1) = out % (m + 1) := by
    rw [Nat.mod_add_mod, Nat.add_assoc, Nat.add_comm 1, Nat.add_mod_right]
  have hpush := @ringList_push α (m + 1) ((out + 1) % (m + 1)) m slot a (Nat.lt_succ_self m)
  rw [hplace] at hpush
  rw [Nat.succ_eq_add_one, hpush, ringList_pop, List.tail_cons]

end Dingoo.Lib
