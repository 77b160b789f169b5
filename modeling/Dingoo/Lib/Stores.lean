/-
A memory as the list of the stores made to it.

What a location holds in the end is what the last store to it stored.
-/
import Mathlib.Data.List.Basic

namespace Dingoo.Lib

variable {κ β : Type} [DecidableEq κ]

/-- What the last store to `x` stored, if there is one. -/
def lastStore : List (κ × β) → κ → Option β
  | [], _ => none
  | (k, b) :: stores, x => (lastStore stores x).or (if k = x then some b else none)

theorem lastStore_append (as bs : List (κ × β)) (x : κ) :
    lastStore (as ++ bs) x = (lastStore bs x).or (lastStore as x) := by
  induction as with
  | nil => simp [lastStore]
  | cons a as ih => rw [List.cons_append, lastStore, ih, lastStore, Option.or_assoc]

theorem lastStore_eq_none_iff (stores : List (κ × β)) (x : κ) :
    lastStore stores x = none ↔ ∀ s ∈ stores, s.1 ≠ x := by
  induction stores with
  | nil => simp [lastStore]
  | cons s stores ih =>
    rw [lastStore, Option.or_eq_none_iff, ih, List.forall_mem_cons, and_comm]
    exact and_congr_left fun _ => by simp

theorem mem_of_lastStore {stores : List (κ × β)} {x : κ} {b : β}
    (h : lastStore stores x = some b) : (x, b) ∈ stores := by
  induction stores with
  | nil => cases h
  | cons s stores ih =>
    rw [lastStore, Option.or_eq_some_iff] at h
    rcases h with h | ⟨-, h⟩
    · exact List.mem_cons_of_mem s (ih h)
    · by_cases hs : s.1 = x
      · rw [if_pos hs] at h
        cases h
        rw [← hs]
        exact List.mem_cons_self
      · rw [if_neg hs] at h
        cases h

theorem lastStore_eq_some {stores : List (κ × β)} {x : κ} {b : β} (hmem : (x, b) ∈ stores)
    (hsame : ∀ c, (x, c) ∈ stores → c = b) : lastStore stores x = some b := by
  cases h : lastStore stores x with
  | none => exact absurd rfl ((lastStore_eq_none_iff stores x).mp h _ hmem)
  | some c => rw [hsame c (mem_of_lastStore h)]

theorem lastStore_eq_of_mem_iff {stores : List (κ × β)} {x : κ} {o : Option β}
    (h : ∀ b, (x, b) ∈ stores ↔ o = some b) : lastStore stores x = o := by
  cases o with
  | none =>
    refine (lastStore_eq_none_iff stores x).mpr fun s hs hx => ?_
    rw [← hx] at h
    cases (h s.2).mp hs
  | some b =>
    exact lastStore_eq_some ((h b).mpr rfl) fun c hc => (Option.some.inj ((h c).mp hc)).symm

end Dingoo.Lib
