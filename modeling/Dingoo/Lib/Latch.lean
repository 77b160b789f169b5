/-
A latch that single elements of a sequence set and pairs of neighbours clear.

An element that sets the latch does so after it was cleared.  So the latch is set at the end
exactly if some element set it and no pair from there on cleared it, which is taken as
the definition; `latched_concat` is the step.
-/
import Mathlib.Data.List.Induction

namespace Dingoo.Lib

variable {α : Type} {sets : α → Prop} {clears : α → α → Prop}

/-- `y` stands directly after `x`. -/
def Adjacent (x y : α) (l : List α) : Prop := ∃ xs ys, l = xs ++ x :: y :: ys

theorem not_adjacent_singleton {x y a : α} : ¬ Adjacent x y [a] := by
  rintro ⟨xs, ys, h⟩
  have hlen := congrArg List.length h
  simp at hlen
  omega

theorem adjacent_concat {x y a b : α} {l : List α} :
    Adjacent x y (l ++ [a, b]) ↔ Adjacent x y (l ++ [a]) ∨ (x = a ∧ y = b) := by
  constructor
  · rintro ⟨xs, ys, h⟩
    cases ys using List.reverseRecOn with
    | nil =>
      have hlast := (List.append_inj' h rfl).2
      simp only [List.cons.injEq, and_true] at hlast
      exact Or.inr ⟨hlast.1.symm, hlast.2.symm⟩
    | append_singleton ys z =>
      have hsplit : (l ++ [a]) ++ [b] = (xs ++ x :: y :: ys) ++ [z] := by simpa using h
      exact Or.inl ⟨xs, ys, (List.append_inj' hsplit rfl).1⟩
  · rintro (⟨xs, ys, h⟩ | ⟨rfl, rfl⟩)
    · refine ⟨xs, ys ++ [b], ?_⟩
      rw [show l ++ [a, b] = (l ++ [a]) ++ [b] by simp, h]
      simp
    · exact ⟨l, [], rfl⟩

/-- An element set the latch and no pair from there on cleared it. -/
def Latched (sets : α → Prop) (clears : α → α → Prop) (l : List α) : Prop :=
  ∃ before s after, l = before ++ s :: after ∧ sets s ∧
    ∀ x y, Adjacent x y (s :: after) → ¬ clears x y

theorem not_latched_nil : ¬ Latched sets clears [] := by
  rintro ⟨before, s, after, h, -⟩
  simp at h

theorem latched_singleton {a : α} : Latched sets clears [a] ↔ sets a := by
  constructor
  · rintro ⟨before, s, after, h, hset, -⟩
    cases before with
    | nil =>
      rw [(List.cons.inj h).1]
      exact hset
    | cons b before => simp at h
  · exact fun h => ⟨[], a, [], rfl, h, fun _ _ hadj => absurd hadj not_adjacent_singleton⟩

theorem tail_ends {l before after : List α} {s a : α} (h : l ++ [a] = before ++ s :: after) :
    ∃ m, s :: after = m ++ [a] := by
  cases after using List.reverseRecOn with
  | nil =>
    have hlast := (List.append_inj' h rfl).2
    exact ⟨[], hlast.symm⟩
  | append_singleton after z =>
    have hsplit : l ++ [a] = (before ++ s :: after) ++ [z] := by simpa using h
    have hlast := (List.append_inj' hsplit rfl).2
    exact ⟨s :: after, by rw [hlast]; rfl⟩

theorem latched_concat {a b : α} {l : List α} :
    Latched sets clears (l ++ [a, b]) ↔
      sets b ∨ (Latched sets clears (l ++ [a]) ∧ ¬ clears a b) := by
  have hassoc : l ++ [a, b] = (l ++ [a]) ++ [b] := by simp
  constructor
  · rintro ⟨before, s, after, h, hset, hclear⟩
    rw [hassoc] at h
    cases after using List.reverseRecOn with
    | nil =>
      have hlast := (List.append_inj' h rfl).2
      rw [(List.cons.inj hlast).1]
      exact Or.inl hset
    | append_singleton after z =>
      have hsplit : (l ++ [a]) ++ [b] = (before ++ s :: after) ++ [z] := by simpa using h
      obtain ⟨hfront, hlast⟩ := List.append_inj' hsplit rfl
      obtain ⟨m, hm⟩ := tail_ends hfront
      rw [← List.cons_append, ← hlast, hm, List.append_assoc] at hclear
      refine Or.inr ⟨⟨before, s, after, hfront, hset, fun x y hadj => ?_⟩, ?_⟩
      · rw [hm] at hadj
        exact hclear x y (adjacent_concat.mpr (Or.inl hadj))
      · exact hclear a b (adjacent_concat.mpr (Or.inr ⟨rfl, rfl⟩))
  · rintro (hset | ⟨⟨before, s, after, h, hset, hclear⟩, hkeep⟩)
    · exact ⟨l ++ [a], b, [], hassoc, hset,
        fun _ _ hadj => absurd hadj not_adjacent_singleton⟩
    · obtain ⟨m, hm⟩ := tail_ends h
      refine ⟨before, s, after ++ [b], by rw [hassoc, h]; simp, hset, fun x y hadj => ?_⟩
      rw [← List.cons_append, hm, List.append_assoc] at hadj
      rcases adjacent_concat.mp hadj with hold | ⟨rfl, rfl⟩
      · rw [← hm] at hold
        exact hclear x y hold
      · exact hkeep

end Dingoo.Lib
