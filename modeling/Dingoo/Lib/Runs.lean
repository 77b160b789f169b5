/-
Runs of a system as folds of its step function over a list of actions.

A property of runs is often one of every step: of the state before it and of the
action.  `EachStep` is that, for every point of the run.  If on the states of an
invariant two such properties mean the same, and either of them keeps the
invariant, then they are the same of whole runs.
-/
import Mathlib.Data.List.Induction

namespace Dingoo.Lib

variable {σ α : Type} {step : σ → α → σ} {P Q : σ → α → Prop} {Inv : σ → Prop} {Ok : α → Prop}

/-- `P` holds of every action of the run and the state it is taken in. -/
def EachStep (step : σ → α → σ) (P : σ → α → Prop) (s : σ) (l : List α) : Prop :=
  ∀ pre a post, l = pre ++ a :: post → P (pre.foldl step s) a

theorem eachStep_nil (s : σ) : EachStep step P s [] := by
  intro pre a post h
  simp at h

theorem eachStep_cons {s : σ} {a : α} {l : List α} :
    EachStep step P s (a :: l) ↔ P s a ∧ EachStep step P (step s a) l := by
  constructor
  · intro h
    refine ⟨h [] a l rfl, fun pre b post hl => ?_⟩
    exact h (a :: pre) b post (by rw [hl]; rfl)
  · rintro ⟨hfirst, hrest⟩ pre b post hl
    cases pre with
    | nil =>
      obtain ⟨rfl, rfl⟩ := List.cons.inj hl
      exact hfirst
    | cons x pre =>
      obtain ⟨rfl, htail⟩ := List.cons.inj hl
      exact hrest pre b post htail

instance decidableEachStep [∀ s a, Decidable (P s a)] :
    ∀ (s : σ) (l : List α), Decidable (EachStep step P s l)
  | s, [] => isTrue (eachStep_nil s)
  | s, a :: l =>
    have := decidableEachStep (step s a) l
    decidable_of_iff (P s a ∧ EachStep step P (step s a) l) eachStep_cons.symm

theorem eachStep_append {l' : List α} :
    ∀ (l : List α) {s : σ},
      EachStep step P s (l ++ l') ↔ EachStep step P s l ∧ EachStep step P (l.foldl step s) l' := by
  intro l
  induction l with
  | nil =>
    intro s
    exact ⟨fun h => ⟨eachStep_nil s, h⟩, fun h => h.2⟩
  | cons x l ih =>
    intro s
    rw [List.cons_append, eachStep_cons, ih, eachStep_cons, and_assoc, List.foldl_cons]

theorem eachStep_concat {a : α} (l : List α) {s : σ} :
    EachStep step P s (l ++ [a]) ↔ EachStep step P s l ∧ P (l.foldl step s) a := by
  rw [eachStep_append, eachStep_cons]
  exact and_congr_right fun _ => ⟨fun h => h.1, fun h => ⟨h, eachStep_nil _⟩⟩

/-- A property of every state of a run is one of the first state and of where each step leads. -/
theorem forall_prefix_iff {G : σ → Prop} {s : σ} {l : List α} :
    (∀ pre, pre <+: l → G (pre.foldl step s)) ↔
      G s ∧ EachStep step (fun t a => G (step t a)) s l := by
  constructor
  · intro h
    refine ⟨h [] List.nil_prefix, fun pre a post hl => ?_⟩
    have hend := h (pre ++ [a]) ⟨post, by rw [hl]; simp⟩
    rwa [List.foldl_append] at hend
  · rintro ⟨hfirst, hsteps⟩ pre ⟨post, rfl⟩
    cases pre using List.reverseRecOn with
    | nil => exact hfirst
    | append_singleton pre a =>
      rw [List.foldl_append]
      exact hsteps pre a post (by simp)

theorem EachStep.invariant (Inv : σ → Prop) (hkeep : ∀ s a, Inv s → P s a → Inv (step s a)) :
    ∀ (l : List α) {s : σ}, Inv s → EachStep step P s l → Inv (l.foldl step s) := by
  intro l
  induction l with
  | nil =>
    intro s hs _
    exact hs
  | cons a l ih =>
    intro s hs hl
    obtain ⟨hfirst, hrest⟩ := eachStep_cons.mp hl
    exact ih (hkeep s a hs hfirst) hrest

/-- Two properties of steps that agree on an invariant agree on the runs that keep it. -/
theorem eachStep_iff (hiff : ∀ s a, Inv s → Ok a → (P s a ↔ Q s a))
    (hkeep : ∀ s a, Inv s → Ok a → Q s a → Inv (step s a)) :
    ∀ (l : List α) {s : σ}, Inv s → (∀ a ∈ l, Ok a) →
      (EachStep step P s l ↔ EachStep step Q s l) := by
  intro l
  induction l with
  | nil =>
    intro s _ _
    exact ⟨fun _ => eachStep_nil s, fun _ => eachStep_nil s⟩
  | cons a l ih =>
    intro s hs hl
    have ha := hl a (by simp)
    rw [eachStep_cons, eachStep_cons, hiff s a hs ha]
    refine and_congr_right fun hq => ?_
    exact ih (hkeep s a hs ha hq) (fun b hb => hl b (by simp [hb]))

end Dingoo.Lib
