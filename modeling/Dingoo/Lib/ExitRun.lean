/-
Programs that change a state and may leave through an exit.

`x s` is the value and the state, or the reason of the exit and the state.  A program
that comes back came back from each of its parts, and a part of the state that every
part leaves alone is left alone by the whole.
-/
import Mathlib.Init

namespace Dingoo.Lib

variable {ε σ α β γ : Type}

theorem bind_eq_ok {x : EStateM ε σ α} {f : α → EStateM ε σ β} {s s' : σ} {b : β} :
    (x >>= f) s = .ok b s' ↔ ∃ a t, x s = .ok a t ∧ f a t = .ok b s' := by
  show EStateM.bind x f s = .ok b s' ↔ _
  unfold EStateM.bind
  cases hx : x s with
  | ok a t =>
    constructor
    · intro h
      exact ⟨a, t, rfl, h⟩
    · rintro ⟨a', t', heq, h⟩
      cases heq
      exact h
  | error e t =>
    constructor
    · intro h
      cases h
    · rintro ⟨_, _, heq, _⟩
      cases heq

instance decidableEqResult [DecidableEq ε] [DecidableEq σ] [DecidableEq α] :
    DecidableEq (EStateM.Result ε σ α)
  | .ok a s, .ok b t => decidable_of_iff (a = b ∧ s = t) (by simp)
  | .error e s, .error f t => decidable_of_iff (e = f ∧ s = t) (by simp)
  | .ok _ _, .error _ _ => isFalse (by simp)
  | .error _ _, .ok _ _ => isFalse (by simp)

theorem bind_of_ok {x : EStateM ε σ α} {f : α → EStateM ε σ β} {s t : σ} {a : α}
    (hx : x s = .ok a t) : (x >>= f) s = f a t := by
  show EStateM.bind x f s = _
  unfold EStateM.bind
  rw [hx]

/-- The state a run ends in. -/
def endState : EStateM.Result ε σ α → σ
  | .ok _ s => s
  | .error _ s => s

/-- `x` comes back from every state, with the value `a`. -/
def Returns (x : EStateM ε σ α) (a : α) : Prop := ∀ s, ∃ s', x s = .ok a s'

theorem Returns.pure (a : α) : Returns (pure a : EStateM ε σ α) a := fun s => ⟨s, rfl⟩

theorem Returns.bind {x : EStateM ε σ α} {f : α → EStateM ε σ β} {a : α} {b : β}
    (hx : Returns x a) (hf : Returns (f a) b) : Returns (x >>= f) b := by
  intro s
  obtain ⟨t, ht⟩ := hx s
  obtain ⟨s', hs'⟩ := hf t
  exact ⟨s', (bind_of_ok ht).trans hs'⟩

/-- Where `x` comes back, the part `g` of the state is what it was. -/
def Keeps (g : σ → γ) (x : EStateM ε σ α) : Prop :=
  ∀ s a s', x s = .ok a s' → g s' = g s

variable {g : σ → γ}

theorem Keeps.pure (a : α) : Keeps g (pure a : EStateM ε σ α) := by
  intro s a' s' h
  cases h
  rfl

theorem Keeps.throw (e : ε) : Keeps g (throw e : EStateM ε σ α) := by
  intro s a s' h
  cases h

theorem Keeps.get : Keeps g (MonadStateOf.get : EStateM ε σ σ) := by
  intro s a s' h
  cases h
  rfl

theorem Keeps.bind {x : EStateM ε σ α} {f : α → EStateM ε σ β} (hx : Keeps g x)
    (hf : ∀ a, Keeps g (f a)) : Keeps g (x >>= f) := by
  intro s b s' h
  obtain ⟨a, t, ha, hb⟩ := bind_eq_ok.mp h
  rw [hf a t b s' hb, hx s a t ha]

theorem Keeps.ite (c : Prop) [Decidable c] {x y : EStateM ε σ α} (hx : Keeps g x)
    (hy : Keeps g y) : Keeps g (if c then x else y) := by
  by_cases hc : c
  · rw [if_pos hc]
    exact hx
  · rw [if_neg hc]
    exact hy

end Dingoo.Lib
