/-
Pre- and postconditions for programs of the state monad.

`Ensures P x Q` says what `x` makes of a state that satisfies `P`; the rules follow the
constructs of a `do` block, so that a proof about a program reads in its order.
`Leaves g x` is the frame: whatever `x` does, the part `g` of the state stays.
-/
import Dingoo.Lib.StateRun

namespace Dingoo.Lib

variable {σ α β γ : Type}

/-- From a state with `P`, the value and the state of `x` satisfy `Q`. -/
def Ensures (P : σ → Prop) (x : StateM σ α) (Q : α → σ → Prop) : Prop :=
  ∀ s, P s → Q (x s).1 (x s).2

/-- `x` does not change the part `g` of the state. -/
def Leaves (g : σ → γ) (x : StateM σ α) : Prop := ∀ s, g (x s).2 = g s

/-! ### Frames -/

section
variable {g : σ → γ} {x y : StateM σ α} {f : α → StateM σ β}

theorem Leaves.pure (a : α) : Leaves g (pure a : StateM σ α) := fun _ => rfl

theorem Leaves.get : Leaves g (get : StateM σ σ) := fun _ => rfl

theorem Leaves.bind (hx : Leaves g x) (hf : ∀ a, Leaves g (f a)) : Leaves g (x >>= f) := by
  intro s
  rw [run_bind, hf, hx]

theorem Leaves.ite (c : Prop) [Decidable c] (hx : Leaves g x) (hy : Leaves g y) :
    Leaves g (if c then x else y) := by
  by_cases hc : c
  · rw [if_pos hc]
    exact hx
  · rw [if_neg hc]
    exact hy

end

/-! ### Triples -/

section
variable {P R : σ → Prop} {x y : StateM σ α} {f : α → StateM σ β} {Q : α → σ → Prop}
  {T : β → σ → Prop}

theorem Ensures.pure {a : α} (h : ∀ s, P s → Q a s) : Ensures P (pure a) Q := h

theorem Ensures.bind (hx : Ensures P x Q) (hf : ∀ a, Ensures (Q a) (f a) T) :
    Ensures P (x >>= f) T := by
  intro s hs
  exact hf _ _ (hx s hs)

/-- A read of the state: what follows is run in the state that was read. -/
theorem Ensures.get_bind {f : σ → StateM σ β} (hf : ∀ s, P s → Ensures (Eq s) (f s) T) :
    Ensures P (get >>= f) T := fun s hs => hf s hs s rfl

theorem Ensures.get_any {f : σ → StateM σ β} (hf : ∀ s, Ensures P (f s) T) :
    Ensures P (get >>= f) T := fun s hs => hf s s hs

theorem Ensures.at {s : σ} (hx : Ensures P x Q) (hs : P s) : Ensures (Eq s) x Q := by
  rintro _ rfl
  exact hx s hs

theorem Ensures.eq_bind {s : σ} (hf : Ensures (Eq (x s).2) (f (x s).1) T) :
    Ensures (Eq s) (x >>= f) T := by
  rintro _ rfl
  exact hf _ rfl

theorem Ensures.eq_congr {s : σ} (h : x s = y s) (hy : Ensures (Eq s) (y >>= f) T) :
    Ensures (Eq s) (x >>= f) T := by
  rintro _ rfl
  have := hy s rfl
  rw [run_bind] at this ⊢
  rw [h]
  exact this

theorem Ensures.ite (c : Prop) [Decidable c] (hx : c → Ensures P x Q) (hy : ¬c → Ensures P y Q) :
    Ensures P (if c then x else y) Q := by
  by_cases hc : c
  · rw [if_pos hc]
    exact hx hc
  · rw [if_neg hc]
    exact hy hc

theorem Ensures.weaken {Q' : α → σ → Prop} (hx : Ensures P x Q) (h : ∀ a s, Q a s → Q' a s) :
    Ensures P x Q' := fun s hs => h _ _ (hx s hs)

theorem Ensures.strengthen (hx : Ensures P x Q) (h : ∀ s, R s → P s) : Ensures R x Q :=
  fun s hs => hx s (h s hs)

/-- A program that leaves what `P` is about keeps `P`. -/
theorem Leaves.ensures {g : σ → γ} (hx : Leaves g x) (h : ∀ s s', g s' = g s → P s → P s') :
    Ensures P x (fun _ => P) := fun s hs => h s _ (hx s) hs

end

end Dingoo.Lib
