/-
Programs of the state monad applied to a state.

A stateful function is written with `do` and reasoned about as a function on
states: `x s` is the value and the state it ends in.  These are the equations that
carry a state through such a program, one per construct.
-/
import Mathlib.Init

namespace Dingoo.Lib

variable {σ α β : Type}

@[simp] theorem run_bind (x : StateM σ α) (f : α → StateM σ β) (s : σ) :
    (x >>= f) s = f (x s).1 (x s).2 := rfl

@[simp] theorem run_pure (a : α) (s : σ) : (pure a : StateM σ α) s = (a, s) := rfl

@[simp] theorem run_map (f : α → β) (x : StateM σ α) (s : σ) :
    (f <$> x) s = (f (x s).1, (x s).2) := rfl

@[simp] theorem run_get (s : σ) : (get : StateM σ σ) s = (s, s) := rfl

@[simp] theorem run_modify (f : σ → σ) (s : σ) : (modify f : StateM σ PUnit) s = (⟨⟩, f s) := rfl

theorem run_ite (c : Prop) [Decidable c] (x y : StateM σ α) (s : σ) :
    (if c then x else y) s = if c then x s else y s := by
  split
  · rfl
  · rfl

end Dingoo.Lib
