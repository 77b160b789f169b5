/-
When the clock source runs backwards.

The timer has counted `(jiffies + pending) * latch + counter` clocks: a raised interrupt
stands for a period that `jiffies` does not have yet.  Every tick adds one to this and
taking the interrupt changes nothing (`time_run`).

`jz_get_cycles` reads `jiffies` and then the counter and knows nothing of a raised
interrupt.  Its value is therefore the time at which it reads the counter, less one
period for every wrap of the counter that the `jiffies` it has read do not have
(`missed`), less 2^32 if the sum does not fit (`carry`).  Between two calls the value
falls exactly when the later one has lost more than the ticks between them.
-/
import Dingoo.Lib.Runs
import Dingoo.Linux.Time

namespace Dingoo.Time

open Dingoo.Lib

/-- The clocks the timer has counted. -/
def time (s : State) : Nat := (s.jiffies + s.pending.toNat) * latch + s.counter

/-- The ticks of a run. -/
def ticks (l : List Act) : Nat := l.count .tick

theorem time_step {s : State} {a : Act} (h : Legal s a) :
    time (step s a) = time s + ticks [a] := by
  cases a with
  | tick =>
    have hone : ticks [Act.tick] = 1 := rfl
    show time (tick s) = _
    by_cases hlt : s.counter + 1 < latch
    · rw [tick, dif_pos hlt, hone]
      exact (Nat.add_assoc _ _ _).symm
    · have hbound := s.bound
      have hlast : s.counter + 1 = latch := by omega
      have hfree : s.pending = false := h hlast
      rw [tick, dif_neg hlt]
      simp only [time, hfree, Bool.toNat_true, Bool.toNat_false, Nat.add_mul, hone]
      omega
  | irq =>
    have hraised : s.pending = true := h
    simp [step, jzTimerInterrupt, time, hraised, ticks]

theorem ticks_append (l l' : List Act) : ticks (l ++ l') = ticks l + ticks l' :=
  List.count_append

theorem time_run : ∀ (l : List Act) {s : State}, EachStep step Legal s l →
    time (l.foldl step s) = time s + ticks l := by
  intro l
  induction l with
  | nil => intro s _; exact (Nat.add_zero _).symm
  | cons a l ih =>
    intro s h
    obtain ⟨ha, hl⟩ := eachStep_cons.mp h
    rw [List.foldl_cons, ih hl, time_step ha, Nat.add_assoc, ← ticks_append]
    rfl

theorem jiffies_run : ∀ (l : List Act) (s : State), s.jiffies ≤ (l.foldl step s).jiffies := by
  intro l
  induction l with
  | nil => intro s; exact Nat.le_refl _
  | cons a l ih =>
    intro s
    refine Nat.le_trans ?_ (ih (step s a))
    cases a with
    | tick =>
      show s.jiffies ≤ (tick s).jiffies
      unfold tick
      split <;> exact Nat.le_refl _
    | irq => exact Nat.le_succ _

/-! ### The value of a call -/

/-- The wraps of the counter, up to where it is read at `b`, that the `jiffies` read at `a`
do not have. -/
def missed (a b : State) : Nat := b.jiffies + b.pending.toNat - a.jiffies

/-- What the sum of a call that reads `jiffies` at `a` and the counter at `b` loses in 32 bits. -/
def carry (a b : State) : Nat :=
  if 4294967296 ≤ a.jiffies * latch + b.counter then 4294967296 else 0

/-- A call returns the time at which it reads the counter, less what it has missed. -/
theorem jzGetCycles_time {a b : State} (hle : a.jiffies ≤ b.jiffies)
    (hfit : a.jiffies * latch < 4294967296) :
    jzGetCycles a.jiffies b.counter + missed a b * latch + carry a b = time b := by
  have hbound := b.bound
  have hlatch : latch = 7500 := by decide
  have hperiod : jzTimerClock / hz = latch := by decide
  have hmissed : a.jiffies + missed a b = b.jiffies + b.pending.toNat := by
    unfold missed
    omega
  have htime : time b = a.jiffies * latch + b.counter + missed a b * latch := by
    rw [time, ← hmissed, Nat.add_mul]
    omega
  rw [htime]
  unfold jzGetCycles carry
  rw [hperiod]
  split <;> omega

/-- **The clock source runs backwards exactly when the later of two calls has missed more than
the earlier one and the ticks between them make up for.**  Each call reads `jiffies` first and
the counter after `m`, `m'`; `n` lies between the calls. -/
theorem jzGetCycles_le_iff (s : State) (m n m' : List Act)
    (hlegal : EachStep step Legal s (m ++ (n ++ m')))
    (hfit : ((m ++ n).foldl step s).jiffies * latch < 4294967296) :
    jzGetCycles s.jiffies (m.foldl step s).counter
        ≤ jzGetCycles ((m ++ n).foldl step s).jiffies ((m ++ (n ++ m')).foldl step s).counter ↔
      missed ((m ++ n).foldl step s) ((m ++ (n ++ m')).foldl step s) * latch
          + carry ((m ++ n).foldl step s) ((m ++ (n ++ m')).foldl step s)
        ≤ missed s (m.foldl step s) * latch + carry s (m.foldl step s) + ticks (n ++ m') := by
  have hbetween := ((eachStep_append m).mp hlegal).2
  have htime : time ((m ++ (n ++ m')).foldl step s)
      = time (m.foldl step s) + ticks (n ++ m') := by
    rw [List.foldl_append]
    exact time_run (n ++ m') hbetween
  have hfirst : s.jiffies * latch < 4294967296 :=
    Nat.lt_of_le_of_lt (Nat.mul_le_mul_right latch (jiffies_run (m ++ n) s)) hfit
  have hlater : ((m ++ n).foldl step s).jiffies ≤ ((m ++ (n ++ m')).foldl step s).jiffies := by
    rw [← List.append_assoc, List.foldl_append (l := m ++ n)]
    exact jiffies_run m' _
  have hv := jzGetCycles_time (jiffies_run m s) hfirst
  have hv' := jzGetCycles_time hlater hfit
  omega

theorem platTimeInit_ticks (j : Nat) : ∀ (k : Nat) (hk : k < latch),
    EachStep step Legal (platTimeInit j) (List.replicate k .tick) ∧
    (List.replicate k Act.tick).foldl step (platTimeInit j) = ⟨j, k, false, hk⟩ := by
  intro k
  induction k with
  | zero => exact fun _ => ⟨eachStep_nil _, rfl⟩
  | succ k ih =>
    intro hk
    obtain ⟨hlegal, hrun⟩ := ih (by omega)
    rw [List.replicate_succ', eachStep_concat, List.foldl_append, hrun]
    exact ⟨⟨hlegal, fun _ => rfl⟩, dif_pos hk⟩

/-- The counter before it wraps. -/
def lastTick : State := ⟨0, 7499, false, by decide⟩

/-- A call before the wrap and a call after it, the interrupt still raised. -/
theorem jzGetCycles_backwards :
    (∃ l, EachStep step Legal (platTimeInit 0) l ∧ l.foldl step (platTimeInit 0) = lastTick) ∧
    EachStep step Legal lastTick [.tick] ∧
    jzGetCycles lastTick.jiffies lastTick.counter = 7499 ∧
    jzGetCycles ([Act.tick].foldl step lastTick).jiffies
      ([Act.tick].foldl step lastTick).counter = 0 :=
  ⟨⟨_, platTimeInit_ticks 0 7499 (by decide)⟩, by decide⟩

/-- The same with the interrupt taken between the calls. -/
theorem jzGetCycles_forwards :
    EachStep step Legal lastTick [.tick, .irq] ∧
    jzGetCycles lastTick.jiffies lastTick.counter
      ≤ jzGetCycles ([Act.tick, .irq].foldl step lastTick).jiffies
        ([Act.tick, .irq].foldl step lastTick).counter :=
  ⟨by decide, (jzGetCycles_le_iff lastTick [] [.tick, .irq] [] (by decide) (by decide)).mpr
    (by decide)⟩

/-- Calls at one point each, without overflow: the value falls from a call with no interrupt
raised to a call less than a period later with one raised. -/
theorem jzGetCycles_points {s : State} {l : List Act} (hlegal : EachStep step Legal s l)
    (hfit : (l.foldl step s).jiffies * latch + latch ≤ 4294967296) :
    jzGetCycles (l.foldl step s).jiffies (l.foldl step s).counter
        < jzGetCycles s.jiffies s.counter ↔
      s.pending = false ∧ (l.foldl step s).pending = true ∧ ticks l < latch := by
  have hle := Nat.mul_le_mul_right latch (jiffies_run l s)
  have htime := time_run l hlegal
  -- a call at one point misses the raised interrupt and nothing else
  have hvalue : ∀ b : State, b.jiffies * latch + latch ≤ 4294967296 →
      jzGetCycles b.jiffies b.counter + b.pending.toNat * latch = time b := by
    intro b hb
    have hbound := b.bound
    have hv := jzGetCycles_time (Nat.le_refl b.jiffies) (by omega)
    have hcarry : carry b b = 0 := if_neg (by omega)
    have hmissed : missed b b = b.pending.toNat :=
      Nat.add_sub_cancel_left _ _
    rw [hcarry, hmissed] at hv
    exact hv
  have hv := hvalue s (by omega)
  have hv' := hvalue (l.foldl step s) hfit
  cases hp : s.pending <;> cases hp' : (l.foldl step s).pending <;>
    simp only [hp, hp', Bool.toNat_true, Bool.toNat_false, Nat.zero_mul, Nat.one_mul] at hv hv' <;>
    simp <;> omega

theorem jzGetCycles_points_wrap :
    EachStep step Legal lastTick [.tick] ∧
    jzGetCycles ([Act.tick].foldl step lastTick).jiffies ([Act.tick].foldl step lastTick).counter
      < jzGetCycles lastTick.jiffies lastTick.counter :=
  ⟨by decide, (jzGetCycles_points (l := [.tick]) (by decide) (by decide)).mpr (by decide)⟩

end Dingoo.Time
