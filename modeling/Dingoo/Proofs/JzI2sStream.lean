/-
The bytes a recording returns, against the fragments recorded.

A fragment is converted as a whole, put back into the empty queue, and only then cut
to the bytes the caller still wants.  What is cut off is gone.  So as long as whole
fragments are returned the bytes follow each other as they were recorded; after a
part of a fragment, or after a copy that failed, the next byte is the first one of a
later fragment, and the stream has a gap.
-/
import Dingoo.Lib.Runs
import Dingoo.Proofs.JzI2sRecord

namespace Dingoo.JzI2sRecord

open Dingoo.Lib
open Dingoo.JzI2s (Config getBufferId)

variable {cfg : Config} {s : State}

/-! ### The size of a fragment -/

/-- The bytes a fragment is converted to. -/
def fragmentBytes (cfg : Config) : Nat := (copyCount cfg + 1) / 2 * (samples cfg 0 0).length

theorem length_samples (cfg : Config) (d1 d2 : BitVec 32) :
    (samples cfg d1 d2).length = (samples cfg 0 0).length := by
  unfold samples
  split <;> rfl

theorem fillPair_shape (cfg : Config) (d1 d2 : BitVec 32) (abnormal : Nat) :
    (fillPair cfg d1 d2 abnormal).1.length = (samples cfg 0 0).length ∧
      (fillPair cfg d1 d2 abnormal).2 = (fillPair cfg 0 0 abnormal).2 := by
  unfold fillPair
  split
  · exact ⟨rfl, rfl⟩
  · exact ⟨length_samples cfg d1 d2, rfl⟩

theorem fillLoop_shape (cfg : Config) (v w : Nat → BitVec 32) :
    ∀ (count i abnormal : Nat),
      (fillLoop cfg v count i abnormal).1.length = (count + 1) / 2 * (samples cfg 0 0).length ∧
        (fillLoop cfg v count i abnormal).2 = (fillLoop cfg w count i abnormal).2
  | 0, _, _ => ⟨by simp [fillLoop], rfl⟩
  | 1, i, abnormal => by
    obtain ⟨hlen, hab⟩ := fillPair_shape cfg (v i) (v (i + 1)) abnormal
    obtain ⟨-, hab'⟩ := fillPair_shape cfg (w i) (w (i + 1)) abnormal
    exact ⟨by simp [fillLoop, hlen], by simp only [fillLoop, hab, hab']⟩
  | count + 2, i, abnormal => by
    obtain ⟨hlen, hab⟩ := fillPair_shape cfg (v i) (v (i + 1)) abnormal
    obtain ⟨-, hab'⟩ := fillPair_shape cfg (w i) (w (i + 1)) abnormal
    have ih := fillLoop_shape cfg v w count (i + 2) (fillPair cfg 0 0 abnormal).2
    have hturns : (count + 2 + 1) / 2 = (count + 1) / 2 + 1 := by omega
    refine ⟨?_, ?_⟩
    · simp only [fillLoop, List.length_append, hlen, hab, ih.1]
      rw [hturns, Nat.add_mul, Nat.one_mul, Nat.add_comm]
    · simp only [fillLoop, hab, hab']
      exact ih.2

theorem recordFiller_shape (cfg : Config) (v w : Nat → BitVec 32) (abnormal : Nat) :
    (recordFiller cfg v (copyCount cfg) abnormal).1.length = fragmentBytes cfg ∧
      (recordFiller cfg v (copyCount cfg) abnormal).2 =
        (recordFiller cfg w (copyCount cfg) abnormal).2 :=
  fillLoop_shape cfg v w _ _ _

theorem length_converted (cfg : Config) (w : Nat → BitVec 32) :
    (converted cfg w).length = fragmentBytes cfg := (recordFiller_shape cfg w w 0).1

theorem length_stream (cfg : Config) :
    ∀ (l : List (Nat → BitVec 32)), (stream cfg l).length = l.length * fragmentBytes cfg := by
  intro l
  induction l with
  | nil => simp [stream]
  | cons w l ih =>
    unfold stream at ih ⊢
    rw [List.flatMap_cons, List.length_append, ih, length_converted, List.length_cons,
      Nat.add_mul, Nat.one_mul, Nat.add_comm]

/-! ### Whole fragments -/

/-- When bytes are copied out, all fragments before the one they are from have been
returned to the last byte. -/
def Whole (cfg : Config) (s : State) (a : Act) : Prop :=
  a = .reader false → ∀ c, s.pc = .copyOut c →
    s.returned.length + fragmentBytes cfg = s.taken * fragmentBytes cfg

/-- The bytes returned are the first ones of the fragments taken. -/
def Unbroken (cfg : Config) (s : State) : Prop :=
  s.returned <+: stream cfg (s.recorded.take s.taken)

theorem stream_mono {l l' : List (Nat → BitVec 32)} (h : l <+: l') :
    stream cfg l <+: stream cfg l' := by
  obtain ⟨r, rfl⟩ := h
  unfold stream
  rw [List.flatMap_append]
  exact List.prefix_append _ _

theorem Unbroken.grow (h : Unbroken cfg s) {t : State} (hreturned : t.returned = s.returned)
    (hrecorded : s.recorded <+: t.recorded) (htaken : s.taken ≤ t.taken)
    (hle : s.taken ≤ s.recorded.length) : Unbroken cfg t := by
  unfold Unbroken at h ⊢
  rw [hreturned]
  refine h.trans (stream_mono ?_)
  obtain ⟨r, hr⟩ := hrecorded
  have hfirst : s.recorded.take s.taken = t.recorded.take s.taken := by
    rw [← hr, List.take_append_of_le_length hle]
  rw [hfirst]
  exact List.take_prefix_take_left htaken

theorem Unbroken.copyOut (h : Unbroken cfg s) (hinv : Inv cfg s) {c : Call}
    (hpc : s.pc = .copyOut c)
    (hwhole : s.returned.length + fragmentBytes cfg = s.taken * fragmentBytes cfg) :
    Unbroken cfg (readerStep cfg false s) := by
  obtain ⟨n, w, hn, hword, htmp, -⟩ := hinv.ready c (by rw [hpc]; rfl)
  have hlt : n < s.recorded.length := by
    have := hinv.taken_le
    omega
  have hlast : s.recorded.take (n + 1) = s.recorded.take n ++ [w] := by
    rw [List.take_add_one, hword]
    rfl
  have hsplit : stream cfg (s.recorded.take (n + 1))
      = stream cfg (s.recorded.take n) ++ converted cfg w := by
    rw [hlast]
    simp [stream]
  -- what has been returned is all of the earlier fragments
  have hlen : s.returned.length = (stream cfg (s.recorded.take n)).length := by
    rw [length_stream, List.length_take, Nat.min_eq_left (Nat.le_of_lt hlt)]
    rw [hn, Nat.add_mul, Nat.one_mul] at hwhole
    omega
  unfold Unbroken at h
  rw [hn, hsplit] at h
  have heq : s.returned = stream cfg (s.recorded.take n) :=
    (List.prefix_of_prefix_length_le h (List.prefix_append _ _)
      (Nat.le_of_eq hlen)).eq_of_length hlen
  simp only [Unbroken, readerStep, hpc, Bool.false_eq_true, if_false]
  rw [hn, hsplit, heq, htmp]
  exact (List.prefix_append_right_inj _).mpr (List.take_prefix _ _)

theorem logs_readerStep (cfg : Config) (fault : Bool) (s : State) :
    (readerStep cfg fault s).recorded = s.recorded ∧ s.taken ≤ (readerStep cfg fault s).taken ∧
      ((readerStep cfg fault s).returned = s.returned ∨
        fault = false ∧ ∃ c, s.pc = .copyOut c) := by
  cases hpc : s.pc with
  | getFull c =>
    simp only [readerStep, hpc]
    refine ⟨trivial, ?_, Or.inl trivial⟩
    split <;> omega
  | copyOut c =>
    cases fault with
    | false => simp [readerStep, hpc]
    | true => simp [readerStep, hpc]
  | _ => simp [readerStep, hpc, audioStartDma]

theorem Unbroken.step (mic : Nat → Nat → BitVec 32) (h : Unbroken cfg s) (hinv : Inv cfg s)
    {a : Act} (ha : Whole cfg s a) : Unbroken cfg (step cfg mic s a) := by
  refine step_rule hinv h ?_ ?_ ?_
  · intro count nonblock _ hpc
    exact h
  · rintro fault rfl
    obtain ⟨hrecorded, htaken, hreturned⟩ := logs_readerStep cfg fault s
    rcases hreturned with hreturned | ⟨rfl, c, hpc⟩
    · exact h.grow hreturned (by rw [hrecorded]) htaken hinv.taken_le
    · exact h.copyOut hinv hpc (ha rfl c hpc)
  · intro id t _ hd
    obtain ⟨htaken, -, hreturned, -⟩ := hd.same
    refine h.grow hreturned ?_ (Nat.le_of_eq htaken.symm) hinv.taken_le
    rw [hd.recorded]
    exact List.prefix_append _ _

theorem unbroken_run (mic : Nat → Nat → BitVec 32) (acts : List Act) (hinv : Inv cfg s)
    (h : Unbroken cfg s) (hall : EachStep (step cfg mic) (Whole cfg) s acts) :
    Unbroken cfg (run cfg mic s acts) :=
  (hall.invariant (fun t => Inv cfg t ∧ Unbroken cfg t)
    (fun _ a ht ha => ⟨inv_step mic ht.1 a, ht.2.step mic ht.1 ha⟩) acts ⟨hinv, h⟩).2

end Dingoo.JzI2sRecord
