/-
The wait for the end of a command.

`while (timeout-- && !(STAT & END_CMD_RES))` leaves `timeout` at the number of polls that
were left, and at -1 if none was.  So `timeout == 0` behind the loop says that the bit
was seen in the last poll, which is no time-out, and a loop that ran out of polls goes
on as if the command had ended.  The test is right for a sequence of values in which
the bit is seen before the last poll.
-/
import Dingoo.UBoot.JzMmcExec

namespace Dingoo.JzMmc

/-- `jz_mmc_exec_cmd` from the check of the status on, after `n` reads of it. -/
def afterWait (sig : Signals) (cmd : Int) (rtype : RspType) (blockLen n : Nat) :
    Option Executed :=
  if jzMmcCheckStatus (sig.stat n) ≠ .noError then
    some (.noReply (jzMmcCheckStatus (sig.stat n)))
  else if rtype = .none then some (.noReply .noError)
  else dataPhase sig cmd blockLen (n + 1) (jzMmcGetResponse rtype sig.res)

/-- `timeout == 0` behind the wait. -/
def TimedOut (sig : Signals) : Prop := (pollEndCmdRes sig.stat 0x3fffff 0).1 = 0

instance (sig : Signals) : Decidable (TimedOut sig) := by
  unfold TimedOut
  exact inferInstance

/-- The number of values polled. -/
def polls (sig : Signals) : Nat := (pollEndCmdRes sig.stat 0x3fffff 0).2

theorem jzMmcExecCmd_eq (sig : Signals) (cmd : Int) (rtype : RspType) (blockLen : Nat) :
    jzMmcExecCmd sig cmd rtype blockLen =
      if TimedOut sig then some (.noReply .timeout)
      else afterWait sig cmd rtype blockLen (polls sig) := rfl

theorem pollEndCmdRes_cases (stat : Nat → BitVec 32) : ∀ (timeout n : Nat),
    (∃ i < timeout, (∀ j < i, stat (n + j) &&& statEndCmdRes = 0) ∧
      stat (n + i) &&& statEndCmdRes ≠ 0 ∧
      pollEndCmdRes stat timeout n = (((timeout - 1 - i : Nat) : Int), n + (i + 1))) ∨
    (∀ i < timeout, stat (n + i) &&& statEndCmdRes = 0) ∧
      pollEndCmdRes stat timeout n = (-1, n + timeout) := by
  intro timeout
  induction timeout with
  | zero =>
    intro n
    exact Or.inr ⟨fun i hi => absurd hi (Nat.not_lt_zero i), rfl⟩
  | succ timeout ih =>
    intro n
    rw [pollEndCmdRes]
    by_cases hbit : stat n &&& statEndCmdRes ≠ 0
    · rw [if_pos hbit]
      exact Or.inl ⟨0, Nat.succ_pos _, fun j hj => absurd hj (Nat.not_lt_zero j), hbit, rfl⟩
    · rw [if_neg hbit]
      have hnone := not_not.mp hbit
      have hall : ∀ {k}, (∀ j < k, stat (n + 1 + j) &&& statEndCmdRes = 0) →
          ∀ j < k + 1, stat (n + j) &&& statEndCmdRes = 0 := by
        intro k hk j hj
        cases j with
        | zero => exact hnone
        | succ j =>
          have hj' := hk j (by omega)
          rwa [Nat.add_assoc, Nat.add_comm 1] at hj'
      rcases ih (n + 1) with ⟨i, hi, hbefore, hseen, heq⟩ | ⟨hbefore, heq⟩
      · refine Or.inl ⟨i + 1, by omega, hall hbefore, ?_, ?_⟩
        · rwa [Nat.add_assoc, Nat.add_comm 1] at hseen
        · rw [heq]
          congr 1
          · congr 1
            omega
          · omega
      · refine Or.inr ⟨hall hbefore, ?_⟩
        rw [heq, Nat.add_assoc, Nat.add_comm 1]

theorem wait_cases (sig : Signals) :
    (∃ i < 0x3fffff, (∀ j < i, sig.stat j &&& statEndCmdRes = 0) ∧
      sig.stat i &&& statEndCmdRes ≠ 0 ∧ polls sig = i + 1 ∧
      (TimedOut sig ↔ i = 0x3ffffe)) ∨
    (∀ i < 0x3fffff, sig.stat i &&& statEndCmdRes = 0) ∧ polls sig = 0x3fffff ∧
      ¬ TimedOut sig := by
  unfold polls TimedOut
  rcases pollEndCmdRes_cases sig.stat 0x3fffff 0 with ⟨i, hi, hbefore, hseen, heq⟩ | ⟨hnone, heq⟩
  · rw [Nat.zero_add] at hseen
    refine Or.inl ⟨i, hi, fun j hj => ?_, hseen, ?_, ?_⟩
    · have h := hbefore j hj
      rwa [Nat.zero_add] at h
    · rw [heq, Nat.zero_add]
    · rw [heq]
      simp only [Int.natCast_eq_zero]
      omega
  · refine Or.inr ⟨fun i hi => ?_, ?_, ?_⟩
    · have h := hnone i hi
      rwa [Nat.zero_add] at h
    · rw [heq, Nat.zero_add]
    · rw [heq]
      decide

/-- **The wait reports a time-out exactly if no value polled had the bit**, and otherwise
the status of the command is checked, exactly if the bit is seen before the last poll. -/
theorem wait_timeout_iff (sig : Signals) (cmd : Int) (rtype : RspType) (blockLen : Nat) :
    (((∀ i < polls sig, sig.stat i &&& statEndCmdRes = 0) →
        TimedOut sig ∧ jzMmcExecCmd sig cmd rtype blockLen = some (.noReply .timeout)) ∧
      ((∃ i < polls sig, sig.stat i &&& statEndCmdRes ≠ 0) →
        ¬ TimedOut sig ∧
          jzMmcExecCmd sig cmd rtype blockLen = afterWait sig cmd rtype blockLen (polls sig))) ↔
    ∃ i < 0x3ffffe, sig.stat i &&& statEndCmdRes ≠ 0 := by
  rw [jzMmcExecCmd_eq]
  rcases wait_cases sig with ⟨i, hi, hbefore, hseen, hpolls, htimed⟩ | ⟨hnone, hpolls, htimed⟩
  · have hpolled : ∃ i < polls sig, sig.stat i &&& statEndCmdRes ≠ 0 := ⟨i, by omega, hseen⟩
    constructor
    · rintro ⟨-, hgoes⟩
      refine ⟨i, ?_, hseen⟩
      have hne : i ≠ 0x3ffffe := fun h => (hgoes hpolled).1 (htimed.mpr h)
      omega
    · rintro ⟨j, hj, hbit⟩
      -- the first value with the bit comes no later than this one
      have hij : i ≤ j := Nat.le_of_not_lt fun h => hbit (hbefore j h)
      have hgoes : ¬ TimedOut sig := fun h => by
        have := htimed.mp h
        omega
      refine ⟨fun h => absurd (h i (by omega)) hseen, fun _ => ⟨hgoes, if_neg hgoes⟩⟩
  · constructor
    · rintro ⟨htimes, -⟩
      exact absurd (htimes fun i hi => hnone i (by omega)).1 htimed
    · rintro ⟨j, hj, hbit⟩
      exact absurd (hnone j (by omega)) hbit

/-- A controller that never shows the end of a command: the command is taken for completed. -/
theorem silent_controller_completes :
    ¬ TimedOut ⟨fun _ => 0, fun _ => 0, fun _ => 0, true⟩ ∧
    jzMmcExecCmd ⟨fun _ => 0, fun _ => 0, fun _ => 0, true⟩ 13 .r1 0 =
      some ⟨.noError, ⟨.noError, [0, 0, 0, 0, 0]⟩, none, []⟩ := by
  have hgoes : ¬ TimedOut ⟨fun _ => 0, fun _ => 0, fun _ => 0, true⟩ := by
    rcases wait_cases ⟨fun _ => 0, fun _ => 0, fun _ => 0, true⟩ with
      ⟨i, -, -, hseen, -, -⟩ | ⟨-, -, htimed⟩
    · exact absurd BitVec.zero_and hseen
    · exact htimed
  refine ⟨hgoes, ?_⟩
  rw [jzMmcExecCmd_eq, if_neg hgoes]
  decide

end Dingoo.JzMmc
