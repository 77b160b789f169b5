/-
When the initialisation of the card ends.

Two of the commands are sent again for as long as the card replies that it is still
powering up: `SD_SEND_OP_COND`, with an `MMC_APP_CMD` between, and `MMC_SEND_OP_COND`.
Nothing counts them, since the variable that should starts at zero in every call of
the machine.  All other commands lead on to one that was not sent before.

So whether the polling ends is decided by the replies to these two.  `SdAt.waits` and
`At.waits` say that while the card replies so the loop goes on.  After that it ends, unless it
gets as far as `MMC_SEND_CSD` and has no response there (`At.cid_returns_iff`).
-/
import Mathlib.Data.Nat.Find
import Mathlib.Logic.Relation
import Dingoo.UBoot.JzMmcInit

namespace Dingoo.JzMmc

open Relation (TransGen)

variable {replies : Nat → Reply} {s t : InitState} {r : Int × InitState}

/-! ### The loop -/

/-- The loop, from this state, ends with this result. -/
def Returns (replies : Nat → Reply) (s : InitState) (r : Int × InitState) : Prop :=
  ∃ fuel, initLoop replies fuel s = some r

/-- The call sends another command. -/
def Goes (replies : Nat → Reply) (s t : InitState) : Prop :=
  mmcInitCardState replies s = (.doing, t)

theorem Goes.fuel (h : Goes replies s t) {fuel : Nat} (hr : initLoop replies fuel s = some r) :
    ∃ fuel' < fuel, initLoop replies fuel' t = some r := by
  cases fuel with
  | zero => cases hr
  | succ fuel =>
    rw [initLoop, h] at hr
    exact ⟨fuel, Nat.lt_succ_self fuel, hr⟩

theorem returns_doing (h : Goes replies s t) : Returns replies s r ↔ Returns replies t r := by
  constructor
  · rintro ⟨fuel, hr⟩
    obtain ⟨fuel', -, hr'⟩ := h.fuel hr
    exact ⟨fuel', hr'⟩
  · rintro ⟨fuel, hr⟩
    refine ⟨fuel + 1, ?_⟩
    rw [initLoop, h]
    exact hr

theorem returns_goes (h : TransGen (Goes replies) s t) :
    Returns replies s r ↔ Returns replies t r := by
  induction h with
  | single h => exact returns_doing h
  | tail _ h ih => exact ih.trans (returns_doing h)

theorem goes_fuel (h : TransGen (Goes replies) s t) {fuel : Nat}
    (hr : initLoop replies fuel s = some r) :
    ∃ fuel' < fuel, initLoop replies fuel' t = some r := by
  induction h with
  | single h => exact Goes.fuel h hr
  | tail _ h ih =>
    obtain ⟨fuel', hlt, hr'⟩ := ih
    obtain ⟨fuel'', hlt', hr''⟩ := Goes.fuel h hr'
    exact ⟨fuel'', Nat.lt_trans hlt' hlt, hr''⟩

/-! A poll: from one state to the next of the same kind, for as long as the card waits. -/

section
variable {P : Nat → InitState → Prop} {W : Nat → Prop}
  (hstep : ∀ {i s}, P i s → W i → ∃ t, TransGen (Goes replies) s t ∧ P (i + 1) t)
include hstep

theorem polls_until :
    ∀ (m : Nat) {i : Nat} {s : InitState}, P i s → (∀ n < m, W (i + n)) →
      ∃ t, P (i + m) t ∧ ∀ r, Returns replies s r ↔ Returns replies t r := by
  intro m
  induction m with
  | zero =>
    intro i s h _
    exact ⟨s, h, fun r => Iff.rfl⟩
  | succ m ih =>
    intro i s h hall
    obtain ⟨t, hgoes, ht⟩ := hstep h (hall 0 (Nat.succ_pos m))
    have hshift : ∀ n, i + 1 + n = i + (n + 1) := fun n => by omega
    obtain ⟨u, hu, hreturns⟩ :=
      ih ht fun n hn => by rw [hshift]; exact hall (n + 1) (Nat.succ_lt_succ hn)
    exact ⟨u, hshift m ▸ hu, fun r => (returns_goes hgoes).trans (hreturns r)⟩

theorem polls_end :
    ∀ (fuel : Nat) {i : Nat} {s : InitState}, P i s → initLoop replies fuel s = some r →
      ∃ n, ¬ W (i + n) := by
  intro fuel
  induction fuel using Nat.strong_induction_on with
  | _ fuel ih =>
    intro i s h hr
    by_cases hw : W i
    · obtain ⟨t, hgoes, ht⟩ := hstep h hw
      obtain ⟨fuel', hlt, hr'⟩ := goes_fuel hgoes hr
      obtain ⟨n, hn⟩ := ih fuel' hlt ht hr'
      refine ⟨n + 1, ?_⟩
      rwa [Nat.add_assoc, Nat.add_comm 1] at hn
    · exact ⟨0, hw⟩

/-- If the loop ends, the card stops waiting, and what follows the first reply of another kind
decides how. -/
theorem polls_first {i : Nat} (h : P i s) (hr : Returns replies s r) :
    ∃ m t, (∀ n < m, W (i + n)) ∧ ¬ W (i + m) ∧ P (i + m) t ∧ Returns replies t r := by
  classical
  obtain ⟨fuel, hfuel⟩ := hr
  have hex := polls_end hstep fuel h hfuel
  have hbefore : ∀ n < Nat.find hex, W (i + n) := fun n hn => not_not.mp (Nat.find_min hex hn)
  obtain ⟨t, ht, hreturns⟩ := polls_until hstep (Nat.find hex) h hbefore
  exact ⟨Nat.find hex, t, hbefore, Nat.find_spec hex, ht, (hreturns r).mp ⟨fuel, hfuel⟩⟩

end

theorem returns_failed (h : mmcInitCardState replies s = (.failed, t)) :
    Returns replies s (-1, t) := ⟨1, by rw [initLoop, h]; rfl⟩

theorem returns_passed (h : mmcInitCardState replies s = (.passed, t)) :
    Returns replies s (0, t) := ⟨1, by rw [initLoop, h]; rfl⟩

/-- The number of `SD_SEND_OP_COND` commands sent. -/
def sdCount (s : InitState) : Nat := s.sent.countP fun c => c.cmd = 41

theorem sdCount_send (cmd : Int) (arg : BitVec 32) (rtype : RspType) :
    sdCount (mmcSimpleCmd replies cmd arg rtype s)
      = sdCount s + if cmd = 41 then 1 else 0 := by
  simp [sdCount, mmcSimpleCmd, List.countP_append, List.countP_singleton]

theorem not_returns_fault (h : mmcInitCardState replies s = (.fault, t)) :
    ¬ ∃ r, Returns replies s r := by
  rintro ⟨r, fuel, hfuel⟩
  cases fuel with
  | zero => cases hfuel
  | succ fuel =>
    rw [initLoop, h] at hfuel
    cases hfuel

theorem initLoop_value :
    ∀ (fuel : Nat) {s : InitState} {r : Int × InitState},
      initLoop replies fuel s = some r → r.1 = 0 ∨ r.1 = -1 := by
  intro fuel
  induction fuel with
  | zero =>
    intro s r h
    cases h
  | succ fuel ih =>
    intro s r h
    unfold initLoop at h
    split at h
    · exact ih h
    · obtain rfl := Option.some.inj h
      exact Or.inl rfl
    · obtain rfl := Option.some.inj h
      exact Or.inr rfl
    · cases h

/-! ### What a call can do -/

/-- This call ends the loop, or sends one of these commands. -/
def Follows (replies : Nat → Reply) (cmds : List Int) (s : InitState) (x : Init × InitState) :
    Prop :=
  (x.1 ≠ .doing ∧ x.2.sent = s.sent) ∨
    ∃ cmd ∈ cmds, ∃ arg rtype t, t.sent = s.sent ∧
      x = (.doing, mmcSimpleCmd replies cmd arg rtype t)

section

variable {cmds : List Int} {x : Init × InitState}

theorem follows_end {i : Init} (hi : i ≠ .doing) (hsent : t.sent = s.sent) :
    Follows replies cmds s (i, t) := Or.inl ⟨hi, hsent⟩

theorem follows_send {cmd : Int} (hcmd : cmd ∈ cmds) {arg : BitVec 32} {rtype : RspType}
    (hsent : t.sent = s.sent) :
    Follows replies cmds s (.doing, mmcSimpleCmd replies cmd arg rtype t) :=
  Or.inr ⟨cmd, hcmd, arg, rtype, t, hsent, rfl⟩

theorem Follows.sdCount_eq (h : Follows replies cmds s x) (hcmds : 41 ∉ cmds) :
    sdCount x.2 = sdCount s := by
  rcases h with ⟨-, hsent⟩ | ⟨cmd, hcmd, arg, rtype, t, hsent, rfl⟩
  · rw [sdCount, hsent, sdCount]
  · have hne : cmd ≠ 41 := fun heq => hcmds (heq ▸ hcmd)
    rw [sdCount_send, if_neg hne, sdCount, hsent, sdCount, Nat.add_zero]

theorem Follows.cmd_mem (h : Follows replies cmds s x) (hdoing : x.1 = .doing) :
    x.2.cmd ∈ cmds := by
  rcases h with ⟨hend, -⟩ | ⟨cmd, hcmd, arg, rtype, t, -, rfl⟩
  · exact absurd hdoing hend
  · exact hcmd

end

theorem mmcSendOpCond_follows (h : s.cmd = 1) :
    Follows replies [1, 2] s (mmcInitCardState replies s) := by
  have hstate : mmcInitCardState replies s = mmcSendOpCond replies s := by
    simp [mmcInitCardState, h]
  rw [hstate]
  unfold mmcSendOpCond
  dsimp only
  split
  · exact follows_end (by decide) rfl
  · split
    · exact follows_send (by decide) rfl
    · exact follows_send (by decide) rfl

theorem allSendCid_follows (h : s.cmd = 2) :
    Follows replies [3] s (mmcInitCardState replies s) := by
  have hstate : mmcInitCardState replies s = allSendCid replies s := by
    simp [mmcInitCardState, h]
  rw [hstate]
  unfold allSendCid
  dsimp only
  split
  · exact follows_end (by decide) rfl
  · split
    · exact follows_send (by decide) rfl
    · exact follows_send (by decide) rfl

theorem setRelativeAddr_follows (h : s.cmd = 3) :
    Follows replies [9] s (mmcInitCardState replies s) := by
  have hstate : mmcInitCardState replies s = setRelativeAddr replies s := by
    simp [mmcInitCardState, h]
  rw [hstate]
  unfold setRelativeAddr
  split
  dsimp only
  split
  · exact follows_end (by decide) rfl
  · exact follows_send (by decide) rfl

theorem sendCsd_follows (h : s.cmd = 9) :
    Follows replies [] s (mmcInitCardState replies s) := by
  have hstate : mmcInitCardState replies s = sendCsd s := by
    simp [mmcInitCardState, h]
  rw [hstate]
  unfold sendCsd
  dsimp only
  split
  · exact follows_end (by decide) rfl
  · split
    · exact follows_end (by decide) rfl
    · exact follows_end (by decide) rfl

/-! ### After the polling of an SD card -/

/-- The commands that follow it. -/
def lateCmds : List Int := [1, 2, 3, 9]

theorem late_follows (h : s.cmd ∈ lateCmds) :
    ∃ cmds ⊆ lateCmds, Follows replies cmds s (mmcInitCardState replies s) := by
  simp only [lateCmds, List.mem_cons, List.not_mem_nil, or_false] at h
  rcases h with hc | hc | hc | hc
  · exact ⟨_, by decide, mmcSendOpCond_follows hc⟩
  · exact ⟨_, by decide, allSendCid_follows hc⟩
  · exact ⟨_, by decide, setRelativeAddr_follows hc⟩
  · exact ⟨_, by decide, sendCsd_follows hc⟩

theorem late_sdCount :
    ∀ (fuel : Nat) {s : InitState} {r : Int × InitState}, s.cmd ∈ lateCmds →
      initLoop replies fuel s = some r → sdCount r.2 = sdCount s := by
  intro fuel
  induction fuel with
  | zero =>
    intro s r _ hr
    cases hr
  | succ fuel ih =>
    intro s r h hr
    obtain ⟨cmds, hsub, hfollows⟩ :
        ∃ cmds ⊆ lateCmds, Follows replies cmds s (mmcInitCardState replies s) :=
      late_follows h
    have hcount := hfollows.sdCount_eq fun hmem => absurd (hsub hmem) (by decide)
    unfold initLoop at hr
    split at hr
    · rename_i t heq
      rw [heq] at hfollows hcount
      rw [ih (hsub (hfollows.cmd_mem rfl)) hr, hcount]
    · rename_i t heq
      rw [heq] at hcount
      obtain rfl := Option.some.inj hr
      exact hcount
    · rename_i t heq
      rw [heq] at hcount
      obtain rfl := Option.some.inj hr
      exact hcount
    · cases hr

/-- The last command was this one, and its reply the `k`th. -/
structure At (replies : Nat → Reply) (cmd : Int) (k : Nat) (s : InitState) : Prop where
  cmd : s.cmd = cmd
  reply : s.reply = replies k
  sent : s.sent.length = k + 1

theorem at_send {k : Nat} (hsent : s.sent.length = k) (cmd : Int) (arg : BitVec 32)
    (rtype : RspType) : At replies cmd k (mmcSimpleCmd replies cmd arg rtype s) := by
  refine ⟨rfl, ?_, ?_⟩
  · show replies s.sent.length = replies k
    rw [hsent]
  · show (s.sent ++ [_]).length = k + 1
    rw [List.length_append, List.length_singleton, hsent]

/-- If the replies from the `k`th on lead from `MMC_ALL_SEND_CID` to `MMC_SEND_CSD`, that one is
answered, be it with an error. -/
def CsdAnswered (replies : Nat → Reply) (sd : Bool) (k : Nat) : Prop :=
  (mmcUnpackCid (replies k) = .noError ∨ mmcUnpackCid (replies k) = .crc) →
    (if sd then (mmcUnpackR6 3 (replies (k + 1))).1 else mmcUnpackR1 3 (replies (k + 1)))
      = .noError →
    (replies (k + 2)).result ≠ .noResponse

theorem readable_iff (r : Reply) : readable (unpackReserved r) = true ↔ r.result ≠ .noResponse := by
  unfold unpackReserved
  split
  · cases r.result <;> decide
  · rename_i hresult
    rw [not_not.mp hresult]
    split <;> decide

namespace At

variable {k : Nat}

theorem csd_returns_iff (h : At replies 9 k s) :
    (∃ r, Returns replies s r) ↔ (replies k).result ≠ .noResponse := by
  have hstate : mmcInitCardState replies s = sendCsd s := by
    simp [mmcInitCardState, h.cmd]
  unfold sendCsd mmcUnpackCsd at hstate
  dsimp only at hstate
  rw [← readable_iff, ← h.reply]
  cases hread : readable (unpackReserved s.reply) with
  | false =>
    simp only [hread, Bool.not_false, if_true] at hstate
    simp [not_returns_fault hstate]
  | true =>
    simp only [hread, Bool.not_true, Bool.false_eq_true, if_false] at hstate
    refine ⟨fun _ => rfl, fun _ => ?_⟩
    split at hstate
    · exact ⟨_, returns_failed hstate⟩
    · exact ⟨_, returns_passed hstate⟩

theorem addr_returns_iff (h : At replies 3 k s) :
    (∃ r, Returns replies s r) ↔
      ((if s.sd then (mmcUnpackR6 3 (replies k)).1 else mmcUnpackR1 3 (replies k)) = .noError →
        (replies (k + 1)).result ≠ .noResponse) := by
  have hstate : mmcInitCardState replies s = setRelativeAddr replies s := by
    simp [mmcInitCardState, h.cmd]
  unfold setRelativeAddr at hstate
  rw [h.cmd, h.reply] at hstate
  cases hsd : s.sd with
  | _ =>
    simp only [hsd, Bool.false_eq_true, if_false, if_true] at hstate ⊢
    split at hstate
    · rename_i hbad
      simp only [hbad, false_imp_iff, iff_true]
      exact ⟨_, returns_failed hstate⟩
    · rename_i hok
      simp only [returns_doing hstate, not_not.mp hok, forall_true_left]
      exact csd_returns_iff (at_send (by exact h.sent) 9 _ _)

/-- After the polling the loop returns, unless `MMC_SEND_CSD` is not answered. -/
theorem cid_returns_iff (h : At replies 2 k s) :
    (∃ r, Returns replies s r) ↔ CsdAnswered replies s.sd k := by
  have hstate : mmcInitCardState replies s = allSendCid replies s := by
    simp [mmcInitCardState, h.cmd]
  unfold allSendCid at hstate
  unfold CsdAnswered
  dsimp only at hstate
  rw [h.reply] at hstate
  split at hstate
  · rename_i hbad
    have hnot : ¬ (mmcUnpackCid (replies k) = .noError ∨ mmcUnpackCid (replies k) = .crc) :=
      not_or.mpr hbad
    simp only [hnot, false_imp_iff, iff_true]
    exact ⟨_, returns_failed hstate⟩
  · rename_i hok
    have hcid : mmcUnpackCid (replies k) = .noError ∨ mmcUnpackCid (replies k) = .crc := by
      by_contra hno
      exact hok (not_or.mp hno)
    simp only [hcid, forall_true_left]
    split at hstate
    · simp only [returns_doing hstate]
      exact addr_returns_iff (at_send (by exact h.sent) 3 _ _)
    · simp only [returns_doing hstate]
      exact addr_returns_iff (at_send (by exact h.sent) 3 _ _)

end At

/-! ### Polling an MMC card -/

/-- The card has not sent its OCR. -/
abbrev Rejected (r : Reply) : Prop := (mmcUnpackR3 r).1 ≠ .noError

/-- The card has sent its OCR, and is still powering up. -/
def Waiting (r : Reply) : Prop := ¬ Rejected r ∧ (mmcUnpackR3 r).2 &&& mmcCardBusy = 0

/-- The card stops replying that it is powering up, and answers the commands that follow. -/
def MmcPowersUp (replies : Nat → Reply) (k : Nat) : Prop :=
  ∃ i, (∀ m < i, Waiting (replies (k + m))) ∧ ¬ Waiting (replies (k + i)) ∧
    (¬ Rejected (replies (k + i)) → CsdAnswered replies false (k + i + 1))

namespace At

variable {k : Nat}

theorem waits (h : At replies 1 k s) (hw : Waiting (replies k)) :
    ∃ t, TransGen (Goes replies) s t ∧ At replies 1 (k + 1) t := by
  refine ⟨mmcSimpleCmd replies 1 mmcOcrArg .r3 s, .single ?_, at_send h.sent _ _ _⟩
  unfold Goes
  have hstate : mmcInitCardState replies s = mmcSendOpCond replies s := by
    simp [mmcInitCardState, h.cmd]
  rw [hstate]
  unfold mmcSendOpCond
  dsimp only
  rw [h.reply, if_neg hw.1, if_pos hw.2]

theorem op_returns_iff (h : At replies 1 k s) (hw : ¬ Waiting (replies k)) :
    (∃ r, Returns replies s r) ↔
      (¬ Rejected (replies k) → CsdAnswered replies false (k + 1)) := by
  have hstate : mmcInitCardState replies s = mmcSendOpCond replies s := by
    simp [mmcInitCardState, h.cmd]
  unfold mmcSendOpCond at hstate
  dsimp only at hstate
  rw [h.reply] at hstate
  split at hstate
  · rename_i hrejected
    simp only [not_not.mpr hrejected, false_imp_iff, iff_true]
    exact ⟨_, returns_failed hstate⟩
  · rename_i hocr
    rw [if_neg fun hbusy => hw ⟨hocr, hbusy⟩] at hstate
    simp only [returns_doing hstate, hocr, not_false_eq_true, forall_true_left]
    exact cid_returns_iff (at_send (by exact h.sent) 2 _ _)

theorem mmc_returns_iff (h : At replies 1 k s) :
    (∃ r, Returns replies s r) ↔ MmcPowersUp replies k := by
  constructor
  · rintro ⟨r, hr⟩
    obtain ⟨i, t, hbefore, hnot, ht, hr'⟩ := polls_first waits h hr
    exact ⟨i, hbefore, hnot, (ht.op_returns_iff hnot).mp ⟨r, hr'⟩⟩
  · rintro ⟨i, hbefore, hnot, hcsd⟩
    obtain ⟨t, ht, hreturns⟩ := polls_until waits i h hbefore
    simp only [hreturns]
    exact (ht.op_returns_iff hnot).mpr hcsd

end At

/-! ### Polling an SD card -/

/-- The last command was the `j`th `SD_SEND_OP_COND`, counted from zero. -/
structure SdAt (replies : Nat → Reply) (j : Nat) (s : InitState) : Prop where
  cmd : s.cmd = 41
  reply : s.reply = replies (4 + 2 * j)
  sent : s.sent.length = 5 + 2 * j
  count : sdCount s = j + 1

theorem appCmd_state (h : s.cmd = 55) :
    mmcInitCardState replies s = (.doing, mmcSimpleCmd replies 41 0x40300000 .r3 s) := by
  have hstate : mmcInitCardState replies s = (.doing, appCmd replies s) := by
    simp [mmcInitCardState, h]
  rw [hstate]
  unfold appCmd
  dsimp only
  split
  · rfl
  · rw [if_pos (by decide)]

theorem sdAt_appCmd {j : Nat} (hcmd : s.cmd = 55) (hsent : s.sent.length = 4 + 2 * j)
    (hcount : sdCount s = j) :
    ∃ t, mmcInitCardState replies s = (.doing, t) ∧ SdAt replies j t := by
  refine ⟨_, appCmd_state hcmd, rfl, ?_, ?_, ?_⟩
  · show replies s.sent.length = replies (4 + 2 * j)
    rw [hsent]
  · show (s.sent ++ [_]).length = 5 + 2 * j
    rw [List.length_append, List.length_singleton, hsent]
    omega
  · rw [sdCount_send, if_pos rfl, hcount]

namespace SdAt

variable {j : Nat}

section
variable (h : SdAt replies j s)
include h

theorem state : mmcInitCardState replies s = (.doing, sdSendOpCond replies s) := by
  simp [mmcInitCardState, h.cmd]

theorem waits (hw : Waiting (replies (4 + 2 * j))) :
    ∃ t, TransGen (Goes replies) s t ∧ SdAt replies (j + 1) t := by
  have hstate := h.state
  unfold sdSendOpCond at hstate
  dsimp only at hstate
  rw [h.reply, if_neg hw.1, if_pos hw.2] at hstate
  have hsent : (mmcSimpleCmd replies 55 0 .r1 s).sent.length = 4 + 2 * (j + 1) := by
    show (s.sent ++ [_]).length = 4 + 2 * (j + 1)
    rw [List.length_append, List.length_singleton, h.sent]
    omega
  have hcount : sdCount (mmcSimpleCmd replies 55 0 .r1 s) = j + 1 := by
    rw [sdCount_send, if_neg (by decide), h.count]
  obtain ⟨u, hu, hat⟩ := sdAt_appCmd rfl hsent hcount
  exact ⟨u, .tail (.single hstate) hu, hat⟩

theorem rejected (hr : Rejected (replies (4 + 2 * j))) :
    ∃ t, mmcInitCardState replies s = (.doing, t) ∧ At replies 1 (5 + 2 * j) t ∧
      sdCount t = j + 1 := by
  have hstate := h.state
  unfold sdSendOpCond at hstate
  dsimp only at hstate
  rw [h.reply, if_pos hr] at hstate
  refine ⟨_, hstate, at_send h.sent _ _ _, ?_⟩
  rw [sdCount_send, if_neg (by decide), h.count]

theorem ready (hr : ¬ Rejected (replies (4 + 2 * j))) (hw : ¬ Waiting (replies (4 + 2 * j))) :
    ∃ t, mmcInitCardState replies s = (.doing, t) ∧ At replies 2 (5 + 2 * j) t ∧ t.sd = true ∧
      sdCount t = j + 1 := by
  have hstate := h.state
  unfold sdSendOpCond at hstate
  dsimp only at hstate
  rw [h.reply, if_neg hr, if_neg fun hbusy => hw ⟨hr, hbusy⟩] at hstate
  refine ⟨_, hstate, at_send (by exact h.sent) _ _ _, rfl, ?_⟩
  rw [sdCount_send, if_neg (by decide), Nat.add_zero]
  exact h.count

theorem returns_iff (hw : ¬ Waiting (replies (4 + 2 * j))) :
    (∃ r, Returns replies s r) ↔
      (¬ Rejected (replies (4 + 2 * j)) → CsdAnswered replies true (5 + 2 * j)) ∧
        (Rejected (replies (4 + 2 * j)) → MmcPowersUp replies (5 + 2 * j)) := by
  by_cases hr : Rejected (replies (4 + 2 * j))
  · obtain ⟨t, hstate, hat, -⟩ := h.rejected hr
    simp only [returns_doing hstate, hat.mmc_returns_iff]
    exact ⟨fun hmmc => ⟨fun hno => absurd hr hno, fun _ => hmmc⟩, fun hboth => hboth.2 hr⟩
  · obtain ⟨t, hstate, hat, hsd, -⟩ := h.ready hr hw
    simp only [returns_doing hstate, hat.cid_returns_iff, hsd]
    exact ⟨fun hcsd => ⟨fun _ => hcsd, fun hyes => absurd hyes hr⟩, fun hboth => hboth.1 hr⟩

theorem sdCount_eq (hw : ¬ Waiting (replies (4 + 2 * j))) (hreturns : Returns replies s r) :
    sdCount r.2 = j + 1 := by
  by_cases hr : Rejected (replies (4 + 2 * j))
  · obtain ⟨t, hstate, hat, hcount⟩ := h.rejected hr
    obtain ⟨fuel, hfuel⟩ := (returns_doing hstate).mp hreturns
    rw [late_sdCount fuel (by rw [hat.cmd]; decide) hfuel, hcount]
  · obtain ⟨t, hstate, hat, -, hcount⟩ := h.ready hr hw
    obtain ⟨fuel, hfuel⟩ := (returns_doing hstate).mp hreturns
    rw [late_sdCount fuel (by rw [hat.cmd]; decide) hfuel, hcount]

end

end SdAt

/-! ### The whole initialisation -/

/-- The state in which the loop of `mmc_init_card` starts. -/
def started (replies : Nat → Reply) (s : InitState) : InitState :=
  let s := mmcSimpleCmd replies (-1) 0 .none { s with sent := [] }
  { mmcSimpleCmd replies 0 0 .none s with sd := true }

/-- The card is sent 0, 8 and 55, and then the first `SD_SEND_OP_COND`. -/
theorem started_polls (replies : Nat → Reply) (s : InitState) :
    ∃ t, SdAt replies 0 t ∧ ∀ r, Returns replies (started replies s) r ↔ Returns replies t r := by
  have hidle : mmcInitCardState replies (started replies s)
      = (.doing, mmcSimpleCmd replies 8 0x1aa .r1 (started replies s)) := rfl
  have hcond : mmcInitCardState replies (mmcSimpleCmd replies 8 0x1aa .r1 (started replies s))
      = (.doing, mmcSimpleCmd replies 55 0 .r1
          (mmcSimpleCmd replies 8 0x1aa .r1 (started replies s))) := rfl
  obtain ⟨t, ht, hat⟩ :
      ∃ t, mmcInitCardState replies (mmcSimpleCmd replies 55 0 .r1
          (mmcSimpleCmd replies 8 0x1aa .r1 (started replies s))) = (.doing, t) ∧
        SdAt replies 0 t :=
    sdAt_appCmd rfl rfl rfl
  refine ⟨t, hat, fun r => ?_⟩
  rw [returns_doing hidle, returns_doing hcond, returns_doing ht]

/-- `mmc_init_card` returns one of its two results, with at most a hundred
`SD_SEND_OP_COND` commands sent. -/
def Terminates (replies : Nat → Reply) (s : InitState) : Prop :=
  ∃ fuel ret t, mmcInitCard replies fuel s = some (ret, t) ∧
    (ret = MmcResult.noError.code ∨ ret = MmcResult.noResponse.code) ∧ sdCount t ≤ 100

theorem terminates_iff_returns :
    Terminates replies s ↔ ∃ r, Returns replies (started replies s) r ∧ sdCount r.2 ≤ 100 := by
  constructor
  · rintro ⟨fuel, ret, t, hrun, -, hcount⟩
    exact ⟨(ret, t), ⟨fuel, hrun⟩, hcount⟩
  · rintro ⟨⟨ret, t⟩, ⟨fuel, hrun⟩, hcount⟩
    exact ⟨fuel, ret, t, hrun, initLoop_value fuel hrun, hcount⟩

/-- The card replies otherwise than that it is powering up to one of the first hundred
`SD_SEND_OP_COND` commands and, if it rejects that one, to some `MMC_SEND_OP_COND`; and if the
commands that follow get as far as `MMC_SEND_CSD`, it answers that. -/
def PowersUp (replies : Nat → Reply) : Prop :=
  ∃ j < 100, (∀ i < j, Waiting (replies (4 + 2 * i))) ∧ ¬ Waiting (replies (4 + 2 * j)) ∧
    (¬ Rejected (replies (4 + 2 * j)) → CsdAnswered replies true (5 + 2 * j)) ∧
    (Rejected (replies (4 + 2 * j)) → MmcPowersUp replies (5 + 2 * j))

/-- **The initialisation ends as it should exactly if the card powers up and answers
`MMC_SEND_CSD`.**  Nothing else bounds the two loops of the polling. -/
theorem mmcInitCard_terminates_iff (replies : Nat → Reply) (s : InitState) :
    Terminates replies s ↔ PowersUp replies := by
  obtain ⟨t, hat, hstart⟩ := started_polls replies s
  simp only [terminates_iff_returns, hstart]
  constructor
  · rintro ⟨r, hr, hcount⟩
    obtain ⟨j, u, hbefore, hnot, hu, hr'⟩ := polls_first SdAt.waits hat hr
    rw [Nat.zero_add] at hnot hu
    have hj := hu.sdCount_eq hnot hr'
    exact ⟨j, by omega, fun i hi => Nat.zero_add i ▸ hbefore i hi, hnot,
      (hu.returns_iff hnot).mp ⟨r, hr'⟩⟩
  · rintro ⟨j, hj, hbefore, hnot, hmmc⟩
    obtain ⟨u, hu, hreturns⟩ := polls_until SdAt.waits j hat fun i hi => by
      rw [Nat.zero_add]
      exact hbefore i hi
    rw [Nat.zero_add] at hu
    obtain ⟨r, hr⟩ := (hu.returns_iff hnot).mpr hmmc
    refine ⟨r, (hreturns r).mpr hr, ?_⟩
    rw [hu.sdCount_eq hnot hr]
    omega

/-- The OCR of a card that is powering up. -/
def poweringUp : Reply := { result := .noError, response := [0x3f, 0, 0xff, 0x80, 0] }

/-- The state of the driver before the first card. -/
def noCard : InitState :=
  { cmd := 0, reply := ⟨.noError, []⟩, id := 0, sd := false, rca := 0, state := .empty,
    sd20 := false, mmcReady := false, sent := [] }

/-- A card that goes on powering up keeps the loop going, and one that is no longer there after
the first 204 commands has been sent `SD_SEND_OP_COND` 101 times.  One that is not there for
`MMC_SEND_CSD` makes the machine read at -1. -/
theorem mmcInitCard_polls_on :
    (∀ fuel, mmcInitCard (fun _ => poweringUp) fuel noCard = none) ∧
      (mmcInitCard (fun n => if n < 204 then poweringUp else ⟨.timeout, []⟩) 300 noCard).map
        (fun r => (r.1, sdCount r.2)) = some (-1, 101) ∧
      (mmcInitCardState (fun _ => poweringUp)
        { noCard with cmd := 9, reply := ⟨.noResponse, []⟩ }).1 = .fault := by
  refine ⟨fun fuel => ?_, by decide +kernel, rfl⟩
  obtain ⟨t, hat, hstart⟩ := started_polls (fun _ => poweringUp) noCard
  have hwait : Waiting poweringUp := by unfold Waiting; decide
  rcases hrun : mmcInitCard (fun _ => poweringUp) fuel noCard with _ | r
  · rfl
  · obtain ⟨n, hn⟩ := (hstart r).mp ⟨fuel, hrun⟩
    obtain ⟨m, hm⟩ := polls_end SdAt.waits n hat hn
    exact absurd hwait hm

end Dingoo.JzMmc
