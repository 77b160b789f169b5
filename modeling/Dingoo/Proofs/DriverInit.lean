/-
What a failed driver initialisation leaves in the DMA channel table.

A request changes one owner or none, a free one owner or none (`request_owners`,
`free_owners`); the exits of the two functions are put together from these.

Neither function undoes its first request when the second one fails: the label it jumps to
frees the second channel, or nothing.  The labels before that free channels by the value
their variables had on entry, which may be the number of a channel of another device.
-/
import Dingoo.Linux.DriverInit
import Dingoo.Proofs.Dma

namespace Dingoo.DriverInit

open Dma

variable {s s' s'' : State}

/-- Who owns a channel: its record, if it is allocated. -/
def owner (s : State) (i : Nat) : Option Chan :=
  if (s.table i).devId < 0 then none else some (s.table i)

/-- Every channel of the table has the same owner. -/
def SameOwners (s s' : State) : Prop := ∀ i < maxDmaNum, owner s' i = owner s i

/-- The channel number is that of an allocated channel. -/
def Owned (s : State) (d : Nat) : Prop := d < maxDmaNum ∧ owner s d ≠ none

/-! ### Requests and frees -/

theorem owner_eq_none_iff {i : Nat} : owner s i = none ↔ (s.table i).devId < 0 := by
  unfold owner
  split <;> simp_all

theorem SameOwners.refl (s : State) : SameOwners s s := fun _ _ => rfl

theorem SameOwners.trans (h : SameOwners s s') (h' : SameOwners s' s'') :
    SameOwners s s'' := fun i hi => (h' i hi).trans (h i hi)

theorem SameOwners.owned_iff (h : SameOwners s s') (d : Nat) : Owned s' d ↔ Owned s d := by
  unfold Owned
  refine and_congr_right fun hd => ?_
  rw [h d hd]

/-- One channel that was free is not any more. -/
def Takes (s s' : State) : Prop :=
  ∃ i < maxDmaNum, owner s i = none ∧ owner s' i ≠ none ∧ ∀ j, j ≠ i → owner s' j = owner s j

theorem request_owners (s : State) (devId : Int) (devStr irqDevId errno : Nat) :
    ((jzRequestDma devId devStr true irqDevId errno s).1 < 0 →
      SameOwners s (jzRequestDma devId devStr true irqDevId errno s).2) ∧
    (0 ≤ (jzRequestDma devId devStr true irqDevId errno s).1 →
      Takes s (jzRequestDma devId devStr true irqDevId errno s).2) := by
  have heff := jzRequestDma_effect s devId devStr true irqDevId errno
  generalize (jzRequestDma devId devStr true irqDevId errno s).2 = s' at heff ⊢
  generalize hr : (jzRequestDma devId devStr true irqDevId errno s).1 = r at heff ⊢
  clear hr
  generalize hres : some r = res at heff
  cases heff with
  | requestNone r' l hneg =>
    cases hres
    exact ⟨fun _ => SameOwners.refl s, fun h => absurd h (Int.not_le.mpr hneg)⟩
  | requestFail k l herr hk hfree =>
    have hr := Option.some.inj hres
    refine ⟨fun _ j _ => ?_, fun h => by omega⟩
    by_cases hj : j = k
    · subst hj
      simp [owner, hfree]
    · simp [owner, Function.update_of_ne hj]
  | requestOk k l hdev hk hfree =>
    have hr := Option.some.inj hres
    refine ⟨fun h => by omega, fun _ => ⟨k, hk, ?_, ?_, fun j hj => ?_⟩⟩
    · simp [owner, hfree]
    · simp [owner, requested, Int.not_lt.mpr hdev]
    · simp [owner, Function.update_of_ne hj]

/-- A request for a channel fails: its interrupt cannot be had, or no channel is free. -/
def Refused (s : State) (errno : Nat) : Prop := errno ≠ 0 ∨ ¬ HasFree s

/-- A request after one that has succeeded fails: its interrupt cannot be had, or only one
channel was free. -/
def NextRefused (s : State) (errno : Nat) : Prop :=
  errno ≠ 0 ∨ ∀ i < maxDmaNum, ∀ j < maxDmaNum, owner s i = none → owner s j = none → i = j

theorem request_fails_iff (s : State) (devId : Int) (hdev : ¬ (devId < 0 ∨ devId ≥ dmaIdMax))
    (devStr irqDevId errno : Nat) :
    (jzRequestDma devId devStr true irqDevId errno s).1 < 0 ↔ Refused s errno := by
  obtain ⟨k, l, hfind, -, hk⟩ := findFree_table s
  rcases hk with ⟨rfl, hnone⟩ | ⟨hlt, hfree⟩
  · simp [jzRequestDma, if_neg hdev, hfind, Refused, hnone, ENODEV]
  · have hsome : HasFree s := ⟨k, hlt, hfree⟩
    by_cases herr : errno = 0
    · simp [jzRequestDma, if_neg hdev, hfind, Refused, hsome, Nat.ne_of_lt hlt, herr]
    · simp [jzRequestDma, if_neg hdev, hfind, Refused, Nat.ne_of_lt hlt, herr]
      omega

theorem Takes.refused_iff (h : Takes s s') (errno : Nat) :
    Refused s' errno ↔ NextRefused s errno := by
  obtain ⟨k, hk, hnone, hsome, hothers⟩ := h
  refine or_congr_right ⟨fun hfull i hi j hj hi' hj' => ?_, fun hone => ?_⟩
  · -- a second free channel would still be free
    have honly : ∀ i < maxDmaNum, owner s i = none → i = k := by
      intro i hi hi'
      by_contra hne
      exact hfull ⟨i, hi, owner_eq_none_iff.mp ((hothers i hne).trans hi')⟩
    rw [honly i hi hi', honly j hj hj']
  · rintro ⟨i, hi, hneg⟩
    have hi' := owner_eq_none_iff.mpr hneg
    by_cases hne : i = k
    · exact hsome (hne ▸ hi')
    · exact hne (hone i hi k hk ((hothers i hne).symm.trans hi') hnone)

theorem request_result (s : State) (devId : Int) (devStr irqDevId errno : Nat) :
    0 ≤ (jzRequestDma devId devStr true irqDevId errno s).1 ∨
    (jzRequestDma devId devStr true irqDevId errno s).1 = -EINVAL ∨
    (jzRequestDma devId devStr true irqDevId errno s).1 = -ENODEV ∨
    (jzRequestDma devId devStr true irqDevId errno s).1 = -errno := by
  obtain ⟨k, l, hfind, -, -⟩ := findFree_table s
  by_cases hdev : devId < 0 ∨ devId ≥ dmaIdMax
  · simp [jzRequestDma, if_pos hdev]
  by_cases hk : k = maxDmaNum
  · simp [jzRequestDma, if_neg hdev, hfind, hk]
  by_cases herr : errno = 0
  · simp [jzRequestDma, if_neg hdev, hfind, hk, herr]
  · simp [jzRequestDma, if_neg hdev, hfind, hk, herr]

theorem free_owners (s : State) (d : Nat) :
    (Owned s d → owner (jzFreeDma d s).2 d = none) ∧
    (¬ Owned s d → SameOwners s (jzFreeDma d s).2) ∧
    ∀ i, i ≠ d → owner (jzFreeDma d s).2 i = owner s i := by
  have heff := jzFreeDma_effect s d
  generalize (jzFreeDma d s).2 = s' at heff ⊢
  cases heff with
  | freeNone l hl hd =>
    refine ⟨fun h => ?_, fun _ => fun i _ => rfl, fun i _ => rfl⟩
    exact absurd (owner_eq_none_iff.mpr (hd h.1.le)) h.2
  | freeOk hd hown =>
    have hother : ∀ i, i ≠ d → owner
        { table := Function.update s.table d
            { s.table d with irq := -1, irqDev := 0, devId := -1 }
          accesses := s.accesses ++ [d, d, d, d]
          irqCalls := s.irqCalls ++ if (s.table d).irq ≠ 0 then
            [IrqCall.freeIrq (s.table d).irq (s.table d).irqDev] else [] } i = owner s i := by
      intro i hi
      simp [owner, Function.update_of_ne hi]
    refine ⟨fun _ => by simp [owner], fun hno i hi => ?_, hother⟩
    -- channel 6 lies behind the table
    have hne : i ≠ d := by
      rintro rfl
      exact hno ⟨hi, fun hnone => absurd (owner_eq_none_iff.mp hnone) (Int.not_lt.mpr hown)⟩
    exact hother i hne

theorem free_sameOwners_iff (s : State) (d : Nat) :
    SameOwners s (jzFreeDma d s).2 ↔ ¬ Owned s d := by
  obtain ⟨hgone, hsame, -⟩ := free_owners s d
  refine ⟨fun h hown => ?_, hsame⟩
  have heq := h d hown.1
  rw [hgone hown] at heq
  exact hown.2 heq.symm

theorem SameOwners.free_sameOwners_iff (h : SameOwners s s') (d : Nat) :
    SameOwners s (jzFreeDma d s').2 ↔ ¬ Owned s d := by
  rw [← h.owned_iff, ← DriverInit.free_sameOwners_iff]
  exact ⟨fun hfree i hi => (hfree i hi).trans (h i hi).symm, h.trans⟩

theorem free_owner_none {d : Nat} (hd : d < maxDmaNum) (hnone : owner s d = none) (e : Nat) :
    owner (jzFreeDma e s).2 d = none := by
  obtain ⟨-, hsame, hother⟩ := free_owners s e
  by_cases hde : d = e
  · have hfree : ¬ Owned s e := fun hown => hown.2 (hde ▸ hnone)
    rw [hsame hfree d hd, hnone]
  · rw [hother d hde, hnone]

theorem free_free_sameOwners_iff (s : State) (d e : Nat) :
    SameOwners s (jzFreeDma e (jzFreeDma d s).2).2 ↔ ¬ Owned s d ∧ ¬ Owned s e := by
  by_cases hd : Owned s d
  · refine ⟨fun h => ?_, fun h => absurd hd h.1⟩
    have hgone := free_owner_none hd.1 ((free_owners s d).1 hd) e
    exact absurd ((h d hd.1).symm.trans hgone) hd.2
  · have hsame := (free_sameOwners_iff s d).mpr hd
    rw [and_iff_right hd, hsame.free_sameOwners_iff]

theorem not_owned_of_failed {devId : Int} {devStr irqDevId errno : Nat} (herr : errno < 2 ^ 31)
    (hneg : (jzRequestDma devId devStr true irqDevId errno s).1 < 0) (t : State) :
    ¬ Owned t (asUnsigned (jzRequestDma devId devStr true irqDevId errno s).1) := by
  have hres := request_result s devId devStr irqDevId errno
  rintro ⟨hlt, -⟩
  unfold asUnsigned maxDmaNum at hlt
  unfold EINVAL ENODEV at hres
  omega

/-- A channel taken by the first request is still taken after the second one failed. -/
theorem not_sameOwners_of_second_failed
    (htaken : Takes s s') (hkeep : SameOwners s' s'') : ¬ SameOwners s s'' := by
  obtain ⟨i, hi, hnone, hsome, -⟩ := htaken
  intro hsame
  exact hsome ((hkeep i hi).symm.trans ((hsame i hi).trans hnone))

/-! ### The sound driver -/

/-- The steps of `attach_jz_i2s` before its requests succeed. -/
def AttachEnv.Ready (env : AttachEnv) : Prop :=
  ¬ env.registerSoundDsp < 0 ∧ ¬ env.codecInit ≤ 0 ∧ ¬ env.initProc < 0 ∧ env.tmp1 = true ∧
    env.tmp2 = true

theorem attachJzI2s_not_ready {env : AttachEnv} (h : ¬ env.Ready) (s : State) :
    (attachJzI2s env s).2 = s := by
  by_cases hdsp : env.registerSoundDsp < 0
  · simp [attachJzI2s, hdsp]
  by_cases hcodec : env.codecInit ≤ 0
  · simp [attachJzI2s, hdsp, hcodec]
  by_cases hproc : env.initProc < 0
  · simp [attachJzI2s, hdsp, hcodec, hproc]
  by_cases htmp1 : env.tmp1 = true
  swap
  · simp [attachJzI2s, hdsp, hcodec, hproc, htmp1]
  by_cases htmp2 : env.tmp2 = true
  swap
  · simp [attachJzI2s, hdsp, hcodec, hproc, htmp1, htmp2]
  exact absurd ⟨hdsp, hcodec, hproc, htmp1, htmp2⟩ h

theorem attachJzI2s_ready {env : AttachEnv} (h : env.Ready) (s : State) :
    Refused s env.errnoAdc ∧ (attachJzI2s env s).1 ≠ .done ∧ (∃ s', SameOwners s s' ∧
      (attachJzI2s env s).2 = (jzFreeDma (asUnsigned env.dma1) s').2) ∨
    ¬ Refused s env.errnoAdc ∧ NextRefused s env.errnoDac ∧ (attachJzI2s env s).1 ≠ .done ∧
      ¬ SameOwners s (attachJzI2s env s).2 ∨
    ¬ Refused s env.errnoAdc ∧ ¬ NextRefused s env.errnoDac ∧ (attachJzI2s env s).1 = .done := by
  obtain ⟨hdsp, hcodec, hproc, htmp1, htmp2⟩ := h
  have hadc := request_owners s dmaIdI2sRx env.adcName env.controller env.errnoAdc
  have hfails := request_fails_iff s dmaIdI2sRx (by decide) env.adcName
    env.controller env.errnoAdc
  rcases hreq : jzRequestDma dmaIdI2sRx env.adcName true env.controller env.errnoAdc s with
    ⟨dma2, s1⟩
  rw [hreq] at hadc hfails
  by_cases hneg : dma2 < 0
  · left
    have hrun : attachJzI2s env s
        = (.dma2Failed, (jzFreeDma (asUnsigned env.dma1) s1).2) := by
      simp [attachJzI2s, hdsp, hcodec, hproc, htmp1, htmp2, hreq, hneg]
    rw [hrun]
    exact ⟨hfails.mp hneg, by simp, s1, hadc.1 hneg, rfl⟩
  right
  have htaken := hadc.2 (Int.not_lt.mp hneg)
  have hdac := request_owners s1 dmaIdI2sTx env.dacName env.controller env.errnoDac
  have hfails' := request_fails_iff s1 dmaIdI2sTx (by decide) env.dacName
    env.controller env.errnoDac
  rcases hreq' : jzRequestDma dmaIdI2sTx env.dacName true env.controller env.errnoDac s1 with
    ⟨dma1, s2⟩
  rw [hreq'] at hdac hfails'
  rw [htaken.refused_iff] at hfails'
  by_cases hneg' : dma1 < 0
  · left
    have hrun : attachJzI2s env s = (.dma1Failed, s2) := by
      simp [attachJzI2s, hdsp, hcodec, hproc, htmp1, htmp2, hreq, hneg, hreq', hneg']
    rw [hrun]
    exact ⟨mt hfails.mpr hneg, hfails'.mp hneg', by simp,
      not_sameOwners_of_second_failed htaken (hdac.1 hneg')⟩
  · right
    refine ⟨mt hfails.mpr hneg, mt hfails'.mpr hneg', ?_⟩
    simp [attachJzI2s, hdsp, hcodec, hproc, htmp1, htmp2, hreq, hneg, hreq', hneg']

theorem attachJzI2s_owners_iff (env : AttachEnv) (s : State) :
    ((attachJzI2s env s).1 ≠ .done → SameOwners s (attachJzI2s env s).2) ↔
      (env.Ready → (Refused s env.errnoAdc → ¬ Owned s (asUnsigned env.dma1)) ∧
        (¬ Refused s env.errnoAdc → ¬ NextRefused s env.errnoDac)) := by
  by_cases hready : env.Ready
  · rcases attachJzI2s_ready hready s with
      ⟨hno, hexit, s', hsame, hs⟩ | ⟨hyes, hno, hexit, hleak⟩ | ⟨hyes, hyes', hdone⟩
    · rw [hs, hsame.free_sameOwners_iff]
      simp [hready, hno, hexit]
    · simp [hready, hyes, hno, hexit, hleak]
    · simp [hready, hyes, hyes', hdone]
  · rw [attachJzI2s_not_ready hready]
    exact ⟨fun _ h => absurd h hready, fun _ _ => SameOwners.refl s⟩

/-! ### The MMC driver -/

/-- The steps of `jz_mmc_probe` before the interrupt of card detection succeed. -/
def ProbeEnv.Ready (env : ProbeEnv) : Prop :=
  ¬ (!env.resource || decide (env.irq < 0)) = true ∧ env.memRegion = true ∧ env.mmc = true ∧
    env.sgCpu = true ∧ env.errnoMsc = 0

theorem jzMmcProbe_not_ready {env : ProbeEnv} (h : ¬ env.Ready) (s : State) :
    (jzMmcProbe env s).2 = s := by
  by_cases hres : (!env.resource || decide (env.irq < 0)) = true
  · simp only [jzMmcProbe, hres]
    simp
  by_cases hmem : env.memRegion = true
  swap
  · simp [jzMmcProbe, hres, hmem]
  by_cases hmmc : env.mmc = true
  swap
  · simp [jzMmcProbe, hres, hmem, hmmc]
  by_cases hsg : env.sgCpu = true
  swap
  · simp [jzMmcProbe, hres, hmem, hmmc, hsg]
  by_cases hmsc : env.errnoMsc = 0
  swap
  · simp [jzMmcProbe, hres, hmem, hmmc, hsg, hmsc]
  exact absurd ⟨hres, hmem, hmmc, hsg, hmsc⟩ h

theorem jzMmcProbe_undetected {env : ProbeEnv} (h : env.Ready) (hdetect : env.errnoDetect ≠ 0)
    (s : State) : jzMmcProbe env s = (.err1,
      (jzFreeDma (asUnsigned env.txdmachan) (jzFreeDma (asUnsigned env.rxdmachan) s).2).2) := by
  obtain ⟨hres, hmem, hmmc, hsg, hmsc⟩ := h
  simp [jzMmcProbe, hres, hmem, hmmc, hsg, hmsc, hdetect]

theorem jzMmcProbe_ready {env : ProbeEnv} (h : env.Ready) (hdetect : env.errnoDetect = 0)
    (s : State) :
    Refused s env.errnoRx ∧ (jzMmcProbe env s).1 ≠ .done ∧ (∃ s', SameOwners s s' ∧
      (jzMmcProbe env s).2 = (jzFreeDma (asUnsigned env.txdmachan) s').2) ∨
    ¬ Refused s env.errnoRx ∧ NextRefused s env.errnoTx ∧ (jzMmcProbe env s).1 ≠ .done ∧
      ¬ SameOwners s (jzMmcProbe env s).2 ∨
    ¬ Refused s env.errnoRx ∧ ¬ NextRefused s env.errnoTx ∧ (jzMmcProbe env s).1 = .done := by
  obtain ⟨hres, hmem, hmmc, hsg, hmsc⟩ := h
  have hrx := request_owners s dmaIdMscRx env.rxName env.host env.errnoRx
  have hfails := request_fails_iff s dmaIdMscRx (by decide) env.rxName env.host
    env.errnoRx
  rcases hreq : jzRequestDma dmaIdMscRx env.rxName true env.host env.errnoRx s with ⟨rx, s1⟩
  rw [hreq] at hrx hfails
  by_cases hneg : rx < 0
  · left
    have hrun : jzMmcProbe env s = (.err2,
        (jzFreeDma (asUnsigned env.txdmachan) (jzFreeDma (asUnsigned rx) s1).2).2) := by
      simp [jzMmcProbe, hres, hmem, hmmc, hsg, hmsc, hdetect, hreq, hneg]
    have hrx' : ¬ Owned s1 (asUnsigned rx) := by
      have := not_owned_of_failed env.errno_int.1 (by rw [hreq]; exact hneg) s1
      rwa [hreq] at this
    have hsame := (free_sameOwners_iff s1 (asUnsigned rx)).mpr hrx'
    rw [hrun]
    exact ⟨hfails.mp hneg, by simp, _, (hrx.1 hneg).trans hsame, rfl⟩
  right
  have htaken := hrx.2 (Int.not_lt.mp hneg)
  have htx := request_owners s1 dmaIdMscTx env.txName env.host env.errnoTx
  have hfails' := request_fails_iff s1 dmaIdMscTx (by decide) env.txName env.host
    env.errnoTx
  rcases hreq' : jzRequestDma dmaIdMscTx env.txName true env.host env.errnoTx s1 with ⟨tx, s2⟩
  rw [hreq'] at htx hfails'
  rw [htaken.refused_iff] at hfails'
  by_cases hneg' : tx < 0
  · left
    have hrun : jzMmcProbe env s = (.err3, (jzFreeDma (asUnsigned tx) s2).2) := by
      simp [jzMmcProbe, hres, hmem, hmmc, hsg, hmsc, hdetect, hreq, hneg, hreq', hneg']
    have htx' : ¬ Owned s2 (asUnsigned tx) := by
      have := not_owned_of_failed env.errno_int.2 (by rw [hreq']; exact hneg') s2
      rwa [hreq'] at this
    have hsame := (free_sameOwners_iff s2 (asUnsigned tx)).mpr htx'
    rw [hrun]
    exact ⟨mt hfails.mpr hneg, hfails'.mp hneg', by simp,
      not_sameOwners_of_second_failed htaken ((htx.1 hneg').trans hsame)⟩
  · right
    refine ⟨mt hfails.mpr hneg, mt hfails'.mpr hneg', ?_⟩
    simp [jzMmcProbe, hres, hmem, hmmc, hsg, hmsc, hdetect, hreq, hneg, hreq', hneg']

theorem jzMmcProbe_owners_iff (env : ProbeEnv) (s : State) :
    ((jzMmcProbe env s).1 ≠ .done → SameOwners s (jzMmcProbe env s).2) ↔
      (env.Ready →
        (env.errnoDetect ≠ 0 →
          ¬ Owned s (asUnsigned env.rxdmachan) ∧ ¬ Owned s (asUnsigned env.txdmachan)) ∧
        (env.errnoDetect = 0 → (Refused s env.errnoRx → ¬ Owned s (asUnsigned env.txdmachan)) ∧
          (¬ Refused s env.errnoRx → ¬ NextRefused s env.errnoTx))) := by
  by_cases hready : env.Ready
  · by_cases hdetect : env.errnoDetect = 0
    · rcases jzMmcProbe_ready hready hdetect s with
        ⟨hno, hexit, s', hsame, hs⟩ | ⟨hyes, hno, hexit, hleak⟩ | ⟨hyes, hyes', hdone⟩
      · rw [hs, hsame.free_sameOwners_iff]
        simp [hready, hdetect, hno, hexit]
      · simp [hready, hdetect, hyes, hno, hexit, hleak]
      · simp [hready, hdetect, hyes, hyes', hdone]
    · rw [jzMmcProbe_undetected hready hdetect, free_free_sameOwners_iff]
      simp [hready, hdetect]
  · rw [jzMmcProbe_not_ready hready]
    exact ⟨fun _ h => absurd h hready, fun _ _ => SameOwners.refl s⟩

/-- **When a failed initialisation leaves the owners as they were**: exactly when not the second
request is the one that fails (its interrupt cannot be had, or only one channel was free), and
the variables by which an earlier failure frees channels name no allocated channel. -/
theorem init_failure_owners (s : State) (a : AttachEnv) (p : ProbeEnv) :
    (((attachJzI2s a s).1 ≠ .done → SameOwners s (attachJzI2s a s).2) ↔
      (a.Ready → (Refused s a.errnoAdc → ¬ Owned s (asUnsigned a.dma1)) ∧
        (¬ Refused s a.errnoAdc → ¬ NextRefused s a.errnoDac))) ∧
    (((jzMmcProbe p s).1 ≠ .done → SameOwners s (jzMmcProbe p s).2) ↔
      (p.Ready →
        (p.errnoDetect ≠ 0 →
          ¬ Owned s (asUnsigned p.rxdmachan) ∧ ¬ Owned s (asUnsigned p.txdmachan)) ∧
        (p.errnoDetect = 0 → (Refused s p.errnoRx → ¬ Owned s (asUnsigned p.txdmachan)) ∧
          (¬ Refused s p.errnoRx → ¬ NextRefused s p.errnoTx)))) :=
  ⟨attachJzI2s_owners_iff a s, jzMmcProbe_owners_iff p s⟩

/-- With every channel taken the MMC driver's first request fails and its clean-up frees
channel 0, which it does not own; with one channel free the sound driver's second request
fails and the channel stays with it. -/
theorem init_failure_owners_differ :
    ((jzMmcProbe ⟨1, 2, 3, 0, 0, true, 0, true, true, true, 0, 0, 0, 0, by decide⟩
        ⟨fun i => ⟨0, i, 9, 40, 9, 0, 0, 0⟩, [], []⟩).1 = .err2 ∧
      owner ⟨fun i => ⟨0, i, 9, 40, 9, 0, 0, 0⟩, [], []⟩ 0 ≠ none ∧
      owner (jzMmcProbe ⟨1, 2, 3, 0, 0, true, 0, true, true, true, 0, 0, 0, 0, by decide⟩
        ⟨fun i => ⟨0, i, 9, 40, 9, 0, 0, 0⟩, [], []⟩).2 0 = none) ∧
    ((attachJzI2s ⟨1, 2, 3, 0, 3, 1, 0, true, true, 0, 0⟩
        ⟨fun i => ⟨if i = 5 then -1 else 0, i, 9, 40, 9, 0, 0, 0⟩, [], []⟩).1 = .dma1Failed ∧
      owner ⟨fun i => ⟨if i = 5 then -1 else 0, i, 9, 40, 9, 0, 0, 0⟩, [], []⟩ 5 = none ∧
      owner (attachJzI2s ⟨1, 2, 3, 0, 3, 1, 0, true, true, 0, 0⟩
        ⟨fun i => ⟨if i = 5 then -1 else 0, i, 9, 40, 9, 0, 0, 0⟩, [], []⟩).2 5 ≠ none) := by
  decide +kernel

end Dingoo.DriverInit
