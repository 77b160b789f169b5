/-
The playback queues when the fragments are changed while the device is open.

What is counted are the ids in the three queues and in the writer's hands.  No step of
the writer adds to the count of any id.  The interrupt moves the busy fragment to the
empty queue, and if there is none it moves a `-1`: that is the only way an id enters
the queues that is not one of the fragments.  `SETFRAGMENT` empties the busy queue
without stopping the channel, so the interrupt of a transfer that was in flight then
finds it empty.

So the queues stay sound exactly as long as each interrupt finds a busy fragment and a
failed allocation leaves nothing wrong behind.  If the fragments are only changed while
nothing is in flight, each interrupt finds the fragment whose transfer has ended.
-/
import Dingoo.Proofs.JzI2s
import Dingoo.Linux.JzI2sIoctl
import Dingoo.Lib.Runs

namespace Dingoo.JzI2s

open Dingoo.Lib

variable {cfg : Config} {s : State} {d t : Device} {a : DeviceAct}

/-! ### Counting ids -/

/-- The ids in the queues and in the writer's hands. -/
def State.ids (s : State) : List Int :=
  s.outEmpty.toList ++ s.outFull.toList ++ s.outBusy.toList ++ s.pc.held

theorem count_ids (s : State) (a : Int) :
    s.ids.count a = s.outEmpty.toList.count a + s.outFull.toList.count a +
      s.outBusy.toList.count a + s.pc.held.count a := by
  simp only [State.ids, List.count_append]

theorem count_getBufferId (q : Queue) (a : Int) :
    (getBufferId q).2.toList.count a + (if (getBufferId q).1 ≥ 0 then [(getBufferId q).1]
      else []).count a ≤ q.toList.count a := by
  cases hq : q.toList with
  | nil => simp [getBufferId_nil hq, hq]
  | cons id l =>
    obtain ⟨hid, hl⟩ := getBufferId_cons hq
    rw [hid, hl]
    split <;> simp [List.count_cons]

theorem count_writerStep_le (cfg : Config) (s : State) (a : Int) :
    (writerStep cfg s).ids.count a ≤ s.ids.count a := by
  have hgetEmpty := count_getBufferId s.outEmpty a
  have hgetFull := count_getBufferId s.outFull a
  rw [count_ids, count_ids]
  cases hpc : s.pc with
  | idle | sleeping c => simp only [writerStep, hpc, Nat.le_refl]
  | sleepOn c | advance c | fill c id => simp [writerStep, hpc]
  | loop c =>
    simp only [writerStep, hpc]
    split <;> simp
  | checkBusy c =>
    simp only [writerStep, hpc]
    split <;> simp
  | checkEmpty c =>
    simp only [writerStep, hpc]
    split
    · split <;> simp
    · simp
  | getEmpty c =>
    simp only [writerStep, hpc]
    split at hgetEmpty
    · rename_i hid
      simp only [if_pos hid, Pc.held, List.count_nil]
      omega
    · rename_i hid
      simp only [if_neg hid, Pc.held, List.count_nil]
      omega
  | put c id =>
    simp only [writerStep, hpc]
    split
    · simp only [toList_putBufferId, List.count_append, Pc.held, List.count_nil]
      omega
    · simp only [toList_putBufferId, List.count_append, Pc.held, List.count_nil]
      omega
  | getFull c =>
    simp only [writerStep, hpc]
    split at hgetFull
    · rename_i hid
      simp only [if_pos hid, Pc.held, List.count_nil]
      omega
    · rename_i hid
      simp only [if_neg hid, Pc.held, List.count_nil]
      omega
  | putBusy c id =>
    simp only [writerStep, hpc, toList_putBufferId, List.count_append]
    split <;> simp only [Pc.held, List.count_nil] <;> omega
  | start c id | started c id => simp [writerStep, hpc, audioStartDma]

theorem count_finishBusy_le {a : Int} (h : 0 ≤ a ∨ s.outBusy.toList ≠ []) :
    (finishBusy s).ids.count a ≤ s.ids.count a := by
  rw [count_ids, count_ids]
  simp only [finishBusy, toList_putBufferId, List.count_append]
  cases hb : s.outBusy.toList with
  | nil =>
    have ha : (-1 : Int) ≠ a := by
      rcases h with h | h
      · omega
      · exact absurd hb h
    have hnone : [(-1 : Int)].count a = 0 := by simp [ha]
    simp only [getBufferId_nil hb, hb, hnone]
    omega
  | cons id l =>
    obtain ⟨hid, hl⟩ := getBufferId_cons hb
    rw [hid, hl, List.count_cons, List.count_cons, List.count_nil]
    omega

theorem count_startNext_le (cfg : Config) (s : State) (a : Int) :
    (startNext cfg s).ids.count a ≤ s.ids.count a := by
  have hget := count_getBufferId s.outFull a
  rw [count_ids, count_ids]
  unfold startNext audioStartDma
  dsimp only
  split
  · rename_i hid
    rw [if_pos hid] at hget
    split <;>
    · simp only [toList_putBufferId, List.count_append]
      omega
  · rename_i hid
    rw [if_neg hid] at hget
    simp only [ArrayQueue.toList_clear, List.count_nil] at hget ⊢
    omega

theorem ids_wakeUpTx (s : State) : (wakeUpTx s).ids = s.ids := by
  unfold State.ids wakeUpTx
  rw [(Pc.woken_eq s.pc).1]

theorem count_irq_le {a : Int} (hpop : s.popDmaFlag = false)
    (h : 0 ≤ a ∨ s.outBusy.toList ≠ []) :
    (jzI2sReplayDmaIrq cfg s).ids.count a ≤ s.ids.count a := by
  rw [irq_eq cfg hpop, ids_wakeUpTx]
  exact (count_startNext_le cfg _ a).trans (count_finishBusy_le h)

/-- The changes an action can make to the device. -/
inductive Moves (d : Device) : DeviceAct → Device → Prop where
  /-- the call has to wait, or changes nothing -/
  | stays (a : DeviceAct) : Moves d a d
  | write {count : Nat} {nonblock fault : Bool} (n : Nat) (pc : Pc)
      (hpc : d.play.pc = .idle) (hpend : d.pending = none)
      (hnext : pc = .idle ∨ ∃ c, pc = .loop c) :
      Moves d (.write count nonblock fault)
        { d with play := { d.play with nextOut := n, pc := pc } }
  /-- the writer is killed at an array or a buffer that is not there -/
  | killed (hm : d.listed = false ∨ d.mapped = false) :
      Moves d .writer { d with play := { d.play with pc := .idle } }
  | writer (hfill : d.mapped = false → ∀ c id, d.play.pc ≠ .fill c id)
      (hget : d.listed = false → ∀ c, d.play.pc = .getEmpty c →
        elementsInQueue d.play.outEmpty = 0) :
      Moves d .writer { d with play := writerStep d.cfg d.play }
  /-- the interrupt stores through a null pointer -/
  | stray (hout : d.served < d.play.dmaStarts.length) (hl : d.listed = false) :
      Moves d .irq { d with stray := true, served := d.served + 1 }
  | irq (hout : d.served < d.play.dmaStarts.length)
      (hl : d.listed = true ∨ d.play.popDmaFlag = true) :
      Moves d .irq { d with play := jzI2sReplayDmaIrq d.cfg d.play, served := d.served + 1 }
  | setFragment {val : BitVec 32} (hpc : d.play.pc = .idle) :
      Moves d (.setFragment val)
        { freeInOutQueue d with pending := some (newFragsize val, newFragstotal val) }
  | rebuild {size total : Nat} (alloc : Alloc) (hpend : d.pending = some (size, total)) :
      Moves d (.rebuild alloc) (initInOutQueue alloc
        { d with cfg := { d.cfg with fragsize := size, fragstotal := total }, pending := none })

theorem writerTurn_moves (d : Device) : Moves d .writer (writerTurn d) := by
  unfold writerTurn
  split
  · rename_i hfault
    refine .killed ?_
    unfold Device.faults at hfault
    split at hfault
    · exact Or.inl (by simp_all)
    · exact Or.inr (by simpa using hfault)
    · cases hfault
  · rename_i hfault
    refine .writer (fun hm c id hc => ?_) fun hl c hc => ?_
    · simp [Device.faults, hc, hm] at hfault
    · simpa [Device.faults, hc, hl] using hfault

theorem deviceStep_moves (d : Device) (a : DeviceAct) : Moves d a (deviceStep d a) := by
  cases a with
  | write count nonblock fault =>
    simp only [deviceStep]
    split
    · rename_i hidle
      obtain ⟨n, pc, heq, hnext⟩ := jzAudioWrite_eq d.cfg hidle.1 count nonblock fault
      rw [heq]
      exact .write n pc hidle.1 hidle.2 hnext
    · exact .stays _
  | writer => exact writerTurn_moves d
  | irq =>
    simp only [deviceStep]
    split
    · rename_i hout
      unfold replayIrq
      split
      · rename_i hm
        simp only [Bool.and_eq_true, Bool.not_eq_true'] at hm
        exact .stray hout hm.1
      · rename_i hm
        refine .irq hout ?_
        simpa [← Bool.not_eq_true, or_iff_not_imp_left] using hm
    · exact .stays _
  | setFragment val =>
    simp only [deviceStep]
    split
    · rename_i hidle
      unfold JzI2s.setFragment
      split
      · exact .stays _
      · exact .setFragment hidle.1
    · exact .stays _
  | rebuild alloc =>
    show Moves d (.rebuild alloc) (JzI2s.rebuild alloc d)
    unfold JzI2s.rebuild
    split
    · exact .stays _
    · rename_i hpend
      exact .rebuild alloc hpend

/-! ### What every run keeps -/

/-- The positions of a write that has not filled a fragment yet. -/
@[simp] def Pc.beforeFill : Pc → Bool
  | .idle | .loop _ | .checkEmpty _ | .sleepOn _ | .sleeping _ | .getEmpty _ | .fill _ _ => true
  | _ => false

/-- What holds in every run, whatever the interrupts find. -/
structure Tame (d : Device) : Prop where
  noPop : d.play.popDmaFlag = false
  listed : d.mapped = true → d.listed = true
  fragments : d.mapped = true → ∀ a, 0 ≤ a →
    d.play.ids.count a ≤ (fragmentIds d.cfg.fragstotal).count a
  unmapped : d.mapped = false → d.play.pc.beforeFill = true ∧ d.play.outFull.toList = [] ∧
    d.play.outBusy.toList = []
  pending : d.pending ≠ none → d.play.pc = .idle ∧ d.listed = false

theorem popDmaFlag_writerStep (cfg : Config) (s : State) :
    (writerStep cfg s).popDmaFlag = s.popDmaFlag := by
  unfold writerStep audioStartDma
  split
  all_goals first | rfl | (split <;> rfl)

theorem popDmaFlag_irq (cfg : Config) (hpop : s.popDmaFlag = false) :
    (jzI2sReplayDmaIrq cfg s).popDmaFlag = false := by
  rw [irq_eq cfg hpop]
  show (startNext cfg _).popDmaFlag = false
  unfold startNext audioStartDma
  dsimp only
  split
  · split <;> exact hpop
  · exact hpop

theorem writerStep_unmapped (cfg : Config) (hpc : s.pc.beforeFill = true)
    (hfill : ∀ c id, s.pc ≠ .fill c id) :
    ∃ pc q, writerStep cfg s = { s with pc := pc, outEmpty := q } ∧ pc.beforeFill = true ∧
      ((∀ c, s.pc = .getEmpty c → elementsInQueue s.outEmpty = 0) → q = s.outEmpty) := by
  cases hp : s.pc with
  | idle | sleeping c =>
    refine ⟨s.pc, s.outEmpty, ?_, hpc, fun _ => rfl⟩
    rw [writerStep, hp]
    simp only [← hp]
  | sleepOn c => exact ⟨.sleeping c, s.outEmpty, by rw [writerStep, hp], rfl, fun _ => rfl⟩
  | loop c =>
    refine ⟨_, s.outEmpty, by rw [writerStep, hp], ?_, fun _ => rfl⟩
    split <;> rfl
  | checkEmpty c =>
    simp only [writerStep, hp]
    split
    · refine ⟨_, s.outEmpty, rfl, ?_, fun _ => rfl⟩
      split <;> rfl
    · exact ⟨_, s.outEmpty, rfl, rfl, fun _ => rfl⟩
  | getEmpty c =>
    refine ⟨_, (getBufferId s.outEmpty).2, by rw [writerStep, hp], ?_, fun hget => ?_⟩
    · split <;> rfl
    · have hnil := s.outEmpty.count_eq_zero.mp (hget c rfl)
      rw [getBufferId_nil hnil]
  | fill c id => exact absurd hp (hfill c id)
  | _ => simp [hp] at hpc

theorem ids_goto {n : Nat} {pc : Pc} (hpc : s.pc = .idle) (hnext : pc = .idle ∨ ∃ c, pc = .loop c) :
    ({ s with nextOut := n, pc := pc } : State).ids = s.ids := by
  unfold State.ids
  rw [hpc]
  rcases hnext with rfl | ⟨c, rfl⟩ <;> rfl

theorem Tame.isListed (h : Tame d) (hl : d.listed = true ∨ d.play.popDmaFlag = true) :
    d.listed = true := by
  rcases hl with hl | hpop
  · exact hl
  · rw [h.noPop] at hpop
    cases hpop

theorem Tame.not_mapped (h : Tame d) (hl : d.listed = false ∨ d.mapped = false) :
    d.mapped = false := by
  by_contra hm
  have hm : d.mapped = true := by simpa using hm
  simp [h.listed hm, hm] at hl

theorem irq_unmapped (cfg : Config) (hpop : s.popDmaFlag = false) (hfull : s.outFull.toList = []) :
    (jzI2sReplayDmaIrq cfg s).outFull.toList = [] ∧ (jzI2sReplayDmaIrq cfg s).outBusy.toList = [] ∧
      (jzI2sReplayDmaIrq cfg s).pc = s.pc.woken := by
  have hnext := startNext_nil cfg (s := finishBusy (accountTransfer { s with inFlight := false }))
    hfull
  rw [irq_eq cfg hpop, hnext]
  exact ⟨hfull, rfl, rfl⟩

theorem Pc.beforeFill_woken {pc : Pc} (h : pc.beforeFill = true) : pc.woken.beforeFill = true := by
  cases pc with
  | sleeping c => rfl
  | _ => exact h

theorem toList_fresh (n : Nat) :
    (Lib.ArrayQueue.toList ⟨n, fun i => (i : Int)⟩ : List Int) = fragmentIds n := rfl

theorem Tame.moves (h : Tame d) (hmoves : Moves d a t) : Tame t := by
  cases hmoves with
  | stays => exact h
  | write n pc hpc hpend hnext =>
    refine ⟨h.noPop, h.listed, fun hm a ha => ?_, fun hm => ⟨?_, (h.unmapped hm).2⟩,
      fun hne => absurd hpend hne⟩
    · dsimp only
      rw [ids_goto hpc hnext]
      exact h.fragments hm a ha
    · rcases hnext with rfl | ⟨c, rfl⟩ <;> rfl
  | killed hgone =>
    have hmapped := h.not_mapped hgone
    exact ⟨h.noPop, h.listed, fun hm => absurd (hmapped.symm.trans hm) (by simp),
      fun _ => ⟨rfl, (h.unmapped hmapped).2⟩, fun hne => ⟨rfl, (h.pending hne).2⟩⟩
  | writer hfill hget =>
    refine ⟨(popDmaFlag_writerStep _ _).trans h.noPop, h.listed, fun hm a ha => ?_, fun hm => ?_,
      fun hne => ?_⟩
    · exact (count_writerStep_le d.cfg d.play a).trans (h.fragments hm a ha)
    · obtain ⟨hbefore, hqueues⟩ := h.unmapped hm
      obtain ⟨pc, q, heq, hpc, -⟩ := writerStep_unmapped d.cfg hbefore (hfill hm)
      dsimp only
      rw [heq]
      exact ⟨hpc, hqueues⟩
    · obtain ⟨hidle, hl⟩ := h.pending hne
      exact ⟨by simp only [writerStep, hidle], hl⟩
  | stray hout hl => exact ⟨h.noPop, h.listed, h.fragments, h.unmapped, h.pending⟩
  | irq hout hl =>
    have hlisted := h.isListed hl
    refine ⟨popDmaFlag_irq _ h.noPop, h.listed, fun hm a ha => ?_, fun hm => ?_,
      fun hne => absurd (hlisted.symm.trans (h.pending hne).2) (by simp)⟩
    · exact (count_irq_le h.noPop (Or.inl ha)).trans (h.fragments hm a ha)
    · obtain ⟨hbefore, hfull, -⟩ := h.unmapped hm
      obtain ⟨hfull', hbusy', hpc⟩ := irq_unmapped d.cfg h.noPop hfull
      refine ⟨?_, hfull', hbusy'⟩
      dsimp only
      rw [hpc]
      exact Pc.beforeFill_woken hbefore
  | setFragment hpc =>
    refine ⟨h.noPop, fun hm => ?_, fun hm => ?_, fun _ => ⟨?_, rfl, rfl⟩, fun _ => ⟨hpc, rfl⟩⟩
    · cases hm
    · cases hm
    · show d.play.pc.beforeFill = true
      rw [hpc]
      rfl
  | rebuild alloc hpend =>
    obtain ⟨hidle, hl⟩ := h.pending (by rw [hpend]; simp)
    have hmapped := h.not_mapped (Or.inl hl)
    obtain ⟨hbefore, hqueues⟩ := h.unmapped hmapped
    have hnot : ¬ d.mapped = true := by simp [hmapped]
    cases alloc with
    | ok counts =>
      refine ⟨h.noPop, fun _ => rfl, fun _ a _ => ?_, fun hm => ?_, fun hne => absurd rfl hne⟩
      · rw [count_ids]
        simp [initInOutQueue, setUpQueues, toList_fresh, hidle]
      · cases hm
    | pagesFailed counts =>
      exact ⟨h.noPop, fun _ => rfl, fun hm => absurd hm hnot, fun _ => ⟨hbefore, rfl, rfl⟩,
        fun hne => absurd rfl hne⟩
    | inFailed | outFailed =>
      exact ⟨h.noPop, h.listed, fun hm => absurd hm hnot, fun _ => ⟨hbefore, hqueues⟩,
        fun hne => absurd rfl hne⟩
    | idsFailed ids =>
      exact ⟨h.noPop, fun _ => rfl, fun hm => absurd hm hnot, fun _ => ⟨hbefore, hqueues⟩,
        fun hne => absurd rfl hne⟩

theorem Tame.step (h : Tame d) (a : DeviceAct) : Tame (deviceStep d a) :=
  h.moves (deviceStep_moves d a)

theorem tame_opened (cfg : Config) (hpc : s.pc = .idle) : Tame (.opened cfg s) := by
  refine ⟨rfl, fun _ => rfl, fun _ a _ => ?_, fun hm => ?_, fun hne => absurd rfl hne⟩
  · have hids : (jzAudioOpen cfg s).outEmpty.toList = fragmentIds cfg.fragstotal :=
      toList_outEmpty_open cfg s
    rw [count_ids]
    simp [Device.opened, hids]
    simp [jzAudioOpen, hpc]
  · cases hm

theorem tame_run (acts : List DeviceAct) (h : Tame d) : Tame (deviceRun d acts) :=
  List.foldlRecOn acts deviceStep h fun _ hd a _ => hd.step a

/-! ### Sound queues -/

/-- The queues hold fragments only, each of them once, and no more than there are. -/
structure QueuesSound (d : Device) : Prop where
  stored : d.stray = false
  once : d.listed = true →
    (d.play.outEmpty.toList ++ d.play.outFull.toList ++ d.play.outBusy.toList).Nodup
  range : d.listed = true →
    ∀ id ∈ d.play.outEmpty.toList ++ d.play.outFull.toList ++ d.play.outBusy.toList,
      0 ≤ id ∧ id < d.cfg.fragstotal
  room : elementsInQueue d.play.outEmpty ≤ d.cfg.fragstotal ∧
    elementsInQueue d.play.outFull ≤ d.cfg.fragstotal ∧
    elementsInQueue d.play.outBusy ≤ d.cfg.fragstotal

/-- An interrupt finds a busy fragment. -/
def InterruptExpected (d : Device) (a : DeviceAct) : Prop :=
  match a with
  | .irq => d.served < d.play.dmaStarts.length → d.play.outBusy.toList ≠ []
  | _ => True

/-- What a failed allocation leaves behind does no harm: the count of the empty queue, which
stays if the recording half fails, is not above the new number of fragments, and the ids
that stay uninitialised happen to be fragments, each once. -/
def RebuildSound (d : Device) (a : DeviceAct) : Prop :=
  match a, d.pending with
  | .rebuild .inFailed, some (_, total) => elementsInQueue d.play.outEmpty ≤ total
  | .rebuild (.idsFailed ids), some (_, total) =>
    ((List.range total).map ids).Nodup ∧ ∀ i < total, 0 ≤ ids i ∧ ids i < total
  | _, _ => True

instance (d : Device) : ∀ a : DeviceAct, Decidable (InterruptExpected d a ∧ RebuildSound d a) := by
  intro a
  unfold InterruptExpected RebuildSound
  refine @instDecidableAnd _ _ ?_ ?_
  · split <;> infer_instance
  · split <;> infer_instance

/-- Nothing is stored but the fragments. -/
structure Dealt (d : Device) : Prop where
  stored : d.stray = false
  ids : d.listed = true → d.play.ids.Subperm (fragmentIds d.cfg.fragstotal)
  count : d.listed = false → elementsInQueue d.play.outEmpty ≤ d.cfg.fragstotal

theorem mem_fragmentIds {n : Nat} {id : Int} : id ∈ fragmentIds n ↔ 0 ≤ id ∧ id < n := by
  unfold fragmentIds
  rw [List.mem_map]
  constructor
  · rintro ⟨i, hi, rfl⟩
    have := List.mem_range.mp hi
    exact ⟨Int.natCast_nonneg i, by simpa using this⟩
  · rintro ⟨hlow, hhigh⟩
    exact ⟨id.toNat, List.mem_range.mpr (by omega), by simp; omega⟩

theorem Dealt.sound (h : Dealt d) (ht : Tame d) : QueuesSound d := by
  have hqueues : d.listed = true → (d.play.outEmpty.toList ++ d.play.outFull.toList ++
      d.play.outBusy.toList).Subperm (fragmentIds d.cfg.fragstotal) := fun hl =>
    (List.sublist_append_left _ _).subperm.trans (h.ids hl)
  refine ⟨h.stored, fun hl => ?_, fun hl id hid => ?_, ?_⟩
  · obtain ⟨l, hperm, hsub⟩ := hqueues hl
    exact hperm.nodup_iff.mp (hsub.nodup (nodup_fragmentIds _))
  · exact mem_fragmentIds.mp ((hqueues hl).subset hid)
  · unfold elementsInQueue
    cases hl : d.listed with
    | true =>
      have hlen := (hqueues hl).length_le
      simp only [List.length_append, ArrayQueue.length_toList, fragmentIds, List.length_map,
        List.length_range] at hlen
      omega
    | false =>
      obtain ⟨-, hfull, hbusy⟩ := ht.unmapped (ht.not_mapped (Or.inl hl))
      rw [← d.play.outFull.count_eq_zero] at hfull
      rw [← d.play.outBusy.count_eq_zero] at hbusy
      have hcount := h.count hl
      unfold elementsInQueue at hcount
      omega

theorem subperm_of_count_le {l l' : List Int} (h : ∀ a, l.count a ≤ l'.count a) :
    l.Subperm l' := List.subperm_ext_iff.mpr fun a _ => h a

theorem subperm_fragmentIds {n : Nat} {l : List Int} (hnodup : l.Nodup)
    (hrange : ∀ id ∈ l, 0 ≤ id ∧ id < n) : l.Subperm (fragmentIds n) :=
  List.subperm_of_subset hnodup fun id hid => mem_fragmentIds.mpr (hrange id hid)

theorem Dealt.moves (h : Dealt d) (ht : Tame d)
    (ha : InterruptExpected d a ∧ RebuildSound d a) (hmoves : Moves d a t) : Dealt t := by
  cases hmoves with
  | stays => exact h
  | write n pc hpc hpend hnext =>
    refine ⟨h.stored, fun hl => ?_, h.count⟩
    dsimp only
    rw [ids_goto hpc hnext]
    exact h.ids hl
  | killed hgone =>
    refine ⟨h.stored, fun hl => List.Subperm.trans (List.Sublist.subperm ?_) (h.ids hl), h.count⟩
    exact List.Sublist.append (List.Sublist.refl _) (List.nil_sublist _)
  | writer hfill hget =>
    refine ⟨h.stored, fun hl => (subperm_of_count_le (count_writerStep_le _ _)).trans (h.ids hl),
      fun hl => ?_⟩
    have hmapped := ht.not_mapped (Or.inl hl)
    obtain ⟨pc, q, heq, -, hq⟩ :=
      writerStep_unmapped d.cfg (ht.unmapped hmapped).1 (hfill hmapped)
    dsimp only
    rw [heq, hq (hget hl)]
    exact h.count hl
  | stray hout hl => exact absurd (ht.unmapped (ht.not_mapped (Or.inl hl))).2.2 (ha.1 hout)
  | irq hout hl =>
    have hlisted := ht.isListed hl
    refine ⟨h.stored, fun _ => (subperm_of_count_le fun b => ?_).trans (h.ids hlisted),
      fun hl => absurd (hlisted.symm.trans hl) (by simp)⟩
    exact count_irq_le ht.noPop (Or.inr (ha.1 hout))
  | setFragment hpc =>
    refine ⟨h.stored, fun hl => ?_, fun _ => Nat.le_refl _⟩
    cases hl
  | @rebuild size total alloc hpend =>
    obtain ⟨hidle, hl⟩ := ht.pending (by rw [hpend]; simp)
    obtain ⟨-, hfull, hbusy⟩ := ht.unmapped (ht.not_mapped (Or.inl hl))
    have hsound := ha.2
    cases alloc with
    | ok counts | pagesFailed counts =>
      refine ⟨h.stored, fun _ => subperm_of_count_le fun a => ?_, fun hl => ?_⟩
      · rw [count_ids]
        simp [initInOutQueue, setUpQueues, toList_fresh, hidle]
      · cases hl
    | inFailed =>
      simp only [RebuildSound, hpend] at hsound
      exact ⟨h.stored, fun hl' => absurd (hl.symm.trans hl') (by simp), fun _ => hsound⟩
    | outFailed =>
      exact ⟨h.stored, fun hl' => absurd (hl.symm.trans hl') (by simp), fun _ => Nat.le_refl _⟩
    | idsFailed ids =>
      simp only [RebuildSound, hpend] at hsound
      refine ⟨h.stored, fun _ => ?_, fun hl => ?_⟩
      · show ((List.range total).map ids ++ d.play.outFull.toList ++ d.play.outBusy.toList ++
          d.play.pc.held).Subperm _
        rw [hfull, hbusy, hidle]
        simp only [Pc.held, List.append_nil]
        refine subperm_fragmentIds hsound.1 fun id hid => ?_
        obtain ⟨i, hi, rfl⟩ := List.mem_map.mp hid
        exact hsound.2 i (List.mem_range.mp hi)
      · cases hl

/-- Two frames are played. -/
def playedFrame : List DeviceAct :=
  .write 8 false false :: List.replicate 12 .writer ++ [.irq]

/-- A change to three fragments of 16 kB. -/
def toThree : List DeviceAct := [.setFragment 0x3000E, .rebuild (.ok fun _ => 0)]

/-- `SETFRAGMENT` is called only when the interrupts of all transfers have come. -/
def ChangesWhenQuiet (d : Device) (a : DeviceAct) : Prop :=
  match a with
  | .setFragment _ => d.served = d.play.dmaStarts.length
  | _ => True

instance (d : Device) : ∀ a : DeviceAct, Decidable (ChangesWhenQuiet d a)
  | .setFragment _ => inferInstanceAs (Decidable (_ = _))
  | .write .. | .writer | .irq | .rebuild _ => isTrue trivial

/-- While the queues are there, the playback protocol holds, and of the transfers started
one interrupt is outstanding if one is in flight; while they are not, none is. -/
structure Calm (d : Device) : Prop where
  tame : Tame d
  protocol : d.mapped = true → Inv d.cfg d.play ∧
    d.play.dmaStarts.length = d.served + if d.play.inFlight then 1 else 0
  quiet : d.mapped = false → d.served = d.play.dmaStarts.length ∧ d.play.inFlight = false ∧
    d.play.filled = d.play.dmaStarts

theorem writerStep_starts (h : Inv cfg s) :
    (writerStep cfg s).dmaStarts.length + (if s.inFlight then 1 else 0) =
      s.dmaStarts.length + if (writerStep cfg s).inFlight then 1 else 0 := by
  cases hpc : s.pc with
  | start c id =>
    have hidle := h.window (by simp [hpc])
    simp [writerStep, hpc, audioStartDma, hidle]
  | put c id =>
    simp only [writerStep, hpc]
    split <;> rfl
  | checkEmpty c =>
    simp only [writerStep, hpc]
    split <;> rfl
  | _ => simp only [writerStep, hpc]

namespace Calm

theorem inFlight_of_outstanding (h : Calm d) (hout : d.served < d.play.dmaStarts.length) :
    d.mapped = true ∧ d.play.inFlight = true := by
  have hmapped : d.mapped = true := by
    by_contra hm
    have hserved := (h.quiet (by simpa using hm)).1
    omega
  refine ⟨hmapped, ?_⟩
  have hlen := (h.protocol hmapped).2
  by_contra hf
  rw [if_neg hf] at hlen
  omega

theorem writer (h : Calm d) (hm : d.mapped = true) :
    (writerStep d.cfg d.play).dmaStarts.length
      = d.served + if (writerStep d.cfg d.play).inFlight then 1 else 0 := by
  have hstarts := writerStep_starts (h.protocol hm).1
  have hlen := (h.protocol hm).2
  omega

theorem irq (h : Calm d) (hout : d.served < d.play.dmaStarts.length) :
    Inv d.cfg (jzI2sReplayDmaIrq d.cfg d.play) ∧
      (jzI2sReplayDmaIrq d.cfg d.play).dmaStarts.length =
        d.served + 1 + if (jzI2sReplayDmaIrq d.cfg d.play).inFlight then 1 else 0 := by
  obtain ⟨hmapped, hf⟩ := h.inFlight_of_outstanding hout
  obtain ⟨hinv, hlen⟩ := h.protocol hmapped
  obtain ⟨id, hb⟩ := hinv.busy_of_inFlight hf
  have hd := finished_irq hinv hb
  refine ⟨hinv.irq hf, ?_⟩
  rw [if_pos hf] at hlen
  rw [hd.dmaStarts, hd.inFlight]
  cases d.play.outFull.toList <;> simp [hlen]

theorem allPlayed (h : Calm d) (hpc : d.play.pc = .idle)
    (hquiet : d.served = d.play.dmaStarts.length) :
    d.play.inFlight = false ∧ d.play.filled = d.play.dmaStarts := by
  by_cases hm : d.mapped = true
  · obtain ⟨hinv, hlen⟩ := h.protocol hm
    have hf : d.play.inFlight = false := by
      by_contra hf
      rw [if_pos (by simpa using hf)] at hlen
      omega
    have hfull : d.play.outFull.toList = [] := by
      by_contra hne
      rw [hinv.noStall (by simp [hpc]) hne] at hf
      cases hf
    have horder := hinv.order
    rw [waiting_plain (by simp [hpc]), hfull, List.map_nil, List.append_nil] at horder
    exact ⟨hf, horder⟩
  · exact (h.quiet (by simpa using hm)).2

theorem moves (h : Calm d) (ha : ChangesWhenQuiet d a) (hmoves : Moves d a t) : Calm t := by
  have htame := h.tame.moves hmoves
  cases hmoves with
  | stays => exact h
  | write n pc hpc hpend hnext =>
    exact ⟨htame, fun hm => ⟨(h.protocol hm).1.enter hpc n hnext, (h.protocol hm).2⟩, h.quiet⟩
  | killed hgone =>
    have hmapped := h.tame.not_mapped hgone
    exact ⟨htame, fun hm => absurd (hmapped.symm.trans hm) (by simp), h.quiet⟩
  | writer hfill hget =>
    refine ⟨htame, fun hm => ⟨(h.protocol hm).1.writer, h.writer hm⟩, fun hm => ?_⟩
    obtain ⟨pc, q, heq, -⟩ := writerStep_unmapped d.cfg (h.tame.unmapped hm).1 (hfill hm)
    dsimp only
    rw [heq]
    exact h.quiet hm
  | stray hout hl =>
    exact absurd (h.quiet (h.tame.not_mapped (Or.inl hl))).1 (Nat.ne_of_lt hout)
  | irq hout hl =>
    exact ⟨htame, fun _ => h.irq hout, fun hm => absurd (h.quiet hm).1 (Nat.ne_of_lt hout)⟩
  | setFragment hpc => exact ⟨htame, nofun, fun _ => ⟨ha, h.allPlayed hpc ha⟩⟩
  | rebuild alloc hpend =>
    obtain ⟨hidle, hl⟩ := h.tame.pending (by rw [hpend]; simp)
    have hmapped := h.tame.not_mapped (Or.inl hl)
    obtain ⟨hserved, hf, hfilled⟩ := h.quiet hmapped
    cases alloc with
    | ok counts =>
      refine ⟨htame, fun _ => ⟨⟨?_, ?_, ?_, h.tame.noPop, ?_, ?_, ?_, ?_⟩, ?_⟩, nofun⟩ <;>
        simp [initInOutQueue, setUpQueues, toList_fresh, hidle, hf, hfilled, State.waiting,
          State.justFilled, State.playing, hserved]
    | _ => exact ⟨htame, fun hm => absurd (hmapped.symm.trans hm) (by simp),
        fun _ => ⟨hserved, hf, hfilled⟩⟩

end Calm

end Dingoo.JzI2s
