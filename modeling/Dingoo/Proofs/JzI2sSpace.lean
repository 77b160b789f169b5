/-
What `SNDCTL_DSP_GETOSPACE` promises to a write that must not block.

The number reported is that of the empty fragments times the bytes each of them takes,
and the write takes the fragments one by one.  Interrupts append to the empty queue
and take nothing from it, so a write that needs no more fragments than there were
gets them: `Supply` says that of what is still to be written, and each iteration
gives one fragment and its bytes up together.

This counts on every id in the empty queue being a fragment.  A `-1` among them, left
by an interrupt that came after the fragments had been changed, is reported like a
fragment and fills nothing.
-/
import Dingoo.Proofs.JzI2sReconf

namespace Dingoo.JzI2s

open Dingoo.Lib

variable {cfg : Config} {s : State} {d : Device} {m copy lim : Nat} {c : Call} {l : List Int}
  {left : Int}

/-! ### Sizes -/

/-- The bytes one fragment takes. -/
def Config.copySize (cfg : Config) : Nat :=
  match cfg.channels with
  | .stereo => cfg.fragsize / cfg.jzAudioB
  | .mono => cfg.fragsize / 4

theorem bmod_of_lt {n : Nat} (h : n < 2 ^ 31) : Int.bmod n (2 ^ 32) = n := by
  rw [Int.bmod_def]
  omega

theorem newFragsize_bounds (val : BitVec 32) :
    8 ∣ newFragsize val ∧ 16384 ≤ newFragsize val ∧ newFragsize val ≤ 65536 := by
  have hpow : ∀ j : Fin 32, 8 ∣ (if (if (1#32 <<< j.val).toNat < 4 * 4096 then 4 * 4096
        else (1#32 <<< j.val).toNat) > 16 * 4096 then 16 * 4096
      else if (1#32 <<< j.val).toNat < 4 * 4096 then 4 * 4096
        else (1#32 <<< j.val).toNat) := by
    decide
  refine ⟨hpow ⟨(val &&& 0xFFFF).toNat % 32, Nat.mod_lt _ (by decide)⟩, ?_⟩
  unfold newFragsize
  dsimp only
  split <;> split <;> omega

theorem newFragstotal_bounds (val : BitVec 32) :
    2 ≤ newFragstotal val ∧ newFragstotal val ≤ 32 := by
  unfold newFragstotal
  dsimp only
  split <;> split <;> omega

namespace Config.Fits

theorem bounds (h : cfg.Fits) :
    8 ∣ cfg.fragsize ∧ 16384 ≤ cfg.fragsize ∧ cfg.fragsize ≤ 65536 ∧ 2 ≤ cfg.fragstotal ∧
      cfg.fragstotal ≤ 32 := by
  rcases h with ⟨hsize, htotal⟩ | ⟨val, hsize, htotal⟩
  · omega
  · obtain ⟨hdvd, hsize'⟩ := newFragsize_bounds val
    obtain ⟨htotal'⟩ := newFragstotal_bounds val
    rw [hsize, htotal]
    exact ⟨hdvd, hsize'.1, hsize'.2, htotal', by assumption⟩

theorem jzAudioB_cases (cfg : Config) : cfg.jzAudioB = 2 ∨ cfg.jzAudioB = 4 := by
  unfold Config.jzAudioB
  split
  · exact Or.inr rfl
  · exact Or.inl rfl

theorem copySize_bounds (h : cfg.Fits) : 0 < cfg.copySize ∧ cfg.copySize ≤ 32768 := by
  obtain ⟨-, hlow, hhigh, -⟩ := h.bounds
  unfold Config.copySize
  split
  · rcases jzAudioB_cases cfg with hb | hb <;> rw [hb] <;> omega
  · omega

/-- Whole fragments: the division of the sum is the sum of the divisions. -/
theorem getOspace_eq (h : d.cfg.Fits) :
    getOspace d = elementsInQueue d.play.outEmpty * d.cfg.copySize := by
  have hdvd : 4 ∣ d.cfg.fragsize := Nat.dvd_trans (by decide) h.bounds.1
  unfold getOspace Config.copySize
  dsimp only
  cases d.cfg.channels with
  | stereo =>
    refine Nat.mul_div_assoc _ ?_
    rcases jzAudioB_cases d.cfg with hb | hb <;> rw [hb]
    · exact Nat.dvd_trans (by decide) hdvd
    · exact hdvd
  | mono => exact Nat.mul_div_assoc _ hdvd

end Config.Fits

theorem fillLoop8_pos : ∀ (count cnt : Nat), 0 < count → 0 < fillLoop8 count cnt := by
  intro count
  induction count with
  | zero =>
    intro cnt h
    exact absurd h (Nat.lt_irrefl 0)
  | succ count ih =>
    intro cnt _
    rcases Nat.eq_zero_or_pos count with rfl | hpos
    · exact Nat.succ_pos cnt
    · exact ih (cnt + 1) hpos

theorem le_fillLoop16 : ∀ (count cnt : Nat), cnt ≤ fillLoop16 count cnt
  | 0, cnt => Nat.le_refl cnt
  | 1, cnt => Nat.le_add_right cnt 2
  | count + 2, cnt => (Nat.le_add_right cnt 2).trans (le_fillLoop16 count (cnt + 2))

theorem replayFiller_pos (cfg : Config) {count : Nat} (h : 0 < count) :
    0 < replayFiller cfg count := by
  have hb : 0 < cfg.jzAudioB := by
    rcases Config.Fits.jzAudioB_cases cfg with hb | hb <;> omega
  have h8 := fillLoop8_pos count 0 h
  have h16 : 0 < fillLoop16 count 0 := by
    match count, h with
    | 1, _ => exact Nat.succ_pos 1
    | count + 2, _ => exact Nat.lt_of_lt_of_le (by decide) (le_fillLoop16 count 2)
  unfold replayFiller
  split
  · exact Nat.mul_pos (Nat.mul_pos h8 (by decide)) hb
  · exact Nat.mul_pos h8 hb
  · exact Nat.mul_pos (Nat.mul_pos h16 (by decide)) hb
  · exact Nat.mul_pos h16 hb

/-! ### A supply of fragments -/

/-- The queue begins with fragments enough for `left` bytes at `copy` bytes each. -/
def Supply (l : List Int) (left : Int) (copy : Nat) : Prop :=
  ∃ a b, l = a ++ b ∧ (∀ id ∈ a, 0 ≤ id) ∧ left ≤ a.length * copy

theorem Supply.append (h : Supply l left copy) (x : List Int) : Supply (l ++ x) left copy := by
  obtain ⟨a, b, rfl, hids, hleft⟩ := h
  exact ⟨a, b ++ x, by rw [List.append_assoc], hids, hleft⟩

theorem Supply.cons (h : Supply l left copy) (hpos : 0 < left) :
    ∃ id l', l = id :: l' ∧ 0 ≤ id ∧ Supply l' (left - copy) copy := by
  obtain ⟨a, b, rfl, hids, hleft⟩ := h
  cases a with
  | nil =>
    simp at hleft
    omega
  | cons id a =>
    refine ⟨id, a ++ b, rfl, hids id (by simp), a, b, rfl, fun i hi => hids i (by simp [hi]), ?_⟩
    rw [List.length_cons] at hleft
    push_cast at hleft
    rw [Int.add_mul, Int.one_mul] at hleft
    omega

theorem Supply.done (l : List Int) (copy : Nat) : Supply l 0 copy :=
  ⟨[], l, rfl, fun _ h => absurd h List.not_mem_nil, by simp⟩

/-! ### A write that is supplied -/

/-- The locals of a write of `m` bytes that must not block. -/
structure Locals (m : Nat) (c : Call) : Prop where
  count : c.count = m
  nonblock : c.nonblock = true
  sum : (c.ret : Int) + c.leftCount = m
  left : 0 ≤ c.leftCount
  copy : 0 < c.copyCount

/-- A write that has the fragments it still needs, at each of its positions. -/
def Going (m : Nat) (s : State) : Prop :=
  match s.pc with
  | .loop c | .checkBusy c | .getFull c | .putBusy c _ | .start c _ | .started c _ =>
    Locals m c ∧ Supply s.outEmpty.toList c.leftCount c.copyCount
  | .checkEmpty c =>
    Locals m c ∧ 0 < c.leftCount ∧ Supply s.outEmpty.toList c.leftCount c.copyCount
  | .getEmpty c =>
    Locals m c ∧ c.copyCount ≤ c.leftCount ∧ ∃ id l, s.outEmpty.toList = id :: l ∧ 0 ≤ id ∧
      Supply l (c.leftCount - c.copyCount) c.copyCount
  | .fill c _ | .advance c =>
    Locals m c ∧ c.copyCount ≤ c.leftCount ∧
      Supply s.outEmpty.toList (c.leftCount - c.copyCount) c.copyCount
  | .put c id =>
    Locals m c ∧ c.copyCount ≤ c.leftCount ∧ 0 < s.dataCount id ∧
      Supply s.outEmpty.toList (c.leftCount - c.copyCount) c.copyCount
  | .idle | .sleepOn _ | .sleeping _ => False

/-- The steps to the end of the iteration, and eleven for each byte. -/
def stepsLeft (s : State) : Nat :=
  match s.pc with
  | .started c _ => 11 * c.leftCount.toNat + 6
  | .start c _ => 11 * c.leftCount.toNat + 7
  | .putBusy c _ => 11 * c.leftCount.toNat + 8
  | .getFull c => 11 * c.leftCount.toNat + 9
  | .checkBusy c => 11 * c.leftCount.toNat + 10
  | .loop c => 11 * c.leftCount.toNat + 5
  | .checkEmpty c => 11 * c.leftCount.toNat + 4
  | .getEmpty c => 11 * c.leftCount.toNat + 3
  | .fill c _ => 11 * c.leftCount.toNat + 2
  | .put c _ => 11 * c.leftCount.toNat + 1
  | .advance c => 11 * c.leftCount.toNat
  | .idle | .sleepOn _ | .sleeping _ => 0

/-- The second half of an iteration, in which a transfer may be started. -/
@[simp] def Pc.secondHalf : Pc → Option Call
  | .checkBusy c | .getFull c | .putBusy c _ | .start c _ | .started c _ => some c
  | _ => none

/-- In the second half the writer moves on towards its loop with the locals it has, and
leaves the empty queue alone. -/
theorem writerStep_secondHalf (cfg : Config) (h : s.pc.secondHalf = some c) :
    (writerStep cfg s).outEmpty = s.outEmpty ∧
      ((writerStep cfg s).pc = .loop c ∨ (writerStep cfg s).pc.secondHalf = some c) ∧
      stepsLeft (writerStep cfg s) < stepsLeft s := by
  generalize hpc : s.pc = p at h
  cases p with
  | checkBusy c' =>
    obtain rfl := Option.some.inj h
    by_cases hif : elementsInQueue s.outBusy = 0 <;> simp [writerStep, stepsLeft, hpc, hif]
  | getFull c' =>
    obtain rfl := Option.some.inj h
    by_cases hif : (getBufferId s.outFull).1 ≥ 0 <;> simp [writerStep, stepsLeft, hpc, hif]
  | putBusy c' id =>
    obtain rfl := Option.some.inj h
    by_cases hif : s.dataCount id > 0 <;> simp [writerStep, stepsLeft, hpc, hif]
  | start c' id | started c' id =>
    obtain rfl := Option.some.inj h
    simp [writerStep, stepsLeft, hpc, audioStartDma]
  | _ => simp at h

theorem going_secondHalf (h : s.pc = .loop c ∨ s.pc.secondHalf = some c) :
    Going m s ↔ Locals m c ∧ Supply s.outEmpty.toList c.leftCount c.copyCount := by
  unfold Going
  cases hpc : s.pc <;> simp_all

theorem Locals.clip (h : Locals m c) (hpos : 0 < c.leftCount)
    (hs : Supply l (c.leftCount - c.copyCount) c.copyCount) :
    Locals m c.clip ∧ (c.clip.copyCount : Int) ≤ c.clip.leftCount ∧
      c.clip.leftCount = c.leftCount ∧
      Supply l (c.clip.leftCount - c.clip.copyCount) c.clip.copyCount := by
  have hsum := h.sum
  have hcount := h.count
  unfold Call.clip
  split
  · rename_i hlast
    have hcopy : ((c.count - c.ret : Nat) : Int) = c.leftCount := by omega
    refine ⟨⟨h.count, h.nonblock, h.sum, h.left, ?_⟩, ?_, rfl, ?_⟩
    · show 0 < c.count - c.ret
      omega
    · exact Int.le_of_eq hcopy
    · show Supply l (c.leftCount - ((c.count - c.ret : Nat) : Int)) (c.count - c.ret)
      rw [hcopy, Int.sub_self]
      exact Supply.done l _
  · exact ⟨h, by omega, rfl, hs⟩

theorem Locals.advance (h : Locals m c) (hle : (c.copyCount : Int) ≤ c.leftCount) :
    Locals m { c with leftCount := c.leftCount - c.copyCount, ret := c.ret + c.copyCount } := by
  have hsum := h.sum
  refine ⟨h.count, h.nonblock, ?_, ?_, h.copy⟩
  · show ((c.ret + c.copyCount : Nat) : Int) + (c.leftCount - c.copyCount) = m
    omega
  · show 0 ≤ c.leftCount - c.copyCount
    omega

/-- A supplied write at the head of its loop or at its check returns what it was given,
or takes a step nearer to that. -/
theorem Going.step (h : Going m d.play) :
    (d.returns = some m ∧ (writerStep d.cfg d.play).pc = .idle) ∨
      d.returns = none ∧ Going m (writerStep d.cfg d.play) ∧
        stepsLeft (writerStep d.cfg d.play) < stepsLeft d.play := by
  unfold Going at h
  generalize hpc : d.play.pc = p at h
  cases p with
  | idle | sleepOn c | sleeping c =>
    exact absurd h id
  | loop c =>
    obtain ⟨hl, hs⟩ := h
    by_cases hpos : c.leftCount > 0
    · refine Or.inr ⟨by simp [Device.returns, hpc, hpos], ?_, ?_⟩
      · simp only [Going, writerStep, hpc, if_pos hpos]
        exact ⟨hl, hpos, hs⟩
      · simp [stepsLeft, writerStep, hpc, hpos]
    · have hret : c.ret = m := by
        have hsum := hl.sum
        have hleft := hl.left
        omega
      refine Or.inl ⟨by simp [Device.returns, hpc, hpos, hret], ?_⟩
      simp [writerStep, hpc, hpos]
  | checkEmpty c =>
    obtain ⟨hl, hpos, hs⟩ := h
    obtain ⟨id, l, hq, hid, hrest⟩ := hs.cons hpos
    have hne : elementsInQueue d.play.outEmpty ≠ 0 := by
      rw [elementsInQueue, Ne, d.play.outEmpty.count_eq_zero, hq]
      exact List.cons_ne_nil _ _
    obtain ⟨hl', hle', hleft', hs'⟩ := hl.clip hpos hrest
    refine Or.inr ⟨by simp [Device.returns, hpc, hne], ?_, ?_⟩
    · simp only [Going, writerStep, hpc, if_neg hne]
      exact ⟨hl', hle', id, l, hq, hid, hs'⟩
    · simp [stepsLeft, writerStep, hpc, hne, hleft']
  | getEmpty c =>
    obtain ⟨hl, hle, id, l, hq, hid, hs⟩ := h
    obtain ⟨hfirst, hrest⟩ := getBufferId_cons hq
    refine Or.inr ⟨by simp [Device.returns, hpc], ?_, ?_⟩
    · simp only [Going, writerStep, hpc, hfirst, if_pos hid, hrest]
      exact ⟨hl, hle, hs⟩
    · simp [stepsLeft, writerStep, hpc, hfirst, hid]
  | fill c id =>
    obtain ⟨hl, hle, hs⟩ := h
    refine Or.inr ⟨by simp [Device.returns, hpc], ?_, ?_⟩
    · simp only [Going, writerStep, hpc, Function.update_self]
      exact ⟨hl, hle, replayFiller_pos _ hl.copy, hs⟩
    · simp [stepsLeft, writerStep, hpc]
  | put c id =>
    obtain ⟨hl, hle, hdata, hs⟩ := h
    refine Or.inr ⟨by simp [Device.returns, hpc], ?_, ?_⟩
    · simp only [Going, writerStep, hpc, if_pos (show d.play.dataCount id > 0 from hdata)]
      exact ⟨hl, hle, hs⟩
    · simp [stepsLeft, writerStep, hpc, hdata]
  | advance c =>
    obtain ⟨hl, hle, hs⟩ := h
    have hcopy := hl.copy
    refine Or.inr ⟨by simp [Device.returns, hpc], ?_, ?_⟩
    · simp only [Going, writerStep, hpc]
      exact ⟨hl.advance hle, hs⟩
    · simp only [stepsLeft, writerStep, hpc]
      omega
  | checkBusy c | getFull c | putBusy c id | start c id | started c id =>
    obtain ⟨hempty, hnext, hless⟩ := writerStep_secondHalf d.cfg (c := c) (by rw [hpc]; rfl)
    refine Or.inr ⟨by simp [Device.returns, hpc], ?_, hless⟩
    rw [going_secondHalf hnext, hempty]
    exact h

/-! ### Interrupts during the write -/

theorem irq_appends (cfg : Config) (hpop : s.popDmaFlag = false) :
    ∃ id, (jzI2sReplayDmaIrq cfg s).outEmpty.toList = s.outEmpty.toList ++ [id] ∧
      (jzI2sReplayDmaIrq cfg s).dataCount = s.dataCount ∧
      (jzI2sReplayDmaIrq cfg s).pc = s.pc.woken := by
  have hnext : ∀ t : State, (startNext cfg t).dataCount = t.dataCount ∧
      (startNext cfg t).pc = t.pc := by
    intro t
    unfold startNext audioStartDma
    dsimp only
    split
    · split <;> exact ⟨rfl, rfl⟩
    · exact ⟨rfl, rfl⟩
  rw [irq_eq cfg hpop]
  refine ⟨(getBufferId s.outBusy).1, ?_, ?_, ?_⟩
  · show (startNext cfg _).outEmpty.toList = _
    rw [outEmpty_startNext]
    exact toList_putBufferId _ _
  · show (startNext cfg _).dataCount = _
    rw [(hnext _).1]
    rfl
  · show (startNext cfg _).pc.woken = _
    rw [(hnext _).2]
    rfl

theorem Going.appended {t : State} (h : Going m s) {x : List Int}
    (hempty : t.outEmpty.toList = s.outEmpty.toList ++ x) (hdata : t.dataCount = s.dataCount)
    (hpc : t.pc = s.pc.woken) : Going m t ∧ stepsLeft t = stepsLeft s := by
  unfold Going stepsLeft at *
  rw [hpc, hempty, hdata]
  generalize hp : s.pc = p at h
  cases p with
  | idle | sleepOn c | sleeping c =>
    exact absurd h id
  | loop c | checkBusy c | getFull c | putBusy c i | start c i | started c i =>
    exact ⟨⟨h.1, h.2.append x⟩, rfl⟩
  | checkEmpty c =>
    exact ⟨⟨h.1, h.2.1, h.2.2.append x⟩, rfl⟩
  | getEmpty c =>
    obtain ⟨hl, hle, id, l, hq, hid, hs⟩ := h
    exact ⟨⟨hl, hle, id, l ++ x, by rw [hq, List.cons_append], hid, hs.append x⟩, rfl⟩
  | fill c i | advance c =>
    exact ⟨⟨h.1, h.2.1, h.2.2.append x⟩, rfl⟩
  | put c i =>
    exact ⟨⟨h.1, h.2.1, h.2.2.1, h.2.2.2.append x⟩, rfl⟩

/-- A write under way, with its arrays in place. -/
structure Writing (m : Nat) (d : Device) : Prop where
  mapped : d.mapped = true
  tame : Tame d
  going : Going m d.play

theorem Tame.writerTurn_mapped (ht : Tame d) (h : d.mapped = true) :
    writerTurn d = { d with play := writerStep d.cfg d.play } := by
  refine if_neg ?_
  unfold Device.faults
  split <;> simp [h, ht.listed h]

theorem Writing.irq (h : Writing m d) :
    Writing m (deviceStep d .irq) ∧ stepsLeft (deviceStep d .irq).play = stepsLeft d.play := by
  have htame := h.tame.step .irq
  have hmoves := deviceStep_moves d .irq
  generalize deviceStep d .irq = t at htame hmoves
  cases hmoves with
  | stays => exact ⟨h, rfl⟩
  | stray hout hl => exact absurd (hl.symm.trans (h.tame.listed h.mapped)) (by simp)
  | irq hout hl =>
    obtain ⟨id, hempty, hdata, hpc⟩ := irq_appends d.cfg h.tame.noPop
    obtain ⟨hgoing, hsteps⟩ := h.going.appended hempty hdata hpc
    exact ⟨⟨h.mapped, htame, hgoing⟩, hsteps⟩

theorem Writing.writer (h : Writing m d) :
    (d.returns = some m ∧ (deviceStep d .writer).play.pc = .idle) ∨
      d.returns = none ∧ Writing m (deviceStep d .writer) ∧
        stepsLeft (deviceStep d .writer).play < stepsLeft d.play := by
  have htame : Tame (writerTurn d) := h.tame.step .writer
  show (_ ∧ (writerTurn d).play.pc = _) ∨ _ ∧ Writing m (writerTurn d) ∧
    stepsLeft (writerTurn d).play < _
  rw [h.tame.writerTurn_mapped h.mapped] at htame ⊢
  rcases h.going.step with hret | ⟨hnone, hgoing, hless⟩
  · exact Or.inl hret
  · exact Or.inr ⟨hnone, ⟨h.mapped, htame, hgoing⟩, hless⟩

theorem Writing.result :
    ∀ (turns : List Turn) {d : Device}, Writing m d → stepsLeft d.play < turns.count .writer →
      writeResult d turns = some m := by
  intro turns
  induction turns with
  | nil =>
    intro d _ h
    simp at h
  | cons t turns ih =>
    intro d hd hless
    cases t with
    | irq =>
      obtain ⟨hd', hsame⟩ := hd.irq
      rw [writeResult]
      refine ih hd' ?_
      rw [hsame]
      simpa using hless
    | writer =>
      rw [writeResult]
      rcases hd.writer with ⟨hret, -⟩ | ⟨hnone, hd', hfewer⟩
      · rw [hret]
      · rw [hnone]
        refine ih hd' ?_
        rw [List.count_cons_self] at hless
        omega

/-- A write has looked for an empty fragment in vain. -/
def Starved (d : Device) : Prop :=
  ∃ c, d.play.pc = .checkEmpty c ∧ elementsInQueue d.play.outEmpty = 0

theorem Writing.not_starved (h : Writing m d) : ¬ Starved d := by
  rintro ⟨c, hpc, hzero⟩
  have hgoing := h.going
  unfold Going at hgoing
  rw [hpc] at hgoing
  obtain ⟨id, l, hq, -⟩ := hgoing.2.2.cons hgoing.2.1
  rw [elementsInQueue, d.play.outEmpty.count_eq_zero, hq] at hzero
  cases hzero

theorem idle_step (ht : Tame d) (h : d.play.pc = .idle) (t : Turn) :
    (deviceStep d t.act).play.pc = .idle := by
  cases t with
  | writer =>
    show (writerTurn d).play.pc = .idle
    unfold writerTurn
    split
    · rfl
    · simp only [writerStep, h]
  | irq =>
    have hmoves := deviceStep_moves d .irq
    show (deviceStep d .irq).play.pc = .idle
    generalize deviceStep d .irq = t at hmoves
    cases hmoves with
    | stays => exact h
    | stray hout hm => exact h
    | irq hout hm =>
      obtain ⟨-, -, -, hpc⟩ := irq_appends d.cfg ht.noPop
      dsimp only
      rw [hpc, h]
      rfl

theorem never_starved :
    ∀ (turns : List Turn) {d : Device}, Tame d → Writing m d ∨ d.play.pc = .idle →
      ¬ Starved (deviceRun d (turns.map Turn.act)) := by
  intro turns
  induction turns with
  | nil =>
    rintro d - (hd | hidle)
    · exact hd.not_starved
    · rintro ⟨c, hpc, -⟩
      rw [show d.play.pc = .checkEmpty c from hpc] at hidle
      cases hidle
  | cons t turns ih =>
    intro d ht hd
    refine ih (ht.step t.act) ?_
    rcases hd with hd | hidle
    · cases t with
      | irq => exact Or.inl hd.irq.1
      | writer =>
        rcases hd.writer with ⟨-, hidle⟩ | ⟨-, hd', -⟩
        · exact Or.inr hidle
        · exact Or.inl hd'
    · exact Or.inr (idle_step ht hidle t)

/-! ### The promise -/

/-- A write that must not block, of any number of bytes up to the one reported, never
finds the empty queue empty and returns that number, whatever interrupts come. -/
def OspaceKept (d : Device) : Prop :=
  ∀ m, 0 < m → m ≤ getOspace d →
    ∃ n, ∀ turns : List Turn,
      ¬ Starved (deviceRun (deviceStep d (.write m true false)) (turns.map Turn.act)) ∧
      (n ≤ turns.count .writer →
        writeResult (deviceStep d (.write m true false)) turns = some m)

/-- Fragments of a size that fits. -/
structure Sized (d : Device) : Prop where
  fits : d.cfg.Fits
  pending : ∀ p, d.pending = some p → ∃ val, p = (newFragsize val, newFragstotal val)

theorem sized_opened (hfits : cfg.Fits) (s : State) : Sized (.opened cfg s) where
  fits := hfits
  pending := by
    intro p hp
    cases hp

theorem Sized.moves {a : DeviceAct} {t : Device} (h : Sized d) (hmoves : Moves d a t) :
    Sized t := by
  cases hmoves with
  | @setFragment val hpc => exact ⟨h.fits, fun p hp => ⟨val, (Option.some.inj hp).symm⟩⟩
  | rebuild alloc hpend =>
    obtain ⟨val, hval⟩ := h.pending _ hpend
    obtain ⟨rfl, rfl⟩ := Prod.mk.inj hval
    have hfits : Config.Fits { d.cfg with
        fragsize := newFragsize val, fragstotal := newFragstotal val } :=
      Or.inr ⟨val, rfl, rfl⟩
    have hpending : ∀ p : Nat × Nat, none = some p →
        ∃ val, p = (newFragsize val, newFragstotal val) := by
      intro p hp
      cases hp
    cases alloc with
    | _ => exact ⟨hfits, hpending⟩
  | _ => exact ⟨h.fits, h.pending⟩

theorem sized_run (acts : List DeviceAct) (h : Sized d) : Sized (deviceRun d acts) :=
  List.foldlRecOn acts deviceStep h fun _ hd a _ => hd.moves (deviceStep_moves _ a)

/-- The fragments among the ids of a queue. -/
def fragmentsIn (l : List Int) : Nat := l.countP (fun id => decide (0 ≤ id))

/-- The fragments are few, however many of the other ids there are. -/
theorem Tame.fragmentsIn_le (ht : Tame d) (hm : d.mapped = true) :
    fragmentsIn d.play.outEmpty.toList ≤ d.cfg.fragstotal := by
  have hsub : (d.play.outEmpty.toList.filter fun id => decide (0 ≤ id)).Subperm
      (fragmentIds d.cfg.fragstotal) := by
    refine List.subperm_ext_iff.mpr fun id hid => ?_
    obtain ⟨-, hpos⟩ := List.mem_filter.mp hid
    have hcount := ht.fragments hm id (by simpa using hpos)
    rw [count_ids] at hcount
    have hfilter := (List.filter_sublist (p := fun id => decide ((0 : Int) ≤ id))
      (l := d.play.outEmpty.toList)).count_le id
    omega
  have hlen := hsub.length_le
  rw [← List.countP_eq_length_filter] at hlen
  simpa [fragmentsIn, fragmentIds] using hlen

/-- All ids are fragments: as many as there are ids. -/
theorem fragmentsIn_eq_iff (q : Queue) :
    fragmentsIn q.toList = elementsInQueue q ↔ ∀ id ∈ q.toList, 0 ≤ id := by
  rw [elementsInQueue, ← ArrayQueue.length_toList, fragmentsIn, List.countP_eq_length]
  simp

/-- The write of `m` bytes at the head of its loop. -/
def begun (d : Device) (m : Nat) : Device :=
  { d with play := { d.play with nextOut := 0, pc := .loop ⟨m, true, 0, m, d.cfg.copySize⟩ } }

theorem write_started (hpc : d.play.pc = .idle) (hpend : d.pending = none) {m : Nat}
    (hpos : 0 < m) (hm : m < 2 ^ 31) :
    deviceStep d (.write m true false) = begun d m := by
  have hcopy : d.cfg.copySize = (match d.cfg.channels with
      | .stereo => d.cfg.fragsize / d.cfg.jzAudioB
      | .mono => d.cfg.fragsize / 4) := rfl
  simp only [deviceStep, jzAudioWrite, if_pos (And.intro hpc hpend),
    if_neg (Nat.pos_iff_ne_zero.mp hpos), bmod_of_lt hm, begun, hcopy]
  rfl

theorem ospaceKept_of_fragments (ht : Tame d) (hz : Sized d) (hpc : d.play.pc = .idle)
    (hpend : d.pending = none) (hm : d.mapped = true)
    (hids : ∀ id ∈ d.play.outEmpty.toList, 0 ≤ id) : OspaceKept d := by
  intro m hpos hle
  rw [hz.fits.getOspace_eq] at hle
  have hcopy := hz.fits.copySize_bounds
  have hbig : m < 2 ^ 31 := by
    have hlen := ht.fragmentsIn_le hm
    rw [(fragmentsIn_eq_iff _).mpr hids] at hlen
    have htotal := hz.fits.bounds
    have hmul : elementsInQueue d.play.outEmpty * d.cfg.copySize ≤ 32 * 32768 :=
      Nat.mul_le_mul (by omega) hcopy.2
    omega
  have htame := ht.step (.write m true false)
  rw [write_started hpc hpend hpos hbig] at htame ⊢
  have hgoing : Going m (begun d m).play := by
    refine ⟨⟨rfl, rfl, Int.zero_add _, Int.natCast_nonneg m, hcopy.1⟩, ?_⟩
    refine ⟨d.play.outEmpty.toList, [], (List.append_nil _).symm, hids, ?_⟩
    rw [ArrayQueue.length_toList]
    show (m : Int) ≤ ((elementsInQueue d.play.outEmpty * d.cfg.copySize : Nat) : Int)
    exact_mod_cast hle
  have hwriting : Writing m (begun d m) := ⟨hm, htame, hgoing⟩
  refine ⟨11 * m + 6, fun turns => ⟨never_starved turns htame (Or.inl hwriting), fun hsteps => ?_⟩⟩
  refine hwriting.result turns ?_
  show 11 * (m : Int).toNat + 5 < _
  omega

/-! ### Ids that are no fragments -/

theorem fragmentsIn_cons (id : Int) (l : List Int) :
    fragmentsIn (id :: l) = fragmentsIn l + if 0 ≤ id then 1 else 0 := by
  simp [fragmentsIn, List.countP_cons]

theorem fragmentsIn_concat_le (l : List Int) (id : Int) :
    fragmentsIn (l ++ [id]) ≤ fragmentsIn l + 1 := by
  unfold fragmentsIn
  rw [List.countP_append]
  exact Nat.add_le_add_left List.countP_le_length _

/-- A write that cannot get over `lim` bytes without an interrupt. -/
def Short (lim copy : Nat) (s : State) : Prop :=
  match s.pc with
  | .loop c | .checkEmpty c | .getEmpty c | .checkBusy c | .getFull c | .putBusy c _
  | .start c _ | .started c _ =>
    c.copyCount ≤ copy ∧ c.ret + fragmentsIn s.outEmpty.toList * copy ≤ lim
  | .fill c _ => c.copyCount ≤ copy ∧ c.ret + (fragmentsIn s.outEmpty.toList + 1) * copy ≤ lim
  | .put c id => c.copyCount ≤ copy ∧ (s.dataCount id = 0 → c.copyCount = 0) ∧
      c.ret + (fragmentsIn s.outEmpty.toList + 1) * copy ≤ lim
  | .advance c => c.copyCount ≤ copy ∧
      c.ret + c.copyCount + fragmentsIn s.outEmpty.toList * copy ≤ lim
  | .idle | .sleepOn _ | .sleeping _ => True

theorem clip_le (c : Call) : c.clip.copyCount ≤ c.copyCount ∧ c.clip.ret = c.ret := by
  unfold Call.clip
  split
  · refine ⟨?_, rfl⟩
    show c.count - c.ret ≤ c.copyCount
    omega
  · exact ⟨Nat.le_refl _, rfl⟩

theorem short_secondHalf (h : s.pc = .loop c ∨ s.pc.secondHalf = some c) :
    Short lim copy s ↔
      c.copyCount ≤ copy ∧ c.ret + fragmentsIn s.outEmpty.toList * copy ≤ lim := by
  unfold Short
  cases hpc : s.pc <;> simp_all

theorem Short.step (cfg : Config) (h : Short lim copy s) : Short lim copy (writerStep cfg s) := by
  unfold Short at h
  generalize hpc : s.pc = p at h
  cases p with
  | idle | sleepOn c | sleeping c => simp [Short, writerStep, hpc]
  | loop c =>
    by_cases hpos : c.leftCount > 0
    · simp only [Short, writerStep, hpc, if_pos hpos]
      exact h
    · simp [Short, writerStep, hpc, hpos]
  | checkEmpty c =>
    by_cases hzero : elementsInQueue s.outEmpty = 0
    · cases hn : c.nonblock <;> simp [Short, writerStep, hpc, hzero, hn]
    · have hclip := clip_le c
      simp only [Short, writerStep, hpc, if_neg hzero]
      rw [hclip.2]
      exact ⟨hclip.1.trans h.1, h.2⟩
  | getEmpty c =>
    cases hq : s.outEmpty.toList with
    | nil =>
      simp only [Short, writerStep, hpc, getBufferId_nil hq]
      exact h
    | cons id l =>
      obtain ⟨hfirst, hrest⟩ := getBufferId_cons hq
      rw [hq, fragmentsIn_cons] at h
      by_cases hid : id ≥ 0
      · rw [if_pos hid] at h
        simp only [Short, writerStep, hpc, hfirst, if_pos hid, hrest]
        exact h
      · rw [if_neg hid] at h
        simp only [Short, writerStep, hpc, hfirst, if_neg hid, hrest]
        exact h
  | fill c id =>
    simp only [Short, writerStep, hpc, Function.update_self]
    refine ⟨h.1, fun hzero => ?_, h.2⟩
    by_contra hne
    exact absurd hzero (Nat.ne_of_gt (replayFiller_pos cfg (Nat.pos_of_ne_zero hne)))
  | put c id =>
    obtain ⟨hcopy, hzero, hlim⟩ := h
    rw [Nat.add_mul, Nat.one_mul] at hlim
    by_cases hdata : s.dataCount id > 0
    · simp only [Short, writerStep, hpc, if_pos hdata]
      exact ⟨hcopy, by omega⟩
    · -- an empty fragment goes back, and nothing was copied
      have hmul := Nat.mul_le_mul_right copy (fragmentsIn_concat_le s.outEmpty.toList id)
      rw [Nat.add_mul, Nat.one_mul] at hmul
      simp only [Short, writerStep, hpc, if_neg hdata, toList_putBufferId]
      exact ⟨hcopy, by omega⟩
  | advance c =>
    simp only [Short, writerStep, hpc]
    exact h
  | checkBusy c | getFull c | putBusy c id | start c id | started c id =>
    obtain ⟨hempty, hnext, -⟩ := writerStep_secondHalf cfg (c := c) (by rw [hpc]; rfl)
    rw [short_secondHalf hnext, hempty]
    exact h

theorem Short.returns {r : Nat} (h : Short lim copy d.play) (hr : d.returns = some r) :
    r ≤ lim := by
  unfold Device.returns at hr
  unfold Short at h
  generalize hpc : d.play.pc = p at h hr
  cases p with
  | loop c =>
    dsimp only at h hr
    split at hr
    · cases hr
    · obtain rfl := Option.some.inj hr
      omega
  | checkEmpty c =>
    dsimp only at h hr
    split at hr
    · obtain rfl := Option.some.inj hr
      omega
    · cases hr
  | _ => cases hr

theorem Short.result {r : Nat} :
    ∀ (n : Nat) {d : Device}, Tame d → d.mapped = true → Short lim copy d.play →
      writeResult d (List.replicate n .writer) = some r → r ≤ lim := by
  intro n
  induction n with
  | zero =>
    intro d _ _ _ hr
    cases hr
  | succ n ih =>
    intro d ht hm hd hr
    rw [List.replicate_succ, writeResult] at hr
    split at hr
    · rename_i r' hret
      obtain rfl := Option.some.inj hr
      exact hd.returns hret
    · refine ih (d := deviceStep d .writer) (ht.step .writer) ?_ ?_ hr
      · show (writerTurn d).mapped = true
        rw [ht.writerTurn_mapped hm]
        exact hm
      · show Short lim copy (writerTurn d).play
        rw [ht.writerTurn_mapped hm]
        exact hd.step d.cfg

/-- An id that is no fragment breaks the promise: what it was reported for is not written. -/
theorem fragments_of_ospaceKept (ht : Tame d) (hz : Sized d) (hpc : d.play.pc = .idle)
    (hpend : d.pending = none) (hm : d.mapped = true) (h : OspaceKept d) :
    ∀ id ∈ d.play.outEmpty.toList, 0 ≤ id := by
  by_contra hneg
  have hcopy := hz.fits.copySize_bounds
  have hfew : fragmentsIn d.play.outEmpty.toList < elementsInQueue d.play.outEmpty := by
    refine Nat.lt_of_le_of_ne ?_ (mt (fragmentsIn_eq_iff _).mp hneg)
    rw [elementsInQueue, ← ArrayQueue.length_toList]
    exact List.countP_le_length
  have hfrags := ht.fragmentsIn_le hm
  have htotal := hz.fits.bounds
  have hmul : (fragmentsIn d.play.outEmpty.toList + 1) * d.cfg.copySize ≤ 33 * 32768 :=
    Nat.mul_le_mul (by omega) hcopy.2
  have hpos : 0 < (fragmentsIn d.play.outEmpty.toList + 1) * d.cfg.copySize :=
    Nat.mul_pos (Nat.succ_pos _) hcopy.1
  obtain ⟨n, hkept⟩ := h ((fragmentsIn d.play.outEmpty.toList + 1) * d.cfg.copySize) hpos (by
    rw [hz.fits.getOspace_eq]
    exact Nat.mul_le_mul_right _ hfew)
  have hresult := (hkept (List.replicate n .writer)).2 (by simp)
  have htame := ht.step (.write ((fragmentsIn d.play.outEmpty.toList + 1) * d.cfg.copySize)
    true false)
  rw [write_started hpc hpend hpos (by omega)] at hresult htame
  have hstart : Short (fragmentsIn d.play.outEmpty.toList * d.cfg.copySize) d.cfg.copySize
      (begun d ((fragmentsIn d.play.outEmpty.toList + 1) * d.cfg.copySize)).play :=
    ⟨Nat.le_refl _, Nat.le_of_eq (Nat.zero_add _)⟩
  have hshort := Short.result n htame hm hstart hresult
  rw [Nat.add_mul, Nat.one_mul] at hshort
  omega

/-! ### Arrays that are not there -/

/-- A write that has filled nothing, and never will. -/
def Doomed (d : Device) : Prop :=
  d.mapped = false ∧
    match d.play.pc with
    | .idle => True
    | .loop c => c.ret = 0 ∧ c.nonblock = true ∧ 0 < c.leftCount
    | .checkEmpty c | .getEmpty c | .fill c _ => c.ret = 0 ∧ c.nonblock = true
    | _ => False

theorem Doomed.step (h : Doomed d) :
    (∀ r, d.returns = some r → r = 0) ∧ Doomed (deviceStep d .writer) := by
  obtain ⟨hm, hat⟩ := h
  show _ ∧ Doomed (writerTurn d)
  generalize hpc : d.play.pc = p at hat
  cases p with
  | idle =>
    refine ⟨by simp [Device.returns, hpc], ?_⟩
    simp [Doomed, writerTurn, Device.faults, writerStep, hpc, hm]
  | loop c =>
    refine ⟨by simp [Device.returns, hpc, hat.2.2], ?_⟩
    simp [Doomed, writerTurn, Device.faults, writerStep, hpc, hm, hat]
  | checkEmpty c =>
    refine ⟨fun r hr => ?_, ?_⟩
    · simp only [Device.returns, hpc] at hr
      split at hr
      · exact (Option.some.inj hr).symm.trans hat.1
      · cases hr
    · have hclip : c.clip.ret = 0 ∧ c.clip.nonblock = true := by
        unfold Call.clip
        split <;> exact hat
      by_cases hzero : elementsInQueue d.play.outEmpty = 0
      · simp [Doomed, writerTurn, Device.faults, writerStep, hpc, hm, hzero, hat]
      · simp [Doomed, writerTurn, Device.faults, writerStep, hpc, hm, hzero, hclip]
  | getEmpty c =>
    refine ⟨by simp [Device.returns, hpc], ?_⟩
    unfold writerTurn
    split
    · exact ⟨hm, trivial⟩
    · by_cases hid : (getBufferId d.play.outEmpty).1 ≥ 0
      · simp [Doomed, writerStep, hpc, hm, hid, hat]
      · simp [Doomed, writerStep, hpc, hm, hid, hat]
  | fill c id =>
    refine ⟨by simp [Device.returns, hpc], ?_⟩
    simp [Doomed, writerTurn, Device.faults, hpc, hm]
  | _ =>
    exact absurd hat id

theorem Doomed.result {r : Nat} :
    ∀ (n : Nat) {d : Device}, Doomed d → writeResult d (List.replicate n .writer) = some r →
      r = 0 := by
  intro n
  induction n with
  | zero =>
    intro d _ hr
    cases hr
  | succ n ih =>
    intro d hd hr
    obtain ⟨hreturns, hd'⟩ := hd.step
    rw [List.replicate_succ, writeResult] at hr
    split at hr
    · rename_i r' hret
      exact Option.some.inj hr ▸ hreturns r' hret
    · exact ih hd' hr

theorem mapped_of_ospaceKept (hz : Sized d) (hpc : d.play.pc = .idle) (hpend : d.pending = none)
    (hne : elementsInQueue d.play.outEmpty ≠ 0) (h : OspaceKept d) : d.mapped = true := by
  by_contra hm
  have hgone : d.mapped = false := by simpa using hm
  have hcopy := hz.fits.copySize_bounds
  obtain ⟨n, hkept⟩ := h 1 (by decide) (by
    rw [hz.fits.getOspace_eq]
    exact Nat.mul_pos (Nat.pos_of_ne_zero hne) hcopy.1)
  have hresult := (hkept (List.replicate n .writer)).2 (by simp)
  rw [write_started hpc hpend (by decide) (by decide)] at hresult
  have hdoomed : Doomed (begun d 1) := ⟨hgone, rfl, rfl, Int.one_pos⟩
  exact absurd (hdoomed.result n hresult) (by decide)

/-- **`GETOSPACE` keeps its promise exactly if it reports nothing, or everything is allocated and
every empty id is a fragment.** -/
theorem ospaceKept_iff (cfg : Config) (hfits : cfg.Fits) (s : State) (hpc : s.pc = .idle)
    (acts : List DeviceAct)
    (hidle : (deviceRun (.opened cfg s) acts).play.pc = .idle)
    (hpend : (deviceRun (.opened cfg s) acts).pending = none) :
    OspaceKept (deviceRun (.opened cfg s) acts) ↔
      elementsInQueue (deviceRun (.opened cfg s) acts).play.outEmpty = 0 ∨
        (deviceRun (.opened cfg s) acts).mapped = true ∧
          ∀ id ∈ (deviceRun (.opened cfg s) acts).play.outEmpty.toList, 0 ≤ id := by
  have ht := tame_run acts (tame_opened cfg hpc)
  have hz := sized_run acts (sized_opened hfits s)
  constructor
  · intro h
    refine or_iff_not_imp_left.mpr fun hne => ?_
    have hm := mapped_of_ospaceKept hz hidle hpend hne h
    exact ⟨hm, fragments_of_ospaceKept ht hz hidle hpend hm h⟩
  · rintro (hzero | ⟨hm, hids⟩)
    · intro m hpos hle
      rw [hz.fits.getOspace_eq, hzero, Nat.zero_mul] at hle
      omega
    · exact ospaceKept_of_fragments ht hz hidle hpend hm hids

theorem ospaceKept_playedFrame :
    getOspace (deviceRun (.opened twoFragments untouched) playedFrame) = 16384 ∧
      OspaceKept (deviceRun (.opened twoFragments untouched) playedFrame) :=
  ⟨by decide, (ospaceKept_iff twoFragments (Or.inr ⟨0x2000E, by decide, by decide⟩) untouched rfl
    playedFrame (by decide) (by decide)).mpr (Or.inr ⟨by decide, by decide⟩)⟩

/-- The fragments are changed while one is being played. -/
def changedWhilePlaying : List DeviceAct :=
  .write 8 false false :: List.replicate 12 .writer ++ toThree ++ [.irq]

/-- Then four fragments of 8192 bytes are reported and three can be filled. -/
theorem ospace_changedWhilePlaying :
    getOspace (deviceRun (.opened twoFragments untouched) changedWhilePlaying) = 32768 ∧
      writeResult (deviceStep (deviceRun (.opened twoFragments untouched) changedWhilePlaying)
        (.write 32768 true false)) (List.replicate 50 .writer) = some 24576 := by
  decide +kernel

end Dingoo.JzI2s
