/-
What `SNDCTL_DSP_GETOPTR` reports, in the bytes of the user.

Beside the driver runs a ledger of what the report should be about: the bytes each
fragment was filled from, those of the fragments played, those the latest call of
`write` has consumed.

  * `bytes` adds up the DMA bytes of the fragments played, each over one divisor.  For
    stereo that is the user's count, but for an odd last byte of 16-bit samples; for mono
    it is at least twice as much.
  * `ptr` adds the call's running total where the fragment's bytes are meant.  After `k`
    fragments it is off by `0 + 1 + ... + (k - 1)` of them, and no wrap of the 32 bits
    makes up for that.  A call without data returns before `ptr` is cleared.
-/
import Dingoo.Proofs.JzI2sFill
import Mathlib.Data.Nat.Prime.Basic
import Mathlib.Tactic.Ring

namespace Dingoo.JzI2s

open Dingoo.Lib

variable {cfg : Config} {s : State} {id : Int} {a : Act} {count : Nat}

/-! ### The ledger -/

/-- The driver, and what a user would count. -/
structure Ledger where
  play : State
  /-- the user bytes each fragment was last filled from -/
  held : Int → Nat
  /-- the user bytes of the fragments played, in order -/
  completed : List Nat
  /-- the user bytes the latest call has consumed -/
  consumed : Nat
  /-- the fragments the latest call has filled -/
  chunks : Nat
  /-- the fragments filled since `nextOut` was last cleared -/
  since : Nat

variable {l : Ledger}

/-- The device has just been opened for writing. -/
def Ledger.opened (cfg : Config) (s : State) : Ledger where
  play := jzAudioOpen cfg s
  held := fun _ => 0
  completed := []
  consumed := 0
  chunks := 0
  since := 0

/-- What the ledger notes of an action before it is taken. -/
def Ledger.note (l : Ledger) : Act → Ledger
  | .write count _ _ =>
    if l.play.pc = .idle then
      { l with consumed := 0, chunks := 0, since := if count = 0 then l.since else 0 }
    else l
  | .writer =>
    match l.play.pc with
    | .fill c id => { l with held := Function.update l.held id c.copyCount }
    | .advance c =>
      { l with
        consumed := c.ret + c.copyCount
        chunks := l.chunks + 1
        since := l.since + 1 }
    | _ => l
  | .irq =>
    if l.play.inFlight then
      { l with completed := l.completed ++ [l.held (getBufferId l.play.outBusy).1] }
    else l

/-- An action of the driver, with the ledger kept. -/
def Ledger.step (cfg : Config) (l : Ledger) (a : Act) : Ledger :=
  { l.note a with play := JzI2s.step cfg l.play a }

/-- The ledger does not touch the driver. -/
theorem play_foldl (cfg : Config) : ∀ (acts : List Act) (l : Ledger),
    (acts.foldl (Ledger.step cfg) l).play = run cfg l.play acts := by
  intro acts
  induction acts with
  | nil => intro l; rfl
  | cons a acts ih => intro l; exact ih (l.step cfg a)

theorem getOptr_bytes (s : State) :
    (getOptr s).1.bytes = Int.bmod s.totalBytes (2 ^ 32) := by
  unfold getOptr
  dsimp only

theorem getOptr_ptr (s : State) : (getOptr s).1.ptr = Int.bmod s.nextOut (2 ^ 32) := by
  unfold getOptr
  dsimp only

/-- The report is right.  Its fields are ints, so a total of two gigabytes shows as one. -/
structure OptrRight (l : Ledger) : Prop where
  bytes : (getOptr l.play).1.bytes = Int.bmod l.completed.sum (2 ^ 32)
  ptr : l.play.pc = .idle → (getOptr l.play).1.ptr = l.consumed

/-! ### Where `ptr` stands -/

/-- What `ptr` is about. -/
structure Position where
  ptr : Nat
  chunks : Nat
  since : Nat
  consumed : Nat

def Ledger.position (l : Ledger) : Position := ⟨l.play.nextOut, l.chunks, l.since, l.consumed⟩

variable {copy : Nat} {c : Call} {p : Position}

/-- In a call: `ptr` is the sum of the running totals of its fragments, all of which but the
last were of `copy` bytes. -/
structure Running (copy : Nat) (c : Call) (p : Position) : Prop where
  since : p.since = p.chunks
  consumed : p.consumed = c.ret
  ptr : 2 * p.ptr = copy * ((p.chunks - 1) * p.chunks) + 2 * c.ret
  left : c.leftCount = Int.bmod c.count (2 ^ 32) - c.ret
  size : c.count < 2 ^ 32
  more : c.ret < c.count → c.ret = p.chunks * copy ∧
    min c.copyCount (c.count - c.ret) = min copy (c.count - c.ret)
  begun : p.chunks = 0 ∧ c.ret = 0 ∨
    0 < p.chunks ∧ (p.chunks - 1) * copy < c.ret ∧ c.ret < 2 ^ 31

/-- Between two calls.  `r` is what the call consumed that cleared `ptr`: the latest one, or,
if that had no data, one before it. -/
def Rested (copy : Nat) (p : Position) : Prop :=
  ∃ r, 2 * p.ptr = copy * ((p.since - 1) * p.since) + 2 * r ∧
    (p.since = 0 ∧ r = 0 ∨ 0 < p.since ∧ (p.since - 1) * copy < r ∧ r < 2 ^ 31) ∧
    (p.chunks = p.since ∧ p.consumed = r ∨ p.chunks = 0 ∧ p.consumed = 0 ∧ p.since ≤ 1)

/-- The call is about to fill a fragment from `copyCount` bytes. -/
structure Filling (copy : Nat) (c : Call) (p : Position) : Prop where
  running : Running copy c p
  left : 0 < c.leftCount
  chunk : c.copyCount = min copy (c.count - c.ret)

/-- What the writer's place says of the position. -/
def Pc.Placed (copy : Nat) (p : Position) : Pc → Prop
  | .idle => Rested copy p
  | .loop c | .checkBusy c | .getFull c | .putBusy c _ | .start c _ | .started c _ =>
    Running copy c p
  | .checkEmpty c | .sleepOn c | .sleeping c => Running copy c p ∧ 0 < c.leftCount
  | .getEmpty c | .fill c _ | .put c _ | .advance c => Filling copy c p

namespace Running

theorem entry (copy : Nat) (hsize : count < 2 ^ 32) (nonblock : Bool) :
    Running copy ⟨count, nonblock, 0, Int.bmod count (2 ^ 32), copy⟩ ⟨0, 0, 0, 0⟩ where
  since := rfl
  consumed := rfl
  ptr := rfl
  left := by simp
  size := hsize
  more _ := ⟨(Nat.zero_mul _).symm, rfl⟩
  begun := Or.inl ⟨rfl, rfl⟩

theorem rested (h : Running copy c p) : Rested copy p := by
  have hbegun := h.begun
  have hptr := h.ptr
  rw [← h.since] at hbegun hptr
  exact ⟨c.ret, hptr, hbegun, Or.inl ⟨h.since.symm, h.consumed⟩⟩

theorem unfinished (h : Running copy c p) (hpos : 0 < c.leftCount) :
    c.ret < c.count ∧ c.count < 2 ^ 31 := by
  have hsize := h.size
  rw [h.left, Int.bmod_def] at hpos
  split at hpos <;> omega

theorem clip (h : Running copy c p) (hpos : 0 < c.leftCount) : Filling copy c.clip p := by
  obtain ⟨hret, hmin⟩ := h.more (h.unfinished hpos).1
  unfold Call.clip
  split
  · refine ⟨⟨h.since, h.consumed, h.ptr, h.left, h.size, fun _ => ⟨hret, ?_⟩, h.begun⟩, hpos, ?_⟩
    · show min (c.count - c.ret) (c.count - c.ret) = min copy (c.count - c.ret)
      omega
    · show c.count - c.ret = min copy (c.count - c.ret)
      omega
  · exact ⟨h, hpos, by omega⟩

end Running

/-- The running total grows by the fragment's bytes, and `ptr` by the running total. -/
theorem Filling.advance (h : Filling copy c p) (hcopy : 0 < copy) :
    Running copy { c with leftCount := c.leftCount - c.copyCount, ret := c.ret + c.copyCount }
      ⟨p.ptr + (c.ret + c.copyCount), p.chunks + 1, p.since + 1, c.ret + c.copyCount⟩ := by
  obtain ⟨hlt, hint⟩ := h.running.unfinished h.left
  have hchunk := h.chunk
  obtain ⟨hret, -⟩ := h.running.more hlt
  refine ⟨?_, rfl, ?_, ?_, h.running.size, ?_, Or.inr ⟨Nat.succ_pos _, ?_, ?_⟩⟩
  · show p.since + 1 = p.chunks + 1
    rw [h.running.since]
  · show 2 * (p.ptr + (c.ret + c.copyCount)) =
      copy * (p.chunks * (p.chunks + 1)) + 2 * (c.ret + c.copyCount)
    -- so far all fragments were whole, which turns the old sum into the new one
    have hsum : copy * ((p.chunks - 1) * p.chunks) + 2 * (p.chunks * copy) =
        copy * (p.chunks * (p.chunks + 1)) := by
      cases p.chunks with
      | zero => simp
      | succ k =>
        rw [Nat.add_sub_cancel]
        ring
    rw [Nat.mul_add, h.running.ptr]
    omega
  · show c.leftCount - (c.copyCount : Int) =
      Int.bmod c.count (2 ^ 32) - ((c.ret + c.copyCount : Nat) : Int)
    rw [h.running.left]
    push_cast
    omega
  · intro hless
    change c.ret + c.copyCount < c.count at hless
    refine ⟨?_, ?_⟩
    · show c.ret + c.copyCount = (p.chunks + 1) * copy
      rw [Nat.succ_mul]
      omega
    · show min c.copyCount (c.count - (c.ret + c.copyCount)) = _
      have hfull : c.copyCount = copy := by omega
      rw [hfull]
  · show p.chunks * copy < c.ret + c.copyCount
    omega
  · show c.ret + c.copyCount < 2 ^ 31
    omega

theorem Pc.Placed.woken {pc : Pc} (h : pc.Placed copy p) : pc.woken.Placed copy p := by
  cases pc with
  | sleeping c => exact h.1.clip h.2
  | _ => exact h

theorem placed_writer (cfg : Config) (hcopy : 0 < copy) {pc : Pc} (hpc : l.play.pc = pc)
    (h : pc.Placed copy l.position) :
    (l.step cfg .writer).play.pc.Placed copy (l.step cfg .writer).position := by
  unfold Ledger.step Ledger.note JzI2s.step writerStep Ledger.position
  simp only [hpc]
  cases pc with
  | idle =>
    rw [hpc]
    exact h
  | loop c =>
    dsimp only
    split
    · rename_i hpos
      exact ⟨h, hpos⟩
    · exact Running.rested h
  | checkEmpty c =>
    dsimp only
    split
    · dsimp only
      split
      · exact Running.rested h.1
      · exact h
    · exact h.1.clip h.2
  | sleeping c =>
    rw [hpc]
    exact h
  | getEmpty c =>
    dsimp only
    split
    · exact h
    · exact ⟨Filling.running h, Filling.left h⟩
  | advance c => exact Filling.advance h hcopy
  | put c id | checkBusy c | getFull c | putBusy c id =>
    dsimp only
    split <;> exact h
  | sleepOn c | fill c id | start c id | started c id => exact h

/-- At most one fragment has been filled since `ptr` was cleared, and by the latest call. -/
def Ledger.Single (l : Ledger) : Prop :=
  l.play.pc = .idle → l.since = l.chunks ∧ l.chunks ≤ 1

instance (l : Ledger) : Decidable l.Single :=
  inferInstanceAs (Decidable (l.play.pc = .idle → l.since = l.chunks ∧ l.chunks ≤ 1))

/-- The count is a `size_t`. -/
def Act.Sized : Act → Prop
  | .write count _ _ => count < 2 ^ 32
  | _ => True

/-- The entry of a call.  One without data leaves `ptr` to the call before it. -/
theorem placed_write (hpc : l.play.pc = .idle) (h : Rested cfg.copySize l.position) (hs : l.Single)
    (hsize : count < 2 ^ 32) (nonblock fault : Bool) :
    (l.step cfg (.write count nonblock fault)).play.pc.Placed cfg.copySize
      (l.step cfg (.write count nonblock fault)).position := by
  unfold Ledger.step Ledger.note JzI2s.step jzAudioWrite Ledger.position
  simp only [if_pos hpc]
  by_cases hzero : count = 0
  · simp only [if_pos hzero, hpc]
    obtain ⟨r, hptr, hr, -⟩ := h
    obtain ⟨hsince, hchunks⟩ := hs hpc
    exact ⟨r, hptr, hr, Or.inr ⟨rfl, rfl, hsince ▸ hchunks⟩⟩
  · simp only [if_neg hzero]
    split
    · rw [hpc]
      exact ⟨0, rfl, Or.inl ⟨rfl, rfl⟩, Or.inl ⟨rfl, rfl⟩⟩
    · exact Running.entry cfg.copySize hsize nonblock

theorem nextOut_irq (cfg : Config) (s : State) :
    (jzI2sReplayDmaIrq cfg s).nextOut = s.nextOut := by
  have hnext : ∀ t : State, (startNext cfg t).nextOut = t.nextOut := by
    intro t
    unfold startNext audioStartDma
    dsimp only
    split
    · split <;> rfl
    · rfl
  unfold jzI2sReplayDmaIrq
  dsimp only
  split
  · rfl
  · split <;> exact hnext _

theorem placed_step (hfits : cfg.Fits) (hi : Inv cfg l.play)
    (h : l.play.pc.Placed cfg.copySize l.position) (hs : l.Single) (ha : a.Sized) :
    (l.step cfg a).play.pc.Placed cfg.copySize (l.step cfg a).position := by
  cases a with
  | write count nonblock fault =>
    by_cases hpc : l.play.pc = .idle
    · rw [hpc] at h
      exact placed_write hpc h hs ha nonblock fault
    · unfold Ledger.step Ledger.note JzI2s.step
      simp only [if_neg hpc]
      exact h
  | writer => exact placed_writer cfg hfits.copySize_bounds.1 rfl h
  | irq =>
    unfold Ledger.step Ledger.note JzI2s.step Ledger.position
    by_cases hf : l.play.inFlight = true
    · obtain ⟨id, hb⟩ := hi.busy_of_inFlight hf
      simp only [if_pos hf, (finished_irq hi hb).pc, nextOut_irq]
      exact h.woken
    · simp only [if_neg hf]
      exact h

/-! ### When `ptr` is right -/

/-- One of two neighbours is odd, so the power of two would have to be in the other one and
`copy`, and these are too small. -/
theorem not_dvd_triangle {j : Nat} (hcopy : 0 < copy) (hle : copy ≤ 32768) (hj : 0 < j)
    (hlt : j * copy < 2 ^ 31) : ¬ 2 ^ 33 ∣ copy * (j * (j + 1)) := by
  intro hdvd
  rcases Nat.even_or_odd j with heven | hodd
  · have hco : Nat.Coprime (2 ^ 33) (j + 1) :=
      (Nat.coprime_two_left.mpr heven.add_one).pow_left 33
    have hpart : 2 ^ 33 ∣ copy * j := hco.dvd_of_dvd_mul_right (by rwa [Nat.mul_assoc])
    have hbig := Nat.le_of_dvd (Nat.mul_pos hcopy hj) hpart
    rw [Nat.mul_comm] at hbig
    omega
  · have hco : Nat.Coprime (2 ^ 33) j := (Nat.coprime_two_left.mpr hodd).pow_left 33
    have hpart : 2 ^ 33 ∣ copy * (j + 1) :=
      hco.dvd_of_dvd_mul_right (by rwa [Nat.mul_assoc, Nat.mul_comm (j + 1)])
    have hbig := Nat.le_of_dvd (Nat.mul_pos hcopy j.succ_pos) hpart
    rw [Nat.mul_succ, Nat.mul_comm] at hbig
    omega

/-- With two fragments or more the sum of the running totals is not the last of them. -/
theorem bmod_totals_ne {k r ptr : Nat} (hcopy : 0 < copy) (hle : copy ≤ 32768) (hmany : 2 ≤ k)
    (hptr : 2 * ptr = copy * ((k - 1) * k) + 2 * r) (hless : (k - 1) * copy < r)
    (hr : r < 2 ^ 31) : Int.bmod ptr (2 ^ 32) ≠ r := by
  intro hright
  have hmod : ptr % 2 ^ 32 = r := by
    rw [Int.bmod_def] at hright
    split at hright <;> omega
  refine not_dvd_triangle hcopy hle (j := k - 1) (by omega) (hless.trans hr) ⟨ptr / 2 ^ 32, ?_⟩
  rw [Nat.sub_add_cancel (by omega)]
  omega

theorem Rested.ptr_iff (h : Rested copy p) (hcopy : 0 < copy) (hle : copy ≤ 32768) :
    Int.bmod p.ptr (2 ^ 32) = p.consumed ↔ p.since = p.chunks ∧ p.chunks ≤ 1 := by
  obtain ⟨r, hptr, hr, hlast⟩ := h
  rcases Nat.lt_or_ge p.since 2 with hfew | hmany
  · -- `ptr` is what the call that cleared it consumed
    have hsum : (p.since - 1) * p.since = 0 := by
      rw [Nat.mul_eq_zero]
      omega
    rw [hsum, Nat.mul_zero, Nat.zero_add] at hptr
    have heq : p.ptr = r := by omega
    rw [heq, bmod_of_lt (by omega), Nat.cast_inj]
    rcases hlast with ⟨hchunks, hconsumed⟩ | ⟨hchunks, hconsumed, -⟩
    · rw [hconsumed, hchunks]
      exact ⟨fun _ => ⟨rfl, by omega⟩, fun _ => rfl⟩
    · rw [hconsumed, hchunks]
      omega
  · rcases hr with ⟨hzero, -⟩ | ⟨-, hless, hr31⟩
    · omega
    rcases hlast with ⟨hchunks, hconsumed⟩ | ⟨-, -, hone⟩
    · rw [hconsumed]
      refine ⟨fun hright => ?_, fun hone => by omega⟩
      exact absurd hright (bmod_totals_ne hcopy hle hmany hptr hless hr31)
    · omega

/-! ### What `bytes` adds up -/

/-- What the interrupt adds for a fragment that was filled from `n` bytes. -/
def playedBytes (cfg : Config) (n : Nat) : Nat := replayFiller cfg n / cfg.jzAudioB

theorem playedBytes_bounds (cfg : Config) (n : Nat) :
    n ≤ playedBytes cfg n ∧ playedBytes cfg n ≤ 2 * n + 2 := by
  unfold playedBytes Config.jzAudioB
  rw [replayFiller_eq]
  unfold wordsOf samples16
  cases cfg.format <;> cases cfg.channels <;> dsimp only <;> omega

theorem playedBytes_eq_iff (cfg : Config) {n : Nat} (hpos : 0 < n) :
    playedBytes cfg n = n ↔ cfg.channels = .stereo ∧ (cfg.format = .u8 ∨ Even n) := by
  unfold playedBytes Config.jzAudioB
  rw [replayFiller_eq, Nat.even_iff]
  unfold wordsOf samples16
  cases cfg.format <;> cases cfg.channels <;> simp <;> omega

/-- The driver's counts are those of the bytes in the ledger. -/
structure Booked (cfg : Config) (l : Ledger) : Prop where
  held_le : ∀ id, l.held id ≤ cfg.copySize
  counted : ∀ id ∈ l.play.waiting, l.play.dataCount id = replayFiller cfg (l.held id)
  /-- the fragment being played -/
  flying : l.play.inFlight = true → ∀ id ∈ l.play.outBusy.toList,
    l.play.tranCount = playedBytes cfg (l.held id) ∧ 0 < l.held id
  total : l.play.totalBytes = (l.completed.map (playedBytes cfg)).sum

/-- The logs tell what waits, so a step that fills nothing adds nothing to it. -/
theorem mem_waiting_of_logs {t : State} (h : Inv cfg s) (ht : Inv cfg t)
    (hfilled : t.filled = s.filled) (hcount : t.dataCount = s.dataCount)
    (started : List (Int × Nat)) (hstarts : t.dmaStarts = s.dmaStarts ++ started)
    (hid : id ∈ t.waiting) : id ∈ s.waiting := by
  have hlog := ht.order
  rw [hfilled, h.order, hstarts, hcount, List.append_assoc, List.append_cancel_left_eq] at hlog
  have hmem : (id, s.dataCount id) ∈ s.waiting.map fun i => (i, s.dataCount i) := by
    rw [hlog]
    exact List.mem_append_right _ (List.mem_map_of_mem hid)
  obtain ⟨i, hi, heq⟩ := List.mem_map.mp hmem
  exact (Prod.mk.inj heq).1 ▸ hi

theorem Booked.held_pos (h : Booked cfg l) (hi : Inv cfg l.play) (hid : id ∈ l.play.waiting) :
    0 < l.held id := by
  have hpos := hi.counted id hid
  rw [h.counted id hid] at hpos
  by_contra hzero
  rw [Nat.eq_zero_of_not_pos hzero, replayFiller_eq] at hpos
  revert hpos
  unfold wordsOf
  cases cfg.format <;> cases cfg.channels <;> decide

theorem Booked.keep {k : Ledger} (h : Booked cfg l) (hi : Inv cfg l.play) (hk : Inv cfg k.play)
    (hheld : k.held = l.held) (hcompleted : k.completed = l.completed)
    (hfilled : k.play.filled = l.play.filled) (hstarts : k.play.dmaStarts = l.play.dmaStarts)
    (hcount : k.play.dataCount = l.play.dataCount)
    (htran : k.play.tranCount = l.play.tranCount)
    (htotal : k.play.totalBytes = l.play.totalBytes)
    (hflight : k.play.inFlight = l.play.inFlight)
    (hbusy : l.play.inFlight = true → k.play.outBusy = l.play.outBusy) : Booked cfg k where
  held_le := hheld ▸ h.held_le
  counted id hid := by
    rw [hcount, hheld]
    exact h.counted id (mem_waiting_of_logs hi hk hfilled hcount [] (by simp [hstarts]) hid)
  flying hf id hid := by
    rw [hflight] at hf
    rw [hbusy hf] at hid
    rw [htran, hheld]
    exact h.flying hf id hid
  total := by rw [htotal, hcompleted, h.total]

theorem Inv.fill_apart (hi : Inv cfg s) (hpc : s.pc = .fill c id) :
    id ∉ s.outFull.toList ∧ id ∉ s.outBusy.toList := by
  have hn := hi.nodup
  rw [hpc] at hn
  have hapart := List.disjoint_of_nodup_append hn
  refine ⟨fun hin => hapart (by simp [hin]) (List.mem_singleton.mpr rfl),
    fun hin => hapart (by simp [hin]) (List.mem_singleton.mpr rfl)⟩

theorem Booked.fill (h : Booked cfg l) (hi : Inv cfg l.play) (hpc : l.play.pc = .fill c id)
    (hle : c.copyCount ≤ cfg.copySize) : Booked cfg (l.step cfg .writer) := by
  obtain ⟨hfull, hbusy⟩ := hi.fill_apart hpc
  have hwait : l.play.waiting = l.play.outFull.toList := by
    simp [State.waiting, State.justFilled, hpc]
  unfold Ledger.step Ledger.note JzI2s.step writerStep
  simp only [hpc]
  refine ⟨fun i => ?_, fun i hi' => ?_, fun hf i hi' => ?_, h.total⟩
  · show Function.update l.held id c.copyCount i ≤ cfg.copySize
    by_cases hid : i = id
    · rw [hid, Function.update_self]
      exact hle
    · rw [Function.update_of_ne hid]
      exact h.held_le i
  · show Function.update l.play.dataCount id (replayFiller cfg c.copyCount) i =
      replayFiller cfg (Function.update l.held id c.copyCount i)
    by_cases hid : i = id
    · rw [hid, Function.update_self, Function.update_self]
    · rw [Function.update_of_ne hid, Function.update_of_ne hid]
      refine h.counted i ?_
      rw [hwait]
      simp only [State.waiting, State.justFilled, Pc.taken, List.nil_append,
        List.mem_append] at hi'
      refine hi'.resolve_right fun hin => hid ?_
      split at hin
      · exact List.mem_singleton.mp hin
      · exact absurd hin List.not_mem_nil
  · have hid : i ≠ id := by
      rintro rfl
      exact hbusy hi'
    show l.play.tranCount = playedBytes cfg (Function.update l.held id c.copyCount i) ∧
      0 < Function.update l.held id c.copyCount i
    rw [Function.update_of_ne hid]
    exact h.flying hf i hi'

theorem Booked.start (h : Booked cfg l) (hi : Inv cfg l.play) (hpc : l.play.pc = .start c id) :
    Booked cfg (l.step cfg .writer) := by
  have hidle := hi.window (by simp [hpc])
  have hwaits : id ∈ l.play.waiting := by simp [State.waiting, hpc]
  have hbusy : l.play.outBusy.toList = [id] := by
    rw [hi.busy, hpc, State.playing, hidle]
    rfl
  have hnext := hi.start hpc
  unfold Ledger.step Ledger.note JzI2s.step
  simp only [hpc]
  refine ⟨h.held_le, fun i hi' => ?_, fun _ i hi' => ?_, ?_⟩
  · simp only [writerStep, hpc, audioStartDma] at hnext hi' ⊢
    exact h.counted i (mem_waiting_of_logs hi hnext rfl rfl _ rfl hi')
  · simp only [writerStep, hpc, audioStartDma] at hi' ⊢
    rw [hbusy, List.mem_singleton] at hi'
    rw [hi', h.counted id hwaits]
    exact ⟨rfl, h.held_pos hi hwaits⟩
  · simp only [writerStep, hpc, audioStartDma]
    exact h.total

theorem Booked.writer (h : Booked cfg l) (hi : Inv cfg l.play)
    (hp : l.play.pc.Placed cfg.copySize l.position) : Booked cfg (l.step cfg .writer) := by
  have hnext : Inv cfg (l.step cfg .writer).play := hi.writer
  cases hpc : l.play.pc with
  | fill c id =>
    rw [hpc] at hp
    have hchunk := Filling.chunk hp
    exact h.fill hi hpc (by omega)
  | start c id => exact h.start hi hpc
  | putBusy c id =>
    -- the busy queue changes, but only while nothing is being played
    have hidle := hi.window (by simp [hpc])
    revert hnext
    unfold Ledger.step Ledger.note JzI2s.step writerStep
    simp only [hpc]
    intro hnext
    exact h.keep hi hnext rfl rfl rfl rfl rfl rfl rfl rfl (by simp [hidle])
  | put c id | checkEmpty c =>
    revert hnext
    unfold Ledger.step Ledger.note JzI2s.step writerStep
    simp only [hpc]
    split <;> exact fun hnext => h.keep hi hnext rfl rfl rfl rfl rfl rfl rfl rfl fun _ => rfl
  | _ =>
    revert hnext
    unfold Ledger.step Ledger.note JzI2s.step writerStep
    simp only [hpc]
    exact fun hnext => h.keep hi hnext rfl rfl rfl rfl rfl rfl rfl rfl fun _ => rfl

theorem irq_counts (hi : Inv cfg s) :
    (jzI2sReplayDmaIrq cfg s).totalBytes = s.totalBytes + s.tranCount ∧
      ∀ id ∈ s.outFull.toList.head?,
        (jzI2sReplayDmaIrq cfg s).tranCount = s.dataCount id / cfg.jzAudioB := by
  rw [irq_eq cfg hi.noPop]
  cases hq : s.outFull.toList with
  | nil =>
    have hq' : (finishBusy (accountTransfer { s with inFlight := false })).outFull.toList = [] :=
      hq
    rw [startNext_nil cfg hq']
    exact ⟨rfl, by simp⟩
  | cons next rest =>
    have hmem : next ∈ s.outFull.toList := by simp [hq]
    have hq' : (finishBusy (accountTransfer { s with inFlight := false })).outFull.toList =
        next :: rest := hq
    rw [startNext_cons cfg hq' (hi.nonneg_full hmem)
      (hi.counted next (by simp [State.waiting, hq]))]
    refine ⟨rfl, fun id hid => ?_⟩
    rw [List.head?_cons, Option.mem_some_iff] at hid
    rw [← hid]
    rfl

theorem Booked.irq (h : Booked cfg l) (hi : Inv cfg l.play) (hf : l.play.inFlight = true) :
    Booked cfg (l.step cfg .irq) := by
  obtain ⟨id, hb⟩ := hi.busy_of_inFlight hf
  have hd := finished_irq hi hb
  have hnext := hi.irq hf
  obtain ⟨htotal, htran⟩ := irq_counts hi
  obtain ⟨hplayed, -⟩ := h.flying hf id (by simp [hb])
  unfold Ledger.step Ledger.note JzI2s.step
  simp only [if_pos hf]
  refine ⟨h.held_le, fun i hi' => ?_, fun _ i hi' => ?_, ?_⟩
  · show (jzI2sReplayDmaIrq cfg l.play).dataCount i = _
    rw [hd.dataCount]
    exact h.counted i (mem_waiting_of_logs hi hnext hd.filled hd.dataCount _ hd.dmaStarts hi')
  · change i ∈ (jzI2sReplayDmaIrq cfg l.play).outBusy.toList at hi'
    rw [hd.outBusy, Option.mem_toList] at hi'
    have hwaits : i ∈ l.play.waiting := by
      have hfull := List.mem_of_mem_head? hi'
      simp [State.waiting, hfull]
    show (jzI2sReplayDmaIrq cfg l.play).tranCount = _ ∧ _
    rw [htran i hi', h.counted i hwaits]
    exact ⟨rfl, h.held_pos hi hwaits⟩
  · show (jzI2sReplayDmaIrq cfg l.play).totalBytes = _
    rw [htotal, h.total, hplayed, (getBufferId_cons hb).1]
    simp

theorem booked_step (h : Booked cfg l) (hi : Inv cfg l.play)
    (hp : l.play.pc.Placed cfg.copySize l.position) (a : Act) : Booked cfg (l.step cfg a) := by
  cases a with
  | write count nonblock fault =>
    by_cases hpc : l.play.pc = .idle
    · have hnext := hi.write hpc count nonblock fault
      obtain ⟨n, pc, heq, -⟩ := jzAudioWrite_eq cfg hpc count nonblock fault
      unfold Ledger.step Ledger.note JzI2s.step
      simp only [if_pos hpc]
      rw [heq] at hnext ⊢
      exact h.keep hi hnext rfl rfl rfl rfl rfl rfl rfl rfl fun _ => rfl
    · unfold Ledger.step Ledger.note JzI2s.step
      simp only [if_neg hpc]
      exact h
  | writer => exact h.writer hi hp
  | irq =>
    by_cases hf : l.play.inFlight = true
    · exact h.irq hi hf
    · unfold Ledger.step Ledger.note JzI2s.step
      simp only [if_neg hf]
      exact h

/-! ### The report over a run -/

/-- The fragment whose transfer ends is counted right. -/
def CountsRight (cfg : Config) (l : Ledger) (a : Act) : Prop :=
  a = .irq → l.play.inFlight = true → cfg.channels = .stereo ∧
    (cfg.format = .u8 ∨ Even (l.held (getBufferId l.play.outBusy).1))

instance (cfg : Config) (l : Ledger) (a : Act) : Decidable (CountsRight cfg l a) :=
  inferInstanceAs (Decidable (a = .irq → l.play.inFlight = true → cfg.channels = .stereo ∧
    (cfg.format = .u8 ∨ Even (l.held (getBufferId l.play.outBusy).1))))

/-- What holds as long as the reports have been right. -/
structure Settled (cfg : Config) (l : Ledger) : Prop where
  inv : Inv cfg l.play
  placed : l.play.pc.Placed cfg.copySize l.position
  booked : Booked cfg l
  single : l.Single
  bytes : (getOptr l.play).1.bytes = Int.bmod l.completed.sum (2 ^ 32)

theorem bmod_eq_iff {a b : Nat} :
    Int.bmod a (2 ^ 32) = Int.bmod b (2 ^ 32) ↔ a % 2 ^ 32 = b % 2 ^ 32 := by
  rw [Int.bmod_def, Int.bmod_def]
  split <;> split <;> omega

theorem bmod_add_eq_iff {a b x y : Nat} (h : Int.bmod a (2 ^ 32) = Int.bmod b (2 ^ 32))
    (hx : x < 2 ^ 32) (hy : y < 2 ^ 32) :
    Int.bmod (a + x : Nat) (2 ^ 32) = Int.bmod (b + y : Nat) (2 ^ 32) ↔ x = y := by
  rw [bmod_eq_iff] at h ⊢
  omega

theorem completed_step (cfg : Config) (h : ¬ (a = .irq ∧ l.play.inFlight = true)) :
    (l.step cfg a).completed = l.completed := by
  show (l.note a).completed = l.completed
  cases a with
  | write count nonblock fault =>
    unfold Ledger.note
    dsimp only
    split <;> rfl
  | writer =>
    unfold Ledger.note
    dsimp only
    split <;> rfl
  | irq => exact congrArg Ledger.completed (if_neg fun hf => h ⟨rfl, hf⟩)

theorem Settled.bytes_iff (h : Settled cfg l) (hfits : cfg.Fits) (a : Act) :
    (getOptr (l.step cfg a).play).1.bytes = Int.bmod (l.step cfg a).completed.sum (2 ^ 32) ↔
      CountsRight cfg l a := by
  have htotal := (booked_step h.booked h.inv h.placed a).total
  have hbytes := h.bytes
  rw [getOptr_bytes, h.booked.total] at hbytes
  rw [getOptr_bytes, htotal]
  by_cases hends : a = .irq ∧ l.play.inFlight = true
  · obtain ⟨rfl, hf⟩ := hends
    obtain ⟨id, hb⟩ := h.inv.busy_of_inFlight hf
    obtain ⟨-, hpos⟩ := h.booked.flying hf id (by simp [hb])
    have hheld := h.booked.held_le id
    have hcopy := hfits.copySize_bounds.2
    have hplayed := playedBytes_bounds cfg (l.held id)
    have hcompleted : (l.step cfg .irq).completed = l.completed ++ [l.held id] := by
      rw [← (getBufferId_cons hb).1]
      exact congrArg Ledger.completed (if_pos hf)
    rw [hcompleted, List.map_append, List.sum_append, List.sum_append, List.map_singleton,
      List.sum_singleton, List.sum_singleton, bmod_add_eq_iff hbytes (by omega) (by omega),
      playedBytes_eq_iff cfg hpos]
    unfold CountsRight
    rw [(getBufferId_cons hb).1]
    exact ⟨fun hright _ _ => hright, fun hright => hright rfl hf⟩
  · rw [completed_step cfg hends]
    exact ⟨fun _ ha hf => absurd ⟨ha, hf⟩ hends, fun _ => hbytes⟩

theorem ptr_iff_single (hfits : cfg.Fits) (h : l.play.pc.Placed cfg.copySize l.position) :
    (l.play.pc = .idle → (getOptr l.play).1.ptr = l.consumed) ↔ l.Single := by
  refine forall_congr' fun hpc => ?_
  rw [hpc] at h
  have hiff := Rested.ptr_iff h hfits.copySize_bounds.1 hfits.copySize_bounds.2
  simp only [Ledger.position] at hiff
  rw [getOptr_ptr, hiff]

theorem Settled.optrRight_iff (h : Settled cfg l) (hfits : cfg.Fits) (ha : a.Sized) :
    OptrRight (l.step cfg a) ↔ CountsRight cfg l a ∧ (l.step cfg a).Single := by
  rw [← h.bytes_iff hfits a, ← ptr_iff_single hfits (placed_step hfits h.inv h.placed h.single ha)]
  exact ⟨fun hright => ⟨hright.bytes, hright.ptr⟩, fun hright => ⟨hright.1, hright.2⟩⟩

theorem Settled.step (h : Settled cfg l) (hfits : cfg.Fits) (ha : a.Sized)
    (hright : CountsRight cfg l a ∧ (l.step cfg a).Single) : Settled cfg (l.step cfg a) where
  inv := inv_step h.inv a
  placed := placed_step hfits h.inv h.placed h.single ha
  booked := booked_step h.booked h.inv h.placed a
  single := hright.2
  bytes := (h.bytes_iff hfits a).mpr hright.1

theorem settled_opened (cfg : Config) (hpc : s.pc = .idle) (hf : s.inFlight = false) :
    Settled cfg (.opened cfg s) where
  inv := inv_open cfg hpc hf
  placed := by
    show (jzAudioOpen cfg s).pc.Placed _ _
    have hidle : (jzAudioOpen cfg s).pc = .idle := hpc
    rw [hidle]
    exact ⟨0, rfl, Or.inl ⟨rfl, rfl⟩, Or.inl ⟨rfl, rfl⟩⟩
  booked := by
    refine ⟨fun _ => Nat.zero_le _, fun id hid => ?_, fun hflight => ?_, rfl⟩
    · simp [Ledger.opened, State.waiting, State.justFilled, jzAudioOpen, hpc] at hid
    · simp [Ledger.opened, jzAudioOpen, hf] at hflight
  single _ := ⟨rfl, Nat.zero_le 1⟩
  bytes := by
    rw [getOptr_bytes]
    simp [Ledger.opened, jzAudioOpen]

/-- **What the position report is worth.**  From an open for writing on an idle channel, under
every interleaving of calls and interrupts: the report is right at every moment exactly if each
fragment played is stereo, of 8 bits or of an even number of bytes, and no call leaves more than
one fragment to `ptr` when it returns. -/
theorem getOptr_right_iff (hfits : cfg.Fits) (s : State) (hpc : s.pc = .idle)
    (hf : s.inFlight = false) (acts : List Act) (hsize : ∀ a ∈ acts, a.Sized) :
    (∀ pre, pre <+: acts → OptrRight (pre.foldl (Ledger.step cfg) (.opened cfg s))) ↔
      EachStep (Ledger.step cfg) (fun l a => CountsRight cfg l a ∧ (l.step cfg a).Single)
        (.opened cfg s) acts := by
  have hopened := settled_opened cfg hpc hf
  have hfirst : OptrRight (.opened cfg s) :=
    ⟨hopened.bytes, (ptr_iff_single hfits hopened.placed).mpr hopened.single⟩
  rw [forall_prefix_iff, and_iff_right hfirst]
  exact eachStep_iff (fun l a hl ha => hl.optrRight_iff hfits ha)
    (fun l a hl ha hright => hl.step hfits ha hright) acts hopened hsize

/-- Eight bytes are written, and the fragment they fill is played. -/
def frameAndIrq : List Act := .write 8 true false :: List.replicate 12 .writer ++ [.irq]

/-- Two frames of 16-bit stereo: eight bytes, one block, eight bytes. -/
theorem getOptr_right_frame :
    Config.Fits twoFragments ∧
    (getOptr (frameAndIrq.foldl (Ledger.step twoFragments)
      (.opened twoFragments untouched)).play).1 = ⟨8, 1, 8⟩ ∧
    ∀ pre, pre <+: frameAndIrq →
      OptrRight (pre.foldl (Ledger.step twoFragments) (.opened twoFragments untouched)) := by
  have hfits : Config.Fits twoFragments := Or.inr ⟨0x2000E, by decide, by decide⟩
  refine ⟨hfits, by decide +kernel, ?_⟩
  refine (getOptr_right_iff hfits untouched rfl rfl frameAndIrq ?_).mpr (by decide +kernel)
  simp [frameAndIrq, Act.Sized]

/-- Four frames of 16-bit mono count as sixteen bytes, and a write of two fragments of 16-bit
stereo leaves `ptr` at three. -/
theorem getOptr_not_right :
    (getOptr (frameAndIrq.foldl (Ledger.step ⟨.s16le, .mono, 16384, 2⟩)
      (.opened ⟨.s16le, .mono, 16384, 2⟩ untouched)).play).1 = ⟨16, 1, 8⟩ ∧
    ¬ OptrRight (frameAndIrq.foldl (Ledger.step ⟨.s16le, .mono, 16384, 2⟩)
      (.opened ⟨.s16le, .mono, 16384, 2⟩ untouched)) ∧
    (getOptr ((.write 16384 true false :: List.replicate 19 Act.writer).foldl
      (Ledger.step twoFragments) (.opened twoFragments untouched)).play).1 = ⟨0, 0, 24576⟩ ∧
    ¬ OptrRight ((.write 16384 true false :: List.replicate 19 Act.writer).foldl
      (Ledger.step twoFragments) (.opened twoFragments untouched)) := by
  refine ⟨by decide +kernel, fun h => ?_, by decide +kernel, fun h => ?_⟩
  · exact absurd h.bytes (by decide +kernel)
  · exact absurd h.ptr (by decide +kernel)

end Dingoo.JzI2s
