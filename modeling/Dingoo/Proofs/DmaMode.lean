/-
Which way a DMA channel transfers after a sequence of `set_dma_mode` calls.

The increment bits of the command word are set for one direction and cleared for the
other, so they follow the last call.  The two mode bits are only ever ORed in: a channel
that has been in write mode once, or was requested for a device that writes, stays there,
and a channel requested with `DMA_AUTOINIT` is in neither mode.  `set_dma_addr` looks at
the mode bits, so the addresses can be those of a direction that was left.
-/
import Dingoo.Linux.DmaRegs
import Dingoo.Proofs.Dma

namespace Dingoo.Dma

variable {i : Nat} {m : Machine}

/-- The increment bits of a direction. -/
def Mode.increments : Mode → BitVec 32
  | .read => dcmdDai
  | .write => dcmdSai

/-- The address a direction reads from. -/
def Mode.source (fifo phys : BitVec 32) : Mode → BitVec 32
  | .read => fifo
  | .write => phys

/-- The address a direction writes to. -/
def Mode.target (fifo phys : BitVec 32) : Mode → BitVec 32
  | .read => phys
  | .write => fifo

/-- Channel `i` is programmed for one transfer between the FIFO and memory. -/
structure Directed (m : Machine) (i : Nat) (fifo phys : BitVec 32) (mode : Mode) : Prop where
  source : m.regs.dsar i = mode.source fifo phys
  target : m.regs.dtar i = mode.target fifo phys
  increments : m.regs.dcmd i &&& (dcmdSai ||| dcmdDai) = mode.increments

/-! ### The command word -/

/-- What one call makes of the mode field. -/
def applyMode (w : BitVec 32) : Mode → BitVec 32
  | .read => ((w ||| (Mode.read.word &&& ~~~(dcmdSai ||| dcmdDai))) ||| dcmdDai) &&& ~~~dcmdSai
  | .write => ((w ||| (Mode.write.word &&& ~~~(dcmdSai ||| dcmdDai))) ||| dcmdSai) &&& ~~~dcmdDai

theorem or_and_self_right (a b : BitVec 32) : (a ||| b) &&& b = b := by
  ext k hk
  simp only [BitVec.getElem_and, BitVec.getElem_or]
  cases a[k] <;> cases b[k] <;> rfl

theorem applyMode_mask (w : BitVec 32) (mode : Mode) :
    applyMode w mode &&& dmaModeMask = (w &&& dmaModeMask) ||| mode.word := by
  have hsai : ~~~dcmdSai &&& dmaModeMask = dmaModeMask := by decide
  have hdai : ~~~dcmdDai &&& dmaModeMask = dmaModeMask := by decide
  cases mode with
  | read =>
    have hword : Mode.read.word &&& ~~~(dcmdSai ||| dcmdDai) &&& dmaModeMask
        = Mode.read.word := by decide
    have hbit : dcmdDai &&& dmaModeMask = 0#32 := by decide
    unfold applyMode
    rw [BitVec.and_assoc, hsai, BitVec.and_or_distrib_right, BitVec.and_or_distrib_right, hword,
      hbit, BitVec.or_zero]
  | write =>
    have hword : Mode.write.word &&& ~~~(dcmdSai ||| dcmdDai) &&& dmaModeMask
        = Mode.write.word := by
      decide
    have hbit : dcmdSai &&& dmaModeMask = 0#32 := by decide
    unfold applyMode
    rw [BitVec.and_assoc, hdai, BitVec.and_or_distrib_right, BitVec.and_or_distrib_right, hword,
      hbit, BitVec.or_zero]

theorem applyMode_increments (w : BitVec 32) (mode : Mode) :
    applyMode w mode &&& ~~~dmaModeMask &&& (dcmdSai ||| dcmdDai) = mode.increments := by
  cases mode with
  | read =>
    have hbits : ~~~dcmdSai &&& (~~~dmaModeMask &&& (dcmdSai ||| dcmdDai)) = dcmdDai := by
      decide
    unfold applyMode
    rw [BitVec.and_assoc, BitVec.and_assoc, hbits, or_and_self_right]
    rfl
  | write =>
    have hbits : ~~~dcmdDai &&& (~~~dmaModeMask &&& (dcmdSai ||| dcmdDai)) = dcmdSai := by
      decide
    unfold applyMode
    rw [BitVec.and_assoc, BitVec.and_assoc, hbits, or_and_self_right]
    rfl

theorem foldl_applyMode_mask (modes : List Mode) (w : BitVec 32) :
    modes.foldl applyMode w &&& dmaModeMask
      = (w &&& dmaModeMask) ||| if .write ∈ modes then 1 else 0 := by
  induction modes generalizing w with
  | nil => simp
  | cons mode rest ih =>
    rw [List.foldl_cons, ih, applyMode_mask, BitVec.or_assoc]
    cases mode with
    | read => simp [Mode.word]
    | write =>
      by_cases h : Mode.write ∈ rest
      · simp [Mode.word, h]
      · simp [Mode.word, h]

/-! ### Calls -/

/-- Channel `i` is allocated, with its own registers. -/
structure Allocated (s : State) (i : Nat) : Prop where
  lt : i < maxDmaNum
  owned : 0 ≤ (s.table i).devId
  io : (s.table i).io = i

theorem setDmaMode_word (h : Allocated m.dma i) (mode : Mode) :
    (setDmaMode i mode.word m.dma).2.table i
      = { m.dma.table i with mode := applyMode (m.dma.table i).mode mode } := by
  unfold setDmaMode
  simp only [bind, StateT.bind, getDmaChan_owned h.lt.le h.owned]
  cases mode <;> simp [Mode.word, applyMode]

theorem setDmaModeRegs_eq (h : Allocated m.dma i) (mode : Mode) :
    (setDmaModeRegs i mode.word m).dma.table i
        = { m.dma.table i with mode := applyMode (m.dma.table i).mode mode } ∧
    (setDmaModeRegs i mode.word m).regs.dcmd i
        = applyMode (m.dma.table i).mode mode &&& ~~~dmaModeMask := by
  have hchan := setDmaMode_word h mode
  unfold setDmaModeRegs
  rw [getDmaChan_owned h.lt.le h.owned]
  refine ⟨hchan, ?_⟩
  simp only [hchan, h.io, Function.update_self]

theorem setModes_table (modes : List Mode) :
    ∀ m : Machine, Allocated m.dma i →
      (setModes i m modes).dma.table i
        = { m.dma.table i with mode := modes.foldl applyMode (m.dma.table i).mode } := by
  induction modes with
  | nil =>
    intro m _
    rfl
  | cons mode rest ih =>
    intro m h
    have hstep := (setDmaModeRegs_eq h mode).1
    have hkeep : Allocated (setDmaModeRegs i mode.word m).dma i := by
      refine ⟨h.lt, ?_, ?_⟩
      · rw [hstep]
        exact h.owned
      · rw [hstep]
        exact h.io
    have hrest := ih _ hkeep
    rw [hstep] at hrest
    exact hrest

theorem setModes_allocated (h : Allocated m.dma i) (modes : List Mode) :
    Allocated (setModes i m modes).dma i := by
  refine ⟨h.lt, ?_, ?_⟩
  · rw [setModes_table modes m h]
    exact h.owned
  · rw [setModes_table modes m h]
    exact h.io

theorem setModes_increments (h : Allocated m.dma i) (modes : List Mode) (last : Mode) :
    (setModes i m (modes ++ [last])).regs.dcmd i &&& (dcmdSai ||| dcmdDai)
      = last.increments := by
  have hsplit : setModes i m (modes ++ [last])
      = setDmaModeRegs i last.word (setModes i m modes) := by
    unfold setModes
    rw [List.foldl_append]
    rfl
  rw [hsplit, (setDmaModeRegs_eq (setModes_allocated h modes) last).2, applyMode_increments]

theorem setDmaAddr_dcmd (d : Nat) (phys : BitVec 32) (m : Machine) :
    (setDmaAddr d phys m).regs.dcmd = m.regs.dcmd := by
  unfold setDmaAddr
  split
  · rfl
  · dsimp only
    split_ifs <;> rfl

/-- The mode the mode bits of a word stand for. -/
def modeOf (w : BitVec 32) : Option Mode :=
  if w &&& dmaModeMask = Mode.read.word then some .read
  else if w &&& dmaModeMask = Mode.write.word then some .write
  else none

theorem setDmaAddr_eq (h : Allocated m.dma i) (phys : BitVec 32) :
    (∀ mode, modeOf (m.dma.table i).mode = some mode →
      (setDmaAddr i phys m).regs.dsar i = mode.source (m.dma.table i).fifoAddr phys ∧
      (setDmaAddr i phys m).regs.dtar i = mode.target (m.dma.table i).fifoAddr phys) ∧
    (modeOf (m.dma.table i).mode = none → (setDmaAddr i phys m).regs = m.regs) := by
  unfold setDmaAddr modeOf
  rw [getDmaChan_owned h.lt.le h.owned]
  dsimp only
  rw [h.io]
  by_cases hread : (m.dma.table i).mode &&& dmaModeMask = Mode.read.word
  · simp [hread, Mode.source, Mode.target]
  · by_cases hwrite : (m.dma.table i).mode &&& dmaModeMask = Mode.write.word
    · simp [hwrite, Mode.source, Mode.target, Mode.word]
    · simp [hread, hwrite]

/-! ### The direction -/

theorem Mode.source_eq_iff {fifo phys : BitVec 32} (hne : phys ≠ fifo) (a b : Mode) :
    a.source fifo phys = b.source fifo phys ↔ a = b := by
  cases a <;> cases b <;> simp [Mode.source, hne, Ne.symm hne]

/-- The programming is right for every address exactly when the mode bits agree with the
increment bits. -/
theorem directed_iff_modeOf (h : Allocated m.dma i) {last : Mode}
    (hinc : m.regs.dcmd i &&& (dcmdSai ||| dcmdDai) = last.increments) :
    (∀ phys, Directed (setDmaAddr i phys m) i (m.dma.table i).fifoAddr phys last) ↔
      modeOf (m.dma.table i).mode = some last := by
  constructor
  · intro hall
    cases hmode : modeOf (m.dma.table i).mode with
    | none =>
      -- the addresses are whatever they were, so they cannot follow `phys`
      have hregs : ∀ phys, (setDmaAddr i phys m).regs = m.regs := fun phys =>
        (setDmaAddr_eq h phys).2 hmode
      exfalso
      cases last with
      | read =>
        have hfollows : ∀ phys, m.regs.dtar i = phys := fun phys =>
          hregs phys ▸ (hall phys).target
        exact absurd ((hfollows 0).symm.trans (hfollows 1)) (by decide)
      | write =>
        have hfollows : ∀ phys, m.regs.dsar i = phys := fun phys =>
          hregs phys ▸ (hall phys).source
        exact absurd ((hfollows 0).symm.trans (hfollows 1)) (by decide)
    | some mode =>
      have hne : (m.dma.table i).fifoAddr + 1 ≠ (m.dma.table i).fifoAddr := by
        simp
      have hsrc := (hall ((m.dma.table i).fifoAddr + 1)).source
      rw [((setDmaAddr_eq h _).1 mode hmode).1, Mode.source_eq_iff hne] at hsrc
      rw [hsrc]
  · intro hmode phys
    obtain ⟨hsrc, htgt⟩ := (setDmaAddr_eq h phys).1 last hmode
    refine ⟨hsrc, htgt, ?_⟩
    rw [setDmaAddr_dcmd]
    exact hinc

/-- The mode a device is requested in; the two devices without a FIFO are in none. -/
def deviceMode (devId : Int) : Option Mode :=
  modeOf (dmaDevTable.getD devId.toNat (0, 0, 0)).2.1

theorem device_mask (n : Nat) :
    (dmaDevTable.getD n (0, 0, 0)).2.1 &&& dmaModeMask = 0 ∨
    (dmaDevTable.getD n (0, 0, 0)).2.1 &&& dmaModeMask = 1 ∨
    (dmaDevTable.getD n (0, 0, 0)).2.1 &&& dmaModeMask = 2 := by
  rcases Nat.lt_or_ge n 11 with hn | hn
  · have hall : ∀ n < 11, (dmaDevTable.getD n (0, 0, 0)).2.1 &&& dmaModeMask = 0 ∨
        (dmaDevTable.getD n (0, 0, 0)).2.1 &&& dmaModeMask = 1 ∨
        (dmaDevTable.getD n (0, 0, 0)).2.1 &&& dmaModeMask = 2 := by decide
    exact hall n hn
  · rw [List.getD_eq_getElem?_getD, List.getElem?_eq_none hn]
    exact Or.inl (by decide)

theorem modeOf_foldl_iff (devId : Int) (modes : List Mode) (last : Mode) :
    modeOf ((modes ++ [last]).foldl applyMode (dmaDevTable.getD devId.toNat (0, 0, 0)).2.1)
        = some last ↔
      last = .write ∧ deviceMode devId ≠ none ∨
      last = .read ∧ deviceMode devId = some .read ∧ .write ∉ modes := by
  unfold deviceMode modeOf
  rw [foldl_applyMode_mask]
  have hmask := device_mask devId.toNat
  generalize (dmaDevTable.getD devId.toNat (0, 0, 0)).2.1 &&& dmaModeMask = w at hmask ⊢
  cases last with
  | write => rcases hmask with rfl | rfl | rfl <;> simp [Mode.word]
  | read =>
    by_cases hmem : Mode.write ∈ modes <;>
      rcases hmask with rfl | rfl | rfl <;> simp [hmem, Mode.word]

theorem jzRequestDma_allocated {s : State} {devId : Int} {devStr : Nat} {handler : Bool}
    {irqDevId errno : Nat} (hreq : (jzRequestDma devId devStr handler irqDevId errno s).1 = i) :
    Allocated (jzRequestDma devId devStr handler irqDevId errno s).2 i ∧
    ((jzRequestDma devId devStr handler irqDevId errno s).2.table i).fifoAddr
      = (dmaDevTable.getD devId.toNat (0, 0, 0)).1 ∧
    ((jzRequestDma devId devStr handler irqDevId errno s).2.table i).mode
      = (dmaDevTable.getD devId.toNat (0, 0, 0)).2.1 := by
  have heff := jzRequestDma_effect s devId devStr handler irqDevId errno
  rw [hreq] at heff
  generalize (jzRequestDma devId devStr handler irqDevId errno s).2 = s' at heff ⊢
  generalize hr : some (i : Int) = r at heff
  cases heff with
  | requestNone r l hneg =>
    cases hr
    omega
  | requestFail k l herr =>
    have := Option.some.inj hr
    omega
  | requestOk k l hdev hk =>
    have hki : i = k := by
      have := Option.some.inj hr
      omega
    subst hki
    simp only [Function.update_self]
    exact ⟨⟨hk, by simpa [requested] using hdev, by simp [requested]⟩, rfl, rfl⟩

/-- **The direction follows the last mode set exactly for a write to a device that has a
mode, and for a read from a device that reads when no write came before.** -/
theorem setDmaAddr_directed_iff (s : State) (regs : Regs) (devId : Int) (devStr : Nat)
    (handler : Bool) (irqDevId errno : Nat) {i : Nat}
    (hreq : (jzRequestDma devId devStr handler irqDevId errno s).1 = i) (modes : List Mode)
    (last : Mode) :
    (∀ phys, Directed
      (setDmaAddr i phys (setModes i ⟨(jzRequestDma devId devStr handler irqDevId errno s).2, regs⟩
        (modes ++ [last]))) i (dmaDevTable.getD devId.toNat (0, 0, 0)).1 phys last) ↔
      last = .write ∧ deviceMode devId ≠ none ∨
      last = .read ∧ deviceMode devId = some .read ∧ .write ∉ modes := by
  obtain ⟨halloc, hfifo, hmode⟩ := jzRequestDma_allocated hreq
  generalize (jzRequestDma devId devStr handler irqDevId errno s).2 = s' at halloc hfifo hmode ⊢
  have h : Allocated (Machine.mk s' regs).dma i := halloc
  have htable := setModes_table (modes ++ [last]) ⟨s', regs⟩ h
  have hiff := directed_iff_modeOf (setModes_allocated h (modes ++ [last]))
    (setModes_increments h modes last)
  rw [htable] at hiff
  dsimp only at hiff
  rw [hfifo, hmode, modeOf_foldl_iff] at hiff
  exact hiff

/-- The sound driver's playback channel, set to read and back to write. -/
theorem setDmaAddr_directed_playback :
    (jzRequestDma 4 0 true 0 0 (initState fun _ => ⟨0, 0, 0, 0, 0, 0, 0, 0⟩)).1 = (0 : Nat) ∧
    ∀ phys, Directed
      (setDmaAddr 0 phys (setModes 0
        ⟨(jzRequestDma 4 0 true 0 0 (initState fun _ => ⟨0, 0, 0, 0, 0, 0, 0, 0⟩)).2,
          ⟨fun _ => 0, fun _ => 0, fun _ => 0, fun _ => 0⟩⟩ ([.read] ++ [.write])))
      0 0x10020034 phys .write :=
  ⟨rfl, (setDmaAddr_directed_iff _ _ 4 0 true 0 0 (i := 0) rfl [.read] .write).mpr
    (Or.inl ⟨rfl, by decide⟩)⟩

/-- The same channel set to read: memory is the source, with the target incrementing. -/
theorem setDmaAddr_not_directed :
    (jzRequestDma 4 0 true 0 0 (initState fun _ => ⟨0, 0, 0, 0, 0, 0, 0, 0⟩)).1 = (0 : Nat) ∧
    (setDmaAddr 0 0x1000 (setModes 0
      ⟨(jzRequestDma 4 0 true 0 0 (initState fun _ => ⟨0, 0, 0, 0, 0, 0, 0, 0⟩)).2,
        ⟨fun _ => 0, fun _ => 0, fun _ => 0, fun _ => 0⟩⟩ [.read])).regs.dsar 0 = 0x1000 ∧
    (setDmaAddr 0 0x1000 (setModes 0
      ⟨(jzRequestDma 4 0 true 0 0 (initState fun _ => ⟨0, 0, 0, 0, 0, 0, 0, 0⟩)).2,
        ⟨fun _ => 0, fun _ => 0, fun _ => 0, fun _ => 0⟩⟩ [.read])).regs.dcmd 0 = dcmdDai ∧
    ¬ Directed
      (setDmaAddr 0 0x1000 (setModes 0
        ⟨(jzRequestDma 4 0 true 0 0 (initState fun _ => ⟨0, 0, 0, 0, 0, 0, 0, 0⟩)).2,
          ⟨fun _ => 0, fun _ => 0, fun _ => 0, fun _ => 0⟩⟩ [.read]))
      0 0x10020034 0x1000 .read := by
  refine ⟨rfl, rfl, rfl, fun h => ?_⟩
  have hsrc : (0x1000 : BitVec 32) = 0x10020034 := h.source
  exact absurd hsrc (by decide)

end Dingoo.Dma
