/-
What `mmc_read` stores.

Whatever the card holds, a read whose blocks all succeed stores three consecutive
slices of it: the rest of the first block if the range starts inside one, the whole
blocks up to the last block boundary, and the start of the last block.
`readRange_dest` says which, for every start and size; it is exact, so it also says
where the code differs from "the `size` bytes from `src`".  It does in two places: the
first slice is the whole rest of its block even when the range ends before, and all
three are taken modulo four gigabytes.
-/
import Mathlib.Data.BitVec
import Dingoo.Lib.Masks
import Dingoo.UBoot.JzMmc

namespace Dingoo.JzMmc

open Dingoo.Lib

variable {src alignedEnd : BitVec 32} {card : Card}

/-! ### Slices of the card -/

/-- `n` bytes of the card from byte `s` on. -/
def slice (content : Nat → UInt8) (s n : Nat) : List UInt8 :=
  (List.range n).map fun i => content (s + i)

/-- `slice content s n` stored at offset `off`. -/
def fill (content : Nat → UInt8) (s n off : Nat) (dest : Nat → Option UInt8) :
    Nat → Option UInt8 :=
  fun i => if off ≤ i ∧ i - off < n then some (content (s + (i - off))) else dest i

variable {content : Nat → UInt8} {dest : Nat → Option UInt8}

theorem slice_length (s n : Nat) : (slice content s n).length = n := by
  simp [slice]

theorem slice_getElem? (s n i : Nat) :
    (slice content s n)[i]? = if i < n then some (content (s + i)) else none := by
  unfold slice
  rw [List.getElem?_map]
  by_cases h : i < n
  · rw [if_pos h, List.getElem?_range h]
    rfl
  · rw [if_neg h, List.getElem?_eq_none (by simpa using h)]
    rfl

theorem slice_drop_take {s n p q : Nat} (h : p + q ≤ n) :
    ((slice content s n).drop p).take q = slice content (s + p) q := by
  refine List.ext_getElem? fun i => ?_
  rw [List.getElem?_take, List.getElem?_drop, slice_getElem?, slice_getElem?, Nat.add_assoc]
  by_cases hi : i < q
  · rw [if_pos hi, if_pos hi, if_pos (by omega)]
  · rw [if_neg hi, if_neg hi]

theorem store_slice (s n off : Nat) :
    store off (slice content s n) dest = fill content s n off dest := by
  funext i
  simp only [store, fill, slice_getElem?]
  by_cases h : off ≤ i
  · by_cases hn : i - off < n
    · simp [h, hn]
    · simp [h, hn]
  · simp [h]

@[simp] theorem fill_zero (s off : Nat) : fill content s 0 off dest = dest := by
  funext i
  simp [fill]

theorem fill_append (s n m off : Nat) :
    fill content (s + n) m (off + n) (fill content s n off dest)
      = fill content s (n + m) off dest := by
  funext i
  simp only [fill]
  by_cases h1 : off + n ≤ i ∧ i - (off + n) < m
  · rw [if_pos h1, if_pos (by omega), show s + n + (i - (off + n)) = s + (i - off) by omega]
  · rw [if_neg h1]
    by_cases h2 : off ≤ i ∧ i - off < n
    · rw [if_pos h2, if_pos (by omega)]
    · rw [if_neg h2, if_neg (by omega)]

/-! ### Block arithmetic on 32 bit words -/

theorem offset_toNat (x : BitVec 32) :
    (~~~(~~~(mmcBlockSize - 1)) &&& x).toNat = x.toNat % 512 := by
  rw [BitVec.not_not, BitVec.and_comm]
  exact @and_lowMask_toNat 32 9 (by decide) x

theorem aligned_toNat (x : BitVec 32) :
    (~~~(mmcBlockSize - 1) &&& x).toNat = x.toNat / 512 * 512 := by
  rw [BitVec.and_comm]
  exact @and_highMask_toNat 32 9 (by decide) x

/-! ### The three parts -/

section

variable {σ : Type} {blockRead : BlockRead σ}

/-- Every read of an aligned block returns 0 and stores that block of the card. -/
def Delivers (blockRead : BlockRead σ) (content : Nat → UInt8) : Prop :=
  ∀ dev (src : BitVec 32), src.toNat % 512 = 0 →
    ∃ dev', blockRead dev src mmcBlockSize = (dev', 0, slice content src.toNat 512)

theorem readBuf_eq (hread : Delivers blockRead content) (run : Run σ) (hsrc : src.toNat % 512 = 0) :
    ∃ dev rest, readBuf blockRead run src
      = (0, { run with dev := dev, mmcBuf := slice content src.toNat 512 ++ rest }) := by
  obtain ⟨dev, h⟩ := hread run.dev src hsrc
  refine ⟨dev, run.mmcBuf.drop (slice content src.toNat 512).length, ?_⟩
  simp only [readBuf, h]

theorem readDest_eq (hread : Delivers blockRead content) (run : Run σ) (hsrc : src.toNat % 512 = 0)
    (off : Nat) :
    ∃ dev, readDest blockRead run src off
      = (0, { run with dev := dev, dest := fill content src.toNat 512 off run.dest }) := by
  obtain ⟨dev, h⟩ := hread run.dev src hsrc
  exact ⟨dev, by simp only [readDest, h, store_slice]⟩

/-- The part of the first block that lies behind the start of the range. -/
def headLen (a : Nat) : Nat := if a % 512 = 0 then 0 else 512 - a % 512

theorem headLen_le (a : Nat) : headLen a < 512 := by
  unfold headLen
  split <;> omega

theorem headLen_aligned (a : Nat) : (a + headLen a) % 512 = 0 := by
  unfold headLen
  split <;> omega

theorem readHead_eq (hread : Delivers blockRead content) (run : Run σ)
    {alignedStart partStart : BitVec 32} (hstart : alignedStart.toNat = src.toNat / 512 * 512)
    (hpart : partStart.toNat = src.toNat % 512) :
    ∃ dev buf src', readHead blockRead run src alignedStart partStart
        = .ok (⟨dev, buf, fill content src.toNat (headLen src.toNat) 0 run.dest⟩, src',
            headLen src.toNat) ∧
      src'.toNat = (src.toNat + headLen src.toNat) % 4294967296 := by
  unfold readHead headLen
  have hzero : partStart = 0 ↔ src.toNat % 512 = 0 := by
    rw [← hpart, ← BitVec.toNat_inj]
    rfl
  by_cases h : partStart = 0
  · have hx := src.isLt
    rw [if_neg (by simpa using h), if_pos (hzero.mp h)]
    exact ⟨run.dev, run.mmcBuf, src, by rw [fill_zero], by omega⟩
  · have hmod : src.toNat % 512 ≠ 0 := fun h' => h (hzero.mpr h')
    have halign : alignedStart.toNat % 512 = 0 := by omega
    obtain ⟨dev, rest, hbuf⟩ := readBuf_eq hread run halign
    have hlen : (mmcBlockSize - partStart).toNat = 512 - src.toNat % 512 := by
      rw [BitVec.toNat_sub, hpart, show mmcBlockSize.toNat = 512 from rfl]
      omega
    have hbytes : ((slice content alignedStart.toNat 512 ++ rest).drop partStart.toNat).take
        (mmcBlockSize - partStart).toNat
        = slice content src.toNat (512 - src.toNat % 512) := by
      rw [hlen, hpart, List.drop_append_of_le_length (by rw [slice_length]; omega),
        List.take_append_of_le_length (by rw [List.length_drop, slice_length]),
        slice_drop_take (by omega), hstart, Nat.div_add_mod']
    rw [if_pos h, if_neg hmod, hbuf]
    refine ⟨dev, slice content alignedStart.toNat 512 ++ rest, src + (mmcBlockSize - partStart),
      ?_, ?_⟩
    · simp only [lt_self_iff_false, if_false, hbytes, store_slice]
      rw [hlen]
    · rw [BitVec.toNat_add, hlen]

theorem readBlocks_eq (hread : Delivers blockRead content)
    (hend : alignedEnd.toNat % 512 = 0) : ∀ (fuel : Nat) (run : Run σ) (src : BitVec 32)
    (off : Nat), src.toNat % 512 = 0 → 0 < fuel →
    alignedEnd.toNat + 512 ≤ src.toNat + 512 * fuel →
    ∃ dev src', readBlocks blockRead alignedEnd fuel run src off
        = some (.ok (⟨dev, run.mmcBuf,
            fill content src.toNat (alignedEnd.toNat - src.toNat) off run.dest⟩, src',
            off + (alignedEnd.toNat - src.toNat))) ∧
      src'.toNat = max src.toNat alignedEnd.toNat := by
  intro fuel
  induction fuel with
  | zero => intro run src off _ hpos; omega
  | succ fuel ih =>
    intro run src off hsrc _ hfuel
    rw [readBlocks]
    by_cases h : src < alignedEnd
    · obtain ⟨dev, hdest⟩ := readDest_eq hread run hsrc off
      rw [BitVec.lt_def] at h
      -- the end is a block boundary below 2^32, so the step neither wraps nor overshoots
      have hnext : (src + mmcBlockSize).toNat = src.toNat + 512 := by
        rw [BitVec.toNat_add, show mmcBlockSize.toNat = 512 from rfl]
        omega
      obtain ⟨dev', src', hrest, hsrc'⟩ := ih
        { run with dev := dev, dest := fill content src.toNat 512 off run.dest }
        (src + mmcBlockSize) (off + mmcBlockSize.toNat) (by omega) (by omega) (by omega)
      refine ⟨dev', src', ?_, by omega⟩
      rw [if_pos (by rw [BitVec.lt_def]; exact h), hdest]
      simp only [lt_self_iff_false, if_false]
      rw [hrest, hnext, show mmcBlockSize.toNat = 512 from rfl, fill_append,
        show 512 + (alignedEnd.toNat - (src.toNat + 512)) = alignedEnd.toNat - src.toNat by omega,
        show off + 512 + (alignedEnd.toNat - (src.toNat + 512))
          = off + (alignedEnd.toNat - src.toNat) by omega]
    · rw [BitVec.lt_def] at h
      have hdone : alignedEnd.toNat - src.toNat = 0 := by omega
      rw [if_neg (by rw [BitVec.lt_def]; exact h), hdone, fill_zero]
      exact ⟨run.dev, src, rfl, by omega⟩

/-- The part of the last block that lies before the end of the range. -/
def tailLen (src endw : Nat) : Nat := if src < endw then endw % 512 else 0

theorem readTail_eq (hread : Delivers blockRead content) (run : Run σ) (src : BitVec 32)
    {endw partEnd : BitVec 32} (hend : alignedEnd.toNat = endw.toNat / 512 * 512)
    (hpart : partEnd.toNat = endw.toNat % 512) (off : Nat) :
    ∃ dev buf, readTail blockRead run src endw alignedEnd partEnd off
      = .ok ⟨dev, buf,
          fill content alignedEnd.toNat (tailLen src.toNat endw.toNat) off run.dest⟩ := by
  unfold readTail tailLen
  have hzero : partEnd = 0 ↔ endw.toNat % 512 = 0 := by
    rw [← hpart, ← BitVec.toNat_inj]
    rfl
  by_cases h : partEnd ≠ 0 ∧ src < endw
  · have halign : alignedEnd.toNat % 512 = 0 := by omega
    obtain ⟨dev, rest, hbuf⟩ := readBuf_eq hread run halign
    have hbytes : (slice content alignedEnd.toNat 512 ++ rest).take partEnd.toNat
        = slice content alignedEnd.toNat (endw.toNat % 512) := by
      rw [hpart, List.take_append_of_le_length (by rw [slice_length]; omega)]
      exact slice_drop_take (p := 0) (by omega)
    rw [if_pos h, if_pos (BitVec.lt_def.mp h.2), hbuf]
    refine ⟨dev, slice content alignedEnd.toNat 512 ++ rest, ?_⟩
    simp only [lt_self_iff_false, if_false, hbytes, store_slice]
  · have hnone : (if src.toNat < endw.toNat then endw.toNat % 512 else 0) = 0 := by
      split
      · rename_i hlt
        rw [← hzero]
        by_contra hne
        exact h ⟨hne, BitVec.lt_def.mpr hlt⟩
      · rfl
    rw [if_neg h, hnone, fill_zero]
    exact ⟨run.dev, run.mmcBuf, rfl⟩

/-- The three slices, for a range of `size` bytes from card address `a` on. -/
def stored (content : Nat → UInt8) (a size : Nat) (dest : Nat → Option UInt8) :
    Nat → Option UInt8 :=
  let e := (a + size) % 4294967296
  let a' := (a + headLen a) % 4294967296
  let mid := e / 512 * 512 - a'
  fill content (e / 512 * 512) (tailLen (max a' (e / 512 * 512)) e) (headLen a + mid)
    (fill content a' mid (headLen a) (fill content a (headLen a) 0 dest))

/-- **The three slices a successful `mmc_read` stores**, for every start and size. -/
theorem readRange_dest (hread : Delivers blockRead content) (run : Run σ) (src size : BitVec 32) :
    ∃ run', readRange blockRead run src size = some (0, run') ∧
      run'.dest = stored content src.toNat size.toNat run.dest := by
  obtain ⟨dev₁, buf₁, src₁, hhead, hsrc₁⟩ :=
    readHead_eq hread run (aligned_toNat src) (offset_toNat src)
  have hend := aligned_toNat (src + size)
  have hpart := offset_toNat (src + size)
  unfold readRange
  simp only [hhead]
  generalize ~~~(mmcBlockSize - 1) &&& (src + size) = alignedEnd at hend ⊢
  have hmod₁ : src₁.toNat % 512 = 0 := by
    have := headLen_aligned src.toNat
    omega
  have hmod : alignedEnd.toNat % 512 = 0 := by omega
  obtain ⟨dev₂, src₂, hblocks, hsrc₂⟩ := readBlocks_eq hread hmod (alignedEnd.toNat / 512 + 1)
    ⟨dev₁, buf₁, fill content src.toNat (headLen src.toNat) 0 run.dest⟩ src₁
    (headLen src.toNat) hmod₁ (by omega) (by omega)
  obtain ⟨dev₃, buf₃, htail⟩ := readTail_eq hread
    ⟨dev₂, buf₁, fill content src₁.toNat (alignedEnd.toNat - src₁.toNat) (headLen src.toNat)
      (fill content src.toNat (headLen src.toNat) 0 run.dest)⟩ src₂ hend hpart
    (headLen src.toNat + (alignedEnd.toNat - src₁.toNat))
  simp only [hblocks, htail]
  refine ⟨_, rfl, ?_⟩
  simp only [stored, hsrc₂, hend, hsrc₁, BitVec.toNat_add]

end

/-! ### When the slices are the range -/

theorem stored_of_below {a size : Nat} (hhead : a % 512 = 0 ∨ 512 ≤ a % 512 + size)
    (hend : a + size < 4294967296) : stored content a size dest = fill content a size 0 dest := by
  have hle : a + headLen a ≤ a + size := by
    unfold headLen
    split <;> omega
  have halign := headLen_aligned a
  have he : (a + size) % 4294967296 = a + size := Nat.mod_eq_of_lt hend
  have ha' : (a + headLen a) % 4294967296 = a + headLen a := Nat.mod_eq_of_lt (by omega)
  -- the head ends at a block boundary inside the range
  obtain ⟨mid, hmid⟩ : ∃ mid, (a + size) / 512 * 512 = a + headLen a + mid :=
    ⟨(a + size) / 512 * 512 - (a + headLen a), by omega⟩
  have htail : tailLen (max (a + headLen a) ((a + size) / 512 * 512)) (a + size)
      = size - (headLen a + mid) := by
    unfold tailLen
    split <;> omega
  have hsub : (a + size) / 512 * 512 - (a + headLen a) = mid := by omega
  have hone := @fill_append content dest a (headLen a) mid 0
  have htwo := @fill_append content dest a (headLen a + mid) (size - (headLen a + mid)) 0
  rw [Nat.zero_add] at hone htwo
  simp only [stored, he, ha']
  rw [htail, hsub, hmid, hone, Nat.add_assoc, htwo,
    show headLen a + mid + (size - (headLen a + mid)) = size by omega]

theorem stored_of_last {a size : Nat} (hhead : a % 512 ≠ 0) (hlast : a % 512 + size = 512)
    (hend : a + size = 4294967296) : stored content a size dest = fill content a size 0 dest := by
  have hlen : headLen a = size := by
    rw [headLen, if_neg hhead]
    omega
  simp [stored, hlen, hend, tailLen]

theorem stored_overrun {a size : Nat} (hhead : a % 512 ≠ 0) (hin : a % 512 + size < 512) :
    stored content a size dest size ≠ none := by
  have hlen : size < headLen a := by
    rw [headLen, if_neg hhead]
    omega
  simp only [stored, fill]
  split
  · simp
  · split
    · simp
    · simp [hlen]

/-- A range that runs into four gigabytes stops there, or goes on from the start of the card. -/
theorem stored_wrap {a size : Nat} (ha : a < 4294967296) (hsize : size < 2147483648)
    (hend : 4294967296 ≤ a + size) (hin : a % 512 = 0 ∨ 512 ≤ a % 512 + size)
    (hlast : ¬ (a % 512 ≠ 0 ∧ a + size = 4294967296 ∧ a % 512 + size = 512)) :
    ∃ i < size, stored content a size (fun _ => none) i = none ∨
      stored content a size (fun _ => none) i = some (content 0) ∧ 4294967296 ≤ a + i := by
  have hlt := headLen_le a
  have halign := headLen_aligned a
  have hle : headLen a ≤ size := by
    unfold headLen
    rcases hin with hin | hin <;> split <;> omega
  have he : (a + size) % 4294967296 = a + size - 4294967296 := by omega
  simp only [stored, he, fill]
  -- the head may end below the boundary or exactly at it
  by_cases hbelow : a + headLen a < 4294967296
  · refine ⟨headLen a, ?_, .inl ?_⟩
    · omega
    · have ha' : (a + headLen a) % 4294967296 = a + headLen a := Nat.mod_eq_of_lt hbelow
      have htail : tailLen (max (a + headLen a) ((a + size - 4294967296) / 512 * 512))
          (a + size - 4294967296) = 0 := by
        rw [tailLen, if_neg (by omega)]
      rw [ha', htail, if_neg (by omega), if_neg (by omega), if_neg (by omega)]
  · have hedge : a + headLen a = 4294967296 := by omega
    have hmod : a % 512 ≠ 0 := by
      intro h
      rw [headLen, if_pos h] at hedge
      omega
    have hlen : headLen a = 512 - a % 512 := by rw [headLen, if_neg hmod]
    refine ⟨headLen a, by omega, .inr ⟨?_, by omega⟩⟩
    rw [hedge, Nat.mod_self]
    by_cases hblock : (a + size - 4294967296) / 512 * 512 = 0
    · have htail : tailLen (max 0 ((a + size - 4294967296) / 512 * 512))
          (a + size - 4294967296) = a + size - 4294967296 := by
        rw [tailLen, hblock, if_pos (by omega)]
        omega
      rw [htail, hblock, if_pos (by omega)]
      simp
    · rw [if_neg (by omega), if_pos (by omega)]
      simp

/-! ### The card -/

/-- The card answers every command without error and reads deliver its content. -/
structure Card.Working (card : Card) : Prop where
  noError : ∀ sent cmd, (card.answer (sent ++ [cmd])).1 = 0
  data : ∀ sent arg, (card.answer (sent ++ [⟨17, arg⟩])).2
    = blockAt card.content card.sd20 arg

theorem mmcBlockRead_delivers (h : card.Working) : Delivers (mmcBlockRead card) card.content := by
  intro sent src hsrc
  have hlen : mmcBlockSize ≠ 0 := by decide
  have hback : src.toNat / 512 * 512 = src.toNat := by omega
  have hblock : blockAt card.content card.sd20 (if card.sd20 then src / mmcBlockSize else src)
      = slice card.content src.toNat 512 := by
    unfold blockAt slice
    cases card.sd20 with
    | false => rfl
    | true => simp [BitVec.toNat_udiv, show mmcBlockSize.toNat = 512 from rfl, hback]
  unfold mmcBlockRead
  simp only [if_neg hlen, h.noError, ne_eq, not_true_eq_false, false_and, if_false]
  rw [← hblock, ← h.data]
  exact ⟨_, Prod.ext rfl (Prod.ext (h.noError _ _) rfl)⟩

/-- A card that always works. -/
def Card.good (content : Nat → UInt8) (sd20 : Bool) : Card where
  content := content
  sd20 := sd20
  rca := 0
  answer := fun sent => match sent.getLast? with
    | some ⟨17, arg⟩ => (0, blockAt content sd20 arg)
    | _ => (0, [])

theorem Card.good_working (content : Nat → UInt8) (sd20 : Bool) :
    (Card.good content sd20).Working := by
  constructor
  · intro sent cmd
    simp only [good, List.getLast?_concat]
    split <;> rfl
  · intro sent arg
    simp only [good, List.getLast?_concat]

/-! ### `mmc_read` -/

/-- The call returns 0 and has stored the `size` bytes of the card from `src` on, and nothing
else.  The card is mapped at `CFG_MMC_BASE`. -/
def ReadsExactly (card : Card) (src size : BitVec 32) : Prop :=
  ∀ sent buf, ∃ run,
    mmcRead (mmcBlockRead card) true ⟨sent, buf, fun _ => none⟩ src size = some (0, run) ∧
    ∀ i, run.dest i
      = if i < size.toNat then some (card.content ((src - cfgMmcBase).toNat + i)) else none

theorem readsExactly_iff (h : card.Working) {size : BitVec 32} (hpos : 0 < size.toNat) :
    ReadsExactly card src size ↔
      stored card.content (src - cfgMmcBase).toNat size.toNat (fun _ => none)
        = fill card.content (src - cfgMmcBase).toNat size.toNat 0 (fun _ => none) := by
  have hne : size ≠ 0 := by
    rintro rfl
    simp at hpos
  have hdest : ∀ sent buf, ∃ run,
      mmcRead (mmcBlockRead card) true ⟨sent, buf, fun _ => none⟩ src size = some (0, run) ∧
      run.dest = stored card.content (src - cfgMmcBase).toNat size.toNat (fun _ => none) := by
    intro sent buf
    rw [mmcRead, if_neg hne, if_neg (by decide)]
    exact readRange_dest (mmcBlockRead_delivers h) _ _ _
  constructor
  · intro hexact
    obtain ⟨run, hrun, hspec⟩ := hexact [] []
    obtain ⟨run', hrun', hstored⟩ := hdest [] []
    obtain rfl : run = run' := by simpa using hrun.symm.trans hrun'
    rw [← hstored]
    funext i
    simpa [fill] using hspec i
  · intro heq sent buf
    obtain ⟨run, hrun, hstored⟩ := hdest sent buf
    refine ⟨run, hrun, fun i => ?_⟩
    rw [hstored, heq]
    simp [fill]

/-- One byte, the second of the card: the rest of its block is stored as well. -/
theorem mmcRead_one_byte :
    (mmcRead (mmcBlockRead (Card.good (fun i => UInt8.ofNat i) false)) true
      ⟨[], [], fun _ => none⟩ (cfgMmcBase + 1) 1).map (fun r => (r.1, r.2.dest 0, r.2.dest 1))
      = some (0, some 1, some 2) := by
  decide +kernel

/-- **When `mmc_read` is exact**: on every working card, if and only if the range starts at a
block boundary or reaches the end of its first block, and ends below four gigabytes or is
the end of the last block there. -/
theorem mmcRead_exact_iff (sd20 : Bool) (src size : BitVec 32) (hpos : 0 < size.toNat)
    (hint : size.toNat < 2 ^ 31) :
    (∀ card : Card, card.sd20 = sd20 → card.Working → ReadsExactly card src size) ↔
      ((src - cfgMmcBase).toNat % 512 = 0 ∨ 512 ≤ (src - cfgMmcBase).toNat % 512 + size.toNat) ∧
      ((src - cfgMmcBase).toNat + size.toNat < 2 ^ 32 ∨
        ((src - cfgMmcBase).toNat % 512 ≠ 0 ∧ (src - cfgMmcBase).toNat + size.toNat = 2 ^ 32 ∧
          (src - cfgMmcBase).toNat % 512 + size.toNat = 512)) := by
  have ha := (src - cfgMmcBase).isLt
  constructor
  · intro hall
    -- bytes below and above four gigabytes differ on this card
    obtain ⟨content, hcontent⟩ : ∃ content : Nat → UInt8,
      content = fun i => if i < 2 ^ 32 then 0 else 1 := ⟨_, rfl⟩
    have hgood := Card.good_working content sd20
    have hstored : stored content (src - cfgMmcBase).toNat size.toNat (fun _ => none)
        = fill content (src - cfgMmcBase).toNat size.toNat 0 (fun _ => none) :=
      (readsExactly_iff hgood hpos).mp (hall _ rfl hgood)
    generalize (src - cfgMmcBase).toNat = a at *
    have hhead : a % 512 = 0 ∨ 512 ≤ a % 512 + size.toNat := by
      by_contra hin
      have hover := congrFun hstored size.toNat
      simp only [fill, Nat.sub_zero, lt_self_iff_false, and_false, if_false] at hover
      exact stored_overrun (by omega) (by omega) hover
    refine ⟨hhead, ?_⟩
    by_contra hend
    obtain ⟨i, hi, hnone | ⟨hzero, hfar⟩⟩ :=
      @stored_wrap content a size.toNat ha (by omega) (by omega) hhead (by omega)
    · rw [hstored] at hnone
      simp [fill, hi] at hnone
    · rw [hstored] at hzero
      simp [fill, hi, hcontent] at hzero
      omega
  · rintro ⟨hhead, hend⟩ card - hwork
    rw [readsExactly_iff hwork hpos]
    rcases hend with hend | ⟨hne, hend, hlast⟩
    · exact stored_of_below hhead hend
    · exact stored_of_last hne hlast hend

/-- The first 700 bytes, a block and a part of the next. -/
theorem mmcRead_exact_start :
    0 < (700 : BitVec 32).toNat ∧
    ReadsExactly (Card.good (fun i => UInt8.ofNat i) true) cfgMmcBase 700 :=
  ⟨by decide, (mmcRead_exact_iff true cfgMmcBase 700 (by decide) (by decide)).mpr (by decide)
    (Card.good _ true) rfl (Card.good_working _ true)⟩

end Dingoo.JzMmc
