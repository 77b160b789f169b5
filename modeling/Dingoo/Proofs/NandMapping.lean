/-
The pairs of physical pages behind the logical pages of a two-plane chip.

Logical page `g` is page `g % ppb` of logical block `g / ppb`; its halves are the pages
of the same number in the physical blocks `2 * (g / ppb)` and `2 * (g / ppb) + 1`
(`planeRow_eq`).  Division by `ppb` therefore recovers block and half of a physical page,
and the map is one to one onto the pages of the physical blocks.

The four page routines are reduced to the rows they read or program (`PairRoutines`),
and the view with one plane, whose pages and blocks are half as long, reaches the same
rows at the byte range of the logical block.
-/
import Dingoo.Proofs.NandView

namespace Dingoo.Nand

open Dingoo.Nand.Cache

/-- The physical page of a half of a logical page. -/
def planeRow (ppb globalPage half : Nat) : Nat :=
  globalPage / ppb * ppb + globalPage + half * ppb

/-! ### Arithmetic of the map -/

section

variable {ppb : Nat}

theorem planeRow_eq (ppb globalPage half : Nat) :
    planeRow ppb globalPage half
      = (2 * (globalPage / ppb) + half) * ppb + globalPage % ppb := by
  have hpage := Nat.div_add_mod' globalPage ppb
  unfold planeRow
  calc globalPage / ppb * ppb + globalPage + half * ppb
      = globalPage / ppb * ppb + (globalPage / ppb * ppb + globalPage % ppb) + half * ppb := by
        rw [hpage]
    _ = (2 * (globalPage / ppb) + half) * ppb + globalPage % ppb := by ring

theorem planeRow_div (hppb : 0 < ppb) (globalPage half : Nat) :
    planeRow ppb globalPage half / ppb = 2 * (globalPage / ppb) + half := by
  rw [planeRow_eq, page_div (Nat.mod_lt _ hppb)]

theorem planeRow_mod (hppb : 0 < ppb) (globalPage half : Nat) :
    planeRow ppb globalPage half % ppb = globalPage % ppb := by
  rw [planeRow_eq, page_mod (Nat.mod_lt _ hppb)]

theorem planeRow_back (ppb row : Nat) (hppb : 0 < ppb) :
    planeRow ppb (row / ppb / 2 * ppb + row % ppb) (row / ppb % 2) = row := by
  have hr := Nat.mod_lt row hppb
  rw [planeRow_eq, page_div hr, page_mod hr, Nat.div_add_mod]
  exact Nat.div_add_mod' row ppb

theorem lt_blocks_iff (hppb : 0 < ppb) (page n : Nat) : page < n * ppb ↔ page / ppb < n :=
  (Nat.div_lt_iff_lt_mul hppb).symm

theorem planeRow_bijOn (hppb : 0 < ppb) (N : Nat) :
    Set.BijOn (fun x : Nat × Fin 2 => planeRow ppb x.1 x.2) {x | x.1 < N * ppb}
      {row | row < 2 * N * ppb} := by
  refine ⟨?_, ?_, ?_⟩
  · rintro ⟨page, half⟩ hpage
    have hblock := (lt_blocks_iff hppb page N).mp hpage
    have hhalf := half.isLt
    show planeRow ppb page half < 2 * N * ppb
    rw [lt_blocks_iff hppb, planeRow_div hppb]
    omega
  · rintro ⟨page, half⟩ - ⟨page', half'⟩ - heq
    have heq' : planeRow ppb page half = planeRow ppb page' half' := heq
    have hdiv := congrArg (· / ppb) heq'
    have hmod := congrArg (· % ppb) heq'
    simp only [planeRow_div hppb, planeRow_mod hppb] at hdiv hmod
    have hblock : page / ppb = page' / ppb := by omega
    have hsame : half = half' := Fin.ext (by omega)
    refine Prod.ext ?_ hsame
    show page = page'
    rw [← Nat.div_add_mod' page ppb, hblock, hmod, Nat.div_add_mod']
  · intro row hrow
    have hblock := (lt_blocks_iff hppb row (2 * N)).mp hrow
    have hr := Nat.mod_lt row hppb
    refine ⟨(row / ppb / 2 * ppb + row % ppb, ⟨row / ppb % 2, Nat.mod_lt _ (by decide)⟩), ?_,
      planeRow_back ppb row hppb⟩
    show row / ppb / 2 * ppb + row % ppb < N * ppb
    rw [lt_blocks_iff hppb, page_div hr]
    omega

/-- The pages of logical block `B` are those of the physical blocks `2 * B` and `2 * B + 1`. -/
theorem planeRow_block_iff (hppb : 0 < ppb) (B row : Nat) :
    (∃ page half, page / ppb = B ∧ half < 2 ∧ planeRow ppb page half = row) ↔
      row / ppb = 2 * B ∨ row / ppb = 2 * B + 1 := by
  constructor
  · rintro ⟨page, half, hB, hhalf, rfl⟩
    rw [planeRow_div hppb, hB]
    omega
  · intro h
    have hr := Nat.mod_lt row hppb
    refine ⟨row / ppb / 2 * ppb + row % ppb, row / ppb % 2, ?_, Nat.mod_lt _ (by decide),
      planeRow_back ppb row hppb⟩
    rw [page_div hr]
    omega

end

/-! ### The routines -/

/-- Page read, spare area read, page write and spare area write of a logical page work on the
rows `row page 0` and `row page 1`: the reads depend on nothing else of the chip, and each
write programs the first half of its data into one and the second into the other. -/
structure PairRoutines (g : Geometry) (row : Nat → Nat → Nat) : Prop where
  readPage_congr : ∀ (rs : RsUnit) (eccpos : List Nat) (chip chip' : Chip) (page : Nat)
    (oob : List UInt8) (stats : EccStats),
    (∀ half < 2, chip.cells (row page half) = chip'.cells (row page half)) →
    (nandReadPageHweccRsPlanes rs g eccpos chip page oob stats).1
      = (nandReadPageHweccRsPlanes rs g eccpos chip' page oob stats).1
  readPage : ∀ (rs : RsUnit) (eccpos : List Nat) (chip : Chip) (page : Nat)
    (oob : List UInt8) (stats : EccStats), Silent rs →
    (nandReadPageHweccRsPlanes rs g eccpos chip page oob stats).1
      = rowBytes chip.cells (row page 0) 0 (g.writesize / 2)
        ++ rowBytes chip.cells (row page 1) 0 (g.writesize / 2)
  readOob : ∀ (chip : Chip) (page : Nat) (oob : List UInt8), oob.length = g.oobsize →
    (nandReadOobStdPlanes g chip page true oob).1
      = rowBytes chip.cells (row page 0) (g.writesize / 2) (g.oobsize / 2)
        ++ rowBytes chip.cells (row page 1) (g.writesize / 2) (g.oobsize / 2)
  writePage : ∀ (rs : RsUnit) (eccpos : List Nat) (chip : Chip) (page : Nat)
    (buf oob : List UInt8), ∃ a a' spare spare',
    (nandWritePage rs g eccpos chip page buf oob).1.cells
      = Load.program ⟨0, a', (buf.drop (g.writesize / 2)).take (g.writesize / 2) ++ spare'⟩
          (row page 1)
        (Load.program ⟨0, a, buf.take (g.writesize / 2) ++ spare⟩ (row page 0) chip.cells)
  writeOob : ∀ (chip : Chip) (page : Nat) (oob : List UInt8), ∃ a a',
    (nandWriteOobStdPlanes g chip page oob).cells
      = Load.program ⟨g.writesize / 2, a', (oob.drop (g.oobsize / 2)).take (g.oobsize / 2)⟩
          (row page 1)
        (Load.program ⟨g.writesize / 2, a, oob.take (g.oobsize / 2)⟩ (row page 0) chip.cells)

theorem readSteps_congr (rs : RsUnit) (flag : Bool) : ∀ (steps : Nat) (chip chip' : Chip)
    (code : List UInt8) (stats : EccStats), chip.row = chip'.row → chip.column = chip'.column →
    chip.cells chip.row = chip'.cells chip'.row →
    (readSteps rs flag steps chip code stats).1 = (readSteps rs flag steps chip' code stats).1 ∧
    (readSteps rs flag steps chip code stats).2.2
      = (readSteps rs flag steps chip' code stats).2.2 ∧
    (readSteps rs flag steps chip code stats).2.1.cells = chip.cells := by
  intro steps
  induction steps with
  | zero => intro chip chip' code stats _ _ _; exact ⟨rfl, rfl, rfl⟩
  | succ steps ih =>
    intro chip chip' code stats hrow hcol hcells
    have hbytes : (chip.readBuf 512).1 = (chip'.readBuf 512).1 := by
      simp only [Chip.readBuf, hcells, hcol]
    have hnext := fun code stats => ih (chip.readBuf 512).2 (chip'.readBuf 512).2 code stats
      hrow (congrArg (· + 512) hcol) hcells
    simp only [readSteps, hbytes]
    refine ⟨?_, ?_, ?_⟩
    · rw [(hnext _ _).1]
    · rw [(hnext _ _).2.1]
    · exact (hnext _ _).2.2

theorem readPlane_congr (rs : RsUnit) (g : Geometry) (eccpos : List Nat) {page : Nat} (off : Nat)
    {chip chip' : Chip} (h : chip.cells page = chip'.cells page) (oob : List UInt8)
    (stats : EccStats) :
    (readPlane rs g eccpos page off chip oob stats).1
      = (readPlane rs g eccpos page off chip' oob stats).1 ∧
    (readPlane rs g eccpos page off chip oob stats).2.1
      = (readPlane rs g eccpos page off chip' oob stats).2.1 ∧
    (readPlane rs g eccpos page off chip oob stats).2.2.2
      = (readPlane rs g eccpos page off chip' oob stats).2.2.2 ∧
    (readPlane rs g eccpos page off chip oob stats).2.2.1.cells = chip.cells := by
  have hbytes : ((chip.readoob g 0 page).readBuf (g.oobsize >>> 1)).1
      = ((chip'.readoob g 0 page).readBuf (g.oobsize >>> 1)).1 := by
    simp only [Chip.readBuf, Chip.readoob, h]
  have hsteps := fun flag code => readSteps_congr rs flag (g.eccSteps >>> 1)
    (((chip.readoob g 0 page).readBuf (g.oobsize >>> 1)).2.rndout 0)
    (((chip'.readoob g 0 page).readBuf (g.oobsize >>> 1)).2.rndout 0) code stats rfl rfl h
  simp only [readPlane, hbytes]
  exact ⟨(hsteps _ _).1, trivial, (hsteps _ _).2.1, (hsteps _ _).2.2⟩

theorem planeRow_first (ppb page : Nat) : planeRow ppb page 0 = planePage ppb page := by
  simp [planeRow, planePage]

theorem planeRow_second (ppb page : Nat) : planeRow ppb page 1 = planePage ppb page + ppb := by
  simp [planeRow, planePage]

section

variable {g : Geometry} {steps oobsize : Nat}

theorem nandReadOob_rows (hg : PlaneSizes g steps oobsize) (chip : Chip) (page : Nat)
    {oob : List UInt8} (hoob : oob.length = g.oobsize) :
    (nandReadOobStdPlanes g chip page true oob).1
      = rowBytes chip.cells (planePage g.ppb page) (g.writesize / 2) (g.oobsize / 2)
        ++ rowBytes chip.cells (planePage g.ppb page + g.ppb) (g.writesize / 2)
          (g.oobsize / 2) := by
  have hread : ∀ (chip : Chip) (row : Nat), ((chip.readoob g 0 row).readBuf (g.oobsize >>> 1)).1
      = rowBytes chip.cells row (g.writesize / 2) (g.oobsize / 2) := by
    intro chip row
    simp only [Chip.readBuf, Chip.readoob, hg.planenum, rowBytes, Nat.shiftRight_one]
    rw [if_pos (by decide), Nat.zero_add]
  have hlen : ∀ row, (rowBytes chip.cells row (g.writesize / 2) (g.oobsize / 2)).length
      = g.oobsize / 2 := fun row => by simp [rowBytes]
  unfold nandReadOobStdPlanes
  simp only [if_true, hread]
  rw [overwrite_start]
  have hbehind := @overwrite_behind
    (rowBytes chip.cells (planePage g.ppb page) (g.writesize / 2) (g.oobsize / 2))
    (rowBytes chip.cells (planePage g.ppb page + g.ppb) (g.writesize / 2) (g.oobsize / 2))
    (oob.drop (g.oobsize / 2))
  have heven := hg.oobsize_eq
  rw [hlen] at hbehind ⊢
  rw [Nat.shiftRight_one]
  refine hbehind.trans ?_
  rw [hlen, List.drop_drop, List.drop_of_length_le (by omega), List.append_nil]

/-- **The four page routines use the two rows of the map.** -/
theorem pairRoutines (hg : PlaneSizes g steps oobsize) : PairRoutines g (planeRow g.ppb) := by
  have hhalf : g.writesize / 2 = 512 * steps := by
    rw [hg.writesize]
    omega
  refine ⟨?_, ?_, ?_, ?_, ?_⟩
  · intro rs eccpos chip chip' page oob stats h
    have h0 := h 0 (by decide)
    have h1 := h 1 (by decide)
    rw [planeRow_first] at h0
    rw [planeRow_second] at h1
    obtain ⟨hdata, hoob, hstats, hcells⟩ := readPlane_congr rs g eccpos 0 h0 oob stats
    have hcells' := (readPlane_congr rs g eccpos 0 h0.symm oob stats).2.2.2
    have hnext : (readPlane rs g eccpos (planePage g.ppb page) 0 chip oob stats).2.2.1.cells
          (planePage g.ppb page + g.ppb)
        = (readPlane rs g eccpos (planePage g.ppb page) 0 chip' oob stats).2.2.1.cells
          (planePage g.ppb page + g.ppb) := by
      rw [hcells, hcells', h1]
    simp only [nandReadPageHweccRsPlanes]
    rw [hdata, (readPlane_congr rs g eccpos _ hnext _ _).1, hoob, hstats]
  · intro rs eccpos chip page oob stats hrs
    obtain ⟨oob', chip', hcells, hfirst⟩ := readPlane_silent hrs g eccpos
      (planePage g.ppb page) 0 chip oob stats
    obtain ⟨oob'', chip'', -, hsecond⟩ := readPlane_silent hrs g eccpos
      (planePage g.ppb page + g.ppb) (g.oobsize >>> 1) chip' oob' stats
    simp only [nandReadPageHweccRsPlanes, hfirst, hsecond]
    rw [hcells, hg.eccSteps, hhalf, planeRow_first, planeRow_second]
  · intro chip page oob hoob
    rw [planeRow_first, planeRow_second]
    exact nandReadOob_rows hg chip page hoob
  · intro rs eccpos chip page buf oob
    rw [planeRow_first, planeRow_second, hhalf]
    -- what `oob_poi` holds when each page is streamed
    refine ⟨firstPlaneAddress g (planePage g.ppb page), planePage g.ppb page + g.ppb,
      (setEcc (eccpos.take (g.eccTotal >>> 1)) (parity rs steps buf) oob).take (g.oobsize >>> 1),
      (setEcc (eccpos.take (g.eccTotal >>> 1)) (parity rs steps (buf.drop (512 * steps)))
        (setEcc (eccpos.take (g.eccTotal >>> 1)) (parity rs steps buf) oob)).take
          (g.oobsize >>> 1), ?_⟩
    simp only [nandWritePage, nandWritePageHweccPlanes, writeSteps_eq, hg.eccSteps, Chip.cmd80,
      Chip.cmd11, Chip.cmd81, Chip.writeBuf, Chip.pageprog, Option.map_some, List.nil_append,
      Nat.add_sub_cancel]
  · intro chip page oob
    rw [planeRow_first, planeRow_second, ← Nat.shiftRight_one, ← Nat.shiftRight_one]
    refine ⟨firstPlaneAddress g (planePage g.ppb page), planePage g.ppb page + g.ppb, ?_⟩
    simp only [nandWriteOobStdPlanes, Chip.cmd80, Chip.cmd11, Chip.cmd81, Chip.writeBuf,
      Chip.pageprog, Option.map_some, List.nil_append, Nat.add_sub_cancel]

/-! ### The view with one plane -/

theorem onePlane_sizes {ppb : Nat} (hg : PlaneSizes g steps oobsize)
    (herase : g.erasesize = ppb * g.writesize) (hshift : g.writesize = 2 ^ g.pageShift) :
    g.erasesize = 2 * ppb * (onePlane g).writesize ∧ 0 < (onePlane g).writesize ∧
      (onePlane g).ppb = ppb ∧ ∀ offs, offs >>> (onePlane g).pageShift
        = offs / (onePlane g).writesize := by
  have hone : (onePlane g).writesize = 512 * steps := by
    show g.writesize >>> 1 = _
    rw [hg.writesize, Nat.shiftRight_one]
    omega
  have hsteps : 0 < steps := by
    by_contra hzero
    have hppb := hg.ppb_pos
    rw [Geometry.ppb, hg.writesize, show steps = 0 by omega, Nat.mul_zero, Nat.div_zero] at hppb
    exact absurd hppb (by decide)
  have hbytes : g.erasesize = 2 * ppb * (512 * steps) := by
    rw [herase, hg.writesize]
    ring
  refine ⟨by rw [hone]; exact hbytes, by omega, ?_, fun offs => ?_⟩
  · show (g.erasesize >>> 1) / (onePlane g).writesize = ppb
    rw [hone, hbytes, Nat.shiftRight_one, Nat.mul_assoc, Nat.mul_div_cancel_left _ (by decide),
      Nat.mul_div_cancel _ (by omega)]
  · have hpos : g.pageShift ≠ 0 := by
      intro hzero
      have hws := hg.writesize
      rw [hshift, hzero] at hws
      omega
    obtain ⟨k, hk⟩ : ∃ k, g.pageShift = k + 1 := ⟨g.pageShift - 1, by omega⟩
    have hpow : 512 * steps = 2 ^ k := by
      have hws := hg.writesize
      rw [hshift, hk, Nat.pow_succ] at hws
      omega
    show offs >>> (g.pageShift - 1) = _
    rw [hone, hpow, hk, Nat.add_sub_cancel, Nat.shiftRight_eq_div_pow]

theorem block_range_iff {ppb ws : Nat} (hppb : 0 < ppb) (hws : 0 < ws) (B offs : Nat) :
    (B * (2 * ppb * ws) ≤ offs ∧ offs < (B + 1) * (2 * ppb * ws)) ↔
      offs / ws / ppb = 2 * B ∨ offs / ws / ppb = 2 * B + 1 := by
  have hlow : B * (2 * ppb * ws) ≤ offs ↔ 2 * B ≤ offs / ws / ppb := by
    rw [Nat.le_div_iff_mul_le hppb, Nat.le_div_iff_mul_le hws,
      show B * (2 * ppb * ws) = 2 * B * ppb * ws by ring]
  have hhigh : offs < (B + 1) * (2 * ppb * ws) ↔ offs / ws / ppb < 2 * B + 2 := by
    rw [Nat.div_lt_iff_lt_mul hppb, Nat.div_lt_iff_lt_mul hws,
      show (B + 1) * (2 * ppb * ws) = (2 * B + 2) * ppb * ws by ring]
  rw [hlow, hhigh]
  omega

end

/-- **The two-plane map is one to one onto the physical pages, the four page routines use it,
and a logical block is the byte range of its two physical blocks in the one-plane view.** -/
theorem planeRow_view (ppb N : Nat) (hppb : 0 < ppb) :
    Set.BijOn (fun x : Nat × Fin 2 => planeRow ppb x.1 x.2) {x | x.1 < N * ppb}
      {row | row < 2 * N * ppb} ∧
    (∀ B row, (∃ page half, page / ppb = B ∧ half < 2 ∧ planeRow ppb page half = row) ↔
      row / ppb = 2 * B ∨ row / ppb = 2 * B + 1) ∧
    ∀ (g : Geometry) (steps oobsize : Nat), PlaneSizes g steps oobsize →
      g.erasesize = ppb * g.writesize → g.writesize = 2 ^ g.pageShift →
      g.ppb = ppb ∧ (onePlane g).ppb = ppb ∧ PairRoutines g (planeRow ppb) ∧
      ∀ B offs, (B * g.erasesize ≤ offs ∧ offs < (B + 1) * g.erasesize) ↔
        ∃ page half, page / ppb = B ∧ half < 2 ∧
          planeRow ppb page half = offs >>> (onePlane g).pageShift := by
  refine ⟨planeRow_bijOn hppb N, planeRow_block_iff hppb, ?_⟩
  intro g steps oobsize hg herase hshift
  obtain ⟨hbytes, hws, hone, hpage⟩ := onePlane_sizes hg herase hshift
  have hsame : g.ppb = ppb := by
    rw [Geometry.ppb, herase, Nat.mul_div_cancel]
    rw [hshift]
    exact Nat.two_pow_pos _
  refine ⟨hsame, hone, hsame ▸ pairRoutines hg, fun B offs => ?_⟩
  rw [planeRow_block_iff hppb, hpage, hbytes]
  exact block_range_iff hppb hws B offs

/-- The sizes of the 1G chip: 64 pages of 4096 bytes in a logical block. -/
theorem planeRow_view_chip1G :
    0 < chip1G.ppb ∧ chip1G.erasesize = chip1G.ppb * chip1G.writesize ∧
    PairRoutines chip1G (planeRow chip1G.ppb) := by
  have hppb : 0 < chip1G.ppb := by decide
  have herase : chip1G.erasesize = chip1G.ppb * chip1G.writesize := by decide
  refine ⟨hppb, herase, ?_⟩
  exact ((planeRow_view chip1G.ppb 1 hppb).2.2 chip1G 4 64 chip1G_planes herase (by decide)).2.2.1

end Dingoo.Nand
