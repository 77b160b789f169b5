/-
What the two devices of a two-plane chip see of it.

Device `jz_mtd` sees a pair of physical pages as one page, `jz_mtd1` sees each of them.
`pageOf` is the page of a device a row of the chip belongs to, `stored` the bytes the
chip holds at a range of a device.

Three facts about the page routines are used further on.  On a chip without errors
`readPage` returns the bytes of the page and changes no cell.  `writePage` changes
only the rows of its page, and `eraseCmd` only those of its block.
-/
import Dingoo.Linux.NandCache
import Dingoo.Proofs.NandPlanes

namespace Dingoo.Nand.Cache

open Dingoo.Lib

variable {b : Board} {m : Mtd} {w p n v k page row B : Nat} {cells cells' : Nat → Nat → UInt8}
  {rs : RsUnit}

/-! ### Sizes -/

/-- The sizes of a device: `2^v` bytes a page, `2^p` pages a block, `2^k` blocks. -/
structure Shape (b : Board) (m : Mtd) (v p k : Nat) : Prop where
  writesize : (b.geometry m).writesize = 2 ^ v
  pageShift : (b.geometry m).pageShift = v
  pagemask : (b.geometry m).pagemask = 2 ^ (p + k) - 1
  eraseShift : b.physEraseShift m = v + p
  chipsize : b.g.chipsize = 2 ^ (v + p + k)
  fits : v + p + k ≤ 32
  small : v ≤ 14

theorem shape_jzMtd (h : TwoPlane b.g w p n) : Shape b .jzMtd w p n := by
  refine ⟨h.writesize, h.pageShift, h.pagemask, ?_, h.chipsize, h.chip_bytes, h.page_bytes.2⟩
  have := h.chip_bytes
  show ffs b.g.erasesize - 1 = w + p
  rw [h.erasesize, ffs_two_pow _ (by omega)]
  rfl

theorem shape_jzMtd1 (h : TwoPlane b.g (w + 1) p n) : Shape b .jzMtd1 w p (n + 1) := by
  have htotal := h.chip_bytes
  have hpage := h.page_bytes
  refine ⟨?_, ?_, ?_, ?_, ?_, by omega, by omega⟩
  · show b.g.writesize >>> 1 = 2 ^ w
    rw [h.writesize, Nat.shiftRight_one, Nat.pow_succ, Nat.mul_div_cancel _ (by decide)]
  · show b.g.pageShift - 1 = w
    rw [h.pageShift]
    rfl
  · show b.g.chipsize >>> (b.g.pageShift - 1) - 1 = 2 ^ (p + (n + 1)) - 1
    rw [h.pageShift, h.chipsize, Nat.shiftRight_eq_div_pow, Nat.add_sub_cancel,
      show w + 1 + p + n = w + (p + (n + 1)) by omega, Nat.pow_add 2 w,
      Nat.mul_div_cancel_left _ (Nat.two_pow_pos w)]
  · show ffs b.g.erasesize - 1 - 1 = w + p
    rw [h.erasesize, ffs_two_pow _ (by omega)]
    omega
  · rw [h.chipsize]
    congr 1
    omega

theorem TwoPlane.shape (h : TwoPlane b.g w p n) (m : Mtd) : ∃ v k, Shape b m v p k := by
  cases m with
  | jzMtd => exact ⟨w, n, shape_jzMtd h⟩
  | jzMtd1 =>
    have hw := h.page_bytes.1
    obtain ⟨u, rfl⟩ : ∃ u, w = u + 1 := ⟨w - 1, by omega⟩
    exact ⟨u, n + 1, shape_jzMtd1 h⟩

/-! ### Rows and pages -/

/-- The page of a device that a row of the chip belongs to. -/
def pageOf (b : Board) : Mtd → Nat → Nat
  | .jzMtd, row => row / b.g.ppb / 2 * b.g.ppb + row % b.g.ppb
  | .jzMtd1, row => row

/-- Where the chip keeps a byte of a page. -/
def cellOf (b : Board) (m : Mtd) (page c : Nat) : Nat × Nat :=
  match m with
  | .jzMtd =>
    let half := b.g.writesize / 2
    if c < half then (planePage b.g.ppb page, c)
    else (planePage b.g.ppb page + b.g.ppb, c - half)
  | .jzMtd1 => (page, c)

/-- The bytes of a page. -/
def pageData (b : Board) (m : Mtd) (cells : Nat → Nat → UInt8) (page : Nat) : List UInt8 :=
  (List.range (b.geometry m).writesize).map fun c =>
    cells (cellOf b m page c).1 (cellOf b m page c).2

/-- The bytes the chip holds at a range of a device. -/
def stored (b : Board) (m : Mtd) (cells : Nat → Nat → UInt8) (offs len : Nat) : List UInt8 :=
  let ws := (b.geometry m).writesize
  (List.range len).map fun i =>
    cells (cellOf b m ((offs + i) / ws) ((offs + i) % ws)).1
      (cellOf b m ((offs + i) / ws) ((offs + i) % ws)).2

theorem page_mod {ppb r : Nat} (hr : r < ppb) (b : Nat) : (b * ppb + r) % ppb = r := by
  rw [Nat.mul_comm, Nat.mul_add_mod, Nat.mod_eq_of_lt hr]

theorem pageOf_planePage (hppb : 0 < b.g.ppb) (page : Nat) :
    pageOf b .jzMtd (planePage b.g.ppb page) = page ∧
      pageOf b .jzMtd (planePage b.g.ppb page + b.g.ppb) = page := by
  have hr := Nat.mod_lt page hppb
  have hpage : page / b.g.ppb * b.g.ppb + page % b.g.ppb = page := Nat.div_add_mod' _ _
  obtain ⟨hfirst, hsecond⟩ := planePage_block hr (page / b.g.ppb)
  rw [hpage] at hfirst hsecond
  simp only [pageOf]
  constructor
  · rw [hfirst, page_div hr, page_mod hr, Nat.mul_div_cancel_left _ (by decide), hpage]
  · rw [hsecond, page_div hr, page_mod hr,
      show (2 * (page / b.g.ppb) + 1) / 2 = page / b.g.ppb by omega, hpage]

theorem pageOf_cellOf (hppb : 0 < b.g.ppb) (page c : Nat) :
    pageOf b m (cellOf b m page c).1 = page := by
  cases m with
  | jzMtd =>
    unfold cellOf
    dsimp only
    split
    · exact (pageOf_planePage hppb page).1
    · exact (pageOf_planePage hppb page).2
  | jzMtd1 => rfl

theorem pageData_congr (hppb : 0 < b.g.ppb)
    (h : ∀ row, pageOf b m row = page → cells' row = cells row) :
    pageData b m cells' page = pageData b m cells page := by
  refine List.map_congr_left fun c _ => ?_
  rw [h _ (pageOf_cellOf hppb page c)]

theorem length_pageData (page : Nat) :
    (pageData b m cells page).length = (b.geometry m).writesize := by
  rw [pageData, List.length_map, List.length_range]

theorem stored_add (offs len len' : Nat) :
    stored b m cells offs (len + len')
      = stored b m cells offs len ++ stored b m cells (offs + len) len' := by
  unfold stored
  simp only [List.range_add, List.map_append, List.map_map, Function.comp_def, Nat.add_assoc]

theorem stored_page {page col len : Nat} (hlen : col + len ≤ (b.geometry m).writesize) :
    stored b m cells (page * (b.geometry m).writesize + col) len
      = ((pageData b m cells page).drop col).take len := by
  refine List.ext_getElem? fun i => ?_
  by_cases hi : i < len
  · have hlt : col + i < (b.geometry m).writesize := by omega
    have hoffs : page * (b.geometry m).writesize + col + i
        = page * (b.geometry m).writesize + (col + i) := by omega
    rw [List.getElem?_take_of_lt hi, List.getElem?_drop]
    simp only [stored, pageData, List.getElem?_map, List.getElem?_range hi,
      List.getElem?_range hlt, Option.map_some, hoffs, page_div hlt, page_mod hlt]
  · rw [List.getElem?_eq_none (by rw [stored, List.length_map, List.length_range]; omega),
      List.getElem?_eq_none (by rw [List.length_take]; omega)]

/-! ### Reading a page -/

/-- The ECC unit finds nothing to correct. -/
def Silent (rs : RsUnit) : Prop := ∀ data code, (rs.decode data code).err = false

/-- Bytes of one row. -/
def rowBytes (cells : Nat → Nat → UInt8) (row column len : Nat) : List UInt8 :=
  (List.range len).map fun i => cells row (column + i)

theorem rowBytes_add (row column len len' : Nat) :
    rowBytes cells row column (len + len')
      = rowBytes cells row column len ++ rowBytes cells row (column + len) len' := by
  unfold rowBytes
  simp only [List.range_add, List.map_append, List.map_map, Function.comp_def, Nat.add_assoc]

theorem rsCorrectData_silent (hrs : Silent rs) (data code : List UInt8) :
    jzsocNandRsCorrectData rs data code = (data, 0) := by
  unfold jzsocNandRsCorrectData
  simp [hrs data code]

theorem readSteps_silent (hrs : Silent rs) (flag : Bool) :
    ∀ (steps : Nat) (chip : Chip) (code : List UInt8) (stats : EccStats),
      readSteps rs flag steps chip code stats
        = (rowBytes chip.cells chip.row chip.column (512 * steps),
            { chip with column := chip.column + 512 * steps }, stats) := by
  intro steps
  induction steps with
  | zero =>
    intro chip code stats
    rfl
  | succ steps ih =>
    intro chip code stats
    have hbuf : chip.readBuf 512 = (rowBytes chip.cells chip.row chip.column 512,
      { chip with column := chip.column + 512 }) := rfl
    have hsize : 512 * (steps + 1) = 512 + 512 * steps := by ring
    rw [readSteps, hbuf]
    simp only [rsCorrectData_silent hrs, lt_self_iff_false, if_false, Int.add_zero, ite_self, ih]
    rw [hsize, rowBytes_add, Nat.add_assoc]

theorem readPlane_silent (hrs : Silent rs) (g : Geometry) (eccpos : List Nat) (page off : Nat)
    (chip : Chip) (oobPoi : List UInt8) (stats : EccStats) :
    ∃ oobPoi' chip', chip'.cells = chip.cells ∧
      readPlane rs g eccpos page off chip oobPoi stats
        = (rowBytes chip.cells page 0 (512 * (g.eccSteps >>> 1)), oobPoi', chip', stats) := by
  unfold readPlane
  simp only [readSteps_silent hrs]
  refine ⟨_, _, ?_, rfl⟩
  rfl

theorem pageData_jzMtd {steps : Nat} (hsteps : b.g.writesize = 2 * (512 * steps)) (page : Nat) :
    pageData b .jzMtd cells page
      = rowBytes cells (planePage b.g.ppb page) 0 (512 * steps)
        ++ rowBytes cells (planePage b.g.ppb page + b.g.ppb) 0 (512 * steps) := by
  have hhalf : b.g.writesize / 2 = 512 * steps := by omega
  unfold pageData rowBytes
  rw [show (b.geometry .jzMtd).writesize = 512 * steps + 512 * steps by
    show b.g.writesize = _; omega, List.range_add, List.map_append, List.map_map]
  refine congrArg₂ (· ++ ·) ?_ ?_
  · refine List.map_congr_left fun c hc => ?_
    have hlt := List.mem_range.mp hc
    simp only [cellOf, hhalf, if_pos hlt, Nat.zero_add]
  · refine List.map_congr_left fun c _ => ?_
    have hnot : ¬ 512 * steps + c < 512 * steps := by omega
    simp only [Function.comp_apply, cellOf, hhalf, if_neg hnot, Nat.zero_add,
      Nat.add_sub_cancel_left]

/-- What a page read leaves as it was. -/
structure Untouched (s s' : MtdState) : Prop where
  cells : s'.chip.cells = s.chip.cells
  databuf : s'.databuf = s.databuf
  pagebuf : s'.pagebuf = s.pagebuf
  stats : s'.stats = s.stats

theorem setStats_self (s : MtdState) (m : Mtd) : (s.setStats m (s.stats m)).stats = s.stats := by
  funext j
  unfold MtdState.setStats
  dsimp only
  split
  · rename_i heq
    rw [heq]
  · rfl

/-- **Without errors a page read returns the bytes of the page.** -/
theorem readPage_silent (h : TwoPlane b.g w p n) (hrs : Silent b.rs) {mode : OobMode}
    (hmode : mode ≠ .raw) (page : Nat) (s : MtdState) :
    (readPage b m mode page s).1 = pageData b m s.chip.cells page ∧
      Untouched s (readPage b m mode page s).2 := by
  obtain ⟨u, rfl⟩ : ∃ u, w = u + 10 := ⟨w - 10, by have := h.page_bytes; omega⟩
  have hsize : b.g.writesize = 2 * (512 * 2 ^ u) := by
    rw [h.writesize, Nat.pow_add]
    ring
  unfold readPage
  rw [if_neg hmode]
  cases m with
  | jzMtd =>
    have hsteps : b.g.eccSteps >>> 1 = 2 ^ u := by
      rw [Geometry.eccSteps, hsize, Nat.shiftRight_one]
      omega
    obtain ⟨oob, chip, hcells, hfirst⟩ := readPlane_silent hrs b.g b.eccpos
      (planePage b.g.ppb page) 0 s.chip s.oobPoi (s.stats .jzMtd)
    obtain ⟨oob', chip', hcells', hsecond⟩ := readPlane_silent hrs b.g b.eccpos
      (planePage b.g.ppb page + b.g.ppb) (b.g.oobsize >>> 1) chip oob (s.stats .jzMtd)
    simp only [nandReadPageHweccRsPlanes, hfirst, hsecond]
    refine ⟨?_, hcells'.trans hcells, rfl, rfl, setStats_self s .jzMtd⟩
    rw [pageData_jzMtd hsize, hcells, hsteps]
  | jzMtd1 =>
    have hsteps : 512 * (onePlane b.g).eccSteps = (onePlane b.g).writesize := by
      have hone : (onePlane b.g).writesize = b.g.writesize >>> 1 := rfl
      rw [Geometry.eccSteps, hone, hsize, Nat.shiftRight_one]
      omega
    simp only [nandReadPageHweccRs, readSteps_silent hrs, hsteps]
    refine ⟨?_, rfl, rfl, rfl, setStats_self s .jzMtd1⟩
    refine List.map_congr_left fun c _ => ?_
    rw [show ((((s.chip.readoob (onePlane b.g) 0 page).readBuf
      (onePlane b.g).oobsize).2.rndout 0).column + c) = c from Nat.zero_add c]
    rfl

/-! ### Writing a page -/

/-- **A page write changes only the rows of its page.** -/
theorem writePage_other (hppb : 0 < b.g.ppb) (ops : OobOps) (buf : List UInt8) (s : MtdState)
    (hrow : pageOf b m row ≠ page) :
    (writePage b m ops page buf s).chip.cells row = s.chip.cells row := by
  cases m with
  | jzMtd =>
    obtain ⟨hfirst, hsecond⟩ := pageOf_planePage (b := b) hppb page
    have hne : row ≠ planePage b.g.ppb page := fun heq => hrow (heq ▸ hfirst)
    have hne' : row ≠ planePage b.g.ppb page + b.g.ppb := fun heq => hrow (heq ▸ hsecond)
    simp only [writePage, nandWritePage, nandWritePageHweccPlanes, writeSteps_eq, Chip.cmd80,
      Chip.cmd11, Chip.cmd81, Chip.writeBuf, Chip.pageprog, Option.map_some,
      Nat.add_sub_cancel]
    rw [Load.program_other hne', Load.program_other hne]
  | jzMtd1 =>
    have hne : row ≠ page := hrow
    simp only [writePage, Chip.cmd80, Chip.writeBuf, Option.map_some, pageprogSingle]
    rw [Load.program_other hne]

theorem writePage_buffers (ops : OobOps) (page : Nat) (buf : List UInt8) (s : MtdState) :
    (writePage b m ops page buf s).databuf = s.databuf ∧
      (writePage b m ops page buf s).pagebuf = s.pagebuf := by
  cases m with
  | jzMtd => exact ⟨rfl, rfl⟩
  | jzMtd1 => exact ⟨rfl, rfl⟩

/-! ### Erasing a block -/

theorem eraseBlock_other {ppb : Nat} (chip : Chip) (h : row / ppb ≠ page / ppb) :
    (eraseBlock ppb page chip).cells row = chip.cells row := by
  funext c
  show (if row / ppb = page / ppb then 0xff else chip.cells row c) = chip.cells row c
  rw [if_neg h]

theorem block_lt (h : TwoPlane b.g w p n)
    (hB : B * 2 ^ p * (b.geometry .jzMtd).writesize < b.g.chipsize) : B < 2 ^ n := by
  have hsize : B * 2 ^ p * 2 ^ w < 2 ^ n * (2 ^ p * 2 ^ w) := by
    calc B * 2 ^ p * 2 ^ w = B * 2 ^ p * (b.geometry .jzMtd).writesize := by
          rw [show (b.geometry .jzMtd).writesize = 2 ^ w from h.writesize]
      _ < 2 ^ (w + p + n) := h.chipsize ▸ hB
      _ = 2 ^ n * (2 ^ p * 2 ^ w) := by
          rw [Nat.pow_add, Nat.pow_add]
          ring
  rw [Nat.mul_assoc] at hsize
  exact Nat.lt_of_mul_lt_mul_right hsize

theorem onePlane_ppb (h : TwoPlane b.g w p n) : (onePlane b.g).ppb = 2 ^ p := by
  have hw := h.page_bytes.1
  obtain ⟨u, rfl⟩ : ∃ u, w = u + 1 := ⟨w - 1, by omega⟩
  show b.g.erasesize >>> 1 / b.g.writesize >>> 1 = 2 ^ p
  rw [h.erasesize, h.writesize, Nat.shiftRight_one, Nat.shiftRight_one,
    show u + 1 + p = u + p + 1 by omega, Nat.pow_succ, Nat.mul_div_cancel _ (by decide),
    Nat.pow_succ, Nat.mul_div_cancel _ (by decide), Nat.pow_add,
    Nat.mul_div_cancel_left _ (Nat.two_pow_pos u)]

/-- **Erasing changes only the rows of its block.** -/
theorem eraseCmd_other (h : TwoPlane b.g w p n) (chip : Chip)
    (hB : B * 2 ^ p * (b.geometry m).writesize < b.g.chipsize) (hrow : pageOf b m row / 2 ^ p ≠ B) :
    (eraseCmd b m (B * 2 ^ p) chip).cells row = chip.cells row := by
  have hpos : 0 < 2 ^ p := Nat.two_pow_pos p
  cases m with
  | jzMtd =>
    have hblock := block_lt h hB
    -- the two physical blocks are `2 * B` and `2 * B + 1`
    have hsecond := @singleEraseCmdPlanes_block b.g w p n h B 0 (by rw [h.ppb]; exact hpos) hblock
    have hdiv : pageOf b .jzMtd row / 2 ^ p = row / 2 ^ p / 2 := by
      simp only [pageOf, h.ppb]
      exact page_div (Nat.mod_lt row hpos) _
    rw [hdiv] at hrow
    rw [Nat.add_zero, h.ppb] at hsecond
    have hfirst : (2 * B + 1) * 2 ^ p - 2 ^ p = 2 * B * 2 ^ p := by
      rw [Nat.succ_mul, Nat.add_sub_cancel]
    simp only [eraseCmd, hsecond, h.ppb, hfirst]
    rw [eraseBlock_other _ (by rw [Nat.mul_div_cancel _ hpos]; omega),
      eraseBlock_other _ (by rw [Nat.mul_div_cancel _ hpos]; omega)]
  | jzMtd1 =>
    have hne : row / 2 ^ p ≠ B := hrow
    simp only [eraseCmd, onePlane_ppb h]
    exact eraseBlock_other _ (by rw [Nat.mul_div_cancel _ hpos]; exact hne)

end Dingoo.Nand.Cache
