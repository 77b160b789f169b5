/-
Writing a logical page in two-plane mode and reading it back.

Each routine is reduced to what it leaves on the chip or takes from it: a physical page
holds its data followed by its spare area (`Holds`).  `nandWritePage_holds` says which
bytes those are, `readPlane_eq` that a page whose spare area carries the parity of its
data is read back unchanged, whether or not the ECC unit is consulted.

The data comes back as written.  The spare areas do not: `nand_write_page_hwecc_planes`
streams the start of `oob_poi` into both pages, while both read routines put the second
spare area behind the first.  The second half the caller passed is never written.
-/
import Mathlib.Tactic.Linarith
import Dingoo.Proofs.NandBlockBad

namespace Dingoo.Nand

/-! ### What a page holds -/

/-- The page starts with these bytes. -/
def Holds (cells : Nat → Nat → UInt8) (page : Nat) (bytes : List UInt8) : Prop :=
  ∀ c b, bytes[c]? = some b → cells page c = b

/-- Every cell of the page reads 0xff. -/
def Erased (cells : Nat → Nat → UInt8) (page : Nat) : Prop := ∀ c, cells page c = 0xff

theorem Load.program_other {l : Load} {page page' : Nat} {cells : Nat → Nat → UInt8}
    (h : page' ≠ page) : l.program page cells page' = cells page' := by
  funext c
  simp [Load.program, h]

theorem Load.program_erased {page addr column : Nat} {bytes : List UInt8}
    {cells : Nat → Nat → UInt8} (h : Erased cells page) :
    Holds (Load.program ⟨column, addr, bytes⟩ page cells) page
      (List.replicate column 0xff ++ bytes) := by
  intro c b hb
  by_cases hc : column ≤ c
  · rw [List.getElem?_append_right (by simpa using hc), List.length_replicate] at hb
    simp only [Load.program, hc, and_self, if_true, hb, h c]
    exact UInt8.neg_one_and
  · rw [List.getElem?_append_left (by simpa using hc), List.getElem?_replicate,
      if_pos (by omega)] at hb
    simp only [Load.program, hc, and_false, if_false, h c]
    exact Option.some.inj hb

theorem program_pair {page ppb addr addr' column : Nat} {bytes bytes' : List UInt8}
    {cells : Nat → Nat → UInt8} (hppb : 0 < ppb) (hfirst : Erased cells page)
    (hsecond : Erased cells (page + ppb)) :
    Holds (Load.program ⟨column, addr', bytes'⟩ (page + ppb)
      (Load.program ⟨column, addr, bytes⟩ page cells)) page
      (List.replicate column 0xff ++ bytes) ∧
    Holds (Load.program ⟨column, addr', bytes'⟩ (page + ppb)
      (Load.program ⟨column, addr, bytes⟩ page cells)) (page + ppb)
      (List.replicate column 0xff ++ bytes') := by
  have hne : page ≠ page + ppb := by omega
  constructor
  · intro c b hb
    rw [Load.program_other hne]
    exact Load.program_erased hfirst c b hb
  · refine Load.program_erased ?_
    intro c
    rw [Load.program_other hne.symm]
    exact hsecond c

theorem readBuf_holds {chip : Chip} {bytes : List UInt8} (h : Holds chip.cells chip.row bytes)
    {len : Nat} (hlen : chip.column + len ≤ bytes.length) :
    chip.readBuf len
      = ((bytes.drop chip.column).take len, { chip with column := chip.column + len }) := by
  refine Prod.ext (List.ext_getElem? fun i => ?_) rfl
  simp only [Chip.readBuf, List.getElem?_map, List.getElem?_take, List.getElem?_drop]
  by_cases hi : i < len
  · obtain ⟨b, hb⟩ : ∃ b, bytes[chip.column + i]? = some b :=
      ⟨_, List.getElem?_eq_getElem (by omega)⟩
    rw [if_pos hi, hb, List.getElem?_range hi, Option.map_some, h _ _ hb]
  · rw [if_neg hi, List.getElem?_eq_none (by simpa using hi), Option.map_none]

/-! ### The buffers -/

theorem overwrite_start {oob bytes : List UInt8} :
    overwrite oob 0 bytes = bytes ++ oob.drop bytes.length := by
  simp [overwrite]

theorem overwrite_behind {first bytes : List UInt8} {rest : List UInt8} :
    overwrite (first ++ rest) first.length bytes
      = first ++ bytes ++ rest.drop bytes.length := by
  simp [overwrite, List.drop_append]

theorem setEcc_length : ∀ (pos : List Nat) (ecc oob : List UInt8),
    (setEcc pos ecc oob).length = oob.length := by
  intro pos
  induction pos with
  | nil => intro ecc oob; simp [setEcc]
  | cons q pos ih =>
    intro ecc oob
    cases ecc with
    | nil => simp [setEcc]
    | cons b ecc => rw [setEcc, ih, List.length_set]

theorem setEcc_getElem?_of_notMem {j : Nat} : ∀ (pos : List Nat) (ecc oob : List UInt8),
    j ∉ pos → (setEcc pos ecc oob)[j]? = oob[j]? := by
  intro pos
  induction pos with
  | nil => intro ecc oob _; simp [setEcc]
  | cons q pos ih =>
    intro ecc oob hj
    rw [List.mem_cons, not_or] at hj
    cases ecc with
    | nil => simp [setEcc]
    | cons b ecc => rw [setEcc, ih _ _ hj.2, List.getElem?_set_ne (Ne.symm hj.1)]

theorem setEcc_getElem? : ∀ (pos : List Nat) (ecc oob : List UInt8), pos.Nodup →
    pos.length = ecc.length → (∀ q ∈ pos, q < oob.length) →
    pos.map (fun q => (setEcc pos ecc oob)[q]?) = ecc.map some := by
  intro pos
  induction pos with
  | nil =>
    intro ecc oob _ hlen _
    rw [List.length_nil] at hlen
    rw [List.eq_nil_of_length_eq_zero hlen.symm]
    rfl
  | cons q pos ih =>
    intro ecc oob hnodup hlen hbound
    obtain ⟨hq, hpos⟩ := List.nodup_cons.mp hnodup
    cases ecc with
    | nil => simp at hlen
    | cons b ecc =>
      have hlt : q < oob.length := hbound q (by simp)
      have hrest : ∀ r ∈ pos, r < (oob.set q b).length := by
        intro r hr
        rw [List.length_set]
        exact hbound r (by simp [hr])
      rw [List.map_cons, List.map_cons, setEcc, ih ecc _ hpos (by simpa using hlen) hrest,
        setEcc_getElem?_of_notMem _ _ _ hq, List.getElem?_set_self hlt]

/-! ### Writing -/

/-- The parity bytes of `n` blocks. -/
def parity (rs : RsUnit) : Nat → List UInt8 → List UInt8
  | 0, _ => []
  | n + 1, p => rs.encode (p.take 512) ++ parity rs n (p.drop 512)

theorem parity_length (rs : RsUnit) : ∀ (n : Nat) (p : List UInt8),
    (parity rs n p).length = n * 9 := by
  intro n
  induction n with
  | zero => intro p; rfl
  | succ n ih =>
    intro p
    rw [parity, List.length_append, rs.encode_length, ih]
    omega

theorem parity_take (rs : RsUnit) : ∀ (n : Nat) (p : List UInt8),
    parity rs n (p.take (512 * n)) = parity rs n p := by
  intro n
  induction n with
  | zero => intro p; rfl
  | succ n ih =>
    intro p
    rw [parity, parity, List.take_take, List.drop_take, ← ih (p.drop 512),
      show min 512 (512 * (n + 1)) = 512 by omega,
      show 512 * (n + 1) - 512 = 512 * n by omega]

theorem writeBuf_nil (chip : Chip) : chip.writeBuf [] = chip := by
  rcases chip with ⟨cells, _ | ⟨c, p, b⟩, _ | ⟨c', p', b'⟩, row, column⟩ <;> simp [Chip.writeBuf]

theorem writeBuf_append (chip : Chip) (a b : List UInt8) :
    (chip.writeBuf a).writeBuf b = chip.writeBuf (a ++ b) := by
  rcases chip with ⟨cells, _ | ⟨c, p, x⟩, _ | ⟨c', p', x'⟩, row, column⟩ <;> simp [Chip.writeBuf]

theorem writeSteps_eq (rs : RsUnit) : ∀ (n : Nat) (chip : Chip) (p : List UInt8),
    writeSteps rs n chip p
      = (chip.writeBuf (p.take (512 * n)), p.drop (512 * n), parity rs n p) := by
  intro n
  induction n with
  | zero => intro chip p; simp [writeSteps, parity, writeBuf_nil]
  | succ n ih =>
    intro chip p
    have hsplit : p.take 512 ++ (p.drop 512).take (512 * n) = p.take (512 * (n + 1)) := by
      rw [← List.take_add, show 512 * (n + 1) = 512 + 512 * n by ring]
    rw [writeSteps]
    simp only [ih, writeBuf_append, hsplit, List.drop_drop, parity]
    rw [show 512 + 512 * n = 512 * (n + 1) by ring]

/-- A geometry in two-plane mode with `steps` ECC blocks and `oobsize` spare bytes in each
physical page. -/
structure PlaneSizes (g : Geometry) (steps oobsize : Nat) : Prop where
  planenum : g.planenum = 2
  writesize : g.writesize = 2 * (512 * steps)
  oobsize_eq : g.oobsize = 2 * oobsize
  ppb_pos : 0 < g.ppb

section

variable {g : Geometry} {steps oobsize : Nat}

theorem PlaneSizes.eccSteps (h : PlaneSizes g steps oobsize) : g.eccSteps >>> 1 = steps := by
  rw [Geometry.eccSteps, h.writesize, Nat.shiftRight_one]
  omega

theorem PlaneSizes.eccTotal (h : PlaneSizes g steps oobsize) : g.eccTotal >>> 1 = steps * 9 := by
  rw [Geometry.eccTotal, Geometry.eccSteps, h.writesize, Nat.shiftRight_one]
  omega

theorem PlaneSizes.oob (h : PlaneSizes g steps oobsize) : g.oobsize >>> 1 = oobsize := by
  rw [h.oobsize_eq, Nat.shiftRight_one]
  omega

/-- The spare area written to the first page, and the one written to the second. -/
def firstSpare (rs : RsUnit) (lay : Layout steps oobsize) (buf oob : List UInt8) : List UInt8 :=
  setEcc lay.eccpos (parity rs steps buf) oob

def secondSpare (rs : RsUnit) (lay : Layout steps oobsize) (buf oob : List UInt8) : List UInt8 :=
  setEcc lay.eccpos (parity rs steps (buf.drop (512 * steps))) (firstSpare rs lay buf oob)

/-- **What a page write leaves on an erased pair of pages.** -/
theorem nandWritePage_holds (rs : RsUnit) (hg : PlaneSizes g steps oobsize)
    (lay : Layout steps oobsize) {chip : Chip} {page : Nat}
    (hfirst : Erased chip.cells (planePage g.ppb page))
    (hsecond : Erased chip.cells (planePage g.ppb page + g.ppb)) (buf oob : List UInt8) :
    Holds (nandWritePage rs g lay.eccpos chip page buf oob).1.cells (planePage g.ppb page)
      (buf.take (512 * steps) ++ (firstSpare rs lay buf oob).take oobsize) ∧
    Holds (nandWritePage rs g lay.eccpos chip page buf oob).1.cells
      (planePage g.ppb page + g.ppb)
      ((buf.drop (512 * steps)).take (512 * steps)
        ++ (secondSpare rs lay buf oob).take oobsize) := by
  have hppb := hg.ppb_pos
  have heccpos : lay.eccpos.take (g.eccTotal >>> 1) = lay.eccpos := by
    rw [hg.eccTotal, ← lay.length_eccpos, List.take_length]
  -- the cells: the second register over the first
  have hcells : (nandWritePage rs g lay.eccpos chip page buf oob).1.cells
      = Load.program ⟨0, planePage g.ppb page + g.ppb,
          (buf.drop (512 * steps)).take (512 * steps) ++ (secondSpare rs lay buf oob).take oobsize⟩
          (planePage g.ppb page + g.ppb)
        (Load.program ⟨0, firstPlaneAddress g (planePage g.ppb page),
            buf.take (512 * steps) ++ (firstSpare rs lay buf oob).take oobsize⟩
          (planePage g.ppb page) chip.cells) := by
    simp only [nandWritePage, nandWritePageHweccPlanes, writeSteps_eq, heccpos, hg.eccSteps,
      hg.oob, Chip.cmd80, Chip.cmd11, Chip.cmd81, Chip.writeBuf, Chip.pageprog, Option.map_some,
      List.nil_append, Nat.add_sub_cancel]
    rfl
  rw [hcells]
  exact program_pair hppb hfirst hsecond

/-! ### Reading -/

theorem rsCorrectData_own (rs : RsUnit) (data : List UInt8) :
    jzsocNandRsCorrectData rs data (rs.encode data) = (data, 0) := by
  unfold jzsocNandRsCorrectData
  simp [rs.decode_encode]

theorem readSteps_eq (rs : RsUnit) (flag : Bool) {bytes : List UInt8} : ∀ (n : Nat) (chip : Chip)
    (stats : EccStats), Holds chip.cells chip.row bytes →
    chip.column + 512 * n ≤ bytes.length →
    readSteps rs flag n chip (parity rs n (bytes.drop chip.column)) stats
      = ((bytes.drop chip.column).take (512 * n),
          { chip with column := chip.column + 512 * n }, stats) := by
  intro n
  induction n with
  | zero => intro chip stats _ _; simp [readSteps]
  | succ n ih =>
    intro chip stats hholds hlen
    have hbuf := @readBuf_holds chip bytes hholds 512 (by linarith)
    have hecc : parity rs (n + 1) (bytes.drop chip.column)
        = rs.encode ((bytes.drop chip.column).take 512)
          ++ parity rs n (bytes.drop (chip.column + 512)) := by
      rw [parity, List.drop_drop]
    have hlength := rs.encode_length ((bytes.drop chip.column).take 512)
    have hrest := ih { chip with column := chip.column + 512 } stats hholds
      (by show chip.column + 512 + 512 * n ≤ _; omega)
    have hsplit : (bytes.drop chip.column).take 512
        ++ (bytes.drop (chip.column + 512)).take (512 * n)
        = (bytes.drop chip.column).take (512 * (n + 1)) := by
      rw [← List.drop_drop, ← List.take_add, show 512 * (n + 1) = 512 + 512 * n by ring]
    rw [readSteps, hbuf, hecc]
    simp only [List.take_left' hlength, List.drop_left' hlength, rsCorrectData_own,
      lt_self_iff_false, if_false, Int.add_zero, ite_self, hrest, hsplit]
    rw [show chip.column + 512 + 512 * n = chip.column + 512 * (n + 1) by ring]

theorem readSpare_eq (hg : PlaneSizes g steps oobsize) (chip : Chip) {page : Nat}
    {data spare : List UInt8} (hholds : Holds chip.cells page (data ++ spare))
    (hdata : data.length = 512 * steps) (hspare : spare.length = oobsize) :
    (chip.readoob g 0 page).readBuf oobsize
      = (spare, { chip with row := page, column := 512 * steps + oobsize }) := by
  have hcol : (0 + if g.planenum > 1 then g.writesize / g.planenum else g.writesize)
      = 512 * steps := by
    rw [hg.planenum, if_pos (by decide), hg.writesize]
    omega
  have hbuf := @readBuf_holds (chip.readoob g 0 page) _ hholds oobsize
    (by simp only [Chip.readoob, hcol, List.length_append]; omega)
  simp only [Chip.readoob, hcol] at hbuf ⊢
  rw [hbuf, List.drop_left' hdata, List.take_of_length_le (by omega)]

/-- **A page whose spare area carries the parity of its data is read back as it is.** -/
theorem readPlane_eq (rs : RsUnit) (hg : PlaneSizes g steps oobsize) (lay : Layout steps oobsize)
    (chip : Chip) {page : Nat} {data spare : List UInt8} (before after : List UInt8)
    (stats : EccStats) (hholds : Holds chip.cells page (data ++ spare))
    (hdata : data.length = 512 * steps) (hspare : spare.length = oobsize)
    (hecc : lay.eccpos.map (fun q => spare[q]?) = (parity rs steps data).map some) :
    readPlane rs g lay.eccpos page before.length chip (before ++ after) stats
      = (data, before ++ spare ++ after.drop oobsize,
          { chip with row := page, column := 512 * steps }, stats) := by
  have hoob : overwrite (before ++ after) before.length spare
      = before ++ spare ++ after.drop oobsize := by
    rw [overwrite_behind, hspare]
  have hcode : (lay.eccpos.map fun pos =>
      (before ++ spare ++ after.drop oobsize).getD (before.length + pos) 0)
      = parity rs steps data := by
    have hsome : (lay.eccpos.map fun pos =>
        (before ++ spare ++ after.drop oobsize).getD (before.length + pos) 0).map some
        = (parity rs steps data).map some := by
      rw [← hecc, List.map_map]
      refine List.map_congr_left fun pos hpos => ?_
      have hlt : pos < spare.length := by
        rw [hspare]
        exact lay.bound pos hpos
      simp [List.getD_eq_getElem?_getD, List.append_assoc, List.getElem?_append_right,
        List.getElem?_append_left, hlt]
    exact List.map_injective_iff.mpr (Option.some_injective _) hsome
  have hpar : parity rs steps (data ++ spare) = parity rs steps data := by
    rw [← parity_take, List.take_left' hdata]
  have hsteps := @readSteps_eq rs
    ((parity rs steps data).any (· ≠ 0xff)) (data ++ spare) steps
    { chip with row := page, column := 0 } stats hholds
    (by simp only [List.length_append]; omega)
  simp only [List.drop_zero, Nat.zero_add, List.take_left' hdata, hpar] at hsteps
  unfold readPlane
  simp only [hg.eccSteps, hg.eccTotal, hg.oob, readSpare_eq hg chip hholds hdata hspare, hoob,
    ← lay.length_eccpos, List.take_length, hcode, Chip.rndout, hsteps]

theorem nandReadOob_eq (hg : PlaneSizes g steps oobsize) {chip : Chip} {page : Nat}
    {data₁ data₂ spare₁ spare₂ oob : List UInt8}
    (hfirst : Holds chip.cells (planePage g.ppb page) (data₁ ++ spare₁))
    (hsecond : Holds chip.cells (planePage g.ppb page + g.ppb) (data₂ ++ spare₂))
    (hdata₁ : data₁.length = 512 * steps) (hdata₂ : data₂.length = 512 * steps)
    (hspare₁ : spare₁.length = oobsize) (hspare₂ : spare₂.length = oobsize)
    (hoob : oob.length = 2 * oobsize) :
    (nandReadOobStdPlanes g chip page true oob).1 = spare₁ ++ spare₂ := by
  unfold nandReadOobStdPlanes
  simp only [if_true, hg.oob, readSpare_eq hg chip hfirst hdata₁ hspare₁]
  rw [readSpare_eq hg { chip with row := planePage g.ppb page, column := 512 * steps + oobsize }
    hsecond hdata₂ hspare₂, overwrite_start]
  have hsplit := @overwrite_behind spare₁ spare₂ (oob.drop spare₁.length)
  rw [hspare₁] at hsplit ⊢
  rw [hsplit, List.drop_drop, List.drop_of_length_le (by omega), List.append_nil]

/-! ### Writing, then reading -/

theorem setEcc_spare {lay : Layout steps oobsize} {ecc oob : List UInt8}
    (hecc : ecc.length = steps * 9) (hoob : oobsize ≤ oob.length) :
    lay.eccpos.map (fun q => ((setEcc lay.eccpos ecc oob).take oobsize)[q]?) = ecc.map some := by
  rw [← setEcc_getElem? lay.eccpos ecc oob lay.nodup (lay.length_eccpos.trans hecc.symm)
    (fun q hq => Nat.lt_of_lt_of_le (lay.bound q hq) hoob)]
  exact List.map_congr_left fun q hq => List.getElem?_take_of_lt (lay.bound q hq)

/-- **What comes back**: the data, and the two spare areas that were written. -/
theorem nandReadPage_written (rs : RsUnit) (hg : PlaneSizes g steps oobsize)
    (lay : Layout steps oobsize) {chip : Chip} {page : Nat}
    (hfirst : Erased chip.cells (planePage g.ppb page))
    (hsecond : Erased chip.cells (planePage g.ppb page + g.ppb)) {buf oob stale : List UInt8}
    (hbuf : buf.length = g.writesize) (hoob : oob.length = g.oobsize)
    (hstale : stale.length = g.oobsize) (stats : EccStats) :
    (nandReadPageHweccRsPlanes rs g lay.eccpos
        (nandWritePage rs g lay.eccpos chip page buf oob).1 page stale stats).1 = buf ∧
    (nandReadPageHweccRsPlanes rs g lay.eccpos
        (nandWritePage rs g lay.eccpos chip page buf oob).1 page stale stats).2.1
      = (firstSpare rs lay buf oob).take oobsize ++ (secondSpare rs lay buf oob).take oobsize ∧
    (nandReadPageHweccRsPlanes rs g lay.eccpos
        (nandWritePage rs g lay.eccpos chip page buf oob).1 page stale stats).2.2.2 = stats ∧
    (nandReadOobStdPlanes g (nandWritePage rs g lay.eccpos chip page buf oob).1 page true stale).1
      = (firstSpare rs lay buf oob).take oobsize ++ (secondSpare rs lay buf oob).take oobsize := by
  obtain ⟨hhold₁, hhold₂⟩ := nandWritePage_holds rs hg lay hfirst hsecond buf oob
  generalize (nandWritePage rs g lay.eccpos chip page buf oob).1 = written at *
  rw [hg.writesize] at hbuf
  rw [hg.oobsize_eq] at hoob hstale
  have hdata₁ : (buf.take (512 * steps)).length = 512 * steps := by
    rw [List.length_take]
    omega
  have hdata₂ : ((buf.drop (512 * steps)).take (512 * steps)).length = 512 * steps := by
    rw [List.length_take, List.length_drop]
    omega
  have hlen₁ : (firstSpare rs lay buf oob).length = 2 * oobsize := by
    rw [firstSpare, setEcc_length, hoob]
  have hspare₁ : ((firstSpare rs lay buf oob).take oobsize).length = oobsize := by
    rw [List.length_take]
    omega
  have hspare₂ : ((secondSpare rs lay buf oob).take oobsize).length = oobsize := by
    rw [List.length_take, secondSpare, setEcc_length]
    omega
  have hecc₁ : lay.eccpos.map (fun q => ((firstSpare rs lay buf oob).take oobsize)[q]?)
      = (parity rs steps (buf.take (512 * steps))).map some := by
    rw [parity_take]
    exact setEcc_spare (parity_length rs _ _) (by omega)
  have hecc₂ : lay.eccpos.map (fun q => ((secondSpare rs lay buf oob).take oobsize)[q]?)
      = (parity rs steps ((buf.drop (512 * steps)).take (512 * steps))).map some := by
    rw [parity_take]
    exact setEcc_spare (parity_length rs _ _) (by omega)
  have hread₁ := readPlane_eq rs hg lay written [] stale stats hhold₁ hdata₁ hspare₁ hecc₁
  simp only [List.nil_append, List.length_nil] at hread₁
  have hread₂ := readPlane_eq rs hg lay
    { written with row := planePage g.ppb page, column := 512 * steps }
    ((firstSpare rs lay buf oob).take oobsize) (stale.drop oobsize) stats hhold₂ hdata₂ hspare₂
    hecc₂
  have hdone : (stale.drop oobsize).drop oobsize = [] := by
    rw [List.drop_drop, List.drop_of_length_le (by omega)]
  rw [hspare₁, hdone, List.append_nil] at hread₂
  have hdata : buf.take (512 * steps) ++ (buf.drop (512 * steps)).take (512 * steps) = buf := by
    rw [← List.take_add, List.take_of_length_le (by omega)]
  refine ⟨?_, ?_, ?_, nandReadOob_eq hg hhold₁ hhold₂ hdata₁ hdata₂ hspare₁ hspare₂ hstale⟩
  all_goals simp only [nandReadPageHweccRsPlanes, hread₁, hg.oob, hread₂, hdata]

/-- Writing a page and reading it back gives the data, and for each of the two physical pages
the bytes of its half of the caller's spare area outside the ECC positions, through the page
read and through the spare area read. -/
def RoundTrip (rs : RsUnit) (g : Geometry) (lay : Layout steps oobsize) (chip : Chip) (page : Nat)
    (buf oob stale : List UInt8) (stats : EccStats) : Prop :=
  let written := (nandWritePage rs g lay.eccpos chip page buf oob).1
  let read := nandReadPageHweccRsPlanes rs g lay.eccpos written page stale stats
  let oobRead := nandReadOobStdPlanes g written page true stale
  read.1 = buf ∧ ∀ j < oobsize, j ∉ lay.eccpos → ∀ spare ∈ [read.2.1, oobRead.1],
    spare[j]? = oob[j]? ∧ spare[oobsize + j]? = oob[oobsize + j]?

theorem spares_getElem? (rs : RsUnit) {lay : Layout steps oobsize} (buf : List UInt8)
    {oob : List UInt8} (hoob : oob.length = 2 * oobsize) {j : Nat} (hj : j < oobsize)
    (hecc : j ∉ lay.eccpos) :
    ((firstSpare rs lay buf oob).take oobsize ++ (secondSpare rs lay buf oob).take oobsize)[j]?
      = oob[j]? ∧
    ((firstSpare rs lay buf oob).take oobsize
      ++ (secondSpare rs lay buf oob).take oobsize)[oobsize + j]? = oob[j]? := by
  have hlen : ((firstSpare rs lay buf oob).take oobsize).length = oobsize := by
    rw [List.length_take, firstSpare, setEcc_length]
    omega
  have hfirst : (firstSpare rs lay buf oob)[j]? = oob[j]? :=
    setEcc_getElem?_of_notMem _ _ _ hecc
  have hsecond : (secondSpare rs lay buf oob)[j]? = oob[j]? :=
    (setEcc_getElem?_of_notMem _ _ _ hecc).trans hfirst
  constructor
  · rw [List.getElem?_append_left (by omega), List.getElem?_take_of_lt hj, hfirst]
  · rw [List.getElem?_append_right (by omega), hlen, Nat.add_sub_cancel_left,
      List.getElem?_take_of_lt hj, hsecond]

/-! ### A chip to run on -/

/-- An ECC unit with constant parity. -/
def flatRs : RsUnit where
  encode := fun _ => List.replicate 9 0
  decode := fun _ _ => ⟨false, false, 0, fun _ => (0, 0)⟩
  encode_length := fun _ => rfl
  decode_encode := fun _ => rfl

def blankChip : Chip := { cells := fun _ _ => 0xff }

theorem chip1G_planes : PlaneSizes chip1G 4 64 := ⟨rfl, rfl, rfl, by decide⟩

/-- Spare byte 2 of the second page, which is free for the caller, comes back as that of the
first page. -/
theorem nandWritePage_second_spare :
    2 ∉ nandOob64.eccpos ∧
    (List.replicate 64 0xff ++ List.replicate 64 0x55 : List UInt8)[64 + 2]? = some 0x55 ∧
    (nandReadOobStdPlanes chip1G (nandWritePage flatRs chip1G nandOob64.eccpos blankChip 0
      (List.replicate 4096 0) (List.replicate 64 0xff ++ List.replicate 64 0x55)).1 0 true
      (List.replicate 128 0)).1[64 + 2]? = some 0xff := by
  have hoob : (List.replicate 64 0xff ++ List.replicate 64 0x55 : List UInt8).length = 2 * 64 := by
    simp
  have hread := (nandReadPage_written flatRs chip1G_planes nandOob64
    (fun _ => rfl : Erased blankChip.cells (planePage chip1G.ppb 0)) (fun _ => rfl)
    (List.length_replicate : (List.replicate 4096 (0 : UInt8)).length = 4096) hoob
    (List.length_replicate : (List.replicate 128 (0 : UInt8)).length = 128) ⟨0, 0⟩).2.2.2
  have hbyte := (@spares_getElem? 4 64 flatRs nandOob64 (List.replicate 4096 0) _ hoob 2 (by decide)
    (by decide)).2
  rw [hread, hbyte]
  decide

/-- **A page written in two-plane mode comes back exactly when the two halves of the caller's
spare area agree outside the ECC positions.** -/
theorem twoPlane_roundTrip_iff (rs : RsUnit) (hg : PlaneSizes g steps oobsize)
    (lay : Layout steps oobsize) (chip : Chip) (page : Nat)
    (hfirst : Erased chip.cells (planePage g.ppb page))
    (hsecond : Erased chip.cells (planePage g.ppb page + g.ppb)) (buf oob stale : List UInt8)
    (hbuf : buf.length = g.writesize) (hoob : oob.length = g.oobsize)
    (hstale : stale.length = g.oobsize) (stats : EccStats) :
    RoundTrip rs g lay chip page buf oob stale stats ↔
      ∀ j < oobsize, j ∉ lay.eccpos → oob[oobsize + j]? = oob[j]? := by
  obtain ⟨hdata, hspare, -, hoobRead⟩ :=
    nandReadPage_written rs hg lay hfirst hsecond hbuf hoob hstale stats
  have hlen : oob.length = 2 * oobsize := hoob.trans hg.oobsize_eq
  simp only [RoundTrip, hdata, hspare, hoobRead, true_and, List.mem_cons, List.not_mem_nil,
    or_false, or_self, forall_eq]
  constructor
  · intro h j hj hecc
    rw [← (h j hj hecc).2, (spares_getElem? rs buf hlen hj hecc).2]
  · intro h j hj hecc
    obtain ⟨h1, h2⟩ := spares_getElem? rs buf hlen hj hecc
    exact ⟨h1, h2.trans (h j hj hecc).symm⟩

/-- Bytes of the caller's, the same in both halves. -/
def markedSpare : List UInt8 :=
  [0xff, 0xff, 0x19, 0x85, 0x20, 0x03] ++ List.replicate 58 0xff

theorem twoPlane_roundTrip_marked :
    RoundTrip flatRs chip1G nandOob64 blankChip 5 (List.replicate 4096 0x3c)
      (markedSpare ++ markedSpare) (List.replicate 128 0) ⟨0, 0⟩ :=
  (twoPlane_roundTrip_iff flatRs chip1G_planes nandOob64 blankChip 5 (fun _ => rfl) (fun _ => rfl)
    _ _ _ List.length_replicate rfl List.length_replicate _).mpr (by decide)

/-- **The spare area routines keep both halves**: what `nand_write_oob_std_planes` writes on an
erased pair of pages is what `nand_read_oob_std_planes` returns. -/
theorem nandWriteOob_readOob (hg : PlaneSizes g steps oobsize) (chip : Chip) (page : Nat)
    (hfirst : Erased chip.cells (planePage g.ppb page))
    (hsecond : Erased chip.cells (planePage g.ppb page + g.ppb)) {oob stale : List UInt8}
    (hoob : oob.length = g.oobsize) (hstale : stale.length = g.oobsize) :
    (nandReadOobStdPlanes g (nandWriteOobStdPlanes g chip page oob) page true stale).1 = oob := by
  rw [hg.oobsize_eq] at hoob hstale
  have hpage : g.writesize >>> 1 = 512 * steps := by
    rw [hg.writesize, Nat.shiftRight_one]
    omega
  have hcells : (nandWriteOobStdPlanes g chip page oob).cells
      = Load.program ⟨512 * steps, planePage g.ppb page + g.ppb, (oob.drop oobsize).take oobsize⟩
          (planePage g.ppb page + g.ppb)
        (Load.program ⟨512 * steps, firstPlaneAddress g (planePage g.ppb page), oob.take oobsize⟩
          (planePage g.ppb page) chip.cells) := by
    simp only [nandWriteOobStdPlanes, hpage, hg.oob, Chip.cmd80, Chip.cmd11, Chip.cmd81,
      Chip.writeBuf, Chip.pageprog, Option.map_some, List.nil_append, Nat.add_sub_cancel]
  obtain ⟨hhold₁, hhold₂⟩ := hcells ▸ program_pair hg.ppb_pos hfirst hsecond
  rw [nandReadOob_eq hg hhold₁ hhold₂ List.length_replicate List.length_replicate
    (by rw [List.length_take]; omega) (by rw [List.length_take, List.length_drop]; omega) hstale,
    ← List.take_add, List.take_of_length_le (by omega)]

end

theorem nandWriteOob_readOob_blank :
    PlaneSizes chip1G 4 64 ∧
    (nandReadOobStdPlanes chip1G (nandWriteOobStdPlanes chip1G blankChip 0
      (List.replicate 128 0x55)) 0 true (List.replicate 128 0)).1 = List.replicate 128 0x55 :=
  ⟨chip1G_planes, nandWriteOob_readOob chip1G_planes blankChip 0 (fun _ => rfl) (fun _ => rfl)
    List.length_replicate List.length_replicate⟩

end Dingoo.Nand
