/-
Which page the bytes returned by `nand_do_read_ops` were read from.

A page read through the ECC routine is addressed by the routine itself, with the number
that went through the buffer (`loadPage_storePage`).  A raw page read is not: it starts
where the last reader of the chip stopped, which is never the start of a page, as every
page-read command is followed by a read (`Inv.behind`).  So the turns that go wrong are
the raw ones that reach the chip, and those that find the page of such a turn in
`databuf`.

What one turn does is said once (`Spec`); turns and calls are put together by
`Spec.append`.
-/
import Dingoo.Linux.NandRead
import Dingoo.Proofs.NandCache
import Dingoo.Proofs.RsCorrect

namespace Dingoo.Nand.Read

open Dingoo.Lib Dingoo.Nand.Cache

variable {ops : OobOps} {page realpage bytes col : Nat} {origin : Origin} {p : List UInt8}

/-! ### The number of the page -/

theorem loadPage_storePage (hpage : page < 2 ^ 32) (buf : List UInt8) :
    loadPage (storePage page buf) = page := by
  have hload : loadPage (storePage page buf)
      = ((page >>> 24 % 256) <<< 24 + (page >>> 16 % 256) <<< 16 + (page >>> 8 % 256) <<< 8
        + page % 256) % 2 ^ 32 := rfl
  rw [hload]
  simp only [Nat.shiftLeft_eq, Nat.shiftRight_eq_div_pow]
  omega

/-! ### The blocks of a page -/

theorem jzsocNandRsCorrectData_length (rs : RsUnit) (dat code : List UInt8) :
    (jzsocNandRsCorrectData rs dat code).1.length = dat.length := by
  unfold jzsocNandRsCorrectData
  simp only
  split
  · split
    · rfl
    · split <;> simp only [List.foldl_cons, List.foldl_nil, jzsocRsCorrect_length]
  · rfl

/-- What becomes of a block that was read. -/
def block (rs : RsUnit) (flag : Bool) (p code : List UInt8) : List UInt8 :=
  if flag then (jzsocNandRsCorrectData rs p (code.take 9)).1 else p

theorem block_length (rs : RsUnit) (flag : Bool) (p code : List UInt8) :
    (block rs flag p code).length = p.length := by
  unfold block
  split
  · exact jzsocNandRsCorrectData_length rs p _
  · rfl

theorem readSteps_succ (rs : RsUnit) (flag : Bool) (steps : Nat) (chip : Chip)
    (code : List UInt8) (stats : EccStats) : ∃ stats',
    readSteps rs flag (steps + 1) chip code stats
      = (block rs flag (chip.readBuf 512).1 code
          ++ (readSteps rs flag steps (chip.readBuf 512).2 (code.drop 9) stats').1,
        (readSteps rs flag steps (chip.readBuf 512).2 (code.drop 9) stats').2) := by
  cases flag with
  | false =>
    simp only [readSteps, block, Bool.false_eq_true, if_false]
    exact ⟨_, rfl⟩
  | true =>
    simp only [readSteps, block, if_true]
    split
    · exact ⟨_, rfl⟩
    · exact ⟨_, rfl⟩

/-- The loop over the blocks: the bytes depend on the cells from the read pointer on and on the
code, and the read pointer moves on. -/
theorem readSteps_eq (rs : RsUnit) (flag : Bool) : ∀ (steps : Nat) (chip chip' : Chip)
    (code : List UInt8) (stats stats' : EccStats), chip.column = chip'.column →
    chip.cells chip.row = chip'.cells chip'.row →
    (readSteps rs flag steps chip code stats).1 = (readSteps rs flag steps chip' code stats').1 ∧
    (readSteps rs flag steps chip code stats).1.length = 512 * steps ∧
    (readSteps rs flag steps chip code stats).2.1
      = { chip with column := chip.column + 512 * steps } := by
  intro steps
  induction steps with
  | zero => intro chip chip' code stats stats' _ _; exact ⟨rfl, rfl, rfl⟩
  | succ steps ih =>
    intro chip chip' code stats stats' hcol hcells
    have hbytes : (chip.readBuf 512).1 = (chip'.readBuf 512).1 := by
      simp only [Chip.readBuf, hcells, hcol]
    have hlen : (chip.readBuf 512).1.length = 512 := by
      simp only [Chip.readBuf, List.length_map, List.length_range]
    obtain ⟨next, hnext⟩ := readSteps_succ rs flag steps chip code stats
    obtain ⟨next', hnext'⟩ := readSteps_succ rs flag steps chip' code stats'
    obtain ⟨hdata, hsize, hchip⟩ := ih (chip.readBuf 512).2 (chip'.readBuf 512).2 (code.drop 9)
      next next' (congrArg (· + 512) hcol) hcells
    rw [hnext, hnext']
    refine ⟨?_, ?_, ?_⟩
    · rw [hbytes, hdata]
    · rw [List.length_append, block_length, hlen, hsize]
      ring
    · rw [hchip]
      simp only [Chip.readBuf, Chip.mk.injEq, true_and]
      ring

/-! ### The contents of a page -/

/-- What the ECC unit makes of a page with these cells. -/
def eccPage (d : ReadDev) (row : Nat → UInt8) : List UInt8 :=
  let code := (d.eccpos.take d.g.eccTotal).map fun pos => row (d.g.writesize + pos)
  (readSteps d.rs (code.any (· ≠ 0xff)) d.g.eccSteps { cells := fun _ => row } code ⟨0, 0⟩).1

theorem ReadDev.blocks (d : ReadDev) : 512 * d.g.eccSteps = d.g.writesize := by
  have h := d.writesize_blocks
  rw [Geometry.eccSteps]
  omega

theorem eccPage_length (d : ReadDev) (row : Nat → UInt8) :
    (eccPage d row).length = d.g.writesize := by
  rw [← d.blocks]
  exact (readSteps_eq d.rs _ _ { cells := fun _ => row } { cells := fun _ => row } _ ⟨0, 0⟩ ⟨0, 0⟩
    rfl rfl).2.1

/-- With nothing to correct that is what is stored. -/
theorem eccPage_silent (d : ReadDev) (hrs : Silent d.rs) (row : Nat → UInt8) :
    eccPage d row = (List.range d.g.writesize).map row := by
  rw [← d.blocks]
  unfold eccPage
  simp only [readSteps_silent hrs, rowBytes, Nat.zero_add]

/-- The spare area of a page. -/
def sparePage (d : ReadDev) (row : Nat → UInt8) : List UInt8 :=
  (List.range d.g.oobsize).map fun i => row (d.g.writesize + i)

/-! ### One page read -/

theorem overwrite_zero (l bytes : List UInt8) :
    overwrite l 0 bytes = bytes ++ l.drop bytes.length := by
  simp [overwrite]

/-- The ECC routine addresses the page whose number it finds in the buffer. -/
theorem hweccRs_spec (d : ReadDev) (buf : List UInt8) (s : ReadState) :
    (nandReadPageHweccRs d buf s).1 = eccPage d (s.chip.cells (loadPage buf)) ∧
    (nandReadPageHweccRs d buf s).2.1 = ⟨some (loadPage buf), 0⟩ ∧
    ∃ oobPoi stats, oobPoi.take d.g.oobsize = sparePage d (s.chip.cells (loadPage buf)) ∧
      (nandReadPageHweccRs d buf s).2.2
        = { s with
            chip := { s.chip with row := loadPage buf, column := d.g.writesize }
            commanded := true
            oobPoi := oobPoi
            stats := stats } := by
  generalize hpage : loadPage buf = page
  have hbytes : ((s.chip.readoob d.g 0 page).readBuf d.g.oobsize).1
      = sparePage d (s.chip.cells page) := by
    have hplanes := d.planenum
    simp only [Chip.readBuf, Chip.readoob, sparePage, if_neg (by omega : ¬ 1 < d.g.planenum),
      Nat.zero_add]
  have hspare : (sparePage d (s.chip.cells page)).length = d.g.oobsize := by
    simp only [sparePage, List.length_map, List.length_range]
  -- the parity bytes come from the spare area just read
  have hcode : (d.eccpos.take d.g.eccTotal).map
        (fun pos => (overwrite s.oobPoi 0 (sparePage d (s.chip.cells page))).getD pos 0)
      = (d.eccpos.take d.g.eccTotal).map fun pos => s.chip.cells page (d.g.writesize + pos) := by
    refine List.map_congr_left fun pos hpos => ?_
    have hlt := d.eccpos_lt pos (List.mem_of_mem_take hpos)
    rw [overwrite_zero, List.getD_append _ _ _ _ (by rw [hspare]; exact hlt)]
    simp [sparePage, hlt]
  have hsteps := readSteps_eq d.rs
    (((d.eccpos.take d.g.eccTotal).map fun pos => s.chip.cells page (d.g.writesize + pos)).any
      (· ≠ 0xff)) d.g.eccSteps
    (((s.chip.readoob d.g 0 page).readBuf d.g.oobsize).2.rndout 0)
    { cells := fun _ => s.chip.cells page }
    ((d.eccpos.take d.g.eccTotal).map fun pos => s.chip.cells page (d.g.writesize + pos))
    s.stats ⟨0, 0⟩ rfl rfl
  obtain ⟨hdata, -, hchip⟩ := hsteps
  unfold nandReadPageHweccRs
  simp only [hpage, ReadState.readoob, hbytes, hcode]
  refine ⟨hdata, rfl, overwrite s.oobPoi 0 (sparePage d (s.chip.cells page)), ?stats, ?_, ?same⟩
  case same =>
    rw [hchip, d.blocks]
    simp only [Chip.rndout, Chip.readBuf, Chip.readoob, Nat.zero_add]
    rfl
  rw [overwrite_zero, ← hspare, List.take_left]

/-! ### What a turn does -/

/-- The bytes of the turn were read from the start of its page: the last page-read command sent
before carried the number of the page, and nothing was read since. -/
def Turn.Right (t : Turn) : Prop := t.origin = ⟨some t.page, 0⟩

instance (t : Turn) : Decidable t.Right := inferInstanceAs (Decidable (_ = _))

/-- The turn returns what is stored in its page. -/
structure Returns (d : ReadDev) (cells : Nat → Nat → UInt8) (t : Turn) : Prop where
  data : t.data = ((eccPage d (cells t.page)).drop t.col).take t.bytes
  spare : ∀ spare, t.spare = some spare → spare.take d.g.oobsize = sparePage d (cells t.page)

/-- The page in `databuf` was read from its start. -/
def Cached (d : ReadDev) (s : ReadState) : Prop :=
  ∀ r, s.pagebuf = some r → s.bufOrigin = ⟨some (r &&& d.g.pagemask), 0⟩

structure Inv (d : ReadDev) (cells : Nat → Nat → UInt8) (s : ReadState) : Prop where
  flash : s.chip.cells = cells
  /-- something was read after the last command -/
  behind : s.commanded = true → 0 < s.chip.column
  buffer : ∀ r, s.pagebuf = some r → s.bufOrigin = ⟨some (r &&& d.g.pagemask), 0⟩ →
    s.databuf.take d.g.writesize = eccPage d (cells (r &&& d.g.pagemask))

/-- What a number of turns do. -/
structure Spec (d : ReadDev) (cells : Nat → Nat → UInt8) (s : ReadState) (turns : List Turn)
    (s' : ReadState) : Prop where
  inv : Inv d cells s'
  returns : ∀ t ∈ turns, t.Right → Returns d cells t
  raw : ∀ t ∈ turns, t.raw = true → ¬ t.Right
  right : Cached d s → (∀ t ∈ turns, t.raw = false) → (∀ t ∈ turns, t.Right) ∧ Cached d s'

section

variable {d : ReadDev} {cells : Nat → Nat → UInt8} {s s' s'' : ReadState}

theorem Spec.nil (h : Inv d cells s) : Spec d cells s [] s :=
  ⟨h, by simp, by simp, fun hcached _ => ⟨by simp, hcached⟩⟩

theorem Spec.append {turns turns' : List Turn} (h : Spec d cells s turns s')
    (h' : Spec d cells s' turns' s'') : Spec d cells s (turns ++ turns') s'' where
  inv := h'.inv
  returns := fun t ht => (List.mem_append.mp ht).elim (h.returns t) (h'.returns t)
  raw := fun t ht => (List.mem_append.mp ht).elim (h.raw t) (h'.raw t)
  right := by
    intro hcached hraw
    obtain ⟨hright, hcached⟩ := h.right hcached fun t ht => hraw t (List.mem_append_left _ ht)
    obtain ⟨hright', hcached⟩ := h'.right hcached fun t ht => hraw t (List.mem_append_right _ ht)
    exact ⟨fun t ht => (List.mem_append.mp ht).elim (hright t) (hright' t), hcached⟩

theorem Inv.origin_ne (h : Inv d cells s) (page : Nat) : s.origin ≠ ⟨some page, 0⟩ := by
  intro heq
  simp only [ReadState.origin, Origin.mk.injEq] at heq
  obtain ⟨hcommand, hcolumn⟩ := heq
  cases hsent : s.commanded with
  | false =>
    rw [hsent] at hcommand
    exact absurd hcommand (by simp)
  | true =>
    have hpos := h.behind hsent
    omega

theorem readTurn_missed (col : Nat) {buf : List UInt8}
    (oobreadlen : Nat) (hmiss : s.pagebuf ≠ some realpage ∨ ops.oobbuf.isSome)
    (hread : readPage d ops.mode (storePage (realpage &&& d.g.pagemask)
      (if bytes = d.g.writesize then buf else s.databuf)) s = (p, origin, s')) :
    ∃ databuf oob oobreadlen', databuf.take p.length = p ∧
      readTurn d ops col bytes realpage buf oobreadlen s =
        (⟨realpage &&& d.g.pagemask, col, bytes, decide (ops.mode = .raw), origin,
            if bytes = d.g.writesize then p else (databuf.drop col).take bytes,
            some s'.oobPoi, oob⟩,
          oobreadlen',
          if bytes = d.g.writesize then s'
          else { s' with databuf := databuf, bufOrigin := origin, pagebuf := some realpage }) := by
  refine ⟨splice (storePage (realpage &&& d.g.pagemask)
    (if bytes = d.g.writesize then buf else s.databuf)) 0 p, (turnOob d ops oobreadlen s'.oobPoi).1,
    (turnOob d ops oobreadlen s'.oobPoi).2, by simp [splice], ?_⟩
  unfold readTurn
  simp only [if_pos hmiss, hread]
  split <;> rfl

/-- What a page read hands on to the turn. -/
structure PageRead (d : ReadDev) (cells : Nat → Nat → UInt8) (raw : Bool) (page : Nat)
    (p : List UInt8) (origin : Origin) (s s' : ReadState) : Prop where
  inv : Inv d cells s'
  pagebuf : s'.pagebuf = s.pagebuf
  bufOrigin : s'.bufOrigin = s.bufOrigin
  wrong : raw = true → ∀ page, origin ≠ ⟨some page, 0⟩
  data : raw = false → origin = ⟨some page, 0⟩ ∧ p = eccPage d (cells page) ∧
    s'.oobPoi.take d.g.oobsize = sparePage d (cells page)

theorem readPage_spec (h : Inv d cells s) (mode : OobMode) (hpage : page < 2 ^ 32)
    (buf : List UInt8) :
    ∃ p origin s', readPage d mode (storePage page buf) s = (p, origin, s') ∧
      PageRead d cells (decide (mode = .raw)) page p origin s s' := by
  by_cases hmode : mode = .raw
  · refine ⟨_, _, _, if_pos hmode, ?_⟩
    refine ⟨⟨h.flash, fun hsent => ?_, h.buffer⟩, rfl, rfl, fun _ => h.origin_ne, ?_⟩
    · have hpos := h.behind hsent
      show 0 < s.chip.column + d.g.writesize + d.g.oobsize
      omega
    · intro hraw
      simp [hmode] at hraw
  · obtain ⟨hdata, horigin, oobPoi, stats, hspare, hstate⟩ :=
      hweccRs_spec d (storePage page buf) s
    rw [loadPage_storePage hpage, h.flash] at hdata hspare
    rw [loadPage_storePage hpage] at horigin hstate
    refine ⟨_, _, _, (if_neg hmode).trans (Prod.ext hdata (Prod.ext horigin hstate)), ?_⟩
    refine ⟨⟨h.flash, fun _ => d.writesize_pos, h.buffer⟩, rfl, rfl, ?_,
      fun _ => ⟨rfl, rfl, hspare⟩⟩
    intro hraw
    simp [hmode] at hraw

theorem PageRead.ecc {raw : Bool} (h : PageRead d cells raw page p origin s s')
    (horigin : origin = ⟨some page, 0⟩) :
    p = eccPage d (cells page) ∧ s'.oobPoi.take d.g.oobsize = sparePage d (cells page) := by
  cases raw with
  | false => exact (h.data rfl).2
  | true => exact absurd horigin (h.wrong rfl page)

theorem Spec.single {t : Turn} (hinv : Inv d cells s') (hreturns : t.Right → Returns d cells t)
    (hraw : t.raw = true → ¬ t.Right)
    (hright : Cached d s → t.raw = false → t.Right ∧ Cached d s') : Spec d cells s [t] s' where
  inv := hinv
  returns := fun u hu => by
    obtain rfl := List.mem_singleton.mp hu
    exact hreturns
  raw := fun u hu => by
    obtain rfl := List.mem_singleton.mp hu
    exact hraw
  right := by
    intro hcached hall
    obtain ⟨ht, hcached⟩ := hright hcached (hall t (List.mem_singleton_self t))
    refine ⟨fun u hu => ?_, hcached⟩
    obtain rfl := List.mem_singleton.mp hu
    exact ht

theorem readTurn_cached (h : Inv d cells s)
    (buf : List UInt8) (oobreadlen : Nat) (hle : col + bytes ≤ d.g.writesize)
    (hmiss : ¬ (s.pagebuf ≠ some realpage ∨ ops.oobbuf.isSome)) :
    Spec d cells s [(readTurn d ops col bytes realpage buf oobreadlen s).1]
      (readTurn d ops col bytes realpage buf oobreadlen s).2.2 := by
  have hhit : s.pagebuf = some realpage := not_not.mp fun hne => hmiss (Or.inl hne)
  rw [readTurn, if_neg hmiss]
  refine Spec.single h (fun hright => ⟨?_, fun spare hspare => ?_⟩)
    (fun hraw => absurd hraw Bool.false_ne_true) fun hcached _ => ⟨hcached realpage hhit, hcached⟩
  · show (s.databuf.drop col).take bytes = _
    rw [← h.buffer realpage hhit hright, cut_take _ hle]
  · exact absurd hspare (by simp)

theorem readTurn_read (h : Inv d cells s) (buf : List UInt8) (oobreadlen : Nat)
    (hle : col + bytes ≤ d.g.writesize) (hmiss : s.pagebuf ≠ some realpage ∨ ops.oobbuf.isSome) :
    Spec d cells s [(readTurn d ops col bytes realpage buf oobreadlen s).1]
      (readTurn d ops col bytes realpage buf oobreadlen s).2.2 := by
  have hmask : realpage &&& d.g.pagemask < 2 ^ 32 :=
    Nat.lt_of_le_of_lt Nat.and_le_right d.pagemask_lt
  obtain ⟨p, origin, s', hread, hpage⟩ := readPage_spec h ops.mode hmask
    (if bytes = d.g.writesize then buf else s.databuf)
  obtain ⟨databuf, oob, left, hbuf, hturn⟩ := readTurn_missed col oobreadlen hmiss hread
  rw [hturn]
  have hpagebuf : origin = ⟨some (realpage &&& d.g.pagemask), 0⟩ →
      databuf.take d.g.writesize = eccPage d (cells (realpage &&& d.g.pagemask)) := by
    intro horigin
    rw [(hpage.ecc horigin).1, eccPage_length] at hbuf
    exact hbuf
  refine Spec.single ?_ (fun hright => ⟨?_, fun spare hsome => ?_⟩) (fun hraw => hpage.wrong hraw _)
    fun hcached hraw => ⟨(hpage.data hraw).1, ?_⟩
  · split
    · exact hpage.inv
    · refine ⟨hpage.inv.flash, hpage.inv.behind, fun r hr horigin => ?_⟩
      obtain rfl := Option.some.inj hr
      exact hpagebuf horigin
  · show (if bytes = d.g.writesize then p else (databuf.drop col).take bytes) = _
    split
    · rename_i haligned
      have hcol : col = 0 := by omega
      have hlen := eccPage_length d (cells (realpage &&& d.g.pagemask))
      rw [(hpage.ecc hright).1, hcol, List.drop_zero, haligned,
        List.take_of_length_le (Nat.le_of_eq hlen)]
    · rw [← hpagebuf hright, cut_take _ hle]
  · obtain rfl := Option.some.inj hsome
    exact (hpage.ecc hright).2
  · split
    · intro r hr
      rw [hpage.bufOrigin]
      exact hcached r (hpage.pagebuf ▸ hr)
    · intro r hr
      obtain rfl := Option.some.inj hr
      exact (hpage.data hraw).1

theorem readTurn_spec (h : Inv d cells s) (ops : OobOps) (realpage : Nat) (buf : List UInt8)
    (oobreadlen : Nat) (hle : col + bytes ≤ d.g.writesize) :
    Spec d cells s [(readTurn d ops col bytes realpage buf oobreadlen s).1]
      (readTurn d ops col bytes realpage buf oobreadlen s).2.2 := by
  by_cases hmiss : s.pagebuf ≠ some realpage ∨ ops.oobbuf.isSome
  · exact readTurn_read h buf oobreadlen hle hmiss
  · exact readTurn_cached h buf oobreadlen hle hmiss

theorem readTurns_spec (ops : OobOps) : ∀ (fuel col readlen realpage : Nat) (buf : List UInt8)
    (oobreadlen : Nat) (s : ReadState), Inv d cells s → col ≤ d.g.writesize →
    Spec d cells s (readTurns d ops fuel col readlen realpage buf oobreadlen s).1
      (readTurns d ops fuel col readlen realpage buf oobreadlen s).2.2 := by
  intro fuel
  induction fuel with
  | zero => intro col readlen realpage buf oobreadlen s h _; exact Spec.nil h
  | succ fuel ih =>
    intro col readlen realpage buf oobreadlen s h hcol
    have hturn := readTurn_spec h ops realpage buf oobreadlen
      (show col + min (d.g.writesize - col) readlen ≤ d.g.writesize by omega)
    unfold readTurns
    simp only
    split
    · exact hturn
    · exact hturn.append (ih _ _ _ _ _ _ hturn.inv (Nat.zero_le _))

theorem step_spec (h : Inv d cells s) (c : Call) :
    Spec d cells s (step d s c).1 (step d s c).2 := by
  cases c with
  | read fromOffs ops =>
    have hcol : fromOffs &&& (d.g.writesize - 1) ≤ d.g.writesize :=
      Nat.le_trans Nat.and_le_right (Nat.sub_le _ _)
    simp only [step, nandDoReadOps]
    exact readTurns_spec ops _ _ _ _ _ _ s h hcol
  | readOob column page len =>
    refine ⟨⟨h.flash, fun _ => ?_, h.buffer⟩, by simp [step], by simp [step],
      fun hcached _ => ⟨by simp [step], hcached⟩⟩
    have hplanes := d.planenum
    have hpos := d.writesize_pos
    show 0 < (s.chip.readoob d.g column page).column + len
    rw [Chip.readoob, if_neg (by omega)]
    show 0 < column + d.g.writesize + len
    omega

theorem run_spec : ∀ (calls : List Call) (s : ReadState), Inv d cells s →
    Spec d cells s (run d s calls).1 (run d s calls).2 := by
  intro calls
  induction calls with
  | nil => intro s h; exact Spec.nil h
  | cons c calls ih =>
    intro s h
    have hstep := step_spec h c
    exact hstep.append (ih _ hstep.inv)

end

/-! ### Every page read addresses its page -/

/-- Nothing is cached, and no page-read command was sent or something was read since. -/
structure Start (s : ReadState) : Prop where
  pagebuf : s.pagebuf = none
  behind : s.commanded = true → 0 < s.chip.column

/-- **Pages are read where they are addressed.**  In a run of reads, from any state with an
empty cache, all pages returned were read from the start of their page exactly if no raw read
reached the chip; and a page that was returns what is stored in it, spare bytes included. -/
theorem reads_addressed_iff (d : ReadDev) (s : ReadState) (hs : Start s) (calls : List Call) :
    ((∀ t ∈ (run d s calls).1, t.Right) ↔ ∀ t ∈ (run d s calls).1, t.raw = false) ∧
    ∀ t ∈ (run d s calls).1, t.Right → Returns d s.chip.cells t := by
  have hnone : ∀ r, s.pagebuf ≠ some r := fun r hr => by
    rw [hs.pagebuf] at hr
    exact absurd hr (by simp)
  have hspec := run_spec (d := d) calls s ⟨rfl, hs.behind, fun r hr => absurd hr (hnone r)⟩
  refine ⟨⟨fun hright t ht => ?_, fun hraw => ?_⟩, hspec.returns⟩
  · cases hraw : t.raw with
    | false => rfl
    | true => exact absurd (hright t ht) (hspec.raw t ht hraw)
  · exact (hspec.right (fun r hr => absurd hr (hnone r)) hraw).1

/-- The chip of 1 GiB seen as a device with one plane. -/
def dev1G : ReadDev where
  rs := flatRs
  g := onePlane chip1G
  eccpos := nandOob64.eccpos
  oobfree := [(2, 26)]
  oobavail := 26
  planenum := by decide
  writesize_pos := by decide
  writesize_blocks := by decide
  pagemask_lt := by decide
  eccpos_lt := nandOob64.bound

/-- The state after power on; the bytes of a page are its number. -/
def powered : ReadState where
  chip := { cells := fun page _ => UInt8.ofNat page }
  commanded := false
  databuf := List.replicate 4096 0
  bufOrigin := ⟨none, 0⟩
  oobPoi := List.replicate 128 0
  pagebuf := none
  stats := ⟨0, 0⟩

theorem start_powered : Start powered := ⟨rfl, fun h => absurd h (by decide)⟩

/-- `struct mtd_oob_ops` for one page without spare bytes. -/
def pageOps (mode : OobMode) : OobOps := { plainOps 2048 [] with mode := mode }

/-- Pages 3 and 4 read with ECC, page 4 in two parts, of which the second is cached. -/
theorem reads_addressed_pages :
    Start powered ∧
    ∀ t ∈ (run dev1G powered [.read (3 * 2048) (pageOps .place), .read (4 * 2048) (plainOps 9 []),
        .read (4 * 2048 + 9) (plainOps 9 [])]).1,
      t.Right ∧ Returns dev1G powered.chip.cells t := by
  have h := reads_addressed_iff dev1G powered start_powered
    [.read (3 * 2048) (pageOps .place), .read (4 * 2048) (plainOps 9 []),
      .read (4 * 2048 + 9) (plainOps 9 [])]
  have hraw : (run dev1G powered [.read (3 * 2048) (pageOps .place),
      .read (4 * 2048) (plainOps 9 []), .read (4 * 2048 + 9) (plainOps 9 [])]).1.map Turn.raw
      = [false, false, false] := by
    decide +kernel
  have hright := h.1.mpr fun t ht => by
    have hmem := List.mem_map_of_mem (f := Turn.raw) ht
    rw [hraw] at hmem
    simpa using hmem
  exact ⟨start_powered, fun t ht => ⟨hright t ht, h.2 t ht (hright t ht)⟩⟩

/-- Page 0 is read with ECC, then page 1 in raw mode.  No command names page 1, and what is
returned for it are bytes of page 0, from the end of its data on. -/
theorem reads_addressed_raw :
    Start powered ∧
    (run dev1G powered [.read 0 (pageOps .place), .read 2048 (pageOps .raw)]).1.map
        (fun t => (t.page, t.origin, t.data.head?))
      = [(0, ⟨some 0, 0⟩, some 0), (1, ⟨some 0, 2048⟩, some 0)] ∧
    (¬ ∀ t ∈ (run dev1G powered [.read 0 (pageOps .place), .read 2048 (pageOps .raw)]).1,
      t.Right) ∧
    powered.chip.cells 1 0 = 1 :=
  ⟨start_powered, by decide +kernel, by decide +kernel, by decide⟩

end Dingoo.Nand.Read
