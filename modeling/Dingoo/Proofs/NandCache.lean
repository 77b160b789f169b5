/-
Reading back through both devices of a two-plane chip.

A device is coherent if the page it takes to be in the buffer is there, as the chip holds
it now.  A coherent device reads what is stored (`nandDoReadOps_exact`), and stays
coherent through its own calls: reading puts the page and its number down together, and
writing and erasing give the number up.  Two calls are excepted, a raw read, which puts
other bytes into the buffer, and a write over a cached page at 2 GiB or above, whose
offset is negative as an `int`.

What a device cannot see is the other one, which uses the same buffer and may change the
same rows.  So beside a run goes a mark of the devices whose page was cached before such
a call (`mark`), and the reads of the run are exact if none of them is served from a page
that is marked.
-/
import Dingoo.Lib.Runs
import Dingoo.Proofs.NandView

namespace Dingoo.Nand.Cache

open Dingoo.Lib

variable {b : Board} {m : Mtd} {w p n v k page offs bytes len writelen col : Nat} {s s' : MtdState}
  {ops : OobOps}

/-! ### Coherence -/

/-- The buffer holds this page of the device. -/
def InBuf (b : Board) (s : MtdState) (m : Mtd) (page : Nat) : Prop :=
  s.databuf.take (b.geometry m).writesize = pageData b m s.chip.cells page

/-- The page the device takes to be in the buffer is there.  A number behind the end of the
chip comes from an empty read there and fits no other. -/
def Coherent (b : Board) (m : Mtd) (s : MtdState) : Prop :=
  ∀ page, s.pagebuf m = some page → page * (b.geometry m).writesize < b.g.chipsize →
    InBuf b s m page

theorem coherent_of_none (h : s.pagebuf m = none) : Coherent b m s := by
  intro page hpage
  rw [h] at hpage
  cases hpage

theorem Coherent.congr (hppb : 0 < b.g.ppb) (h : Coherent b m s) (hbuf : s'.databuf = s.databuf)
    (hpage : s'.pagebuf m = s.pagebuf m)
    (hcells : ∀ page, s.pagebuf m = some page → page * (b.geometry m).writesize < b.g.chipsize →
      ∀ row, pageOf b m row = page → s'.chip.cells row = s.chip.cells row) :
    Coherent b m s' := by
  intro page hcached hin
  rw [hpage] at hcached
  unfold InBuf
  rw [hbuf, pageData_congr hppb (hcells page hcached hin)]
  exact h page hcached hin

section
variable (hk : Shape b m v p k)
include hk

theorem Shape.masked (hpage : page * (b.geometry m).writesize < b.g.chipsize) :
    page &&& (b.geometry m).pagemask = page := by
  rw [hk.writesize, hk.chipsize, Nat.add_assoc, Nat.pow_add, Nat.mul_comm] at hpage
  rw [hk.pagemask, Nat.and_two_pow_sub_one_eq_mod,
    Nat.mod_eq_of_lt (Nat.lt_of_mul_lt_mul_left hpage)]

theorem Shape.writesize_pos : 0 < (b.geometry m).writesize := by
  rw [hk.writesize]
  exact Nat.two_pow_pos v

theorem Shape.column (offs : Nat) :
    offs &&& ((b.geometry m).writesize - 1) = offs % (b.geometry m).writesize := by
  rw [hk.writesize, Nat.and_two_pow_sub_one_eq_mod]

theorem Shape.realpage (offs : Nat) :
    offs >>> (b.geometry m).pageShift = offs / (b.geometry m).writesize := by
  rw [hk.pageShift, hk.writesize, Nat.shiftRight_eq_div_pow]

theorem Shape.pagesPerBlock : 1 <<< (b.physEraseShift m - (b.geometry m).pageShift) = 2 ^ p := by
  rw [hk.eraseShift, hk.pageShift, Nat.add_sub_cancel_left, Nat.shiftLeft_eq, Nat.one_mul]

theorem Shape.blockBytes : 1 <<< b.physEraseShift m = 2 ^ (v + p) := by
  rw [hk.eraseShift, Nat.shiftLeft_eq, Nat.one_mul]

theorem Shape.next_block (B : Nat) :
    (B + 1) * 2 ^ p * (b.geometry m).writesize
      = B * 2 ^ p * (b.geometry m).writesize + 2 ^ (v + p) := by
  rw [hk.writesize, Nat.pow_add]
  ring

end

theorem TwoPlane.ppb_pos (h : TwoPlane b.g w p n) : 0 < b.g.ppb := by
  rw [h.ppb]
  exact Nat.two_pow_pos p

/-! ### Reading -/

/-- What a read leaves behind: a page just cached, or what was cached before. -/
structure AfterRead (b : Board) (m : Mtd) (s s' : MtdState) : Prop where
  cells : s'.chip.cells = s.chip.cells
  stats : s'.stats = s.stats
  cache : Coherent b m s' ∨ s'.databuf = s.databuf ∧ s'.pagebuf m = s.pagebuf m

/-- The buffer can serve a read of this range. -/
def Serves (b : Board) (m : Mtd) (ops : OobOps) (s : MtdState) (offs len : Nat) : Prop :=
  ops.oobbuf.isSome = false → ∀ o, offs ≤ o → o < offs + len →
    s.pagebuf m = some (o / (b.geometry m).writesize) → InBuf b s m (o / (b.geometry m).writesize)

theorem Coherent.serves (h : Coherent b m s) (hend : offs + len ≤ b.g.chipsize) :
    Serves b m ops s offs len := by
  intro _ o _ hhigh hcached
  refine h _ hcached ?_
  have := Nat.div_mul_le_self o (b.geometry m).writesize
  omega

theorem AfterRead.coherent (h : AfterRead b m s s') (hcoh : Coherent b m s) : Coherent b m s' := by
  rcases h.cache with hnew | ⟨hbuf, hpage⟩
  · exact hnew
  · intro page hcached hin
    unfold InBuf
    rw [hbuf, h.cells]
    exact hcoh page (hpage ▸ hcached) hin

theorem AfterRead.trans {s'' : MtdState} (h : AfterRead b m s s') (h' : AfterRead b m s' s'') :
    AfterRead b m s s'' := by
  refine ⟨h'.cells.trans h.cells, h'.stats.trans h.stats, ?_⟩
  rcases h.cache with hnew | ⟨hbuf, hpage⟩
  · exact Or.inl (h'.coherent hnew)
  · exact h'.cache.imp_right fun hsame => ⟨hsame.1.trans hbuf, hsame.2.trans hpage⟩

theorem AfterRead.serves (h : AfterRead b m s s') (hend : offs + len ≤ b.g.chipsize)
    (hserves : Serves b m ops s offs len) {offs' len' : Nat} (hlow : offs ≤ offs')
    (hhigh : offs' + len' ≤ offs + len) : Serves b m ops s' offs' len' := by
  rcases h.cache with hnew | ⟨hbuf, hpage⟩
  · exact hnew.serves (by omega)
  · intro hoob o ho ho' hcached
    unfold InBuf
    rw [hbuf, h.cells]
    exact hserves hoob o (by omega) (by omega) (hpage ▸ hcached)

theorem cut_take (l : List UInt8) (hle : col + bytes ≤ len) :
    ((l.take len).drop col).take bytes = (l.drop col).take bytes := by
  rw [List.drop_take, List.take_take, Nat.min_eq_left (by omega)]

theorem cut_congr {l l' : List UInt8} {inside : Prop} (hin : bytes = 0 ∨ inside)
    (heq : inside → l = l') : (l.drop col).take bytes = (l'.drop col).take bytes := by
  rcases hin with rfl | hlt
  · rw [List.take_zero, List.take_zero]
  · rw [heq hlt]

theorem take_splice_start {l bytes : List UInt8} (hlen : bytes.length = len) :
    (splice l 0 bytes).take len = bytes := by
  simp [splice, List.take_left' hlen]

/-- A turn that misses the buffer reads the page, straight to the caller where all of it is
wanted. -/
theorem readTurn_missed (hmode : ops.mode ≠ .raw) {realpage : Nat}
    (hmiss : s.pagebuf m ≠ some realpage ∨ ops.oobbuf.isSome) {data : List UInt8} {t : MtdState}
    (hread : readPage b m ops.mode (realpage &&& (b.geometry m).pagemask) s = (data, t)) :
    readTurn b m ops col bytes realpage s =
      if bytes = (b.geometry m).writesize then (data, t)
      else (((splice t.databuf 0 data).drop col).take bytes,
        { t with databuf := splice t.databuf 0 data }.setPagebuf m (some realpage)) := by
  have hraw : ¬ (ops.oobbuf.isSome ∧ ops.mode = .raw) := fun hboth => hmode hboth.2
  unfold readTurn
  simp only [if_pos hmiss, hread, if_neg hraw]
  split <;> rfl

section

variable (h : TwoPlane b.g w p n) (hk : Shape b m v p k) (hrs : Silent b.rs)
  (hmode : ops.mode ≠ .raw)

include h hk hrs hmode

theorem readTurn_exact {realpage : Nat} (hcol : col < (b.geometry m).writesize)
    (hserves : Serves b m ops s (realpage * (b.geometry m).writesize + col) bytes)
    (hbytes : col + bytes ≤ (b.geometry m).writesize)
    (hin : bytes = 0 ∨ realpage * (b.geometry m).writesize < b.g.chipsize) :
    (readTurn b m ops col bytes realpage s).1
        = stored b m s.chip.cells (realpage * (b.geometry m).writesize + col) bytes ∧
      AfterRead b m s (readTurn b m ops col bytes realpage s).2 := by
  rw [stored_page hbytes]
  by_cases hmiss : s.pagebuf m ≠ some realpage ∨ ops.oobbuf.isSome
  · obtain ⟨hdata, hsame⟩ := readPage_silent (m := m) h hrs hmode
      (realpage &&& (b.geometry m).pagemask) s
    rcases hread : readPage b m ops.mode (realpage &&& (b.geometry m).pagemask) s with ⟨data, t⟩
    rw [hread] at hdata hsame
    dsimp only at hdata hsame
    have hpage : realpage * (b.geometry m).writesize < b.g.chipsize →
        data = pageData b m s.chip.cells realpage := by
      intro hlt
      rw [hdata, hk.masked hlt]
    have hlength : data.length = (b.geometry m).writesize := by
      rw [hdata, length_pageData]
    rw [readTurn_missed hmode hmiss hread, ← cut_congr hin hpage]
    by_cases hfull : bytes = (b.geometry m).writesize
    · -- straight to the caller
      have hcol : col = 0 := by omega
      rw [if_pos hfull]
      refine ⟨?_, hsame.cells, hsame.stats, Or.inr ⟨hsame.databuf, by rw [hsame.pagebuf]⟩⟩
      rw [hcol, List.drop_zero, List.take_of_length_le (by omega)]
    · -- through the buffer
      have hstart : (splice t.databuf 0 data).take (b.geometry m).writesize = data :=
        take_splice_start hlength
      rw [if_neg hfull]
      refine ⟨?_, hsame.cells, hsame.stats, Or.inl ?_⟩
      · conv_rhs => rw [← hstart, cut_take _ hbytes]
      · intro page hcached hlt
        have heq : page = realpage := by
          simpa [MtdState.setPagebuf] using hcached.symm
        show (splice t.databuf 0 data).take _ = pageData b m t.chip.cells page
        rw [hstart, hsame.cells, heq]
        exact hpage (heq ▸ hlt)
  · -- from the buffer
    have hcached : s.pagebuf m = some realpage := by
      by_contra hne
      exact hmiss (Or.inl hne)
    have hbuf : bytes = 0 ∨ InBuf b s m realpage := by
      refine (Nat.eq_zero_or_pos bytes).imp_right fun hpos => ?_
      have hpage := hserves (by simpa using fun hoob => hmiss (Or.inr hoob)) _ (Nat.le_refl _)
        (by omega)
      rw [page_div hcol] at hpage
      exact hpage hcached
    rw [readTurn, if_neg hmiss, ← cut_congr hbuf fun hpage => hpage, cut_take _ hbytes]
    exact ⟨rfl, rfl, rfl, Or.inr ⟨rfl, rfl⟩⟩

/-- The induction is on the pages left; the range moves up with them. -/
theorem readTurns_exact :
    ∀ (fuel : Nat) {col readlen realpage : Nat} {s : MtdState}, readlen < fuel →
      col < (b.geometry m).writesize →
      realpage * (b.geometry m).writesize + col + readlen ≤ b.g.chipsize →
      Serves b m ops s (realpage * (b.geometry m).writesize + col) readlen →
      (readTurns b m ops fuel col readlen realpage s).1
          = stored b m s.chip.cells (realpage * (b.geometry m).writesize + col) readlen ∧
        AfterRead b m s (readTurns b m ops fuel col readlen realpage s).2 := by
  intro fuel
  induction fuel with
  | zero =>
    intro col readlen realpage s hfuel
    exact absurd hfuel (Nat.not_lt_zero _)
  | succ fuel ih =>
    intro col readlen realpage s hfuel hcol hend hserves
    have hbytes : col + min ((b.geometry m).writesize - col) readlen
        ≤ (b.geometry m).writesize := by omega
    have hin : min ((b.geometry m).writesize - col) readlen = 0 ∨
        realpage * (b.geometry m).writesize < b.g.chipsize := by omega
    obtain ⟨hdata, hafter⟩ := readTurn_exact h hk hrs hmode hcol
      (fun hoob o ho ho' => hserves hoob o ho (by omega)) hbytes hin
    rw [readTurns]
    dsimp only
    split
    · rename_i hdone
      have hall : min ((b.geometry m).writesize - col) readlen = readlen := by omega
      rw [hall] at hdata hafter ⊢
      exact ⟨hdata, hafter⟩
    · rename_i hmore
      have hpart : min ((b.geometry m).writesize - col) readlen
          = (b.geometry m).writesize - col := by omega
      rw [hpart] at hdata hafter ⊢
      have hnext : (realpage + 1) * (b.geometry m).writesize + 0
          = realpage * (b.geometry m).writesize + col
            + ((b.geometry m).writesize - col) := by
        rw [Nat.succ_mul]
        omega
      obtain ⟨hrest, hafter'⟩ := @ih 0 (readlen - ((b.geometry m).writesize - col))
        (realpage + 1) _ (by omega) (by omega) (by rw [hnext]; omega)
        (hafter.serves hend hserves (by omega) (by omega))
      refine ⟨?_, hafter.trans hafter'⟩
      have hsum : (b.geometry m).writesize - col
          + (readlen - ((b.geometry m).writesize - col)) = readlen := by omega
      rw [hdata, hrest, hnext, hafter.cells, ← stored_add, hsum]

/-- **A read that the buffer can serve returns what is stored.** -/
theorem nandDoReadOps_exact (hend : offs + ops.len ≤ b.g.chipsize)
    (hserves : Serves b m ops s offs ops.len) :
    (nandDoReadOps b m offs ops s).1 = 0 ∧
      (nandDoReadOps b m offs ops s).2.1 = stored b m s.chip.cells offs (ops.len % 2 ^ 32) ∧
      AfterRead b m s (nandDoReadOps b m offs ops s).2.2 := by
  have hoffs : offs / (b.geometry m).writesize * (b.geometry m).writesize
      + offs % (b.geometry m).writesize = offs := Nat.div_add_mod' _ _
  obtain ⟨hdata, hafter⟩ := readTurns_exact h hk hrs hmode (ops.len % 2 ^ 32 + 1)
    (Nat.lt_succ_self _) (Nat.mod_lt offs hk.writesize_pos) (by rw [hoffs]; omega)
    (by rw [hoffs]; exact fun hoob o ho ho' => hserves hoob o ho (by omega))
  rw [hoffs] at hdata
  unfold nandDoReadOps
  simp only [hk.column, hk.realpage, hafter.stats, Nat.sub_self, Int.sub_self, ne_eq,
    not_true_eq_false, if_false]
  exact ⟨trivial, hdata, hafter⟩

end

/-! ### Writing -/

/-- The device stays coherent, and has kept the number of its cached page or given it up. -/
structure Keeps (b : Board) (m : Mtd) (s s' : MtdState) : Prop where
  coherent : Coherent b m s → Coherent b m s'
  page : s'.pagebuf m = s.pagebuf m ∨ s'.pagebuf m = none

theorem Keeps.refl (b : Board) (m : Mtd) (s : MtdState) : Keeps b m s s := ⟨fun h => h, Or.inl rfl⟩

theorem Keeps.of_none (h : s'.pagebuf m = none) : Keeps b m s s' :=
  ⟨fun _ => coherent_of_none h, Or.inr h⟩

theorem Keeps.trans {s'' : MtdState} (h : Keeps b m s s') (h' : Keeps b m s' s'') :
    Keeps b m s s'' := by
  refine ⟨fun hcoh => h'.coherent (h.coherent hcoh), ?_⟩
  rcases h'.page with heq | hnone
  · rw [heq]
    exact h.page
  · exact Or.inr hnone

theorem setPagebuf_self (cached : Option Nat) : (s.setPagebuf m cached).pagebuf m = cached :=
  if_pos rfl

/-- The page the device takes to be in the buffer does not start in this range. -/
def Clear (b : Board) (m : Mtd) (s : MtdState) (offs len : Nat) : Prop :=
  ∀ page, s.pagebuf m = some page →
    ¬ (offs ≤ page * (b.geometry m).writesize ∧
      page * (b.geometry m).writesize < offs + len)

theorem turnBytes_next {g : Geometry} {column : Nat} (realpage : Nat) (hcol : column < g.writesize)
    (hmore : ¬ writelen - turnBytes g column writelen = 0) :
    (realpage + 1) * g.writesize + 0
      = realpage * g.writesize + column + turnBytes g column writelen := by
  rw [Nat.succ_mul]
  unfold turnBytes at hmore ⊢
  split at hmore
  · rename_i hpart
    rw [if_pos hpart]
    omega
  · rename_i hpart
    rw [if_neg hpart]
    omega

section

variable (h : TwoPlane b.g w p n) (hk : Shape b m v p k)

include h hk

/-- A turn that does not give the cached page up writes another page. -/
theorem writeTurn_keeps (ops : OobOps) {column realpage : Nat} (buf : List UInt8)
    (oob : Option (List UInt8)) (hwrite : 0 < writelen)
    (hend : realpage * (b.geometry m).writesize + column + writelen ≤ b.g.chipsize)
    (hclear : Clear b m s (realpage * (b.geometry m).writesize + column) writelen) :
    Keeps b m s (writeTurn b m ops column writelen realpage buf oob s).2 := by
  have hg : (b.writeDev m).g = b.geometry m := rfl
  unfold writeTurn
  dsimp only
  rw [hg]
  by_cases hpart : column ≠ 0 ∨ writelen < (b.geometry m).writesize - 1
  · -- the buffer is used, and no page is cached any more
    rw [if_pos hpart]
    exact Keeps.of_none ((congrFun (writePage_buffers ops _ _ _).2 m).trans (setPagebuf_self none))
  · -- a whole page, which is not the cached one
    have hlt : realpage * (b.geometry m).writesize < b.g.chipsize := by omega
    rw [if_neg hpart, hk.masked hlt]
    obtain ⟨hdatabuf, hpagebuf⟩ := writePage_buffers (b := b) (m := m) ops realpage
      (turnBuf (b.geometry m) column writelen buf)
      { s with oobPoi := (turnOob (b.writeDev m) ops oob s.oobPoi).2 }
    refine ⟨fun hcoh => ?_, Or.inl (congrFun hpagebuf m)⟩
    refine hcoh.congr (TwoPlane.ppb_pos h) hdatabuf (congrFun hpagebuf m) ?_
    intro page hcached _ row hrow
    refine writePage_other (TwoPlane.ppb_pos h) ops _ _ ?_
    rw [hrow]
    rintro rfl
    exact hclear page hcached (by omega)

/-- The induction is on the pages left; the cached page stays clear of them. -/
theorem writeTurns_keeps (ops : OobOps) :
    ∀ (fuel : Nat) {column writelen realpage : Nat} (buf : List UInt8)
      (oob : Option (List UInt8)) {s : MtdState}, column < (b.geometry m).writesize →
      0 < writelen → realpage * (b.geometry m).writesize + column + writelen ≤ b.g.chipsize →
      Clear b m s (realpage * (b.geometry m).writesize + column) writelen →
      Keeps b m s (writeTurns b m ops fuel column writelen realpage buf oob s) := by
  intro fuel
  induction fuel with
  | zero =>
    intro column writelen realpage buf oob s _ _ _ _
    exact Keeps.refl b m s
  | succ fuel ih =>
    intro column writelen realpage buf oob s hcol hwrite hend hclear
    have hturn := writeTurn_keeps h hk ops buf oob hwrite hend hclear
    rw [writeTurns]
    dsimp only
    split
    · exact hturn
    · rename_i hmore
      have hnext := turnBytes_next realpage hcol hmore
      refine hturn.trans (ih _ _ (by omega) (by omega) (by rw [hnext]; omega) ?_)
      intro page hcached
      rcases hturn.page with hsame | hnone
      · rw [hsame] at hcached
        have := hclear page hcached
        rw [hnext]
        omega
      · rw [hnone] at hcached
        cases hcached

end

/-- The cached page of the device starts in this range, at 2 GiB or above. -/
def HighPage (b : Board) (m : Mtd) (s : MtdState) (offs len : Nat) : Prop :=
  ∃ page ∈ s.pagebuf m, 2 ^ 31 ≤ page * (b.geometry m).writesize ∧
    offs ≤ page * (b.geometry m).writesize ∧ page * (b.geometry m).writesize < offs + len

instance (offs len : Nat) : Decidable (HighPage b m s offs len) :=
  inferInstanceAs (Decidable (∃ page ∈ s.pagebuf m, _))

theorem pagebufOffs_low {shift : Nat} (h : page * 2 ^ shift < 2 ^ 31) :
    pagebufOffs page shift = page * 2 ^ shift := by
  have hpage : page ≤ page * 2 ^ shift := Nat.le_mul_of_pos_right page (Nat.two_pow_pos shift)
  have hto : (BitVec.ofNat 32 page <<< shift).toNat = page * 2 ^ shift := by
    rw [BitVec.toNat_shiftLeft, BitVec.toNat_ofNat, Nat.shiftLeft_eq,
      Nat.mod_eq_of_lt (show page < 2 ^ 32 by omega), Nat.mod_eq_of_lt (by omega)]
  have hmsb : (BitVec.ofNat 32 page <<< shift).msb = false := by
    rw [BitVec.msb_eq_false_iff_two_mul_lt, hto]
    omega
  rw [pagebufOffs, BitVec.signExtend_eq_setWidth_of_msb_false hmsb, BitVec.toNat_setWidth, hto,
    Nat.mod_eq_of_lt (by omega)]

theorem invalidate_cases (b : Board) (m : Mtd) (offs len : Nat) (s : MtdState) :
    (invalidate b m offs len s = s.setPagebuf m none) ∨ invalidate b m offs len s = s := by
  unfold invalidate
  split
  · exact Or.inr rfl
  · dsimp only
    split
    · exact Or.inl rfl
    · exact Or.inr rfl

theorem invalidate_clear (hk : Shape b m v p k) (hlow : ¬ HighPage b m s offs len) :
    Clear b m (invalidate b m offs len s) offs len := by
  intro page hcached hrange
  unfold invalidate at hcached
  split at hcached
  · rename_i hnone
    rw [hnone] at hcached
    cases hcached
  · rename_i page' hsome
    simp only [hk.pageShift] at hcached
    split at hcached
    · rw [setPagebuf_self] at hcached
      cases hcached
    · -- a page of the range is below 2 GiB, and its offset was seen
      rename_i hout
      have hbelow : page * 2 ^ v < 2 ^ 31 := by
        by_contra hhigh
        exact hlow ⟨page, hcached, by rw [hk.writesize]; omega, hrange⟩
      rw [hsome] at hcached
      obtain rfl := Option.some.inj hcached
      rw [pagebufOffs_low hbelow, ← hk.writesize] at hout
      exact hout hrange

theorem invalidateBlock_cases (m : Mtd) (page pagesPerBlock : Nat) (s : MtdState) :
    (invalidateBlock m page pagesPerBlock s = s.setPagebuf m none) ∨
      (invalidateBlock m page pagesPerBlock s = s ∧
        ∀ cached, s.pagebuf m = some cached →
          ¬ (page ≤ cached ∧ cached < page + pagesPerBlock)) := by
  unfold invalidateBlock
  split
  · rename_i hnone
    refine Or.inr ⟨rfl, fun cached hcached => ?_⟩
    rw [hnone] at hcached
    cases hcached
  · rename_i cached hsome
    split
    · exact Or.inl rfl
    · rename_i hout
      refine Or.inr ⟨rfl, fun cached' hcached => ?_⟩
      rw [hsome] at hcached
      exact Option.some.inj hcached ▸ hout

theorem nandDoWriteOps_cases (hk : Shape b m v p k) (offs : Nat) (ops : OobOps) (s : MtdState) :
    (nandDoWriteOps b m offs ops s).2 = s ∨
      0 < ops.len % 2 ^ 32 ∧ ∃ oobPoi, (nandDoWriteOps b m offs ops s).2
        = writeTurns b m ops (ops.len % 2 ^ 32) (offs % (b.geometry m).writesize)
            (ops.len % 2 ^ 32) (offs / (b.geometry m).writesize) ops.datbuf ops.oobbuf
            { invalidate b m offs ops.len s with oobPoi := oobPoi } := by
  unfold nandDoWriteOps
  dsimp only
  rw [show (b.writeDev m).g = b.geometry m from rfl, hk.column, hk.realpage]
  split
  · exact Or.inl rfl
  · rename_i hsome
    split
    · exact Or.inl rfl
    · split
      · exact Or.inl rfl
      · split
        · exact Or.inl rfl
        · refine Or.inr ⟨Nat.pos_of_ne_zero hsome, ?_⟩
          split
          · exact ⟨_, rfl⟩
          · exact ⟨_, rfl⟩

theorem nandDoWriteOps_keeps (h : TwoPlane b.g w p n) (hk : Shape b m v p k)
    (hlow : ¬ HighPage b m s offs ops.len) (hend : offs + ops.len ≤ b.g.chipsize) :
    Keeps b m s (nandDoWriteOps b m offs ops s).2 := by
  have hoffs : offs / (b.geometry m).writesize * (b.geometry m).writesize
      + offs % (b.geometry m).writesize = offs := Nat.div_add_mod' _ _
  rcases nandDoWriteOps_cases hk offs ops s with heq | ⟨hpos, oobPoi, heq⟩
  · rw [heq]
    exact Keeps.refl b m s
  · have hstart : Keeps b m s { invalidate b m offs ops.len s with oobPoi := oobPoi } := by
      rcases invalidate_cases b m offs ops.len s with hinv | hinv
      · rw [hinv]
        exact Keeps.of_none (setPagebuf_self none)
      · rw [hinv]
        exact ⟨fun hcoh => hcoh, Or.inl rfl⟩
    rw [heq]
    refine hstart.trans (writeTurns_keeps h hk ops _ _ _ (Nat.mod_lt offs hk.writesize_pos) hpos
      (by rw [hoffs]; omega) fun page hcached => ?_)
    have hclear := invalidate_clear hk hlow page hcached
    rw [hoffs]
    omega

/-! ### Erasing -/

/-- One turn of the erase loop, on the block `B` of the device. -/
def eraseTurn (b : Board) (m : Mtd) (p B : Nat) (s : MtdState) : MtdState :=
  { invalidateBlock m (B * 2 ^ p) (2 ^ p) s with
    chip := eraseCmd b m (B * 2 ^ p) (invalidateBlock m (B * 2 ^ p) (2 ^ p) s).chip }

/-- What the erasing of each block between `low` and `high` keeps, the loop keeps. -/
theorem eraseTurns_keeps (hk : Shape b m v p k) {P : MtdState → Prop} {low high : Nat}
    (hchip : high ≤ b.g.chipsize)
    (hturn : ∀ B s, low ≤ B * 2 ^ p * (b.geometry m).writesize →
      B * 2 ^ p * (b.geometry m).writesize + 2 ^ (v + p) ≤ high → P s → P (eraseTurn b m p B s)) :
    ∀ (fuel : Nat) {len B : Nat} {s : MtdState}, 2 ^ (v + p) ∣ len →
      low ≤ B * 2 ^ p * (b.geometry m).writesize →
      B * 2 ^ p * (b.geometry m).writesize + len ≤ high → P s →
      P (eraseTurns b m fuel len (B * 2 ^ p) s).2 := by
  intro fuel
  induction fuel with
  | zero =>
    intro len B s _ _ _ hs
    exact hs
  | succ fuel ih =>
    intro len B s hdvd hlow hend hs
    rw [eraseTurns]
    simp only [hk.pagesPerBlock, hk.blockBytes]
    split
    · exact hs
    · rename_i hmore
      split
      · exact hs
      · have hlt : B * 2 ^ p * (b.geometry m).writesize < b.g.chipsize := by omega
        have hle : 2 ^ (v + p) ≤ len := Nat.le_of_dvd (Nat.pos_of_ne_zero hmore) hdvd
        have hnext := hk.next_block B
        rw [hk.masked hlt, ← Nat.succ_mul]
        exact @ih (len - 2 ^ (v + p)) (B + 1) _ (Nat.dvd_sub hdvd (dvd_refl _)) (by omega)
          (by omega) (hturn B s hlow (by omega) hs)

theorem eraseTurn_keeps (h : TwoPlane b.g w p n) {B : Nat}
    (hin : B * 2 ^ p * (b.geometry m).writesize < b.g.chipsize) (s : MtdState) :
    Keeps b m s (eraseTurn b m p B s) := by
  unfold eraseTurn
  rcases invalidateBlock_cases m (B * 2 ^ p) (2 ^ p) s with heq | ⟨heq, hout⟩
  · rw [heq]
    exact Keeps.of_none (setPagebuf_self none)
  · rw [heq]
    refine ⟨fun hcoh => ?_, Or.inl rfl⟩
    refine hcoh.congr (TwoPlane.ppb_pos h) rfl rfl ?_
    intro page hcached _ row hrow
    refine eraseCmd_other h s.chip hin ?_
    rw [hrow]
    rintro rfl
    have hpage : page / 2 ^ p * 2 ^ p + page % 2 ^ p = page := Nat.div_add_mod' _ _
    have hmod := Nat.mod_lt page (Nat.two_pow_pos p)
    exact hout page hcached (by omega)

theorem nandEraseNand_cases (hk : Shape b m v p k) (addr len : Nat) (s : MtdState) :
    (nandEraseNand b m addr len s).2 = s ∨
      ∃ B, B * 2 ^ p * (b.geometry m).writesize = addr ∧ 2 ^ (v + p) ∣ len % 2 ^ 32 ∧
        addr + len ≤ b.g.chipsize ∧ (nandEraseNand b m addr len s).2
          = (eraseTurns b m (len % 2 ^ 32) (len % 2 ^ 32) (B * 2 ^ p) s).2 := by
  have hchip : (b.geometry m).chipsize = b.g.chipsize := by
    cases m with
    | jzMtd => rfl
    | jzMtd1 => rfl
  unfold nandEraseNand
  simp only [hk.blockBytes, Nat.and_two_pow_sub_one_eq_mod, hk.pageShift, hchip]
  split
  · exact Or.inl rfl
  · rename_i haddr
    split
    · exact Or.inl rfl
    · rename_i hlen
      split
      · exact Or.inl rfl
      · rename_i hend
        split
        · exact Or.inl rfl
        · have hdvd : 2 ^ (v + p) ∣ len % 2 ^ 32 := by
            refine (Nat.dvd_mod_iff ?_).mpr (Nat.dvd_of_mod_eq_zero (not_not.mp hlen))
            exact pow_dvd_pow 2 (by have := hk.fits; omega)
          obtain ⟨B, rfl⟩ := Nat.dvd_of_mod_eq_zero (not_not.mp haddr)
          have hpage : (2 ^ (v + p) * B) >>> v = B * 2 ^ p := by
            rw [Nat.shiftRight_eq_div_pow, Nat.pow_add, Nat.mul_assoc,
              Nat.mul_div_cancel_left _ (Nat.two_pow_pos v), Nat.mul_comm]
          have hbytes : B * 2 ^ p * (b.geometry m).writesize = 2 ^ (v + p) * B := by
            rw [hk.writesize, Nat.pow_add]
            ring
          rw [hpage]
          exact Or.inr ⟨B, hbytes, hdvd, by omega, rfl⟩

theorem nandEraseNand_keeps (h : TwoPlane b.g w p n) (hk : Shape b m v p k) (addr len : Nat)
    (s : MtdState) : Keeps b m s (nandEraseNand b m addr len s).2 := by
  rcases nandEraseNand_cases hk addr len s with heq | ⟨B, hB, hdvd, hend, heq⟩
  · rw [heq]
    exact Keeps.refl b m s
  · have hle := Nat.mod_le len (2 ^ 32)
    rw [heq]
    refine eraseTurns_keeps hk hend (fun B' t _ hhigh ht => ?_) _ hdvd (Nat.zero_le _) (by omega)
      (Keeps.refl b m s)
    exact ht.trans (eraseTurn_keeps h (by omega) t)

/-! ### Runs -/

/-- The calls after which a device may not be coherent on its own account: a raw read, and a
write over its cached page at 2 GiB or above. -/
def Careless (b : Board) (s : MtdState) : Call → Prop
  | .readOob _ _ ops => ops.mode = .raw
  | .write m offs buf => HighPage b m s offs buf.length
  | .writeOob m offs ops => HighPage b m s offs ops.len
  | _ => False

instance (call : Call) : Decidable (Careless b s call) := by
  unfold Careless
  split
  all_goals infer_instance

/-- A step with the mark of the devices that may not be coherent.  A call of the other device,
or a careless one of its own, marks a device with a cached page; caching another page, or
none, takes the mark away. -/
def mark (b : Board) (g : MtdState × (Mtd → Bool)) (call : Call) : MtdState × (Mtd → Bool) :=
  (step b g.1 call, fun j =>
    if j = call.mtd then Careless b g.1 call ||
      (g.2 j && (step b g.1 call).pagebuf j = g.1.pagebuf j)
    else g.2 j || ((step b g.1 call).pagebuf j).isSome)

/-- No byte of the range lies in the page the device has cached. -/
def Misses (b : Board) (m : Mtd) (s : MtdState) (offs len : Nat) : Prop :=
  ∀ o, offs ≤ o → o < offs + len → s.pagebuf m ≠ some (o / (b.geometry m).writesize)

/-- A read through a marked device stays away from its cached page; one that asks for the spare
bytes too does not use the buffer. -/
def Fresh (b : Board) (g : MtdState × (Mtd → Bool)) : Call → Prop
  | .read m offs len => g.2 m = true → Misses b m g.1 offs len
  | .readOob m offs ops => ops.mode ≠ .raw → ops.oobbuf.isSome = false → g.2 m = true →
      Misses b m g.1 offs ops.len
  | _ => True

/-- A successful read that is not raw returns what the chip holds at its range.  The buffer of
a caller is smaller than 4 GiB. -/
def Exact (b : Board) (s : MtdState) : Call → Prop
  | .read m offs len => len < 2 ^ 32 → (nandRead b m offs len s).1 = 0 →
      (nandRead b m offs len s).2.1 = stored b m s.chip.cells offs len
  | .readOob m offs ops => ops.mode ≠ .raw → ops.len < 2 ^ 32 →
      (nandReadOob b m offs ops s).1 = 0 →
      (nandReadOob b m offs ops s).2.1 = stored b m s.chip.cells offs ops.len
  | _ => True

theorem plainOps_mode (len : Nat) (buf : List UInt8) : (plainOps len buf).mode ≠ .raw := by
  simp [plainOps]

theorem mark_foldl (b : Board) : ∀ (calls : List Call) (s : MtdState) (marks : Mtd → Bool),
    (calls.foldl (mark b) (s, marks)).1 = calls.foldl (step b) s
  | [], _, _ => rfl
  | call :: calls, s, marks => mark_foldl b calls (step b s call) (mark b (s, marks) call).2

/-- The buffer can serve the call, if that is a read. -/
def Served (b : Board) (s : MtdState) : Call → Prop
  | .read m offs len => offs + len ≤ b.g.chipsize → Serves b m (plainOps len []) s offs len
  | .readOob m offs ops => ops.mode ≠ .raw → offs + ops.len ≤ b.g.chipsize →
      Serves b m ops s offs ops.len
  | _ => True

theorem Fresh.served {g : MtdState × (Mtd → Bool)} {call : Call} (hfresh : Fresh b g call)
    (hcoh : g.2 call.mtd = false → Coherent b call.mtd g.1) : Served b g.1 call := by
  cases call with
  | read m offs len =>
    intro hend
    cases hmark : g.2 m with
    | false => exact (hcoh hmark).serves hend
    | true => exact fun _ o ho ho' hcached => absurd hcached (hfresh hmark o ho ho')
  | readOob m offs ops =>
    intro hmode hend
    cases hmark : g.2 m with
    | false => exact (hcoh hmark).serves hend
    | true => exact fun hoob o ho ho' hcached => absurd hcached (hfresh hmode hoob hmark o ho ho')
  | write m offs buf => trivial
  | writeOob m offs ops => trivial
  | erase m addr len => trivial

/-- A coherent device stays so, and one that caches another page gets so. -/
def Settles (b : Board) (m : Mtd) (s s' : MtdState) : Prop :=
  (Coherent b m s → Coherent b m s') ∧ (Coherent b m s' ∨ s'.pagebuf m = s.pagebuf m)

theorem Settles.refl (b : Board) (m : Mtd) (s : MtdState) : Settles b m s s :=
  ⟨fun h => h, Or.inr rfl⟩

theorem AfterRead.settles (h : AfterRead b m s s') : Settles b m s s' :=
  ⟨h.coherent, h.cache.imp_right fun hsame => hsame.2⟩

theorem Keeps.settles (h : Keeps b m s s') : Settles b m s s' :=
  ⟨h.coherent, h.page.symm.imp_left coherent_of_none⟩

section

variable (h : TwoPlane b.g w p n) (hrs : Silent b.rs)

include h hrs

theorem exact_of_served {call : Call} (hserved : Served b s call) : Exact b s call := by
  have hrejected : (-EINVAL : Int) ≠ 0 := by decide
  cases call with
  | read m offs len =>
    obtain ⟨v, k, hk⟩ := TwoPlane.shape h m
    intro hsize hret
    unfold nandRead at hret ⊢
    split at hret
    · exact absurd hret hrejected
    · rename_i hend
      have hle : offs + len ≤ b.g.chipsize := by omega
      rw [if_neg hend]
      by_cases hzero : len = 0
      · rw [if_pos hzero, hzero]
        rfl
      · rw [if_neg hzero, (nandDoReadOps_exact h hk hrs (plainOps_mode len []) hle
          (hserved hle)).2.1]
        exact congrArg (stored b m s.chip.cells offs) (Nat.mod_eq_of_lt hsize)
  | readOob m offs ops =>
    obtain ⟨v, k, hk⟩ := TwoPlane.shape h m
    intro hmode hsize hret
    unfold nandReadOob at hret ⊢
    split at hret
    · exact absurd hret hrejected
    · rename_i hend
      have hle : offs + ops.len ≤ b.g.chipsize := by omega
      rw [if_neg hend, (nandDoReadOps_exact h hk hrs hmode hle (hserved hmode hle)).2.1,
        Nat.mod_eq_of_lt hsize]
  | write m offs buf => trivial
  | writeOob m offs ops => trivial
  | erase m addr len => trivial

theorem step_settles {call : Call} (hcareful : ¬ Careless b s call) (hserved : Served b s call) :
    Settles b call.mtd s (step b s call) := by
  obtain ⟨v, k, hk⟩ := TwoPlane.shape h call.mtd
  cases call with
  | read m offs len =>
    show Settles b m s (nandRead b m offs len s).2.2
    unfold nandRead
    split
    · exact Settles.refl b m s
    · split
      · exact Settles.refl b m s
      · have hle : offs + len ≤ b.g.chipsize := by omega
        exact (nandDoReadOps_exact h hk hrs (plainOps_mode len []) hle (hserved hle)).2.2.settles
  | readOob m offs ops =>
    show Settles b m s (nandReadOob b m offs ops s).2.2
    unfold nandReadOob
    split
    · exact Settles.refl b m s
    · have hle : offs + ops.len ≤ b.g.chipsize := by omega
      exact (nandDoReadOps_exact h hk hrs hcareful hle (hserved hcareful hle)).2.2.settles
  | write m offs buf =>
    show Settles b m s (nandWrite b m offs buf s).2
    unfold nandWrite
    split
    · exact Settles.refl b m s
    · split
      · exact Settles.refl b m s
      · exact Keeps.settles (nandDoWriteOps_keeps h hk hcareful
          (by show offs + buf.length ≤ _; omega))
  | writeOob m offs ops =>
    show Settles b m s (nandWriteOob b m offs ops s).2
    unfold nandWriteOob
    split
    · exact Settles.refl b m s
    · exact Keeps.settles (nandDoWriteOps_keeps h hk hcareful (by omega))
  | erase m addr len => exact (nandEraseNand_keeps h hk addr len s).settles

/-- **A device that is not marked is coherent**, one step. -/
theorem mark_coherent {g : MtdState × (Mtd → Bool)} {call : Call}
    (hinv : ∀ j, g.2 j = false → Coherent b j g.1) (hfresh : Fresh b g call) (j : Mtd)
    (hmark : (mark b g call).2 j = false) : Coherent b j (mark b g call).1 := by
  simp only [mark] at hmark
  split at hmark
  · rename_i hj
    subst hj
    obtain ⟨hcareful, hmoved⟩ : ¬ Careless b g.1 call ∧ (g.2 call.mtd = false ∨
        (step b g.1 call).pagebuf call.mtd ≠ g.1.pagebuf call.mtd) := by
      simpa [or_iff_not_imp_left] using hmark
    obtain ⟨hkeep, hnew⟩ := step_settles h hrs hcareful (hfresh.served (hinv _))
    rcases hmoved with hclean | hmoved
    · exact hkeep (hinv _ hclean)
    · exact hnew.resolve_right hmoved
  · simp only [Bool.or_eq_false_iff] at hmark
    have hnone : (step b g.1 call).pagebuf j = none := by simpa using hmark.2
    exact coherent_of_none hnone

end

/-- **Which reads are exact**: along a run, each read that does not touch a page its device has
cached before the last call of the other one. -/
theorem reads_exact_of_fresh (cfg : Config) (bus : Bool) (devId ext4 ext5 : Nat) (b : Board)
    (hg : nandGetFlashType cfg bus devId ext4 ext5 = some b.g) (hplane : b.g.planenum = 2)
    (hrs : Silent b.rs) (s : MtdState) (hs : ∀ m, s.pagebuf m = none) (calls : List Call)
    (hfresh : EachStep (mark b) (Fresh b) (s, fun _ => false) calls) :
    EachStep (step b) (Exact b) s calls := by
  obtain ⟨w, p, n, h⟩ := nandGetFlashType_twoPlane hg hplane
  intro pre call post heq
  rw [heq, eachStep_append, eachStep_cons] at hfresh
  obtain ⟨hpre, hcall, -⟩ := hfresh
  have hinv := hpre.invariant (fun g => ∀ j, g.2 j = false → Coherent b j g.1)
    (fun g c hg hc j => mark_coherent h hrs hg hc j) pre fun m _ => coherent_of_none (hs m)
  rw [← mark_foldl b pre s fun _ => false]
  exact exact_of_served h hrs (hcall.served (hinv _))

/-! ### A chip to run on -/

/-- The chip of 1 GiB with an ECC unit of constant parity. -/
def board1G : Board where
  rs := flatRs
  g := chip1G
  eccpos := nandOob64.eccpos
  oobfree := [(2, 26)]
  iplOob := false
  subpages := true
  writeProtected := false
  bad := fun _ _ => false

/-- The state after `nand_scan_tail`, with 0x11 in all bytes of the first logical block and 0x22
in the others. -/
def scanned : MtdState where
  chip := { cells := fun row _ => if row < 128 then 0x11 else 0x22 }
  databuf := List.replicate 4096 0
  oobPoi := List.replicate 128 0
  pagebuf := fun _ => none
  stats := fun _ => ⟨0, 0⟩

/-- A chip of the same kind with 4 GiB. -/
def chip4G : Geometry := { chip1G with chipsize := 2 ^ 32, pagemask := 2 ^ 20 - 1, chipShift := 32 }

theorem chip4G_detected :
    nandGetFlashType ⟨true, false, 0⟩ false 0xD7 0x15 0x04 = some chip4G := by
  decide +kernel

/-- What a read of one byte returns after these calls, its data, and what is stored there. -/
def readAfter (b : Board) (s : MtdState) (calls : List Call) (m : Mtd) (offs : Nat) :
    Int × List UInt8 × List UInt8 :=
  let s := calls.foldl (step b) s
  ((nandRead b m offs 1 s).1, (nandRead b m offs 1 s).2.1, stored b m s.chip.cells offs 1)

/-- `jz_mtd` reads from its first block, `jz_mtd1` from the bytes of the second, and `jz_mtd`
again: it gets the byte of the other device.  At 2 GiB a device gets the byte it has
overwritten. -/
theorem read_other_page :
    readAfter board1G scanned [.read .jzMtd 0 1, .read .jzMtd1 chip1G.erasesize 1] .jzMtd 0
      = (0, [0x22], [0x11]) ∧
    nandGetFlashType ⟨true, false, 0⟩ false 0xD7 0x15 0x04 = some chip4G ∧
    readAfter { board1G with g := chip4G } scanned
      [.read .jzMtd (2 ^ 31) 1, .write .jzMtd (2 ^ 31) (List.replicate 4096 0)] .jzMtd (2 ^ 31)
      = (0, [0x22], [0x00]) :=
  ⟨by decide +kernel, chip4G_detected, by decide +kernel⟩

/-- Both devices read, `jz_mtd` then from another page, twice: the second time it is served from
the buffer again. -/
def takingTurns : List Call :=
  [.read .jzMtd 0 1, .read .jzMtd1 chip1G.erasesize 1, .read .jzMtd 0x2000 1, .read .jzMtd 0x2000 1]

theorem reads_exact_takingTurns :
    nandGetFlashType ⟨true, false, 0⟩ false 0xD3 0x15 0x04 = some board1G.g ∧
    EachStep (step board1G) (Exact board1G) scanned takingTurns := by
  refine ⟨chip1G_detected, reads_exact_of_fresh ⟨true, false, 0⟩ false 0xD3 0x15 0x04 board1G
    chip1G_detected rfl (fun _ _ => rfl) scanned (fun _ => rfl) _ ?_⟩
  have hcached : ((takingTurns.take 2).foldl (mark board1G) (scanned, fun _ => false)).1.pagebuf
      .jzMtd = some 0 := by decide +kernel
  have hmark : ((takingTurns.take 3).foldl (mark board1G) (scanned, fun _ => false)).2 .jzMtd
      = false := by decide +kernel
  refine eachStep_cons.mpr ⟨fun h => Bool.noConfusion h, eachStep_cons.mpr
    ⟨fun h => Bool.noConfusion h, eachStep_cons.mpr ⟨fun _ o ho ho' h => ?_, eachStep_cons.mpr
      ⟨fun h => Bool.noConfusion (hmark.symm.trans h), eachStep_nil _⟩⟩⟩⟩
  have hpage : 0 = o / 4096 := Option.some.inj (hcached.symm.trans h)
  omega

end Dingoo.Nand.Cache
