/-
What the first stage loads.

The pages an image may use are those of the blocks without a mark, in order
(`goodPages`).  The loop stands at a page whose block is not marked, or at the start of a
block it has yet to look at; from there it copies the first good pages, as many as are
still missing.  Every round leaves fewer pages between the current one and the end of the
chip, so the number of these pages bounds the rounds.
-/
import Dingoo.Lib.StateRun
import Dingoo.UBoot.NandLoad
import Dingoo.Proofs.RsCorrect
import Mathlib.Data.List.Range

namespace Dingoo.NandSpl

open Dingoo.Nand Dingoo.Lib

variable {rs : SymbolUnit} {cells : Nat → Nat → UInt8} {s : State} {page total copied : Nat}
  {weirdEcc : Bool}

/-! ### Memory -/

theorem store_nil (mem : Nat → UInt8) (a : Nat) : store mem a [] = mem := by
  funext x
  unfold store
  rw [if_neg (by simp)]

theorem store_append (mem : Nat → UInt8) (a : Nat) (l l' : List UInt8) :
    store (store mem a l) (a + l.length) l' = store mem a (l ++ l') := by
  funext x
  unfold store
  rw [List.length_append]
  by_cases hback : a + l.length ≤ x ∧ x < a + l.length + l'.length
  · rw [if_pos hback, if_pos (by omega), List.getD_append_right _ _ _ _ (by omega)]
    congr 1
    omega
  · rw [if_neg hback]
    by_cases hfront : a ≤ x ∧ x < a + l.length
    · rw [if_pos hfront, if_pos (by omega), List.getD_append _ _ _ _ (by omega)]
    · rw [if_neg hfront, if_neg (by omega)]

/-! ### Reading -/

/-- The bytes of a page from a column on. -/
def bytesAt (cells : Nat → Nat → UInt8) (page col n : Nat) : List UInt8 :=
  (List.range n).map fun k => cells page (col + k)

theorem nandReadBuf_eq (n : Nat) : ∀ s : State, nandReadBuf cells n s =
    (bytesAt cells s.bus.row s.bus.col n,
      { s with bus := { s.bus with col := s.bus.col + n } }) := by
  induction n with
  | zero =>
    intro s
    rfl
  | succ n ih =>
    intro s
    have hlist : bytesAt cells s.bus.row s.bus.col (n + 1)
        = cells s.bus.row s.bus.col :: bytesAt cells s.bus.row (s.bus.col + 1) n := by
      unfold bytesAt
      rw [List.range_succ_eq_map, List.map_cons, List.map_map]
      congr 1
      refine List.map_congr_left fun k _ => ?_
      show cells _ (s.bus.col + (k + 1)) = cells _ (s.bus.col + 1 + k)
      congr 1
      omega
    rw [hlist]
    unfold nandReadBuf
    simp only [run_bind, nandData8, ih, run_pure]
    have hcol : s.bus.col + 1 + n = s.bus.col + (n + 1) := by omega
    rw [hcol]

theorem low_byte (x : Nat) : x &&& 0xff = x % 256 := Nat.and_two_pow_sub_one_eq_mod x 8

/-- The address bytes put together again; three row bytes hold 24 bits. -/
theorem sendRead_eq (colAddr pageAddr : Nat) (hcol : colAddr < 65536) (s : State) :
    ∃ addr, sendRead colAddr pageAddr s
      = ((), { s with bus := ⟨addr, pageAddr % 16777216, colAddr⟩ }) := by
  have hcolumn : colAddr % 256 + 256 * (colAddr / 2 ^ 8 % 256) = colAddr := by omega
  have hrow : pageAddr % 256 + 256 * (pageAddr / 2 ^ 8 % 256)
      + 65536 * (pageAddr / 2 ^ 16 % 256) = pageAddr % 16777216 := by omega
  refine ⟨[colAddr % 256, colAddr / 2 ^ 8 % 256, pageAddr % 256, pageAddr / 2 ^ 8 % 256,
    pageAddr / 2 ^ 16 % 256], ?_⟩
  simp only [sendRead, cmdRead0, nandAddr, cmdReadStart, run_bind, run_modify, low_byte,
    Nat.shiftRight_eq_div_pow, List.nil_append, List.cons_append, List.getD_cons_zero,
    List.getD_cons_succ, hcolumn, hrow]

theorem nandReadOob_eq (cells : Nat → Nat → UInt8) (pageAddr size : Nat) (s : State) :
    ∃ bus, nandReadOob cells pageAddr size s
      = (bytesAt cells (pageAddr % 16777216) pageSize size, { s with bus := bus }) := by
  obtain ⟨addr, hsend⟩ := sendRead_eq pageSize pageAddr (by decide) s
  refine ⟨⟨addr, pageAddr % 16777216, pageSize + size⟩, ?_⟩
  unfold nandReadOob
  rw [run_bind, hsend]
  dsimp only
  rw [nandReadBuf_eq]

/-! ### Pages -/

theorem length_bytesAt (page col n : Nat) : (bytesAt cells page col n).length = n := by
  rw [bytesAt, List.length_map, List.length_range]

theorem foldl_correct_length (stat : RsStatus) (l : List Nat) (dat : List UInt8) :
    (l.foldl (fun dat k => rsCorrect dat (stat.report k).1 (stat.report k).2) dat).length
      = dat.length := by
  induction l generalizing dat with
  | nil => rfl
  | cons k l ih =>
    rw [List.foldl_cons, ih]
    exact jzsocRsCorrect_length dat _ _

theorem decodeBlock_length (data par : List UInt8) :
    (decodeBlock rs data par).length = data.length := by
  unfold decodeBlock
  dsimp only
  split
  · split
    · rfl
    · split
      · exact foldl_correct_length _ _ _
      · exact foldl_correct_length _ _ _
      · exact foldl_correct_length _ _ _
      · exact foldl_correct_length _ _ _
      · rfl
  · rfl

/-- Block `i` of a page as it is delivered. -/
def blockData (rs : SymbolUnit) (cells : Nat → Nat → UInt8) (weirdEcc : Bool) (page i : Nat) :
    List UInt8 :=
  decodeBlock rs (bytesAt cells page (i * 512) 512)
    (parity weirdEcc (bytesAt cells page pageSize oobSize) i)

/-- A page as it is delivered. -/
def pageData (rs : SymbolUnit) (cells : Nat → Nat → UInt8) (weirdEcc : Bool) (page : Nat) :
    List UInt8 :=
  (List.range 4).flatMap (blockData rs cells weirdEcc page)

theorem length_blockData (weirdEcc : Bool) (page i : Nat) :
    (blockData rs cells weirdEcc page i).length = 512 := by
  rw [blockData, decodeBlock_length, length_bytesAt]

theorem length_pageData (weirdEcc : Bool) (page : Nat) :
    (pageData rs cells weirdEcc page).length = pageSize := by
  simp [pageData, List.range_succ, length_blockData, pageSize]

/-- The error unit finds nothing wrong in any block of the page. -/
def Intact (rs : SymbolUnit) (cells : Nat → Nat → UInt8) (weirdEcc : Bool) (page : Nat) : Prop :=
  ∀ i < 4, (rs.decode (bytesAt cells page (i * 512) 512)
    (parity weirdEcc (bytesAt cells page pageSize oobSize) i)).err = false

theorem bytesAt_append (page col m n : Nat) :
    bytesAt cells page col m ++ bytesAt cells page (col + m) n
      = bytesAt cells page col (m + n) := by
  unfold bytesAt
  rw [List.range_add, List.map_append, List.map_map]
  congr 1
  refine List.map_congr_left fun k _ => ?_
  show cells page (col + m + k) = cells page (col + (m + k))
  rw [Nat.add_assoc]

theorem pageData_intact (h : Intact rs cells weirdEcc page) :
    pageData rs cells weirdEcc page = bytesAt cells page 0 pageSize := by
  have hblock : ∀ i < 4, blockData rs cells weirdEcc page i
      = bytesAt cells page (i * 512) 512 := by
    intro i hi
    unfold blockData decodeBlock
    dsimp only
    rw [h i hi, if_neg Bool.false_ne_true]
  have hjoin : ∀ n ≤ 4, (List.range n).flatMap (blockData rs cells weirdEcc page)
      = bytesAt cells page 0 (n * 512) := by
    intro n hn
    induction n with
    | zero => rfl
    | succ n ih =>
      rw [List.range_succ, List.flatMap_append, ih (by omega), List.flatMap_singleton,
        hblock n hn, Nat.succ_mul, ← bytesAt_append, Nat.zero_add]
  exact hjoin 4 (Nat.le_refl 4)

theorem readBlocks_eq (rs : SymbolUnit) (cells : Nat → Nat → UInt8) (weirdEcc : Bool)
    (dst page : Nat) : ∀ (count i : Nat) (s : State),
    s.bus.row = page → s.bus.col = i * 512 →
    ∃ bus, readBlocks rs cells weirdEcc dst (bytesAt cells page pageSize oobSize) count i s
      = ((), { s with
          bus := bus
          mem := store s.mem (dst + i * 512)
            ((List.range' i count).flatMap (blockData rs cells weirdEcc page)) }) := by
  intro count
  induction count with
  | zero =>
    intro i s _ _
    refine ⟨s.bus, ?_⟩
    rw [List.range'_zero, List.flatMap_nil, store_nil]
    rfl
  | succ count ih =>
    intro i s hrow hcol
    subst hrow
    unfold readBlocks
    rw [run_bind, nandReadBuf_eq, hcol]
    simp only [run_bind, run_modify]
    obtain ⟨bus, hrest⟩ := ih (i + 1)
      { s with
        bus := { s.bus with col := i * 512 + 512 }
        mem := store s.mem (dst + i * 512) (blockData rs cells weirdEcc s.bus.row i) }
      rfl (by show i * 512 + 512 = _; omega)
    refine ⟨bus, hrest.trans ?_⟩
    have haddr : dst + (i + 1) * 512 = dst + i * 512 + 512 := by omega
    rw [List.range'_succ, List.flatMap_cons, ← store_append, length_blockData, haddr]

theorem nandReadPage_eq (rs : SymbolUnit) (cells : Nat → Nat → UInt8) (weirdEcc : Bool)
    (hpage : page < 16777216) (dst : Nat) (s : State) :
    ∃ bus, nandReadPage rs cells weirdEcc page dst s
      = ((), { s with
          bus := bus
          mem := store s.mem dst (pageData rs cells weirdEcc page)
          copied := s.copied ++ [page] }) := by
  obtain ⟨bus, hoob⟩ := nandReadOob_eq cells page oobSize
    { s with copied := s.copied ++ [page] }
  obtain ⟨addr, hsend⟩ := sendRead_eq 0 page (by decide)
    { s with copied := s.copied ++ [page], bus := bus }
  rw [Nat.mod_eq_of_lt hpage] at hoob hsend
  obtain ⟨bus', hblocks⟩ := readBlocks_eq rs cells weirdEcc dst page 4 0
    { s with copied := s.copied ++ [page], bus := ⟨addr, page, 0⟩ } rfl rfl
  refine ⟨bus', ?_⟩
  unfold nandReadPage
  rw [run_bind, run_modify, run_bind, hoob]
  dsimp only
  rw [run_bind, hsend]
  dsimp only
  rw [hblocks, Nat.zero_mul, Nat.add_zero, pageData, List.range_eq_range']

/-! ### Bad blocks -/

/-- The marker byte of the block's flag page. -/
def badBlock (cells : Nat → Nat → UInt8) (block : Nat) : Bool :=
  decide (cells (block * pagePerBlock + badblockPage) (pageSize + badBlockPos) ≠ 0xff)

/-- The pages from `page` on of a chip with `total` pages, those of bad blocks left out. -/
def goodPages (cells : Nat → Nat → UInt8) (total page : Nat) : List Nat :=
  (List.range' page (total - page)).filter fun p => !badBlock cells (p / pagePerBlock)

theorem mem_goodPages {p : Nat} : p ∈ goodPages cells total page ↔
    page ≤ p ∧ p < total ∧ badBlock cells (p / pagePerBlock) = false := by
  unfold goodPages
  rw [List.mem_filter, List.mem_range'_1, Bool.not_eq_true', ← and_assoc]
  refine and_congr_left fun _ => ?_
  omega

theorem goodPages_sorted (total page : Nat) :
    (goodPages cells total page).Pairwise (· < ·) :=
  (List.pairwise_lt_range' 1).filter _

theorem goodPages_end (total : Nat) : goodPages cells total total = [] := by
  rw [goodPages, Nat.sub_self, List.range'_zero, List.filter_nil]

theorem goodPages_cons (hlt : page < total) (hgood : badBlock cells (page / pagePerBlock) = false) :
    goodPages cells total page = page :: goodPages cells total (page + 1) := by
  have hlen : total - page = total - (page + 1) + 1 := by omega
  unfold goodPages
  rw [hlen, List.range'_succ, List.filter_cons_of_pos (by simp [hgood])]

theorem goodPages_skip (hstart : page % pagePerBlock = 0) (hle : page + pagePerBlock ≤ total)
    (hbad : badBlock cells (page / pagePerBlock) = true) :
    goodPages cells total page = goodPages cells total (page + pagePerBlock) := by
  have hlen : total - page = pagePerBlock + (total - (page + pagePerBlock)) := by omega
  unfold goodPages
  rw [hlen, ← List.range'_append_1, List.filter_append]
  have hnone : (List.range' page pagePerBlock).filter
      (fun p => !badBlock cells (p / pagePerBlock)) = [] := by
    rw [List.filter_eq_nil_iff]
    intro p hp
    rw [List.mem_range'_1] at hp
    have hblock : p / pagePerBlock = page / pagePerBlock := by
      unfold pagePerBlock at hstart hp ⊢
      omega
    simp [hblock, hbad]
  rw [hnone, List.nil_append]

theorem skipsBlock_eq (cells : Nat → Nat → UInt8) (page : Nat)
    (hpage : page % pagePerBlock = 0 → page + badblockPage < 16777216) (s : State) :
    ∃ bus, skipsBlock cells page s
      = (decide (page % pagePerBlock = 0) && badBlock cells (page / pagePerBlock),
          { s with bus := bus }) := by
  unfold skipsBlock
  by_cases hstart : page % pagePerBlock = 0
  · obtain ⟨bus, hoob⟩ := nandReadOob_eq cells (page + badblockPage) oobSize s
    rw [Nat.mod_eq_of_lt (hpage hstart)] at hoob
    refine ⟨bus, ?_⟩
    have hflag : page / pagePerBlock * pagePerBlock + badblockPage = page + badblockPage := by
      unfold pagePerBlock at hstart ⊢
      omega
    rw [if_pos hstart]
    have hbyte : (bytesAt cells (page + badblockPage) pageSize oobSize).getD badBlockPos 0
        = cells (page + badblockPage) (pageSize + badBlockPos) := by
      simp [bytesAt, badBlockPos, oobSize]
    simp only [run_bind, hoob, run_pure, hstart, decide_true, Bool.true_and, badBlock, hflag, hbyte]
  · refine ⟨s.bus, ?_⟩
    rw [if_neg hstart]
    simp [hstart]

/-! ### The image -/

/-- A state after the pages `l` have been delivered. -/
def Delivered (rs : SymbolUnit) (cells : Nat → Nat → UInt8) (weirdEcc : Bool) (l : List Nat)
    (s s' : State) : Prop :=
  s'.mem = store s.mem s.imageDst (l.flatMap (pageData rs cells weirdEcc)) ∧
  s'.imageDst = s.imageDst + l.length * pageSize ∧ s'.copied = s.copied ++ l

theorem delivered_nil (weirdEcc : Bool) : Delivered rs cells weirdEcc [] s s := by
  refine ⟨?_, ?_, ?_⟩
  · rw [List.flatMap_nil, store_nil]
  · rw [List.length_nil, Nat.zero_mul, Nat.add_zero]
  · rw [List.append_nil]

theorem Delivered.cons {l : List Nat} {bus : Bus} {s' : State}
    (h : Delivered rs cells weirdEcc l
      { bus := bus
        mem := store s.mem s.imageDst (pageData rs cells weirdEcc page)
        imageDst := s.imageDst + pageSize
        copied := s.copied ++ [page] } s') :
    Delivered rs cells weirdEcc (page :: l) s s' := by
  obtain ⟨hmem, hdst, hcopied⟩ := h
  refine ⟨?_, ?_, ?_⟩
  · rw [hmem, List.flatMap_cons, ← store_append, length_pageData]
  · rw [hdst, List.length_cons, Nat.succ_mul]
    show s.imageDst + pageSize + l.length * pageSize = _
    omega
  · rw [hcopied, List.append_assoc, List.singleton_append]

/-- The loop enters a block at its first page, so within one the block is good. -/
def EntersGood (cells : Nat → Nat → UInt8) (page : Nat) : Prop :=
  page % pagePerBlock = 0 ∨ badBlock cells (page / pagePerBlock) = false

theorem entersGood_succ (hgood : badBlock cells (page / pagePerBlock) = false) :
    EntersGood cells (page + 1) := by
  by_cases hnext : (page + 1) % pagePerBlock = 0
  · exact Or.inl hnext
  · have hsame : (page + 1) / pagePerBlock = page / pagePerBlock := by
      unfold pagePerBlock at hnext ⊢
      omega
    right
    rw [hsame]
    exact hgood

theorem loadLoop_skip (rs : SymbolUnit) (img : Image) (hmore : copied < img.size / pageSize)
    (hpage : page + badblockPage < 16777216) (hstart : page % pagePerBlock = 0)
    (hbad : badBlock cells (page / pagePerBlock) = true) (fuel : Nat) (s : State) :
    ∃ bus, loadLoop rs cells img (fuel + 1) page copied s
      = loadLoop rs cells img fuel (page + pagePerBlock) copied { s with bus := bus } := by
  obtain ⟨bus, hskip⟩ := skipsBlock_eq cells page (fun _ => hpage) s
  refine ⟨bus, ?_⟩
  conv_lhs => unfold loadLoop
  rw [if_pos hmore, hskip, hstart, hbad]
  rfl

theorem loadLoop_copy (rs : SymbolUnit) (img : Image) (hmore : copied < img.size / pageSize)
    (hpage : page < 16777216) (hflag : page % pagePerBlock = 0 → page + badblockPage < 16777216)
    (hgood : badBlock cells (page / pagePerBlock) = false) (fuel : Nat) (s : State) :
    ∃ bus, loadLoop rs cells img (fuel + 1) page copied s
      = loadLoop rs cells img fuel (page + 1) (copied + 1)
          { bus := bus
            mem := store s.mem s.imageDst (pageData rs cells img.weirdEcc page)
            imageDst := s.imageDst + pageSize
            copied := s.copied ++ [page] } := by
  obtain ⟨bus, hskip⟩ := skipsBlock_eq cells page hflag s
  obtain ⟨bus', hread⟩ := nandReadPage_eq rs cells img.weirdEcc hpage s.imageDst
    { s with bus := bus }
  refine ⟨bus', ?_⟩
  conv_lhs => unfold loadLoop
  rw [if_pos hmore, hskip, hgood, Bool.and_false]
  dsimp only
  rw [hread]

/-- The loop from a page on, induction on the rounds it is given: more than there are pages
between that page and the end of the chip. -/
theorem loadLoop_delivered (htotal : total % pagePerBlock = 0) (hfit : total ≤ 16777216)
    (img : Image) : ∀ (fuel page copied : Nat) (s : State),
    total - page < fuel → page ≤ total → EntersGood cells page →
    img.size / pageSize - copied ≤ (goodPages cells total page).length →
    ∃ s', loadLoop rs cells img fuel page copied s = some s' ∧
      Delivered rs cells img.weirdEcc
        ((goodPages cells total page).take (img.size / pageSize - copied)) s s' := by
  intro fuel
  induction fuel with
  | zero =>
    intro page copied s hfuel
    omega
  | succ fuel ih =>
    intro page copied s hfuel hle henters henough
    by_cases hmore : copied < img.size / pageSize
    swap
    · rw [Nat.sub_eq_zero_of_le (Nat.not_lt.mp hmore), List.take_zero]
      exact ⟨s, if_neg hmore, delivered_nil img.weirdEcc⟩
    have hlt : page < total := by
      refine Nat.lt_of_le_of_ne hle fun heq => ?_
      rw [heq, goodPages_end, List.length_nil] at henough
      omega
    have hblock : page % pagePerBlock = 0 → page + pagePerBlock ≤ total := by
      unfold pagePerBlock at htotal ⊢
      omega
    have hflag : page % pagePerBlock = 0 → page + badblockPage < 16777216 := by
      intro hstart
      have hend := hblock hstart
      unfold badblockPage
      unfold pagePerBlock at hend
      omega
    cases hmark : badBlock cells (page / pagePerBlock) with
    | true =>
      -- nothing of a marked block is among the good pages
      have hstart : page % pagePerBlock = 0 :=
        henters.resolve_right (by rw [hmark]; exact Bool.noConfusion)
      have hend := hblock hstart
      obtain ⟨bus, hround⟩ := loadLoop_skip rs img hmore (hflag hstart) hstart hmark fuel s
      rw [goodPages_skip hstart hend hmark] at henough ⊢
      rw [hround]
      refine ih (page + pagePerBlock) copied { s with bus := bus } ?_ hend ?_ henough
      · unfold pagePerBlock at hend ⊢
        omega
      · left
        rw [Nat.add_mod_right]
        exact hstart
    | false =>
      obtain ⟨bus, hround⟩ :=
        loadLoop_copy rs img hmore (Nat.lt_of_lt_of_le hlt hfit) hflag hmark fuel s
      rw [goodPages_cons hlt hmark] at henough ⊢
      rw [List.length_cons] at henough
      obtain ⟨s', hloop, hdel⟩ := ih (page + 1) (copied + 1) _ (by omega) hlt
        (entersGood_succ hmark) (by omega)
      have htake : img.size / pageSize - copied
          = img.size / pageSize - (copied + 1) + 1 := by omega
      rw [hround, htake, List.take_succ_cons]
      exact ⟨s', hloop, hdel.cons⟩

theorem nandLoad_delivered (rs : SymbolUnit) {blocks : Nat}
    (hfit : blocks * pagePerBlock ≤ 16777216) (img : Image)
    (hstart : img.offs / pageSize % pagePerBlock = 0)
    (henough : img.size / pageSize
      ≤ (goodPages cells (blocks * pagePerBlock) (img.offs / pageSize)).length) (s : State) :
    ∃ fuel s', nandLoad rs cells img fuel s = some s' ∧ Delivered rs cells img.weirdEcc
      ((goodPages cells (blocks * pagePerBlock) (img.offs / pageSize)).take
        (img.size / pageSize)) s s' := by
  rcases Nat.lt_or_ge (blocks * pagePerBlock) (img.offs / pageSize) with hout | hin
  · -- behind the chip there is nothing, so nothing is asked for
    have hnone : goodPages cells (blocks * pagePerBlock) (img.offs / pageSize) = [] := by
      rw [goodPages, Nat.sub_eq_zero_of_le hout.le, List.range'_zero, List.filter_nil]
    rw [hnone, List.length_nil] at henough
    refine ⟨1, s, if_neg (by omega), ?_⟩
    rw [hnone, List.take_nil]
    exact delivered_nil img.weirdEcc
  · have hblocks : blocks * pagePerBlock % pagePerBlock = 0 := Nat.mul_mod_left _ _
    obtain ⟨s', h⟩ := loadLoop_delivered hblocks hfit img _ (img.offs / pageSize) 0 s
      (Nat.lt_succ_self _) hin (Or.inl hstart) henough
    exact ⟨_, s', h⟩

theorem length_flatMap_pageData (weirdEcc : Bool) (l : List Nat) :
    (l.flatMap (pageData rs cells weirdEcc)).length = l.length * pageSize := by
  induction l with
  | nil => simp
  | cons page l ih =>
    rw [List.flatMap_cons, List.length_append, ih, length_pageData, List.length_cons,
      Nat.succ_mul, Nat.add_comm]

/-- **The loader ends, and delivers the first good pages, as many as the image has, in order
and each once, to the destination and nowhere else.** -/
theorem nandLoad_delivers (rs : SymbolUnit) (cells : Nat → Nat → UInt8) {blocks : Nat}
    (hfit : blocks * pagePerBlock ≤ 16777216) (img : Image)
    (halign : img.offs % (pagePerBlock * pageSize) = 0) (hsize : img.size % pageSize = 0)
    (henough : img.size / pageSize
      ≤ (goodPages cells (blocks * pagePerBlock) (img.offs / pageSize)).length) (s : State) :
    ∃ fuel s' l, nandLoad rs cells img fuel s = some s' ∧
      l = (goodPages cells (blocks * pagePerBlock) (img.offs / pageSize)).take
        (img.size / pageSize) ∧
      s'.copied = s.copied ++ l ∧ l.Pairwise (· < ·) ∧
      (∀ page ∈ l, img.offs / pageSize ≤ page ∧ badBlock cells (page / pagePerBlock) = false) ∧
      s'.mem = store s.mem s.imageDst (l.flatMap (pageData rs cells img.weirdEcc)) ∧
      (l.flatMap (pageData rs cells img.weirdEcc)).length = img.size ∧
      s'.imageDst = s.imageDst + img.size ∧
      ∀ page, Intact rs cells img.weirdEcc page →
        pageData rs cells img.weirdEcc page = bytesAt cells page 0 pageSize := by
  have hcount : img.size / pageSize * pageSize = img.size :=
    Nat.div_mul_cancel (Nat.dvd_of_mod_eq_zero hsize)
  have hstart : img.offs / pageSize % pagePerBlock = 0 := by
    unfold pagePerBlock pageSize at halign ⊢
    omega
  obtain ⟨fuel, s', hload, hmem, hdst, hcopied⟩ := nandLoad_delivered rs hfit img hstart henough s
  have hlen : ((goodPages cells (blocks * pagePerBlock) (img.offs / pageSize)).take
      (img.size / pageSize)).length = img.size / pageSize := by
    rw [List.length_take]
    exact Nat.min_eq_left henough
  refine ⟨fuel, s', _, hload, rfl, hcopied, (goodPages_sorted _ _).take, ?_, hmem, ?_, ?_,
    fun page => pageData_intact⟩
  · intro page hpage
    obtain ⟨hge, -, hgood⟩ := mem_goodPages.mp (List.mem_of_mem_take hpage)
    exact ⟨hge, hgood⟩
  · rw [length_flatMap_pageData, hlen, hcount]
  · rw [hdst, hlen, hcount]

/-- An error unit that never finds anything. -/
def silentUnit : SymbolUnit where
  encode := fun _ => List.replicate 9 0xff
  decode := fun _ _ => ⟨false, false, 0, fun _ => (1, 0)⟩
  encode_length := fun _ => rfl
  decode_encode := fun _ => rfl
  index_pos := fun _ _ _ => Nat.le_refl 1

/-- An erased chip with a mark on its first block. -/
def markedFirst (page col : Nat) : UInt8 := if page = 127 ∧ col = 2048 then 0 else 0xff

theorem goodPages_markedFirst :
    goodPages markedFirst 256 0 = 128 :: 129 :: goodPages markedFirst 256 130 := by
  have hbad : badBlock markedFirst (0 / pagePerBlock) = true := by decide
  have hgood : badBlock markedFirst (128 / pagePerBlock) = false := by decide
  have hgood' : badBlock markedFirst (129 / pagePerBlock) = false := by decide
  rw [goodPages_skip rfl (by decide) hbad]
  show goodPages markedFirst 256 128 = _
  rw [goodPages_cons (by decide) hgood, goodPages_cons (by decide) hgood']

/-- Two pages from the start of such a chip are the first two of the second block. -/
theorem nandLoad_delivers_second_block :
    4096 / pageSize ≤ (goodPages markedFirst (2 * pagePerBlock) (0 / pageSize)).length ∧
    ∃ fuel s', nandLoad silentUnit markedFirst ⟨true, 0, 4096⟩ fuel
        ⟨⟨[], 0, 0⟩, fun _ => 0, 0x80E00000, []⟩ = some s' ∧
      s'.copied = [128, 129] ∧ s'.imageDst = 0x80E01000 := by
  have hpages : goodPages markedFirst (2 * pagePerBlock) (0 / pageSize)
      = 128 :: 129 :: goodPages markedFirst 256 130 := goodPages_markedFirst
  have henough : 4096 / pageSize
      ≤ (goodPages markedFirst (2 * pagePerBlock) (0 / pageSize)).length := by
    rw [hpages, List.length_cons, List.length_cons]
    exact Nat.le_add_left 2 _
  obtain ⟨fuel, s', l, hload, hl, hcopied, -, -, -, -, hdst, -⟩ :=
    nandLoad_delivers silentUnit markedFirst (by decide) ⟨true, 0, 4096⟩ (by decide) (by decide)
      henough ⟨⟨[], 0, 0⟩, fun _ => 0, 0x80E00000, []⟩
  refine ⟨henough, fuel, s', hload, ?_, hdst⟩
  rw [hcopied, hl, hpages]
  rfl

end Dingoo.NandSpl
