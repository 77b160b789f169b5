/-
The IPU memory allocator keeps a well-formed heap, and reports it correctly.

Read as half-open intervals of naturals the list is `Gapped` between the base and
four megabytes above it.  That one fact makes every 32 bit subtraction of the walks
a true difference, so `findGap` is `firstFit` and `largestGap` is `maxGap` of
`Lib/Intervals.lean`, and the two facts about the allocator become the two results
of that file: first fit keeps the list gapped, and it succeeds exactly when the
largest gap is large enough.
-/
import Dingoo.Lib.Intervals
import Dingoo.Linux.Imem
import Mathlib.Tactic.IntervalCases
import Mathlib.Tactic.Positivity

namespace Dingoo.Imem

open Dingoo.Lib

variable {st : State} {order : Nat} {endw base start : BitVec 32} {l : List ImemList}

/-- A buffer as a half-open interval. -/
def toRange (x : ImemList) : Nat × Nat := (x.physStart.toNat, x.physEnd.toNat + 1)

theorem orderSize_toNat (h : order ≤ 10) : (orderSize order).toNat = 2 ^ order * 4096 := by
  interval_cases order <;> rfl

/-! ### The walks read as intervals -/

theorem gap_toNat {x : ImemList} (hg : Gapped start.toNat endw.toNat ((x :: l).map toRange)) :
    (x.physStart - start).toNat = x.physStart.toNat - start.toNat ∧
    (x.physEnd + 1).toNat = x.physEnd.toNat + 1 ∧
    Gapped (x.physEnd + 1).toNat endw.toNat (l.map toRange) := by
  obtain ⟨hb, hr, hl⟩ := hg
  have hnext : (x.physEnd + 1).toNat = x.physEnd.toNat + 1 := by
    have hle : x.physEnd.toNat + 1 ≤ endw.toNat := hl.le
    have := endw.isLt
    rw [BitVec.toNat_add, show (1 : BitVec 32).toNat = 1 from rfl]
    omega
  refine ⟨BitVec.toNat_sub_of_le (by rw [BitVec.le_def]; exact hb), hnext, ?_⟩
  rw [hnext]
  exact hl

theorem end_toNat (hg : Gapped start.toNat endw.toNat []) :
    (endw - start).toNat = endw.toNat - start.toNat :=
  BitVec.toNat_sub_of_le (by rw [BitVec.le_def]; exact hg)

theorem findGap_firstFit {size endw : BitVec 32} : ∀ (l : List ImemList) (start : BitVec 32),
    Gapped start.toNat endw.toNat (l.map toRange) →
    firstFit size.toNat start.toNat endw.toNat (l.map toRange)
      = if (findGap size start l).1 = true ∨ endw - (findGap size start l).2 ≥ size
        then some (findGap size start l).2.toNat else none := by
  intro l
  induction l with
  | nil =>
    intro start hg
    simp [firstFit, findGap, BitVec.le_def, end_toNat hg]
  | cons x l ih =>
    intro start hg
    obtain ⟨hsub, hnext, hl⟩ := gap_toNat hg
    have hcond : (x.physStart - start ≥ size) ↔ size.toNat ≤ x.physStart.toNat - start.toNat := by
      rw [ge_iff_le, BitVec.le_def, hsub]
    simp only [List.map_cons, firstFit, findGap, toRange, hcond]
    split
    · simp
    · rw [← hnext]
      exact ih _ hl

theorem largestGap_maxGap : ∀ (l : List ImemList) (m start : BitVec 32),
    Gapped start.toNat endw.toNat (l.map toRange) →
    max m.toNat (maxGap start.toNat endw.toNat (l.map toRange))
      = max (largestGap m start l).1.toNat (endw - (largestGap m start l).2).toNat := by
  intro l
  induction l with
  | nil =>
    intro m start hg
    simp [largestGap, maxGap, end_toNat hg]
  | cons x l ih =>
    intro m start hg
    obtain ⟨hsub, hnext, hl⟩ := gap_toNat hg
    simp only [List.map_cons, maxGap, largestGap, toRange]
    rw [← ih _ _ hl, hnext]
    split
    · rename_i h
      rw [BitVec.lt_def, hsub] at h
      rw [hsub]
      omega
    · rename_i h
      rw [BitVec.lt_def, hsub] at h
      omega

theorem insertSorted_toRange (n : ImemList) : ∀ (l : List ImemList),
    (insertSorted n l).map toRange = insertRange (toRange n) (l.map toRange) := by
  intro l
  induction l with
  | nil => rfl
  | cons x l ih =>
    simp only [insertSorted, List.map_cons, insertRange, BitVec.lt_def]
    by_cases h : n.physStart.toNat < x.physStart.toNat
    · rw [if_pos h, if_pos (by exact h)]
      rfl
    · rw [if_neg h, if_neg (by exact h), List.map_cons, ih]

theorem insertSorted_mem {n x : ImemList} : ∀ (l : List ImemList),
    x ∈ insertSorted n l ↔ x = n ∨ x ∈ l := by
  intro l
  induction l with
  | nil => simp [insertSorted]
  | cons y l ih =>
    simp only [insertSorted]
    split
    · simp
    · simp only [List.mem_cons, ih]
      tauto

theorem insertSorted_length (n : ImemList) : ∀ (l : List ImemList),
    (insertSorted n l).length = l.length + 1 := by
  intro l
  induction l with
  | nil => rfl
  | cons x l ih =>
    simp only [insertSorted]
    split
    · simp
    · simp [ih]

theorem freeList_sublist (a : BitVec 32) : ∀ (l : List ImemList), (freeList a l).Sublist l := by
  intro l
  induction l with
  | nil => exact List.Sublist.refl _
  | cons x l ih =>
    simp only [freeList]
    split
    · exact List.sublist_cons_self x l
    · exact ih.cons_cons x

/-! ### The heap invariant -/

/-- The list lies gapped in the four megabytes, in page runs of a power of two. -/
structure ImemOK (base : BitVec 32) (l : List ImemList) : Prop where
  gapped : Gapped base.toNat (base + orderSize imemMaxOrder).toNat (l.map toRange)
  aligned : ∀ x ∈ l, 4096 ∣ x.physStart.toNat - base.toNat
  pages : ∀ x ∈ l, ∃ k, k ≤ 10 ∧ x.physEnd.toNat + 1 = x.physStart.toNat + 2 ^ k * 4096

theorem firstFit_aligned (h : ImemOK base l) {size a : Nat}
    (hfit : firstFit size base.toNat (base + orderSize imemMaxOrder).toNat (l.map toRange)
      = some a) : 4096 ∣ a - base.toNat := by
  rcases firstFit_mem _ hfit with rfl | ⟨r, hr, rfl⟩
  · simp
  · obtain ⟨x, hx, rfl⟩ := List.mem_map.mp hr
    obtain ⟨k, -, hk⟩ := h.pages x hx
    have hlo := (Gapped.mem _ h.gapped hr).1
    simp only [toRange] at hlo ⊢
    rw [hk, show x.physStart.toNat + 2 ^ k * 4096 - base.toNat
      = (x.physStart.toNat - base.toNat) + 2 ^ k * 4096 by omega]
    exact Nat.dvd_add (h.aligned x hx) (Nat.dvd_mul_left _ _)

theorem imemFree_ok (h : ImemOK base st.list) (a : BitVec 32) :
    ImemOK base (imemFree a st).list := by
  have hsub := freeList_sublist a st.list
  exact ⟨h.gapped.sublist (hsub.map toRange), fun x hx => h.aligned x (hsub.subset hx),
    fun x hx => h.pages x (hsub.subset hx)⟩

theorem toRange_order (ho : order ≤ 10) (hlt : start.toNat + 2 ^ order * 4096 < 2 ^ 32) :
    toRange ⟨start, start + orderSize order - 1⟩
      = (start.toNat, start.toNat + 2 ^ order * 4096) := by
  have hpos : 0 < 2 ^ order * 4096 := by positivity
  have hadd : (start + orderSize order).toNat = start.toNat + 2 ^ order * 4096 := by
    rw [BitVec.toNat_add, orderSize_toNat ho]
    exact Nat.mod_eq_of_lt hlt
  have hone : (start + orderSize order - 1).toNat = start.toNat + 2 ^ order * 4096 - 1 := by
    rw [BitVec.toNat_sub_of_le, hadd]
    · rfl
    · rw [BitVec.le_def, hadd]
      show 1 ≤ _
      omega
  simp only [toRange, hone]
  congr 1
  omega

section

variable (hbase : base.toNat + 4194304 < 2 ^ 32)

include hbase

theorem end_eq : (base + orderSize imemMaxOrder).toNat = base.toNat + 4194304 := by
  rw [BitVec.toNat_add, orderSize_toNat (by decide), show 2 ^ imemMaxOrder * 4096 = 4194304 by rfl]
  exact Nat.mod_eq_of_lt hbase

theorem imemOK_nil : ImemOK base [] :=
  ⟨by show base.toNat ≤ _; rw [end_eq hbase]; omega, by simp, by simp⟩

theorem imemAlloc_cases (h : ImemOK base st.list) (ho : order ≤ 10) (kmalloc : Bool) :
    (∃ a : BitVec 32, firstFit (2 ^ order * 4096) base.toNat
        (base + orderSize imemMaxOrder).toNat (st.list.map toRange) = some a.toNat ∧
      base.toNat ≤ a.toNat ∧
      toRange ⟨a, a + orderSize order - 1⟩ = (a.toNat, a.toNat + 2 ^ order * 4096) ∧
      (imemAlloc base kmalloc order st).2.allocatedPhysAddr = a ∧
      (imemAlloc base kmalloc order st).2.list
        = if kmalloc then insertSorted ⟨a, a + orderSize order - 1⟩ st.list else st.list) ∨
    (firstFit (2 ^ order * 4096) base.toNat (base + orderSize imemMaxOrder).toNat
        (st.list.map toRange) = none ∧
      (imemAlloc base kmalloc order st).2 = { st with allocatedPhysAddr := 0 }) := by
  have hsize := orderSize_toNat ho
  have hfit := @findGap_firstFit (orderSize order) _ st.list base h.gapped
  rw [hsize] at hfit
  set start := (findGap (orderSize order) base st.list).2 with hstart
  by_cases hok : (findGap (orderSize order) base st.list).1 = true ∨
      base + orderSize imemMaxOrder - start ≥ orderSize order
  · rw [if_pos hok] at hfit
    have hpos : 0 < 2 ^ order * 4096 := by positivity
    have hge := firstFit_ge _ h.gapped hfit
    have hin := gapped_insertRange hpos _ h.gapped hfit
    have hhi := (Gapped.mem _ hin ((mem_insertRange _).mpr (Or.inl rfl))).2.2
    rw [end_eq hbase] at hhi
    refine Or.inl ⟨start, hfit, hge, toRange_order ho (by omega), ?_⟩
    have halloc : (if (findGap (orderSize order) base st.list).1 then true
        else decide (base + orderSize imemMaxOrder - start ≥ orderSize order)) = true := by
      rcases hok with hok | hok
      · simp [hok]
      · simp [hok]
    unfold imemAlloc
    simp only [← hstart, halloc, if_true]
    cases kmalloc <;> exact ⟨rfl, rfl⟩
  · rw [if_neg hok] at hfit
    have halloc : (if (findGap (orderSize order) base st.list).1 then true
        else decide (base + orderSize imemMaxOrder - start ≥ orderSize order)) = false := by
      simp only [not_or] at hok
      simp [hok.1, hok.2]
    refine Or.inr ⟨hfit, ?_⟩
    unfold imemAlloc
    simp only [← hstart, halloc]
    rfl

theorem imemAlloc_ok (h : ImemOK base st.list) (ho : order ≤ 10) (kmalloc : Bool) :
    ImemOK base (imemAlloc base kmalloc order st).2.list := by
  rcases imemAlloc_cases hbase h ho kmalloc with ⟨a, hfit, hge, hrange, -, hlist⟩ | ⟨-, hst⟩
  · rw [hlist]
    cases kmalloc with
    | false => exact h
    | true =>
      refine ⟨?_, ?_, ?_⟩
      · rw [if_pos rfl, insertSorted_toRange, hrange]
        exact gapped_insertRange (by positivity) _ h.gapped hfit
      · intro x hx
        rcases (insertSorted_mem _).mp hx with rfl | hx
        · exact firstFit_aligned h hfit
        · exact h.aligned x hx
      · intro x hx
        rcases (insertSorted_mem _).mp hx with rfl | hx
        · exact ⟨order, ho, congrArg Prod.snd hrange⟩
        · exact h.pages x hx
  · rw [hst]
    exact h

theorem imemWriteProc_ok (h : ImemOK base st.list) (kmalloc : Bool) (val : BitVec 32) :
    ImemOK base (imemWriteProc base kmalloc val st).list := by
  unfold imemWriteProc
  split
  · exact imemOK_nil hbase
  · split
    · rename_i hval
      exact imemAlloc_ok hbase h hval kmalloc
    · exact imemFree_ok h val

theorem runWrites_ok (writes : List (BitVec 32 × Bool)) :
    ImemOK base (runWrites base writes).list := by
  refine List.foldlRecOn (motive := fun st : State => ImemOK base st.list) writes _
    (imemOK_nil hbase) ?_
  intro st h w _
  exact imemWriteProc_ok hbase h w.2 w.1

end

/-! ### What the invariant says -/

/-- The operands of the gap subtractions of a walk over the whole list, in the order
the walk makes them.  `imem_read_proc` makes all of them, `imem_alloc` the first ones
and, when none of the gaps fits, the last one. -/
def gapOperands (endw : BitVec 32) : BitVec 32 → List ImemList → List (BitVec 32 × BitVec 32)
  | start, [] => [(endw, start)]
  | start, imem :: next => (imem.physStart, start) :: gapOperands endw (imem.physEnd + 1) next

theorem gapOperands_le : ∀ (l : List ImemList) (start : BitVec 32),
    Gapped start.toNat endw.toNat (l.map toRange) →
    ∀ p ∈ gapOperands endw start l, p.2 ≤ p.1 := by
  intro l
  induction l with
  | nil =>
    intro start hg p hp
    rw [List.mem_singleton.mp hp, BitVec.le_def]
    exact hg
  | cons x l ih =>
    intro start hg p hp
    rcases List.mem_cons.mp hp with rfl | hp
    · rw [BitVec.le_def]
      exact hg.1
    · exact ih _ (gap_toNat hg).2.2 p hp

/-- A buffer holds the address `a`. -/
def ImemList.Holds (x : ImemList) (a : BitVec 32) : Prop := x.physStart ≤ a ∧ a ≤ x.physEnd

/-- **The heap is well formed after every sequence of writes**, whatever the values
and whichever `kmalloc` calls fail: sorted, disjoint, inside the four megabytes, in
aligned runs of `2^k` pages, and no gap subtraction wraps. -/
theorem runWrites_heap (base : BitVec 32) (hbase : base.toNat + 4194304 < 2 ^ 32)
    (writes : List (BitVec 32 × Bool)) :
    (runWrites base writes).list.Pairwise (fun x y => x.physStart < y.physStart) ∧
    (runWrites base writes).list.Pairwise (fun x y => ∀ a, ¬ (x.Holds a ∧ y.Holds a)) ∧
    (∀ x ∈ (runWrites base writes).list,
      base.toNat ≤ x.physStart.toNat ∧ x.physEnd.toNat < base.toNat + 4194304 ∧
      (x.physStart.toNat - base.toNat) % 4096 = 0 ∧
      ∃ k, k ≤ 10 ∧ x.physEnd.toNat + 1 = x.physStart.toNat + 2 ^ k * 4096) ∧
    (∀ p ∈ gapOperands (base + orderSize imemMaxOrder) base (runWrites base writes).list,
      p.2 ≤ p.1) := by
  have h := runWrites_ok hbase writes
  generalize (runWrites base writes).list = l at *
  have hmem : ∀ x ∈ l, base.toNat ≤ x.physStart.toNat ∧ x.physStart.toNat ≤ x.physEnd.toNat ∧
      x.physEnd.toNat < base.toNat + 4194304 := by
    intro x hx
    obtain ⟨h1, h2, h3⟩ := Gapped.mem _ h.gapped (List.mem_map_of_mem hx)
    rw [end_eq hbase] at h3
    simp only [toRange] at h1 h2 h3
    omega
  have hpair : l.Pairwise fun x y => x.physEnd.toNat + 1 ≤ y.physStart.toNat :=
    List.pairwise_map.mp (Gapped.pairwise _ h.gapped)
  refine ⟨?_, ?_, ?_, gapOperands_le l base h.gapped⟩
  · refine hpair.imp_of_mem fun {x y} hx hy hxy => ?_
    have := (hmem x hx).2.1
    rw [BitVec.lt_def]
    omega
  · refine hpair.imp fun {x y} hxy a => ?_
    rintro ⟨⟨-, hax⟩, hay, -⟩
    rw [BitVec.le_def] at hax hay
    omega
  · intro x hx
    obtain ⟨h1, -, h3⟩ := hmem x hx
    exact ⟨h1, h3, Nat.mod_eq_zero_of_dvd (h.aligned x hx), h.pages x hx⟩

/-- Two buffers, a failed node allocation, a buffer freed and its hole used again. -/
theorem runWrites_heap_sample :
    (runWrites 0x3c00000 [(1, true), (0, true), (2, false), (0x3c00000, true), (0, true)]).list
        = [⟨0x3c00000, 0x3c00fff⟩, ⟨0x3c02000, 0x3c02fff⟩] ∧
      ∀ p ∈ gapOperands (0x3c00000 + orderSize imemMaxOrder) 0x3c00000
        [⟨0x3c00000, 0x3c00fff⟩, ⟨0x3c02000, 0x3c02fff⟩], p.2 ≤ p.1 := by
  have hrun : (runWrites 0x3c00000
      [(1, true), (0, true), (2, false), (0x3c00000, true), (0, true)]).list
        = [⟨0x3c00000, 0x3c00fff⟩, ⟨0x3c02000, 0x3c02fff⟩] := by decide
  refine ⟨hrun, ?_⟩
  have h := (runWrites_heap 0x3c00000 (by decide)
    [(1, true), (0, true), (2, false), (0x3c00000, true), (0, true)]).2.2.2
  rw [hrun] at h
  exact h

/-! ### The report -/

theorem getOrderLoop_eq (size : Nat) (order : Int) :
    getOrderLoop size order = order + 1 + Nat.log2 size := by
  induction size, order using getOrderLoop.induct with
  | case1 size order h =>
    rw [getOrderLoop, if_pos h]
    have hlt : size < 2 := by
      rw [Nat.shiftRight_one] at h
      omega
    have hlog : Nat.log2 size = 0 := by interval_cases size <;> rfl
    rw [hlog]
    simp
  | case2 size order h ih =>
    rw [getOrderLoop, if_neg h, ih]
    rw [Nat.shiftRight_one] at h ⊢
    have hlog : Nat.log2 size = Nat.log2 (size / 2) + 1 := by
      rw [Nat.log2_def size, if_pos (by omega)]
    rw [hlog]
    push_cast
    omega

/-- `get_order` rounds up: between half of the order's pages and all of them are in use. -/
theorem getOrder_bounds {size : BitVec 32} (hpos : 0 < size.toNat) (hle : size.toNat ≤ 4194304)
    (hdvd : 4096 ∣ size.toNat) :
    ∃ k : Nat, getOrder size = k ∧ k ≤ 10 ∧
      2 ^ k * 2048 < size.toNat ∧ size.toNat ≤ 2 ^ k * 4096 := by
  obtain ⟨pages, hpages⟩ := hdvd
  have hshift : ((size - 1) >>> 11).toNat = (size.toNat - 1) / 2048 := by
    rw [BitVec.toNat_ushiftRight, BitVec.toNat_sub_of_le, Nat.shiftRight_eq_div_pow]
    · rfl
    · rw [BitVec.le_def]
      exact hpos
  have hlo := Nat.log2_self_le (show (size.toNat - 1) / 2048 ≠ 0 by omega)
  have hhi : (size.toNat - 1) / 2048 < 2 ^ (Nat.log2 ((size.toNat - 1) / 2048) + 1) :=
    Nat.lt_log2_self
  have hord : getOrder size = (Nat.log2 ((size.toNat - 1) / 2048) : Nat) := by
    rw [getOrder, getOrderLoop_eq, hshift]
    omega
  generalize Nat.log2 ((size.toNat - 1) / 2048) = k at *
  rw [Nat.pow_succ] at hhi
  refine ⟨k, hord, ?_, by omega, by omega⟩
  by_contra hc
  have : 2 ^ 11 ≤ 2 ^ k := Nat.pow_le_pow_right (by omega) (by omega)
  omega

theorem le_iff_pages_le {k size : Nat} (hlo : 2 ^ k * 4096 ≤ size) (hhi : size < 2 ^ (k + 1) * 4096)
    (n : Nat) : n ≤ k ↔ 2 ^ n * 4096 ≤ size := by
  constructor
  · intro hn
    exact (Nat.mul_le_mul_right _ (Nat.pow_le_pow_right (by omega) hn)).trans hlo
  · intro hn
    by_contra hc
    have hpow : 2 ^ (k + 1) ≤ 2 ^ n := Nat.pow_le_pow_right (by omega) (by omega)
    exact absurd ((Nat.mul_le_mul_right 4096 hpow).trans hn) (Nat.not_le.mpr hhi)

/-- The order reported for a whole number of pages is the largest that fits. -/
theorem order_le_iff {size : BitVec 32} (hpos : 0 < size.toNat) (hle : size.toNat ≤ 4194304)
    (hdvd : 4096 ∣ size.toNat) :
    let o := BitVec.ofInt 32 (getOrder size)
    let m := if orderSize o.toNat > size then o - 1 else o
    m ≠ 0xffffffff ∧ ∀ n, n ≤ m.toNat ↔ 2 ^ n * 4096 ≤ size.toNat := by
  obtain ⟨k, hord, hk10, hlo, hhi⟩ := getOrder_bounds hpos hle hdvd
  intro o m
  have hon : o.toNat = k := by
    show (BitVec.ofInt 32 (getOrder size)).toNat = k
    rw [hord, BitVec.ofInt_natCast, BitVec.toNat_ofNat]
    exact Nat.mod_eq_of_lt (by omega)
  have hgt : orderSize o.toNat > size ↔ size.toNat < 2 ^ k * 4096 := by
    rw [gt_iff_lt, BitVec.lt_def, hon, orderSize_toNat hk10]
  have hreal : ∀ {j : Nat}, m.toNat = j → j ≤ 10 → m ≠ 0xffffffff := by
    intro j hj hj10 hc
    rw [hc] at hj
    simp at hj
    omega
  by_cases hbig : size.toNat < 2 ^ k * 4096
  · -- Not a power of two of pages: one order less fits, and that order does not.
    obtain ⟨j, rfl⟩ : ∃ j, k = j + 1 := by
      refine ⟨k - 1, ?_⟩
      by_contra hc
      have hk0 : k = 0 := by omega
      rw [hk0] at hbig
      obtain ⟨pages, hpages⟩ := hdvd
      omega
    have hmn : m.toNat = j := by
      have hm : m = o - 1 := if_pos (hgt.mpr hbig)
      rw [hm, BitVec.toNat_sub_of_le, hon]
      · rfl
      · rw [BitVec.le_def, hon]
        exact Nat.succ_pos j
    refine ⟨hreal hmn (by omega), fun n => ?_⟩
    rw [hmn]
    exact le_iff_pages_le (by rw [Nat.pow_succ] at hlo; omega) hbig n
  · have hmn : m.toNat = k := by
      have hm : m = o := if_neg (fun hc => hbig (hgt.mp hc))
      rw [hm, hon]
    refine ⟨hreal hmn hk10, fun n => ?_⟩
    rw [hmn]
    exact le_iff_pages_le (by omega) (by rw [Nat.pow_succ]; omega) n

theorem maxSize_toNat (h : ImemOK base st.list) :
    (maxSize base st).toNat
      = maxGap base.toNat (base + orderSize imemMaxOrder).toNat (st.list.map toRange) := by
  unfold maxSize
  split
  · rename_i hnil
    have hg := h.gapped
    rw [hnil] at hg ⊢
    exact end_toNat hg
  · have hgap := largestGap_maxGap st.list 0 base h.gapped
    rw [show (0 : BitVec 32).toNat = 0 from rfl, Nat.zero_max] at hgap
    rw [hgap]
    simp only
    split
    · rename_i hlt
      rw [BitVec.lt_def] at hlt
      omega
    · rename_i hlt
      rw [BitVec.lt_def] at hlt
      omega

theorem maxSize_dvd (hbase : base.toNat + 4194304 < 2 ^ 32) (h : ImemOK base st.list) :
    4096 ∣ (maxSize base st).toNat := by
  rw [maxSize_toNat h]
  refine maxGap_dvd _ (by rw [end_eq hbase]; omega) ?_
  intro r hr
  obtain ⟨x, hx, rfl⟩ := List.mem_map.mp hr
  have hlo : base.toNat ≤ x.physStart.toNat := (Gapped.mem _ h.gapped hr).1
  obtain ⟨k, -, hk⟩ := h.pages x hx
  have hal := h.aligned x hx
  simp only [toRange, hk]
  omega

theorem imemReadProc_order (hbase : base.toNat + 4194304 < 2 ^ 32) (h : ImemOK base st.list)
    (n : Nat) :
    ((imemReadProc base st).2 ≠ 0xffffffff ∧ n ≤ (imemReadProc base st).2.toNat) ↔
      2 ^ n * 4096 ≤ (maxSize base st).toNat := by
  have hcap := maxGap_le _ h.gapped
  rw [← maxSize_toNat h, end_eq hbase] at hcap
  have hpow : 0 < 2 ^ n := Nat.two_pow_pos n
  by_cases hpos : maxSize base st > 0
  · have hm : (imemReadProc base st).2
        = if orderSize (BitVec.ofInt 32 (getOrder (maxSize base st))).toNat
        > maxSize base st then BitVec.ofInt 32 (getOrder (maxSize base st)) - 1
        else BitVec.ofInt 32 (getOrder (maxSize base st)) := if_pos hpos
    obtain ⟨hne, hiff⟩ := @order_le_iff (maxSize base st)
      (by rw [gt_iff_lt, BitVec.lt_def] at hpos; exact hpos) (by omega) (maxSize_dvd hbase h)
    rw [hm, hiff n]
    exact ⟨fun hc => hc.2, fun hc => ⟨hne, hc⟩⟩
  · have hm : (imemReadProc base st).2 = 0xffffffff := if_neg hpos
    have hzero : (maxSize base st).toNat = 0 := by
      rw [gt_iff_lt, BitVec.lt_def] at hpos
      exact Nat.le_zero.mp (Nat.not_lt.mp hpos)
    rw [hm, hzero]
    constructor
    · intro hc
      exact absurd rfl hc.1
    · intro hc
      omega

/-- **The report agrees with the allocator.**  In every reachable state an allocation
of `2^n` pages whose `kmalloc` succeeds adds a buffer exactly when the reported order
is a real one and at least `n`. -/
theorem imemReadProc_imemAlloc (base : BitVec 32) (hbase : base.toNat + 4194304 < 2 ^ 32)
    (writes : List (BitVec 32 × Bool)) (n : Nat) (hn : n ≤ 10) :
    ((imemAlloc base true n (runWrites base writes)).2.list.length
        = (runWrites base writes).list.length + 1 ↔
      (imemReadProc base (runWrites base writes)).2 ≠ 0xffffffff ∧
        n ≤ (imemReadProc base (runWrites base writes)).2.toNat) ∧
    (base ≠ 0 → ((imemAlloc base true n (runWrites base writes)).2.allocatedPhysAddr ≠ 0 ↔
      (imemReadProc base (runWrites base writes)).2 ≠ 0xffffffff ∧
        n ≤ (imemReadProc base (runWrites base writes)).2.toNat)) := by
  have h : ImemOK base (runWrites base writes).list := runWrites_ok hbase writes
  generalize runWrites base writes = st at *
  have hfit := @firstFit_isSome (base + orderSize imemMaxOrder).toNat (2 ^ n * 4096)
    (st.list.map toRange) base.toNat
  rw [← maxSize_toNat h] at hfit
  rw [imemReadProc_order hbase h, ← hfit]
  rcases imemAlloc_cases hbase h hn true with ⟨a, hsome, hge, -, haddr, hlist⟩ | ⟨hnone, hst⟩
  · have hlen : (imemAlloc base true n st).2.list.length = st.list.length + 1 := by
      rw [hlist, if_pos rfl, insertSorted_length]
    rw [hsome]
    refine ⟨by simp [hlen], fun hb => ?_⟩
    have hne : (imemAlloc base true n st).2.allocatedPhysAddr ≠ 0 := by
      rw [haddr]
      intro hc
      apply hb
      apply BitVec.eq_of_toNat_eq
      rw [hc] at hge
      exact Nat.le_zero.mp hge
    exact ⟨fun _ => rfl, fun _ => hne⟩
  · rw [hnone, hst]
    simp

/-- Full but for a hole of one megabyte: order 8 is reported, and not order 9. -/
theorem imemReadProc_imemAlloc_sample :
    ((imemReadProc 0x3c00000 (runWrites 0x3c00000
        [(9, true), (8, true), (8, true), (0x3e00000, true)])).2 ≠ 0xffffffff ∧
      8 ≤ (imemReadProc 0x3c00000 (runWrites 0x3c00000
        [(9, true), (8, true), (8, true), (0x3e00000, true)])).2.toNat) ∧
    ¬ 9 ≤ (imemReadProc 0x3c00000 (runWrites 0x3c00000
        [(9, true), (8, true), (8, true), (0x3e00000, true)])).2.toNat := by
  have h8 := (imemReadProc_imemAlloc 0x3c00000 (by decide)
    [(9, true), (8, true), (8, true), (0x3e00000, true)] 8 (by decide)).1.mp (by decide)
  refine ⟨h8, fun hc => ?_⟩
  have h9 := (imemReadProc_imemAlloc 0x3c00000 (by decide)
    [(9, true), (8, true), (8, true), (0x3e00000, true)] 9 (by decide)).1.mpr ⟨h8.1, hc⟩
  exact absurd h9 (by decide)

end Dingoo.Imem
