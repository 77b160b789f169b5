/-
Where the IPU memory allocator puts a buffer, and what its report stands for.

The gap `imem_alloc` takes is the lowest one that has room.  The new buffer goes into
the list without moving the others, and `imem_free` of its address takes it out again,
so the two are inverse (`imemAlloc_firstFit`).

The address that `imem_read_proc` reports is a variable of its own.  An allocation sets
it before the list node is allocated, freeing everything clears it, and freeing one
buffer leaves it alone.  What the report says is therefore true exactly as long as the
last allocation got its node and its buffer has not been freed
(`imemReadProc_allocated_iff`).
-/
import Dingoo.Proofs.Imem

namespace Dingoo.Imem

open Dingoo.Lib

variable {base val a : BitVec 32} {st : State} {l : List ImemList}

/-- The states of the allocator. -/
def Reachable (base : BitVec 32) (st : State) : Prop := ∃ writes, st = runWrites base writes

/-! ### First fit -/

/-- A free range of `2^n` pages starts at `a`, right after the base or right after an allocated
range. -/
def FreeStart (base : BitVec 32) (n : Nat) (l : List ImemList) (a : Nat) : Prop :=
  (a = base.toNat ∨ ∃ x ∈ l, a = x.physEnd.toNat + 1) ∧
  base.toNat ≤ a ∧ a + 2 ^ n * 4096 ≤ base.toNat + 4194304 ∧
  ∀ x ∈ l, ∀ c, a ≤ c → c < a + 2 ^ n * 4096 →
    ¬ (x.physStart.toNat ≤ c ∧ c ≤ x.physEnd.toNat)

theorem freeStart_iff (hbase : base.toNat + 4194304 < 2 ^ 32) (h : ImemOK base l) {n a : Nat} :
    FreeStart base n l a ↔
      FitsAt (2 ^ n * 4096) base.toNat (base + orderSize imemMaxOrder).toNat (l.map toRange) a := by
  have hpos : 0 < 2 ^ n * 4096 := by positivity
  have hmem : ∀ x ∈ l, base.toNat ≤ x.physStart.toNat ∧
      x.physStart.toNat < x.physEnd.toNat + 1 := by
    intro x hx
    obtain ⟨hlo, hne, -⟩ := Gapped.mem _ h.gapped (List.mem_map_of_mem hx)
    exact ⟨hlo, hne⟩
  unfold FreeStart FitsAt
  simp only [List.mem_map, exists_exists_and_eq_and, forall_exists_index, and_imp,
    forall_apply_eq_imp_iff₂, toRange, end_eq hbase]
  constructor
  · rintro ⟨hstart, -, hend, hclear⟩
    refine ⟨hstart, hend, fun x hx => ?_⟩
    -- the later of the two starts would lie in both ranges
    have hat := hclear x hx (max a x.physStart.toNat) (Nat.le_max_left _ _)
    have hne := (hmem x hx).2
    omega
  · rintro ⟨hstart, hend, hclear⟩
    refine ⟨hstart, ?_, hend, fun x hx c hac hca hxc => ?_⟩
    · rcases hstart with rfl | ⟨x, hx, rfl⟩
      · exact Nat.le_refl _
      · have hlo := hmem x hx
        omega
    · have hx := hclear x hx
      omega

theorem sublist_insertSorted (n : ImemList) : ∀ l : List ImemList,
    l.Sublist (insertSorted n l) := by
  intro l
  induction l with
  | nil => exact List.nil_sublist _
  | cons x l ih =>
    simp only [insertSorted]
    split
    · exact List.sublist_cons_self n (x :: l)
    · exact ih.cons_cons x

theorem freeList_insertSorted (n : ImemList) : ∀ l : List ImemList,
    (∀ x ∈ l, x.physStart ≠ n.physStart) → freeList n.physStart (insertSorted n l) = l := by
  intro l
  induction l with
  | nil => intro _; simp [insertSorted, freeList]
  | cons x l ih =>
    intro hl
    have hx : n.physStart ≠ x.physStart := (hl x List.mem_cons_self).symm
    simp only [insertSorted]
    split
    · simp [freeList]
    · simp only [freeList, if_neg hx]
      rw [ih fun y hy => hl y (List.mem_cons_of_mem x hy)]

theorem freeList_eq_self (a : BitVec 32) : ∀ l : List ImemList,
    (∀ x ∈ l, x.physStart ≠ a) → freeList a l = l := by
  intro l
  induction l with
  | nil => intro _; rfl
  | cons x l ih =>
    intro hl
    rw [freeList, if_neg (hl x List.mem_cons_self).symm,
      ih fun y hy => hl y (List.mem_cons_of_mem x hy)]

theorem start_ne_of_firstFit (h : ImemOK base l) {size : Nat}
    (hsize : 0 < size)
    (hfit : firstFit size base.toNat (base + orderSize imemMaxOrder).toNat (l.map toRange)
      = some a.toNat) : ∀ x ∈ l, x.physStart ≠ a := by
  intro x hx heq
  have hmem : toRange x ∈ l.map toRange := List.mem_map_of_mem hx
  have hclear := (firstFit_clear _ h.gapped hfit).2 _ hmem
  have hne := (Gapped.mem _ h.gapped hmem).2.1
  simp only [toRange, heq] at hclear hne
  omega

/-- The allocation has made a buffer, or has returned 0 and left an address. -/
def Succeeds (base : BitVec 32) (kmalloc : Bool) (n : Nat) (st : State) : Prop :=
  (imemAlloc base kmalloc n st).2.list ≠ st.list ∨
    ((imemAlloc base kmalloc n st).1 = 0 ∧ (imemAlloc base kmalloc n st).2.allocatedPhysAddr ≠ 0)

theorem imemAlloc_enomem (base : BitVec 32) (n : Nat) (st : State) :
    (imemAlloc base false n st).1 = 0 → (imemAlloc base false n st).2.allocatedPhysAddr = 0 := by
  unfold imemAlloc
  dsimp only
  generalize (if (findGap (orderSize n) base st.list).1 then true else
    decide (base + orderSize imemMaxOrder - (findGap (orderSize n) base st.list).2
      ≥ orderSize n)) = allocOk
  cases allocOk with
  | true => exact fun h => absurd h (by decide : -ENOMEM ≠ 0)
  | false => exact fun _ => rfl

theorem Succeeds.kmalloc {kmalloc : Bool} {n : Nat} (hbase : base.toNat + 4194304 < 2 ^ 32)
    (hok : ImemOK base st.list) (hn : n ≤ 10) (h : Succeeds base kmalloc n st) :
    kmalloc = true := by
  cases kmalloc with
  | true => rfl
  | false =>
    rcases h with hlist | ⟨hret, haddr⟩
    · rcases imemAlloc_cases hbase hok hn false with ⟨a, -, -, -, -, hsame⟩ | ⟨-, hst⟩
      · exact absurd hsame hlist
      · exact absurd (congrArg State.list hst) hlist
    · exact absurd (imemAlloc_enomem base n st hret) haddr

/-- **First fit and its inverse.**  A successful allocation takes the lowest place there is and
leaves the other buffers where they are; freeing its address undoes it.  Freeing an address
where no buffer starts changes nothing. -/
theorem imemAlloc_firstFit (base : BitVec 32) (hbase : base.toNat + 4194304 < 2 ^ 32) (st : State)
    (hst : Reachable base st) :
    (∀ n ≤ 10, ∀ kmalloc, Succeeds base kmalloc n st →
      IsLeast {a | FreeStart base n st.list a}
        (imemAlloc base kmalloc n st).2.allocatedPhysAddr.toNat ∧
      st.list.Sublist (imemAlloc base kmalloc n st).2.list ∧
      (∀ x, x ∈ (imemAlloc base kmalloc n st).2.list ↔
        x = ⟨(imemAlloc base kmalloc n st).2.allocatedPhysAddr,
          (imemAlloc base kmalloc n st).2.allocatedPhysAddr + orderSize n - 1⟩ ∨ x ∈ st.list) ∧
      (imemFree (imemAlloc base kmalloc n st).2.allocatedPhysAddr
        (imemAlloc base kmalloc n st).2).list = st.list) ∧
    ∀ a, (∀ x ∈ st.list, x.physStart ≠ a) → imemFree a st = st := by
  obtain ⟨writes, rfl⟩ := hst
  have hok := runWrites_ok hbase writes
  generalize runWrites base writes = st at hok
  refine ⟨fun n hn kmalloc hsucc => ?_, fun a ha => ?_⟩
  · obtain rfl := hsucc.kmalloc hbase hok hn
    rcases imemAlloc_cases hbase hok hn true with ⟨a, hfit, -, -, haddr, hlist⟩ | ⟨-, hnone⟩
    · rw [if_pos rfl] at hlist
      rw [haddr, imemFree, hlist]
      refine ⟨?_, sublist_insertSorted _ _, fun x => insertSorted_mem _, ?_⟩
      · simp only [freeStart_iff hbase hok]
        exact firstFit_isLeast hok.gapped hfit
      · exact freeList_insertSorted ⟨a, _⟩ _
          (start_ne_of_firstFit hok (by positivity) hfit)
    · rcases hsucc with hne | ⟨-, hne⟩
      · exact absurd (congrArg State.list hnone) hne
      · exact absurd (congrArg State.allocatedPhysAddr hnone) hne
  · rw [imemFree, freeList_eq_self a _ ha]

/-- Two pages in front of a buffer are free: two pages go there, four behind the buffer. -/
theorem imemAlloc_firstFit_hole :
    (imemAlloc 0x3c00000 true 1 ⟨[⟨0x3c02000, 0x3c02fff⟩], 0x3c02000⟩).2.list
        = [⟨0x3c00000, 0x3c01fff⟩, ⟨0x3c02000, 0x3c02fff⟩] ∧
    (imemFree 0x3c03000
      (imemAlloc 0x3c00000 true 2 ⟨[⟨0x3c02000, 0x3c02fff⟩], 0x3c02000⟩).2).list
        = [⟨0x3c02000, 0x3c02fff⟩] := by
  refine ⟨by decide, ?_⟩
  have hreach : Reachable 0x3c00000 ⟨[⟨0x3c02000, 0x3c02fff⟩], 0x3c02000⟩ :=
    ⟨[(1, true), (0, true), (0x3c00000, true)], by decide⟩
  exact ((imemAlloc_firstFit 0x3c00000 (by decide) _ hreach).1 2 (by decide) true
    (Or.inl (by decide))).2.2.2

/-! ### The address reported -/

/-- A write that frees one buffer. -/
def IsFree (val : BitVec 32) : Prop := val ≠ 0xff ∧ imemMaxOrder < val.toNat

theorem imemWriteProc_free (base : BitVec 32) (h : IsFree val) (kmalloc : Bool) (st : State) :
    imemWriteProc base kmalloc val st = imemFree val st := by
  rw [imemWriteProc, if_neg h.1, if_neg (Nat.not_le.mpr h.2)]

theorem imemWriteProc_alloc (h : val.toNat ≤ imemMaxOrder) (kmalloc : Bool) (st : State) :
    imemWriteProc base kmalloc val st = (imemAlloc base kmalloc val.toNat st).2 := by
  have hff : val ≠ 0xff := by
    rintro rfl
    exact absurd h (by decide)
  rw [imemWriteProc, if_neg hff, if_pos h]

/-- A buffer starts at the address. -/
def StartsAt (l : List ImemList) (a : BitVec 32) : Prop := ∃ x ∈ l, x.physStart = a

theorem startsAt_freeList {c : BitVec 32} : ∀ l : List ImemList,
    (l.map ImemList.physStart).Nodup → (StartsAt (freeList c l) a ↔ StartsAt l a ∧ c ≠ a) := by
  intro l
  induction l with
  | nil => simp [StartsAt, freeList]
  | cons x l ih =>
    intro hnd
    rw [List.map_cons, List.nodup_cons] at hnd
    have hcons : ∀ l' : List ImemList,
        StartsAt (x :: l') a ↔ x.physStart = a ∨ StartsAt l' a := by
      simp [StartsAt]
    by_cases hc : c = x.physStart
    · -- the buffer freed is this one, and no later one starts there
      rw [freeList, if_pos hc, hcons]
      constructor
      · rintro ⟨y, hy, rfl⟩
        refine ⟨Or.inr ⟨y, hy, rfl⟩, fun hcy => hnd.1 ?_⟩
        rw [← hc, hcy]
        exact List.mem_map_of_mem hy
      · rintro ⟨hxa | hl, hca⟩
        · exact absurd (hc.trans hxa) hca
        · exact hl
    · rw [freeList, if_neg hc, hcons, hcons, ih hnd.2]
      constructor
      · rintro (hxa | ⟨hl, hca⟩)
        · exact ⟨Or.inl hxa, fun hca => hc (hca.trans hxa.symm)⟩
        · exact ⟨Or.inr hl, hca⟩
      · rintro ⟨hxa | hl, hca⟩
        · exact Or.inl hxa
        · exact Or.inr ⟨hl, hca⟩

theorem ImemOK.nodup (h : ImemOK base l) : (l.map ImemList.physStart).Nodup := by
  have hpair : (l.map toRange).Pairwise fun x y => x.1 ≠ y.1 := by
    refine (Gapped.pairwise _ h.gapped).imp_of_mem fun {x y} hx _ hxy => ?_
    have hne := (Gapped.mem _ h.gapped hx).2.1
    omega
  refine List.pairwise_map.mpr ((List.pairwise_map.mp hpair).imp fun {x y} hne heq => hne ?_)
  exact congrArg BitVec.toNat heq

/-- The state after a number of writes from a given one. -/
def writesFrom (base : BitVec 32) (st : State) (writes : List (BitVec 32 × Bool)) : State :=
  writes.foldl (fun st w => imemWriteProc base w.2 w.1 st) st

theorem runWrites_append (pre post : List (BitVec 32 × Bool)) :
    runWrites base (pre ++ post) = writesFrom base (runWrites base pre) post :=
  List.foldl_append

/-- Freeing buffers one by one leaves the address alone, and the others in the list. -/
theorem writesFrom_frees (base : BitVec 32) :
    ∀ (writes : List (BitVec 32 × Bool)) (st : State), (∀ w ∈ writes, IsFree w.1) →
      ImemOK base st.list →
      (writesFrom base st writes).allocatedPhysAddr = st.allocatedPhysAddr ∧
      (StartsAt (writesFrom base st writes).list a ↔
        StartsAt st.list a ∧ ∀ w ∈ writes, w.1 ≠ a) := by
  intro writes
  induction writes with
  | nil => intro st _ _; simp [writesFrom]
  | cons w writes ih =>
    intro st hfree hok
    have hstep : writesFrom base st (w :: writes) = writesFrom base (imemFree w.1 st) writes := by
      rw [← imemWriteProc_free base (hfree w List.mem_cons_self) w.2]
      rfl
    obtain ⟨haddr, hstarts⟩ := ih (imemFree w.1 st)
      (fun v hv => hfree v (List.mem_cons_of_mem w hv)) (imemFree_ok hok w.1)
    rw [hstep, haddr, hstarts]
    refine ⟨rfl, ?_⟩
    show StartsAt (freeList w.1 st.list) a ∧ _ ↔ _
    rw [startsAt_freeList _ hok.nodup, List.forall_mem_cons, and_assoc]

theorem last_not_free (writes : List (BitVec 32 × Bool)) :
    (∀ w ∈ writes, IsFree w.1) ∨ ∃ pre val kmalloc post,
      writes = pre ++ (val, kmalloc) :: post ∧ ¬ IsFree val ∧ ∀ w ∈ post, IsFree w.1 := by
  induction writes using List.reverseRecOn with
  | nil => exact Or.inl (by simp)
  | append_singleton writes w ih =>
    by_cases hw : IsFree w.1
    · rcases ih with hall | ⟨pre, val, kmalloc, post, rfl, hval, hpost⟩
      · refine Or.inl fun v hv => ?_
        rcases List.mem_append.mp hv with hv | hv
        · exact hall v hv
        · rwa [List.mem_singleton.mp hv]
      · refine Or.inr ⟨pre, val, kmalloc, post ++ [w], by simp, hval, fun v hv => ?_⟩
        rcases List.mem_append.mp hv with hv | hv
        · exact hpost v hv
        · rwa [List.mem_singleton.mp hv]
    · exact Or.inr ⟨writes, w.1, w.2, [], rfl, hw, by simp⟩

theorem startsAt_imemAlloc (hbase : base.toNat + 4194304 < 2 ^ 32) (hok : ImemOK base st.list)
    {n : Nat} (hn : n ≤ 10) (kmalloc : Bool)
    (hne : (imemAlloc base kmalloc n st).2.allocatedPhysAddr ≠ 0) :
    StartsAt (imemAlloc base kmalloc n st).2.list (imemAlloc base kmalloc n st).2.allocatedPhysAddr
      ↔ kmalloc = true := by
  rcases imemAlloc_cases hbase hok hn kmalloc with ⟨a, hfit, -, -, haddr, hlist⟩ | ⟨-, hnone⟩
  · rw [haddr, hlist]
    cases kmalloc with
    | true =>
      refine ⟨fun _ => rfl, fun _ => ⟨⟨a, a + orderSize n - 1⟩, ?_, rfl⟩⟩
      rw [if_pos rfl]
      exact (insertSorted_mem _).mpr (Or.inl rfl)
    | false =>
      refine ⟨fun ⟨x, hx, hxa⟩ => ?_, fun h => absurd h Bool.false_ne_true⟩
      exact absurd hxa (start_ne_of_firstFit hok (by positivity) hfit x hx)
  · exact absurd (congrArg State.allocatedPhysAddr hnone) hne

theorem startsAt_afterAlloc (hbase : base.toNat + 4194304 < 2 ^ 32) (pre : List (BitVec 32 × Bool))
    (hval : val.toNat ≤ imemMaxOrder) (kmalloc : Bool) {post : List (BitVec 32 × Bool)}
    (hpost : ∀ w ∈ post, IsFree w.1)
    (hne : (imemAlloc base kmalloc val.toNat (runWrites base pre)).2.allocatedPhysAddr ≠ 0) :
    (runWrites base (pre ++ (val, kmalloc) :: post)).allocatedPhysAddr
        = (imemAlloc base kmalloc val.toNat (runWrites base pre)).2.allocatedPhysAddr ∧
    (StartsAt (runWrites base (pre ++ (val, kmalloc) :: post)).list
        (imemAlloc base kmalloc val.toNat (runWrites base pre)).2.allocatedPhysAddr ↔
      kmalloc = true ∧ ∀ w ∈ post,
        w.1 ≠ (imemAlloc base kmalloc val.toNat (runWrites base pre)).2.allocatedPhysAddr) := by
  have hok := runWrites_ok hbase pre
  have hstep : runWrites base (pre ++ (val, kmalloc) :: post)
      = writesFrom base (imemAlloc base kmalloc val.toNat (runWrites base pre)).2 post := by
    rw [runWrites_append, ← imemWriteProc_alloc hval]
    rfl
  obtain ⟨haddr, hstarts⟩ := writesFrom_frees base post _ hpost
    (imemAlloc_ok hbase hok hval kmalloc)
  rw [hstep, haddr, hstarts, startsAt_imemAlloc hbase hok hval kmalloc hne]
  exact ⟨rfl, Iff.rfl⟩

/-- **A reported address is allocated exactly if the last allocation got its list node and its
buffer has not been freed since.**  The last allocation is the one behind which only single
buffers are freed. -/
theorem imemReadProc_allocated_iff (base : BitVec 32) (hbase : base.toNat + 4194304 < 2 ^ 32)
    (writes : List (BitVec 32 × Bool)) :
    ((imemReadProc base (runWrites base writes)).1 ≠ 0 →
      ∃ x ∈ (runWrites base writes).list,
        x.physStart = (imemReadProc base (runWrites base writes)).1) ↔
    ∀ pre val kmalloc post, writes = pre ++ (val, kmalloc) :: post → val.toNat ≤ imemMaxOrder →
      (∀ w ∈ post, IsFree w.1) →
      (imemAlloc base kmalloc val.toNat (runWrites base pre)).2.allocatedPhysAddr ≠ 0 →
      kmalloc = true ∧ ∀ w ∈ post,
        w.1 ≠ (imemAlloc base kmalloc val.toNat (runWrites base pre)).2.allocatedPhysAddr := by
  show ((runWrites base writes).allocatedPhysAddr ≠ 0 →
    StartsAt (runWrites base writes).list (runWrites base writes).allocatedPhysAddr) ↔ _
  constructor
  · rintro h pre val kmalloc post rfl hval hpost hne
    obtain ⟨haddr, hstarts⟩ := startsAt_afterAlloc hbase pre hval kmalloc hpost hne
    rw [haddr] at h
    exact hstarts.mp (h hne)
  · intro h hne
    rcases last_not_free writes with hall | ⟨pre, val, kmalloc, post, rfl, hlast, hpost⟩
    · -- nothing was ever allocated
      have haddr := (writesFrom_frees (a := 0) base writes ⟨[], 0⟩ hall (imemOK_nil hbase)).1
      exact absurd haddr hne
    · by_cases hval : val.toNat ≤ imemMaxOrder
      · by_cases hzero : (imemAlloc base kmalloc val.toNat
            (runWrites base pre)).2.allocatedPhysAddr = 0
        · have hok := imemAlloc_ok hbase (runWrites_ok hbase pre) hval kmalloc
          have haddr := (writesFrom_frees (a := 0) base post _ hpost hok).1
          rw [← imemWriteProc_alloc hval] at haddr hzero
          rw [runWrites_append] at hne
          exact absurd (haddr.trans hzero) hne
        · obtain ⟨haddr, hstarts⟩ := startsAt_afterAlloc hbase pre hval kmalloc hpost hzero
          rw [haddr]
          exact hstarts.mpr (h pre val kmalloc post rfl hval hpost hzero)
      · -- everything was freed last
        have hff : val = 0xff := by
          by_contra hff
          exact hlast ⟨hff, Nat.not_le.mp hval⟩
        have haddr := (writesFrom_frees (a := 0) base post (imemFreeAll ⟨[], 0⟩) hpost
          (imemOK_nil hbase)).1
        rw [runWrites_append, hff] at hne
        exact absurd haddr hne

/-- A failed `kmalloc` leaves the address of a buffer that is not in the list; so does freeing
the buffer. -/
theorem imemReadProc_not_allocated :
    (imemReadProc 0x3c00000 (runWrites 0x3c00000 [(0, false)])).1 = 0x3c00000 ∧
    (runWrites 0x3c00000 [(0, false)]).list = [] ∧
    (imemReadProc 0x3c00000 (runWrites 0x3c00000 [(0, true), (0x3c00000, true)])).1 = 0x3c00000 ∧
    (runWrites 0x3c00000 [(0, true), (0x3c00000, true)]).list = [] := by
  decide

/-- After two allocations and the freeing of the first the second is reported. -/
theorem imemReadProc_allocated_second :
    (0x3c00000 : BitVec 32).toNat + 4194304 < 2 ^ 32 ∧
    ∃ x ∈ (runWrites 0x3c00000 [(0, true), (1, true), (0x3c00000, true)]).list,
      x.physStart = 0x3c01000 := by
  refine ⟨by decide, ?_⟩
  refine (imemReadProc_allocated_iff 0x3c00000 (by decide)
    [(0, true), (1, true), (0x3c00000, true)]).mpr ?_ (by decide)
  intro pre val kmalloc post hsplit hval hpost hne
  rcases pre with _ | ⟨p, _ | ⟨q, _ | ⟨r, pre⟩⟩⟩
  · simp only [List.nil_append, List.cons.injEq, Prod.mk.injEq] at hsplit
    obtain ⟨-, rfl⟩ := hsplit
    exact absurd (hpost (1, true) (by simp)).2 (by decide)
  · simp only [List.cons_append, List.nil_append, List.cons.injEq, Prod.mk.injEq] at hsplit
    obtain ⟨rfl, ⟨rfl, rfl⟩, rfl⟩ := hsplit
    refine ⟨rfl, fun w hw => ?_⟩
    rw [List.mem_singleton.mp hw]
    decide
  · simp only [List.cons_append, List.nil_append, List.cons.injEq, Prod.mk.injEq] at hsplit
    obtain ⟨rfl, rfl, ⟨rfl, rfl⟩, rfl⟩ := hsplit
    exact absurd hval (by decide)
  · simp at hsplit

end Dingoo.Imem
