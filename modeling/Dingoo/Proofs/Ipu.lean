/-
The table of IPU buffers against the page allocator.

The log of a run is read as a run of its own, whose state is the collection of live
blocks: what `__get_free_pages` has returned and `free_pages` has not been given
since.  An entry of the log is allowed if an access stays inside the table and a
block that is freed is live.  The invariant is that the used entries of the table
are among the live blocks, each counted as often as it occurs; it needs nothing of
the allocator, not even that it hands out a block only once.

A search that finds its address keeps all that.  One that does not ends at index
`IPU_BUF_MAX`, and the entry there is freed like any other.
-/
import Mathlib.Algebra.BigOperators.Group.Finset.Basic
import Dingoo.Linux.Ipu
import Dingoo.Lib.Runs

namespace Dingoo.Ipu

open Dingoo.Lib

variable {t : Nat → IpuBuf} {s : State} {p : IpuBuf → Bool} {a : BitVec 32} {b : IpuBuf}

/-- A block of pages: virtual address and order. -/
abbrev Block := BitVec 32 × BitVec 32

/-- The live blocks after an entry of the log. -/
def track (live : Multiset Block) : Op → Multiset Block
  | .access _ => live
  | .getFreePages virt order => (virt, order) ::ₘ live
  | .freePages virt order => live.erase (virt, order)

/-- What an entry of the log may be, by the blocks live before it. -/
def Allowed (live : Multiset Block) : Op → Prop
  | .access i => i < ipuBufMax
  | .getFreePages _ _ => True
  | .freePages virt order => (virt, order) ∈ live

/-- The live blocks at the end of a log. -/
def live (log : List Op) : Multiset Block := log.foldl track 0

/-- The address is that of an entry of the table. -/
def Listed (s : State) (addr : BitVec 32) : Prop := ∃ i < ipuBufMax, (s.ipuBuf i).addr = addr

/-- The address a write asks to free, if it does. -/
def Write.frees (w : Write) : Option (BitVec 32) :=
  if w.count ≤ 9 ∧ ¬ w.val < 10 ∧ w.val ≠ 0xff then some w.val else none

/-- A write that frees an address which is not listed changes neither the table nor
the pages: not their reserved flags and not which of them are allocated. -/
def UnlistedIgnored (s : State) (w : Write) : Prop :=
  ∀ a, w.frees = some a → ¬ Listed s a →
    (∀ i < ipuBufMax, (ipuWriteProc s w).ipuBuf i = s.ipuBuf i) ∧
      (ipuWriteProc s w).reserved = s.reserved ∧
      live (ipuWriteProc s w).log = live s.log

/-- A write frees only addresses that are listed. -/
def FreesListed (s : State) (w : Write) : Prop := ∀ a, w.frees = some a → Listed s a

/-! ### The blocks in the table -/

/-- The block an entry stands for. -/
def block (b : IpuBuf) : Multiset Block :=
  if b.addr = 0 then 0 else {(physToVirt b.addr, b.pageShift)}

def held (buf : Nat → IpuBuf) : Multiset Block := ∑ i ∈ Finset.range ipuBufMax, block (buf i)

theorem held_update {i : Nat} (hi : i < ipuBufMax) (b : IpuBuf) :
    held (Function.update t i b) + block (t i) = held t + block b := by
  have hmem : i ∈ Finset.range ipuBufMax := Finset.mem_range.mpr hi
  have hrest : ∑ j ∈ (Finset.range ipuBufMax).erase i, block (Function.update t i b j)
      = ∑ j ∈ (Finset.range ipuBufMax).erase i, block (t j) := by
    refine Finset.sum_congr rfl fun j hj => ?_
    rw [Function.update_of_ne (Finset.ne_of_mem_erase hj)]
  unfold held
  rw [← Finset.sum_erase_add _ _ hmem, ← Finset.sum_erase_add _ (fun j => block (t j)) hmem,
    hrest, Function.update_self]
  exact add_right_comm _ _ _

theorem block_of_ne (h : b.addr ≠ 0) :
    block b = {(physToVirt b.addr, b.pageShift)} := if_neg h

theorem block_of_eq (h : b.addr = 0) : block b = 0 := if_pos h

theorem block_virtToPhys_le (virt order : BitVec 32) :
    block ⟨virtToPhys virt, order⟩ ≤ {(virt, order)} := by
  unfold block
  split
  · exact Multiset.zero_le _
  · have hback : physToVirt (virtToPhys virt) = virt := by
      unfold physToVirt virtToPhys
      exact BitVec.sub_add_cancel _ _
    rw [hback]

/-! ### The search -/

theorem search_le : ∀ (n i : Nat), (search p t n i).1 ≤ i + n := by
  intro n
  induction n with
  | zero =>
    intro i
    exact Nat.le_refl _
  | succ n ih =>
    intro i
    unfold search
    split
    · show i ≤ i + (n + 1)
      omega
    · have hrest := ih (i + 1)
      show (search p t n (i + 1)).1 ≤ i + (n + 1)
      omega

theorem search_accesses :
    ∀ (n i : Nat), ∀ op ∈ (search p t n i).2, ∃ j < i + n, op = .access j := by
  intro n
  induction n with
  | zero =>
    intro i op hop
    cases hop
  | succ n ih =>
    intro i op hop
    unfold search at hop
    split at hop
    · obtain rfl := List.mem_singleton.mp hop
      exact ⟨i, by omega, rfl⟩
    · rcases List.mem_cons.mp hop with rfl | hop
      · exact ⟨i, by omega, rfl⟩
      · obtain ⟨j, hj, rfl⟩ := ih (i + 1) op hop
        exact ⟨j, by omega, rfl⟩

theorem search_found :
    ∀ (n i : Nat), (search p t n i).1 < i + n → p (t (search p t n i).1) = true := by
  intro n
  induction n with
  | zero =>
    intro i h
    exact absurd h (Nat.lt_irrefl _)
  | succ n ih =>
    intro i h
    unfold search at h ⊢
    split
    · assumption
    · rename_i hp
      rw [if_neg hp] at h
      have hlt : (search p t n (i + 1)).1 < i + (n + 1) := h
      exact ih (i + 1) (by omega)

theorem search_lt :
    ∀ (n i j : Nat), i ≤ j → j < i + n → p (t j) = true → (search p t n i).1 < i + n := by
  intro n
  induction n with
  | zero =>
    intro i j hij hj _
    omega
  | succ n ih =>
    intro i j hij hj hp
    unfold search
    split
    · show i < i + (n + 1)
      omega
    · rename_i hi
      have hne : i ≠ j := by
        rintro rfl
        exact hi hp
      have hrest := ih (i + 1) j (by omega) (by omega) hp
      show (search p t n (i + 1)).1 < i + (n + 1)
      omega

/-! ### The log -/

theorem live_append (log ops : List Op) : live (log ++ ops) = ops.foldl track (live log) :=
  List.foldl_append

theorem track_accesses :
    ∀ (ops : List Op) {l : Multiset Block}, (∀ op ∈ ops, ∃ i < ipuBufMax, op = .access i) →
      ops.foldl track l = l ∧ EachStep track Allowed l ops := by
  intro ops
  induction ops with
  | nil =>
    intro l _
    exact ⟨rfl, eachStep_nil l⟩
  | cons op ops ih =>
    intro l h
    obtain ⟨i, hi, rfl⟩ := h op (by simp)
    obtain ⟨hlive, hall⟩ := ih (l := l) fun op hop => h op (by simp [hop])
    exact ⟨hlive, eachStep_cons.mpr ⟨hi, hall⟩⟩

/-- Every entry of the log is allowed, and the table holds live blocks only. -/
def Inv (s : State) : Prop :=
  EachStep track Allowed 0 s.log ∧ held s.ipuBuf ≤ live s.log

theorem Inv.accesses (h : Inv s) {ops : List Op}
    (hops : ∀ op ∈ ops, ∃ i < ipuBufMax, op = .access i) : Inv { s with log := s.log ++ ops } := by
  obtain ⟨hlive, hall⟩ := track_accesses ops hops (l := live s.log)
  refine ⟨(eachStep_append _).mpr ⟨h.1, hall⟩, ?_⟩
  show held s.ipuBuf ≤ live (s.log ++ ops)
  rw [live_append, hlive]
  exact h.2

theorem boot_ipuBuf {behind : Nat → IpuBuf} {reserved : BitVec 32 → Bool} {i : Nat}
    (hi : i < ipuBufMax) : (boot behind reserved).ipuBuf i = ⟨0, 0⟩ := if_pos hi

theorem inv_boot (behind : Nat → IpuBuf) (reserved : BitVec 32 → Bool) :
    Inv (boot behind reserved) := by
  refine ⟨eachStep_nil _, ?_⟩
  have hempty : held (boot behind reserved).ipuBuf = 0 := by
    refine Finset.sum_eq_zero fun i hi => block_of_eq ?_
    rw [boot_ipuBuf (Finset.mem_range.mp hi)]
  rw [hempty]
  exact Multiset.zero_le _

/-! ### Each kind of write -/

theorem inv_ipuBufGet (h : Inv s) (virt pageShift : BitVec 32) :
    Inv (ipuBufGet virt pageShift s) := by
  have hacc := search_accesses (p := fun b => b.addr == 0) (t := s.ipuBuf) ipuBufMax 0
  have hle := search_le (p := fun b => b.addr == 0) (t := s.ipuBuf) ipuBufMax 0
  have hfound := search_found (p := fun b => b.addr == 0) (t := s.ipuBuf) ipuBufMax 0
  unfold ipuBufGet
  rcases hsearch : search (fun b => b.addr == 0) s.ipuBuf ipuBufMax 0 with ⟨i, ops⟩
  rw [hsearch] at hacc hle hfound
  rw [Nat.zero_add] at hacc hle hfound
  have hsearched := h.accesses hacc
  dsimp only
  split
  · exact hsearched
  rename_i hi
  split
  · have hlt : i < ipuBufMax := Nat.lt_of_le_of_ne hle hi
    have hfree : block (s.ipuBuf i) = 0 := block_of_eq (by simpa using hfound hlt)
    refine ⟨?_, ?_⟩
    · show EachStep track Allowed 0 (s.log ++ ops ++ [.getFreePages virt pageShift, .access i])
      refine (eachStep_append _).mpr ⟨hsearched.1, ?_⟩
      exact eachStep_cons.mpr ⟨trivial, eachStep_cons.mpr ⟨hlt, eachStep_nil _⟩⟩
    · show held (Function.update s.ipuBuf i ⟨virtToPhys virt, pageShift⟩)
        ≤ live (s.log ++ ops ++ [.getFreePages virt pageShift, .access i])
      have hupd := held_update (t := s.ipuBuf) hlt ⟨virtToPhys virt, pageShift⟩
      rw [hfree, add_zero] at hupd
      rw [hupd, live_append]
      show _ ≤ (virt, pageShift) ::ₘ live (s.log ++ ops)
      rw [← Multiset.singleton_add, add_comm]
      exact add_le_add (block_virtToPhys_le virt pageShift) hsearched.2
  · exact hsearched

theorem inv_ipuBufFreeAt (h : Inv s) {cnt : Nat} (hcnt : cnt < ipuBufMax)
    (hused : (s.ipuBuf cnt).addr ≠ 0) : Inv (ipuBufFreeAt cnt s) := by
  have hlog : (ipuBufFreeAt cnt s).log = s.log ++ [.access cnt,
      .freePages (physToVirt (s.ipuBuf cnt).addr) (s.ipuBuf cnt).pageShift] := by
    unfold ipuBufFreeAt ipuDelWiredEntry
    dsimp only
    split <;> rfl
  have hbuf : (ipuBufFreeAt cnt s).ipuBuf = Function.update s.ipuBuf cnt ⟨0, 0⟩ := by
    unfold ipuBufFreeAt ipuDelWiredEntry
    dsimp only
    split <;> rfl
  -- taking the block out of the table takes it out of the live ones
  have hupd := held_update (t := s.ipuBuf) hcnt ⟨0, 0⟩
  rw [block_of_ne hused, block_of_eq rfl, add_zero, add_comm, Multiset.singleton_add] at hupd
  have hlive := h.2
  rw [← hupd] at hlive
  have hmem := Multiset.mem_of_le hlive (Multiset.mem_cons_self _ _)
  refine ⟨?_, ?_⟩
  · rw [hlog]
    refine (eachStep_append _).mpr ⟨h.1, ?_⟩
    exact eachStep_cons.mpr ⟨hcnt, eachStep_cons.mpr ⟨hmem, eachStep_nil _⟩⟩
  · rw [hlog, hbuf, live_append]
    show _ ≤ (live s.log).erase _
    rw [← Multiset.erase_cons_head (physToVirt (s.ipuBuf cnt).addr, (s.ipuBuf cnt).pageShift)
      (held (Function.update s.ipuBuf cnt ⟨0, 0⟩))]
    exact Multiset.erase_le_erase _ hlive

theorem inv_ipuBufFree (h : Inv s) (ha : a ≠ 0 → Listed s a) : Inv (ipuBufFree a s) := by
  unfold ipuBufFree
  split
  · exact h
  rename_i hne
  obtain ⟨j, hj, haddr⟩ := ha hne
  have hacc := search_accesses (p := fun b => a == b.addr) (t := s.ipuBuf) ipuBufMax 0
  have hlt := search_lt (p := fun b => a == b.addr) (t := s.ipuBuf) ipuBufMax 0 j (by omega)
    (by omega) (by simp [haddr])
  have hfound := search_found (p := fun b => a == b.addr) (t := s.ipuBuf) ipuBufMax 0 hlt
  rcases hsearch : search (fun b => a == b.addr) s.ipuBuf ipuBufMax 0 with ⟨cnt, ops⟩
  rw [hsearch] at hacc hlt hfound
  rw [Nat.zero_add] at hacc hlt
  have hat : a = (s.ipuBuf cnt).addr := by simpa using hfound
  exact inv_ipuBufFreeAt (h.accesses hacc) hlt (by rw [← hat]; exact hne)

theorem inv_freeAll :
    ∀ (n cnt : Nat) {s : State}, cnt + n ≤ ipuBufMax → Inv s → Inv (freeAll n cnt s) := by
  intro n
  induction n with
  | zero =>
    intro cnt s _ h
    exact h
  | succ n ih =>
    intro cnt s hcnt h
    refine ih (cnt + 1) (by omega) ?_
    have hread : Inv { s with log := s.log ++ [.access cnt] } :=
      h.accesses fun op hop => ⟨cnt, by omega, List.mem_singleton.mp hop⟩
    exact inv_ipuBufFree hread fun _ => ⟨cnt, by omega, rfl⟩

theorem inv_printAll (h : Inv s) : Inv (printAll s) := by
  refine h.accesses fun op hop => ?_
  obtain ⟨i, hi, rfl⟩ := List.mem_map.mp hop
  exact ⟨i, List.mem_range.mp hi, rfl⟩

theorem inv_ipuAddWiredEntry (h : Inv s) : Inv (ipuAddWiredEntry s) := by
  unfold ipuAddWiredEntry
  split
  · exact h
  · exact h

theorem frees_val {w : Write} (hcount : w.count ≤ 9) (hbig : ¬ w.val < 10)
    (hall : w.val ≠ 0xff) : w.frees = some w.val := if_pos ⟨hcount, hbig, hall⟩

theorem inv_ipuWriteProc (s : State) (w : Write) (h : Inv s) (hw : FreesListed s w) :
    Inv (ipuWriteProc s w) := by
  unfold ipuWriteProc
  split
  · exact inv_ipuAddWiredEntry h
  split
  · rename_i hcount
    unfold ipuWriteVal
    split
    · exact inv_printAll h
    split
    · exact inv_ipuBufGet h _ _
    split
    · exact inv_freeAll _ 0 (Nat.le_refl _) h
    · rename_i hzero hsmall hall
      have hbig : ¬ w.val < 10 := by
        intro hlt
        exact hsmall ⟨by bv_omega, hlt⟩
      exact inv_ipuBufFree h fun _ => hw _ (frees_val hcount hbig hall)
  split
  · exact inv_ipuAddWiredEntry h
  · exact h

/-! ### An address that is not listed -/

theorem ipuBufFree_unlisted (hne : a ≠ 0) (ha : ¬ Listed s a) :
    Op.access ipuBufMax ∈ (ipuBufFree a s).log := by
  have hle := search_le (p := fun b => a == b.addr) (t := s.ipuBuf) ipuBufMax 0
  have hfound := search_found (p := fun b => a == b.addr) (t := s.ipuBuf) ipuBufMax 0
  unfold ipuBufFree
  rw [if_neg hne]
  rcases hsearch : search (fun b => a == b.addr) s.ipuBuf ipuBufMax 0 with ⟨cnt, ops⟩
  rw [hsearch] at hle hfound
  rw [Nat.zero_add] at hle hfound
  have hend : cnt = ipuBufMax := by
    by_contra hcnt
    have hlt : cnt < ipuBufMax := Nat.lt_of_le_of_ne hle hcnt
    have hat := hfound hlt
    exact ha ⟨cnt, hlt, by simpa using (beq_iff_eq.mp hat).symm⟩
  subst hend
  simp [ipuBufFreeAt, ipuDelWiredEntry]

theorem ipuWriteProc_unlisted {w : Write} (h : ¬ FreesListed s w) :
    Op.access ipuBufMax ∈ (ipuWriteProc s w).log := by
  unfold FreesListed at h
  push Not at h
  obtain ⟨a, hfrees, ha⟩ := h
  unfold Write.frees at hfrees
  split at hfrees
  · rename_i hw
    obtain ⟨hcount, hbig, hall⟩ := hw
    obtain rfl := Option.some.inj hfrees
    have hzero : w.val ≠ 0 := by
      intro hz
      rw [hz] at hbig
      exact hbig (by decide)
    have hwrite : ipuWriteProc s w = ipuBufFree w.val s := by
      unfold ipuWriteProc ipuWriteVal
      rw [if_neg (by omega), if_pos hcount, if_neg hzero, if_neg fun h => hbig h.2, if_neg hall]
    rw [hwrite]
    exact ipuBufFree_unlisted hzero ha
  · cases hfrees

/-! ### The log grows -/

theorem log_ipuBufFree (a : BitVec 32) (s : State) : s.log <+: (ipuBufFree a s).log := by
  unfold ipuBufFree
  split
  · exact List.prefix_rfl
  · unfold ipuBufFreeAt ipuDelWiredEntry
    dsimp only
    split <;> exact (List.prefix_append _ _).trans (List.prefix_append _ _)

theorem log_ipuBufGet (virt pageShift : BitVec 32) (s : State) :
    s.log <+: (ipuBufGet virt pageShift s).log := by
  unfold ipuBufGet
  dsimp only
  split
  · exact List.prefix_append _ _
  split
  · exact (List.prefix_append _ _).trans (List.prefix_append _ _)
  · exact List.prefix_append _ _

theorem log_freeAll : ∀ (n cnt : Nat) (s : State), s.log <+: (freeAll n cnt s).log := by
  intro n
  induction n with
  | zero =>
    intro cnt s
    exact List.prefix_rfl
  | succ n ih =>
    intro cnt s
    have hread : s.log <+: s.log ++ [.access cnt] := List.prefix_append _ _
    have hfree := log_ipuBufFree (s.ipuBuf cnt).addr { s with log := s.log ++ [.access cnt] }
    exact (hread.trans hfree).trans (ih (cnt + 1) _)

theorem log_ipuWriteProc (s : State) (w : Write) : s.log <+: (ipuWriteProc s w).log := by
  have hwired : s.log <+: (ipuAddWiredEntry s).log := by
    unfold ipuAddWiredEntry
    split
    · exact List.prefix_rfl
    · exact List.prefix_rfl
  unfold ipuWriteProc
  split
  · exact hwired
  split
  · unfold ipuWriteVal
    split
    · exact List.prefix_append _ _
    split
    · exact log_ipuBufGet _ _ _
    split
    · exact log_freeAll _ _ _
    · exact log_ipuBufFree _ _
  split
  · exact hwired
  · exact List.prefix_rfl

theorem log_run (writes : List Write) (s : State) :
    s.log <+: (writes.foldl ipuWriteProc s).log :=
  List.foldlRecOn (motive := fun t : State => s.log <+: t.log) writes _ List.prefix_rfl
    fun t h w _ => h.trans (log_ipuWriteProc t w)

/-! ### Whole runs -/

/-- **The table stays inside its bounds, frees only what is live and ignores unknown
addresses exactly in the runs that free no address but those in the table.** -/
theorem ipu_sound_iff (behind : Nat → IpuBuf) (reserved : BitVec 32 → Bool)
    (writes : List Write) :
    (EachStep track Allowed 0 (writes.foldl ipuWriteProc (boot behind reserved)).log ∧
        EachStep ipuWriteProc UnlistedIgnored (boot behind reserved) writes) ↔
      EachStep ipuWriteProc FreesListed (boot behind reserved) writes := by
  constructor
  · rintro ⟨hlog, -⟩ pre w post rfl
    by_contra hfrees
    have hacc := ipuWriteProc_unlisted hfrees
    have hmem : Op.access ipuBufMax ∈
        ((pre ++ w :: post).foldl ipuWriteProc (boot behind reserved)).log := by
      rw [List.foldl_append, List.foldl_cons]
      exact (log_run post _).subset hacc
    obtain ⟨l, r, hsplit⟩ := List.append_of_mem hmem
    exact absurd (hlog l _ r hsplit) (Nat.lt_irrefl _)
  · intro hfrees
    refine ⟨(hfrees.invariant Inv inv_ipuWriteProc writes (inv_boot _ _)).1, ?_⟩
    intro pre w post hsplit a ha hlisted
    exact absurd (hfrees pre w post hsplit a ha) hlisted

/-- `echo 12345678 > /proc/jz/ipu` on an empty table, with zeros behind it: the entry
behind the table is read, the first page of the memory loses its reserved flag and is
given to `free_pages`. -/
theorem ipu_frees_behind_table :
    (ipuWriteProc (boot (fun _ => ⟨0, 0⟩) (fun _ => true))
        ⟨8, ['1', '2', '3', '4', '5', '6', '7', '8'], 0⟩).log
      = [.access 0, .access 1, .access 2, .access 3, .access 4, .freePages 0x80000000 0] ∧
    (ipuWriteProc (boot (fun _ => ⟨0, 0⟩) (fun _ => true))
        ⟨8, ['1', '2', '3', '4', '5', '6', '7', '8'], 0⟩).reserved 0 = false ∧
    ¬ Listed (boot (fun _ => ⟨0, 0⟩) (fun _ => true)) 0x12345678 := by
  refine ⟨by decide, by decide, ?_⟩
  rintro ⟨i, hi, haddr⟩
  rw [boot_ipuBuf hi] at haddr
  exact absurd haddr (by decide)

end Dingoo.Ipu
