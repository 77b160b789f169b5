/-
Which physical pages a mapping of the frame buffer shows.

An accepted request maps the pages at `smem_start + off`, `smem_start + off + 4096`
and so on, all sums taken modulo `2^32`.  The bounds check compares `off + size` with
the length of the frame buffer, but after that sum has been cut to 32 bits too.  As
long as it is not cut, the check is what it looks like.  If it is, then the mapping
runs over the end of the address space, and on its way it shows the page right
before the frame buffer.
-/
import Dingoo.Linux.Jz4740Slcd
import Dingoo.Lib.Masks

namespace Dingoo.Jz4740Slcd

variable {x prot : BitVec 32} {tables : Option Nat} {m : Mapped}

/-- Bytes rounded up to whole pages, without a carry. -/
def wholePages (n : Nat) : Nat := (n + 4095) / 4096 * 4096

/-! ### Page arithmetic -/

theorem and_pageMask_toNat (x : BitVec 32) : (x &&& pageMask).toNat = x.toNat / 4096 * 4096 :=
  Lib.and_highMask_toNat (p := 12) (by decide) x

theorem and_pageOffset_toNat (x : BitVec 32) : (x &&& ~~~pageMask).toNat = x.toNat % 4096 :=
  Lib.and_lowMask_toNat (p := 12) (by decide) x

theorem pageAlign_toNat (h : x.toNat + 4095 < 2 ^ 32) :
    (pageAlign x).toNat = wholePages x.toNat := by
  have hsum : (x + 4096 - 1).toNat = x.toNat + 4095 := by
    rw [BitVec.toNat_sub, BitVec.toNat_add]
    show (2 ^ 32 - 1 + (x.toNat + 4096) % 2 ^ 32) % 2 ^ 32 = x.toNat + 4095
    omega
  rw [pageAlign, and_pageMask_toNat, hsum, wholePages]

theorem pageAlign_of_pages (h : x.toNat % 4096 = 0) : pageAlign x = x := by
  apply BitVec.eq_of_toNat_eq
  rw [pageAlign_toNat (by omega), wholePages]
  omega

theorem and_pageMask_of_pages (h : x.toNat % 4096 = 0) : x &&& pageMask = x := by
  apply BitVec.eq_of_toNat_eq
  rw [and_pageMask_toNat]
  omega

theorem and_pageOffset_of_pages (h : x.toNat % 4096 = 0) : x &&& ~~~pageMask = 0#32 := by
  apply BitVec.eq_of_toNat_eq
  rw [and_pageOffset_toNat, h]
  rfl

theorem frame_toNat (h : x.toNat % 4096 = 0) (i : Nat) :
    ((x >>> 12 + BitVec.ofNat 32 i) <<< 12).toNat = (x.toNat + 4096 * i) % 2 ^ 32 := by
  rw [BitVec.toNat_shiftLeft, BitVec.toNat_add, BitVec.toNat_ushiftRight, BitVec.toNat_ofNat,
    Nat.shiftLeft_eq, Nat.shiftRight_eq_div_pow]
  omega

/-! ### The pages of a mapping -/

theorem mem_remapPteRange {a : BitVec 32} :
    ∀ (n : Nat) (addr pfn : BitVec 32),
      (∃ p ∈ remapPteRange prot n addr pfn, p.phys = a) ↔
        ∃ i < n, a = (pfn + BitVec.ofNat 32 i) <<< 12 := by
  intro n
  induction n with
  | zero =>
    intro addr pfn
    simp [remapPteRange]
  | succ n ih =>
    intro addr pfn
    have hshift : ∀ i : Nat, pfn + 1 + BitVec.ofNat 32 i = pfn + BitVec.ofNat 32 (i + 1) := by
      intro i
      rw [BitVec.ofNat_add, BitVec.add_assoc, BitVec.add_comm (BitVec.ofNat 32 i)]
      rfl
    constructor
    · rintro ⟨p, hp, rfl⟩
      rcases List.mem_cons.mp hp with rfl | hp
      · exact ⟨0, by omega, by simp⟩
      · obtain ⟨i, hi, heq⟩ := (ih _ _).mp ⟨p, hp, rfl⟩
        exact ⟨i + 1, by omega, by rw [heq, hshift]⟩
    · rintro ⟨i, hi, rfl⟩
      cases i with
      | zero => exact ⟨_, List.mem_cons_self, by simp⟩
      | succ i =>
        obtain ⟨p, hp, heq⟩ := (ih (addr + 4096) (pfn + 1)).mpr ⟨i, by omega, by rw [hshift]⟩
        exact ⟨p, List.mem_cons_of_mem _ hp, heq⟩

theorem remapPfnRange_zero {vma : Vma} {addr pfn size : BitVec 32}
    (h : remapPfnRange tables vma addr pfn size prot = some m) (hret : m.ret = 0) :
    m.ptes = remapPteRange prot ((addr + pageAlign size - addr) >>> 12).toNat addr pfn := by
  unfold remapPfnRange at h
  dsimp only at h
  split at h
  · obtain rfl := Option.some.inj h
    exact absurd hret (show (-EINVAL : Int) ≠ 0 by decide)
  split at h
  · cases h
  cases tables with
  | none =>
    obtain rfl := Option.some.inj h
    rfl
  | some k =>
    obtain rfl := Option.some.inj h
    exact absurd hret (show (-ENOMEM : Int) ≠ 0 by decide)

theorem jzfbMmap_accepted {fix : Fix} {vma : Vma} (h : jzfbMmap fix tables vma = some m)
    (hret : m.ret = 0) :
    vma.vmEnd - vma.vmStart + vma.vmPgoff <<< 12 ≤
        pageAlign ((fix.smemStart &&& ~~~pageMask) + fix.smemLen) ∧
      ∃ prot, m.ptes = remapPteRange prot
        ((vma.vmStart + pageAlign (vma.vmEnd - vma.vmStart) - vma.vmStart) >>> 12).toNat
        vma.vmStart ((vma.vmPgoff <<< 12 + (fix.smemStart &&& pageMask)) >>> 12) := by
  unfold jzfbMmap at h
  dsimp only at h
  split at h
  · obtain rfl := Option.some.inj h
    exact absurd hret (show (-EINVAL : Int) ≠ 0 by decide)
  · rename_i hlen
    split at h
    · cases h
    · rename_i m' hremap
      obtain rfl := Option.some.inj h
      have hzero : m'.ret = 0 := by
        by_contra hne
        dsimp only at hret
        rw [if_pos hne] at hret
        exact absurd hret (show (-EAGAIN : Int) ≠ 0 by decide)
      have hptes := remapPfnRange_zero hremap hzero
      exact ⟨BitVec.not_lt.mp hlen, _, hptes⟩

section
variable {fix : Fix} {vma : Vma}

theorem jzfbMmap_pages
    (hsize : (vma.vmEnd - vma.vmStart).toNat % 4096 = 0)
    (halign : fix.smemStart.toNat % 4096 = 0)
    (h : jzfbMmap fix tables vma = some m) (hret : m.ret = 0) (a : BitVec 32) :
    (∃ p ∈ m.ptes, p.phys = a) ↔ ∃ i < (vma.vmEnd - vma.vmStart).toNat / 4096,
      a.toNat = (fix.smemStart.toNat + 4096 * vma.vmPgoff.toNat + 4096 * i) % 2 ^ 32 := by
  obtain ⟨-, prot, hptes⟩ := jzfbMmap_accepted h hret
  have hcount : ((vma.vmStart + pageAlign (vma.vmEnd - vma.vmStart) - vma.vmStart) >>> 12).toNat
      = (vma.vmEnd - vma.vmStart).toNat / 4096 := by
    rw [pageAlign_of_pages hsize, BitVec.add_comm vma.vmStart, BitVec.add_sub_cancel,
      BitVec.toNat_ushiftRight, Nat.shiftRight_eq_div_pow]
  have hbase : (vma.vmPgoff <<< 12 + fix.smemStart).toNat
      = (4096 * vma.vmPgoff.toNat + fix.smemStart.toNat) % 2 ^ 32 := by
    rw [BitVec.toNat_add, BitVec.toNat_shiftLeft, Nat.shiftLeft_eq]
    omega
  have hpages : (vma.vmPgoff <<< 12 + fix.smemStart).toNat % 4096 = 0 := by
    rw [hbase]
    omega
  rw [hptes, hcount, and_pageMask_of_pages halign, mem_remapPteRange]
  refine exists_congr fun i => and_congr_right fun _ => ?_
  rw [← BitVec.toNat_inj, frame_toNat hpages, hbase]
  constructor
  · intro heq
    omega
  · intro heq
    omega

/-- The bounds check, read as a statement on numbers: the sum is cut, the length is not. -/
theorem jzfbMmap_checked
    (halign : fix.smemStart.toNat % 4096 = 0)
    (htop : fix.smemStart.toNat + wholePages fix.smemLen.toNat < 2 ^ 32)
    (h : jzfbMmap fix tables vma = some m) (hret : m.ret = 0) :
    ((vma.vmEnd - vma.vmStart).toNat + 4096 * vma.vmPgoff.toNat) % 2 ^ 32
      ≤ wholePages fix.smemLen.toNat := by
  obtain ⟨hlen, -⟩ := jzfbMmap_accepted h hret
  have hfits : fix.smemLen.toNat + 4095 < 2 ^ 32 := by
    unfold wholePages at htop
    omega
  rw [and_pageOffset_of_pages halign, BitVec.zero_add, BitVec.le_def, pageAlign_toNat hfits,
    BitVec.toNat_add, BitVec.toNat_shiftLeft, Nat.shiftLeft_eq] at hlen
  omega

/-- **A mapping shows only the frame buffer exactly when offset and size do not run over
the end of the address space.** -/
theorem jzfbMmap_confined_iff (hoff : vma.vmPgoff.toNat ≤ 0xFFFFF)
    (hsize : (vma.vmEnd - vma.vmStart).toNat % 4096 = 0)
    (hpos : 0 < (vma.vmEnd - vma.vmStart).toNat)
    (halign : fix.smemStart.toNat % 4096 = 0)
    (htop : fix.smemStart.toNat + wholePages fix.smemLen.toNat < 2 ^ 32)
    (h : jzfbMmap fix tables vma = some m) (hret : m.ret = 0) :
    (∀ p ∈ m.ptes, fix.smemStart.toNat ≤ p.phys.toNat ∧
        p.phys.toNat + 4096 ≤ fix.smemStart.toNat + wholePages fix.smemLen.toNat) ↔
      4096 * vma.vmPgoff.toNat + (vma.vmEnd - vma.vmStart).toNat < 2 ^ 32 := by
  have hpages := jzfbMmap_pages hsize halign h hret
  have hchecked := jzfbMmap_checked halign htop h hret
  constructor
  · intro hconf
    by_contra hover
    -- the page before the frame buffer is among those mapped
    obtain ⟨p, hp, hphys⟩ := (hpages (fix.smemStart - 4096)).mpr
      ⟨0xFFFFF - vma.vmPgoff.toNat, by omega, by
        rw [BitVec.toNat_sub]
        show (2 ^ 32 - 4096 + fix.smemStart.toNat) % 2 ^ 32 = _
        omega⟩
    obtain ⟨hlow, hhigh⟩ := hconf p hp
    have hval : p.phys.toNat = (2 ^ 32 - 4096 + fix.smemStart.toNat) % 2 ^ 32 := by
      rw [hphys, BitVec.toNat_sub]
      rfl
    omega
  · intro hunder p hp
    obtain ⟨i, hi, hphys⟩ := (hpages p.phys).mp ⟨p, hp, rfl⟩
    rw [Nat.mod_eq_of_lt (by omega)] at hchecked
    rw [Nat.mod_eq_of_lt (by omega)] at hphys
    omega

end

/-- A frame buffer of two pages at 4 MB. -/
def slcdFrame : Fix := ⟨0x400000, 0x2000⟩

/-- One of four pages. -/
def wideFrame : Fix := ⟨0x400000, 0x4000⟩

/-- Two pages from the second on, asked for by a private area. -/
def innerPages : Vma := ⟨0x10000000, 0x10002000, 1, 0, 0⟩

/-- Two pages from the last page offset there is. -/
def lastOffset : Vma := ⟨0x10000000, 0x10002000, 0xFFFFF, 0, 0⟩

theorem jzfbMmap_confined_inner :
    (jzfbMmap wideFrame none innerPages).map (fun m => (m.ret, m.ptes.map Pte.phys))
        = some (0, [0x401000, 0x402000]) ∧
      ∀ p ∈ ((jzfbMmap wideFrame none innerPages).get (by decide)).ptes,
        wideFrame.smemStart.toNat ≤ p.phys.toNat ∧
          p.phys.toNat + 4096 ≤ wideFrame.smemStart.toNat + wholePages wideFrame.smemLen.toNat :=
  ⟨by decide, (jzfbMmap_confined_iff (by decide) (by decide) (by decide) (by decide) (by decide)
    (show jzfbMmap wideFrame none innerPages
      = some ((jzfbMmap wideFrame none innerPages).get (by decide)) by simp)
    (by decide)).mpr (by decide)⟩

/-- The page at `0x3FF000` belongs to someone else. -/
theorem jzfbMmap_lastOffset :
    lastOffset.vmPgoff.toNat ≤ 0xFFFFF ∧
      (lastOffset.vmEnd - lastOffset.vmStart).toNat % 4096 = 0 ∧
      slcdFrame.smemStart.toNat % 4096 = 0 ∧
      slcdFrame.smemStart.toNat + wholePages slcdFrame.smemLen.toNat < 2 ^ 32 ∧
      (jzfbMmap slcdFrame none lastOffset).map (fun m => (m.ret, m.ptes.map Pte.phys))
        = some (0, [0x3FF000, 0x400000]) := by
  decide

end Dingoo.Jz4740Slcd
