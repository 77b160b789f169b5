/-
The type of a file system from its signature.

A signature is a string of bytes at an offset.  The model compares numbers assembled
from bytes and strings with an end, and each such comparison is one with a string of
bytes (`assemble4le_eq_iff`, `assemble2le_eq_iff`, `startsWith_iff`); with these
`fstype` is the first of the signatures that matches.  Inside ext2 and ext3 it is not
what the superblock says: the journal's inode number is never looked at, so a file
system that has the feature but no journal inode is taken for ext3.
-/
import Dingoo.Lib.Masks
import Dingoo.Mininit.Fstype
import Mathlib.Data.Nat.Bitwise

namespace Dingoo.Mininit

open Dingoo.Lib

variable {p : List UInt8}

/-! ### Signatures -/

/-- The bytes stand at the offset. -/
def At (sect : List UInt8) (offset : Nat) (bytes : List UInt8) : Prop :=
  bytes <+: sect.drop offset

instance (sect : List UInt8) (offset : Nat) (bytes : List UInt8) :
    Decidable (At sect offset bytes) := by
  unfold At
  exact inferInstance

/-- The families of file systems that have a signature. -/
inductive Family where
  | romfs
  | cramfs
  | squashfs
  | vfat
  | ext
  | minix
deriving DecidableEq, Repr

/-- The names of the systems that format FAT. -/
def fatSystems : List (List UInt8) :=
  [ascii "MSDOS", ascii "MSWIN", ascii "MTOOL", ascii "IBM", ascii "DRDOS", ascii "mkdosfs",
    ascii "kmkdosfs", ascii "CH-FOR18"]

/-- The signature of a family, in the sector at 0 or in the one at 1024. -/
def Family.Signed (first second : List UInt8) : Family → Prop
  | .romfs => At first 0 (ascii "-rom1fs-")
  | .cramfs => At first 0 [0x45, 0x3d, 0xcd, 0x28] ∨ At first 0 [0x28, 0xcd, 0x3d, 0x45]
  | .squashfs => At first 0 (ascii "hsqs") ∨ At first 0 (ascii "sqsh")
  | .vfat => (∃ system ∈ fatSystems, At first 3 system) ∧
      (At first 54 (ascii "FAT12   ") ∨ At first 54 (ascii "FAT16   ") ∨
        At first 82 (ascii "FAT32   "))
  | .ext => At second 56 [0x53, 0xef] ∨ At second 56 [0x51, 0xef] ∨ At second 56 [0xef, 0x53]
  | .minix => At second 16 [0x7f, 0x13] ∨ At second 16 [0x8f, 0x13] ∨ At second 16 [0x13, 0x8f] ∨
      At second 16 [0x68, 0x24] ∨ At second 16 [0x78, 0x24]

instance (first second : List UInt8) : (f : Family) → Decidable (f.Signed first second)
  | .romfs => inferInstanceAs (Decidable (At _ _ _))
  | .cramfs => inferInstanceAs (Decidable (_ ∨ _))
  | .squashfs => inferInstanceAs (Decidable (_ ∨ _))
  | .vfat => inferInstanceAs (Decidable (_ ∧ _))
  | .ext => inferInstanceAs (Decidable (_ ∨ _))
  | .minix => inferInstanceAs (Decidable (_ ∨ _))

/-- The order in which the signatures are looked for. -/
def families : List Family := [.romfs, .cramfs, .squashfs, .vfat, .ext, .minix]

/-- The first family whose signature is there. -/
def family (first second : List UInt8) : Option Family :=
  families.find? fun f => f.Signed first second

/-- The compatible features have the bit of the journal. -/
def HasJournal (super : List UInt8) : Prop := (super.getD 92 0).toNat.testBit 2 = true

/-- The journal's inode number, little-endian at offset 224. -/
def journalInum (super : List UInt8) : Nat :=
  (super.getD 224 0).toNat + (super.getD 225 0).toNat * 0x100 +
    (super.getD 226 0).toNat * 0x10000 + (super.getD 227 0).toNat * 0x1000000

instance (super : List UInt8) : Decidable (HasJournal super) := by
  unfold HasJournal
  exact inferInstance

/-- The type of a file system of a family. -/
def Family.type (second : List UInt8) : Family → FsType
  | .romfs => .romfs
  | .cramfs => .cramfs
  | .squashfs => .squashfs
  | .vfat => .vfat
  | .ext => if HasJournal second ∧ journalInum second ≠ 0 then .ext3 else .ext2
  | .minix => .minix

/-! ### Numbers and strings -/

theorem assemble2le_eq (p : List UInt8) :
    assemble2le p = (p.getD 0 0).toNat + (p.getD 1 0).toNat * 0x100 := by
  have h := (p.getD 0 0).toNat_lt
  rw [assemble2le, or_shiftLeft _ h]
  omega

theorem assemble4le_eq (p : List UInt8) :
    assemble4le p = (p.getD 0 0).toNat + (p.getD 1 0).toNat * 0x100 +
      (p.getD 2 0).toNat * 0x10000 + (p.getD 3 0).toNat * 0x1000000 := by
  have h0 := (p.getD 0 0).toNat_lt
  have h1 := (p.getD 1 0).toNat_lt
  have h2 := (p.getD 2 0).toNat_lt
  have hlow : (p.getD 0 0).toNat ||| (p.getD 1 0).toNat <<< 8 = _ := or_shiftLeft _ h0
  rw [assemble4le, hlow, @or_shiftLeft _ 16 _ (by omega), @or_shiftLeft _ 24 _ (by omega)]
  omega

theorem assemble2le_eq_iff (hlen : 2 ≤ p.length) (a b : UInt8) :
    assemble2le p = a.toNat + b.toNat * 0x100 ↔ [a, b] <+: p := by
  obtain ⟨x, p, rfl⟩ := List.exists_cons_of_length_pos (by omega : 0 < p.length)
  obtain ⟨y, p, rfl⟩ := List.exists_cons_of_length_pos (by simp at hlen; omega : 0 < p.length)
  have hx := x.toNat_lt
  have ha := a.toNat_lt
  rw [assemble2le_eq]
  simp only [List.cons_prefix_cons, List.nil_prefix, and_true, List.getD_cons_zero,
    List.getD_cons_succ, ← UInt8.toNat_inj]
  omega

theorem assemble4le_eq_iff (hlen : 4 ≤ p.length) (a b c d : UInt8) :
    assemble4le p = a.toNat + b.toNat * 0x100 + c.toNat * 0x10000 + d.toNat * 0x1000000 ↔
      [a, b, c, d] <+: p := by
  obtain ⟨x, p, rfl⟩ := List.exists_cons_of_length_pos (by omega : 0 < p.length)
  obtain ⟨y, p, rfl⟩ := List.exists_cons_of_length_pos (by simp at hlen; omega : 0 < p.length)
  obtain ⟨z, p, rfl⟩ := List.exists_cons_of_length_pos (by simp at hlen; omega : 0 < p.length)
  obtain ⟨w, p, rfl⟩ := List.exists_cons_of_length_pos (by simp at hlen; omega : 0 < p.length)
  have hx := x.toNat_lt
  have hy := y.toNat_lt
  have hz := z.toNat_lt
  have ha := a.toNat_lt
  have hb := b.toNat_lt
  have hc := c.toNat_lt
  rw [assemble4le_eq]
  simp only [List.cons_prefix_cons, List.nil_prefix, and_true, List.getD_cons_zero,
    List.getD_cons_succ, ← UInt8.toNat_inj]
  omega

theorem strncmp_iff : ∀ (q p : List UInt8), q.length ≤ p.length → (0 : UInt8) ∉ q →
    (strncmp q.length p q = true ↔ q <+: p) := by
  intro q
  induction q with
  | nil => intro p _ _; simp [strncmp]
  | cons y q ih =>
    intro p hlen h0
    obtain ⟨x, p, rfl⟩ := List.exists_cons_of_length_pos
      (Nat.lt_of_lt_of_le (Nat.succ_pos _) hlen)
    obtain ⟨hy, hq⟩ := not_or.mp (fun h => h0 (List.mem_cons.mpr h))
    have hrest := ih p (Nat.le_of_succ_le_succ hlen) hq
    simp only [List.length_cons, strncmp, List.getD_cons_zero, List.tail_cons,
      List.cons_prefix_cons, Bool.and_eq_true, Bool.or_eq_true, decide_eq_true_eq, hrest]
    constructor
    · rintro ⟨rfl, rfl | h⟩
      · exact absurd rfl hy
      · exact ⟨rfl, h⟩
    · rintro ⟨rfl, h⟩
      exact ⟨rfl, Or.inr h⟩

theorem memcmp_iff : ∀ (q p : List UInt8), q.length ≤ p.length →
    (memcmp q.length p q = true ↔ q <+: p) := by
  intro q
  induction q with
  | nil => intro p _; simp [memcmp]
  | cons y q ih =>
    intro p hlen
    obtain ⟨x, p, rfl⟩ := List.exists_cons_of_length_pos
      (Nat.lt_of_lt_of_le (Nat.succ_pos _) hlen)
    have hrest := ih p (Nat.le_of_succ_le_succ hlen)
    simp only [List.length_cons, memcmp, List.getD_cons_zero, List.tail_cons,
      List.cons_prefix_cons, Bool.and_eq_true, decide_eq_true_eq, hrest, @eq_comm _ x]

/-! ### The sectors -/

section
variable {first second : List UInt8}

theorem startsWith_iff {sect : List UInt8} (hlen : sect.length = 512) {offset : Nat} {s : String}
    (hs : (ascii s).length ≤ 8) (h0 : (0 : UInt8) ∉ ascii s) (hoffset : offset ≤ 504) :
    startsWith (sect.drop offset) s = true ↔ At sect offset (ascii s) := by
  refine strncmp_iff _ _ ?_ h0
  rw [List.length_drop]
  omega

theorem twoBytes_iff (hlen : second.length = 512) {offset : Nat} (hoffset : offset ≤ 510)
    (a b : UInt8) :
    assemble2le (second.drop offset) = a.toNat + b.toNat * 0x100 ↔ At second offset [a, b] := by
  refine assemble2le_eq_iff ?_ a b
  rw [List.length_drop]
  omega

theorem romfs_iff (hlen : first.length = 512) :
    memcmp 8 first (ascii "-rom1fs-") = true ↔ Family.romfs.Signed first second :=
  memcmp_iff (ascii "-rom1fs-") first (by rw [hlen]; decide)

theorem fourBytes_iff (hlen : first.length = 512) (a b c d : UInt8) :
    assemble4le first = a.toNat + b.toNat * 0x100 + c.toNat * 0x10000 + d.toNat * 0x1000000 ↔
      At first 0 [a, b, c, d] :=
  assemble4le_eq_iff (by omega) a b c d

theorem cramfs_iff (hlen : first.length = 512) :
    (assemble4le first = CRAMFS_SUPER_MAGIC || assemble4le first = CRAMFS_SUPER_MAGIC_BE) = true ↔
      Family.cramfs.Signed first second := by
  rw [Bool.or_eq_true, decide_eq_true_eq, decide_eq_true_eq]
  exact or_congr (fourBytes_iff hlen 0x45 0x3d 0xcd 0x28) (fourBytes_iff hlen 0x28 0xcd 0x3d 0x45)

theorem squashfs_iff (hlen : first.length = 512) :
    (assemble4le first = SQUASHFS_SUPER_MAGIC ||
      assemble4le first = SQUASHFS_SUPER_MAGIC_BE) = true ↔
      Family.squashfs.Signed first second := by
  rw [Bool.or_eq_true, decide_eq_true_eq, decide_eq_true_eq]
  exact or_congr (fourBytes_iff hlen 0x68 0x73 0x71 0x73) (fourBytes_iff hlen 0x73 0x71 0x73 0x68)

theorem vfat_iff (hlen : first.length = 512) :
    ((startsWith (fatOs first) "MSDOS" || startsWith (fatOs first) "MSWIN" ||
        startsWith (fatOs first) "MTOOL" || startsWith (fatOs first) "IBM" ||
        startsWith (fatOs first) "DRDOS" || startsWith (fatOs first) "mkdosfs" ||
        startsWith (fatOs first) "kmkdosfs" || startsWith (fatOs first) "CH-FOR18") &&
      (startsWith (fatFs first) "FAT12   " || startsWith (fatFs first) "FAT16   " ||
        startsWith (fatFs2 first) "FAT32   ")) = true ↔ Family.vfat.Signed first second := by
  have hat : ∀ {offset : Nat} {s : String}, (ascii s).length ≤ 8 → (0 : UInt8) ∉ ascii s →
      offset ≤ 504 → (startsWith (first.drop offset) s = true ↔ At first offset (ascii s)) :=
    fun hs h0 hoffset => startsWith_iff hlen hs h0 hoffset
  simp only [Bool.and_eq_true, Bool.or_eq_true, fatOs, fatFs, fatFs2, Family.Signed, fatSystems,
    List.mem_cons, List.not_mem_nil, or_false, exists_eq_or_imp, exists_eq_left, or_assoc]
  simp (disch := decide) only [hat]

theorem ext_iff (hlen : second.length = 512) :
    (ext2magic second = EXT2_SUPER_MAGIC || ext2magic second = EXT2_PRE_02B_MAGIC ||
      ext2magic second = swapped EXT2_SUPER_MAGIC) = true ↔ Family.ext.Signed first second := by
  rw [Bool.or_eq_true, Bool.or_eq_true, decide_eq_true_eq, decide_eq_true_eq, decide_eq_true_eq,
    or_assoc]
  have hmagic := @twoBytes_iff _ hlen 56 (by decide)
  exact or_congr (hmagic 0x53 0xef) (or_congr (hmagic 0x51 0xef) (hmagic 0xef 0x53))

theorem minix_iff (hlen : second.length = 512) :
    (minixmagic second = MINIX_SUPER_MAGIC || minixmagic second = MINIX_SUPER_MAGIC2 ||
      minixmagic second = swapped MINIX_SUPER_MAGIC2 || minixmagic second = MINIX2_SUPER_MAGIC ||
      minixmagic second = MINIX2_SUPER_MAGIC2) = true ↔ Family.minix.Signed first second := by
  simp only [Bool.or_eq_true, decide_eq_true_eq, or_assoc]
  have hmagic := @twoBytes_iff _ hlen 16 (by decide)
  exact or_congr (hmagic 0x7f 0x13) (or_congr (hmagic 0x8f 0x13)
    (or_congr (hmagic 0x13 0x8f) (or_congr (hmagic 0x68 0x24) (hmagic 0x78 0x24))))

theorem hasJournal_iff : assemble4le (ext2FeatureCompat second) &&&
    EXT3_FEATURE_COMPAT_HAS_JOURNAL ≠ 0 ↔ HasJournal second := by
  have hbyte : (ext2FeatureCompat second).getD 0 0 = second.getD 92 0 := by
    simp [ext2FeatureCompat, List.getD_eq_getElem?_getD]
  have hbit : ∀ n : Nat, n &&& EXT3_FEATURE_COMPAT_HAS_JOURNAL ≠ 0 ↔ n.testBit 2 = true := by
    intro n
    rw [EXT3_FEATURE_COMPAT_HAS_JOURNAL, show (0x0004 : Nat) = 2 ^ 2 from rfl, Nat.and_two_pow]
    cases n.testBit 2 with
    | true => simp
    | false => simp
  unfold HasJournal
  rw [hbit, assemble4le_eq, hbyte, Nat.testBit_eq_decide_div_mod_eq,
    Nat.testBit_eq_decide_div_mod_eq, decide_eq_true_eq, decide_eq_true_eq]
  omega

/-- What `fstype` takes a file system of a family for. -/
def Family.guess (second : List UInt8) : Family → FsType
  | .ext => if HasJournal second then .ext3 else .ext2
  | f => f.type second

theorem firstSector_eq (hlen : first.length = 512) : firstSector first =
    if Family.romfs.Signed first second then some .romfs
    else if Family.cramfs.Signed first second then some .cramfs
    else if Family.squashfs.Signed first second then some .squashfs
    else if Family.vfat.Signed first second then some .vfat
    else none := by
  simp only [firstSector, @romfs_iff _ second hlen, @cramfs_iff _ second hlen,
    @squashfs_iff _ second hlen, @vfat_iff _ second hlen]

theorem secondSector_eq (hlen : second.length = 512) : secondSector second =
    if Family.ext.Signed first second then some (Family.ext.guess second)
    else if Family.minix.Signed first second then some .minix
    else none := by
  simp only [secondSector, @ext_iff first _ hlen, @minix_iff first _ hlen, hasJournal_iff,
    journalInumNonNull, if_true, Family.guess, apply_ite some]

theorem family_eq : family first second =
    if Family.romfs.Signed first second then some .romfs
    else if Family.cramfs.Signed first second then some .cramfs
    else if Family.squashfs.Signed first second then some .squashfs
    else if Family.vfat.Signed first second then some .vfat
    else if Family.ext.Signed first second then some .ext
    else if Family.minix.Signed first second then some .minix
    else none := by
  have hcons : ∀ f fs, (f :: fs).find? (fun f => decide (Family.Signed first second f)) =
      if f.Signed first second then some f
      else fs.find? fun f => decide (Family.Signed first second f) := by
    intro f fs
    by_cases hf : f.Signed first second
    · rw [if_pos hf]
      exact List.find?_cons_of_pos (by simpa using hf)
    · rw [if_neg hf]
      exact List.find?_cons_of_neg (by simpa using hf)
  simp only [family, families, hcons, List.find?_nil]

/-- **`fstype` finds the first signature.** -/
theorem fstype_eq {dev : Device} (hopen : dev.opens = true) (hseek : dev.lseek 0 = true)
    (hseek2 : dev.lseek 1024 = true) (hfirst : (dev.read 0).length = 512)
    (hsecond : (dev.read 1024).length = 512) :
    fstype dev =
      (family (dev.read 0) (dev.read 1024)).map (Family.guess (dev.read 1024)) := by
  unfold fstype
  rw [hopen, hseek, hseek2, @firstSector_eq _ (dev.read 1024) hfirst,
    @secondSector_eq (dev.read 0) _ hsecond, family_eq, hfirst, hsecond]
  simp only [Bool.not_true, Bool.false_eq_true, if_false, ne_eq, not_true_eq_false]
  split_ifs
  all_goals rfl

end

/-- **`fstype` returns the type of the first matching signature, with the right one of ext2 and
ext3**, exactly if the device does not hold an ext2 superblock that has the journal feature
and no journal inode. -/
theorem fstype_iff {dev : Device} (hopen : dev.opens = true) (hseek : dev.lseek 0 = true)
    (hseek2 : dev.lseek 1024 = true) (hfirst : (dev.read 0).length = 512)
    (hsecond : (dev.read 1024).length = 512) :
    fstype dev = (family (dev.read 0) (dev.read 1024)).map (Family.type (dev.read 1024)) ↔
      ¬ (family (dev.read 0) (dev.read 1024) = some .ext ∧ HasJournal (dev.read 1024) ∧
        journalInum (dev.read 1024) = 0) := by
  rw [fstype_eq hopen hseek hseek2 hfirst hsecond]
  cases hfam : family (dev.read 0) (dev.read 1024) with
  | none => simp
  | some f =>
    cases f with
    | ext =>
      by_cases hj : HasJournal (dev.read 1024)
      · by_cases h0 : journalInum (dev.read 1024) = 0
        · simp [Family.guess, Family.type, hj, h0]
        · simp [Family.guess, Family.type, hj, h0]
      · simp [Family.guess, Family.type, hj]
    | _ => simp [Family.guess]

/-- A sector of zeros but for some bytes. -/
def sectorWith (fields : List (Nat × UInt8)) : List UInt8 :=
  (List.range 512).map fun i => ((fields.find? (·.1 = i)).map Prod.snd).getD 0

/-- An ext3 file system whose journal is inode 8. -/
theorem fstype_ext3 :
    (sectorWith []).length = 512 ∧
    fstype ⟨true, fun _ => true, fun offset =>
      if offset = 1024 then sectorWith [(56, 0x53), (57, 0xef), (92, 4), (224, 8)]
      else sectorWith []⟩ = some .ext3 := by
  refine ⟨by decide +kernel, ?_⟩
  have h := (@fstype_iff ⟨true, fun _ => true, fun offset =>
      if offset = 1024 then sectorWith [(56, 0x53), (57, 0xef), (92, 4), (224, 8)]
      else sectorWith []⟩ rfl rfl rfl (by decide +kernel) (by decide +kernel)).mpr
    (by decide +kernel)
  rw [h]
  decide +kernel

/-- A file system with the journal feature and no journal inode is taken for ext3. -/
theorem fstype_without_journal :
    family (sectorWith []) (sectorWith [(56, 0x53), (57, 0xef), (92, 4)]) = some .ext ∧
    Family.ext.type (sectorWith [(56, 0x53), (57, 0xef), (92, 4)]) = .ext2 ∧
    fstype ⟨true, fun _ => true, fun offset =>
      if offset = 1024 then sectorWith [(56, 0x53), (57, 0xef), (92, 4)]
      else sectorWith []⟩ = some .ext3 := by
  decide +kernel

end Dingoo.Mininit
