/-
The guess of a file system's type, `src/mininit/fstype.c`.

Two sectors are looked at, the one at the start of the device and the one at offset 1024;
both are read into the same union, so a field is an offset into the sector.  A pointer
into a sector is the part of it from there on.  Numbers of up to four bytes fit into
`unsigned long`.
-/
import Mathlib.Data.List.Basic

namespace Dingoo.Mininit

/-- The types, by the names `fstype` returns. -/
inductive FsType where
  | romfs
  | cramfs
  | squashfs
  | vfat
  | ext2
  | ext3
  | minix
deriving DecidableEq, Repr

/-- What the calls on a device give. -/
structure Device where
  /-- `open` succeeds -/
  opens : Bool
  /-- `lseek(fd, offset, SEEK_SET) == offset` -/
  lseek : Nat → Bool
  /-- the bytes a `read` of 512 bytes at an offset stores -/
  read : Nat → List UInt8

/-- The bytes of a string literal. -/
def ascii (s : String) : List UInt8 := s.toList.map fun c => UInt8.ofNat c.toNat

/-! ### Numbers and strings in a sector -/

/-- `assemble2le` -/
def assemble2le (p : List UInt8) : Nat := (p.getD 0 0).toNat ||| (p.getD 1 0).toNat <<< 8

/-- `assemble4le` -/
def assemble4le (p : List UInt8) : Nat :=
  (p.getD 0 0).toNat ||| (p.getD 1 0).toNat <<< 8 ||| (p.getD 2 0).toNat <<< 16 |||
    (p.getD 3 0).toNat <<< 24

/-- `swapped` -/
def swapped (b : Nat) : Nat := (b <<< 8 ||| b >>> 8) % 0x10000

/-- `!memcmp(p, q, n)` -/
def memcmp : Nat → List UInt8 → List UInt8 → Bool
  | 0, _, _ => true
  | n + 1, p, q => p.getD 0 0 = q.getD 0 0 && memcmp n p.tail q.tail

/-- `!strncmp(p, q, n)` -/
def strncmp : Nat → List UInt8 → List UInt8 → Bool
  | 0, _, _ => true
  | n + 1, p, q =>
    p.getD 0 0 = q.getD 0 0 && (p.getD 0 0 = 0 || strncmp n p.tail q.tail)

/-- `!strncmp(p, s, n)` with a literal of `n` characters. -/
def startsWith (p : List UInt8) (s : String) : Bool := strncmp (ascii s).length p (ascii s)

/-! ### The fields -/

section
variable (sect : List UInt8)

def fatOs : List UInt8 := sect.drop 3
def fatFs : List UInt8 := sect.drop 54
def fatFs2 : List UInt8 := sect.drop 82
def ext2magic : Nat := assemble2le (sect.drop 56)
def ext2FeatureCompat : List UInt8 := sect.drop 92
def minixmagic : Nat := assemble2le (sect.drop 16)

end

def CRAMFS_SUPER_MAGIC : Nat := 0x28cd3d45
def CRAMFS_SUPER_MAGIC_BE : Nat := 0x453dcd28
def SQUASHFS_SUPER_MAGIC : Nat := 0x73717368
def SQUASHFS_SUPER_MAGIC_BE : Nat := 0x68737173
def EXT2_PRE_02B_MAGIC : Nat := 0xEF51
def EXT2_SUPER_MAGIC : Nat := 0xEF53
def EXT3_FEATURE_COMPAT_HAS_JOURNAL : Nat := 0x0004
def MINIX_SUPER_MAGIC : Nat := 0x137F
def MINIX_SUPER_MAGIC2 : Nat := 0x138F
def MINIX2_SUPER_MAGIC : Nat := 0x2468
def MINIX2_SUPER_MAGIC2 : Nat := 0x2478

/-! ### The detection -/

/-- The part for the first sector. -/
def firstSector (sect : List UInt8) : Option FsType :=
  if memcmp 8 sect (ascii "-rom1fs-") then some .romfs
  else if assemble4le sect = CRAMFS_SUPER_MAGIC || assemble4le sect = CRAMFS_SUPER_MAGIC_BE then
    some .cramfs
  else if assemble4le sect = SQUASHFS_SUPER_MAGIC ||
      assemble4le sect = SQUASHFS_SUPER_MAGIC_BE then some .squashfs
  else if (startsWith (fatOs sect) "MSDOS" || startsWith (fatOs sect) "MSWIN" ||
        startsWith (fatOs sect) "MTOOL" || startsWith (fatOs sect) "IBM" ||
        startsWith (fatOs sect) "DRDOS" || startsWith (fatOs sect) "mkdosfs" ||
        startsWith (fatOs sect) "kmkdosfs" || startsWith (fatOs sect) "CH-FOR18") &&
      (startsWith (fatFs sect) "FAT12   " || startsWith (fatFs sect) "FAT16   " ||
        startsWith (fatFs2 sect) "FAT32   ") then some .vfat
  else none

/-- `sect.ext2.s_journal_inum != 0`.  The name of the array stands for its address, which is
that of a part of an object and not null, whatever the four bytes are. -/
def journalInumNonNull : Bool := true

/-- The part for the second sector. -/
def secondSector (sect : List UInt8) : Option FsType :=
  if ext2magic sect = EXT2_SUPER_MAGIC || ext2magic sect = EXT2_PRE_02B_MAGIC ||
      ext2magic sect = swapped EXT2_SUPER_MAGIC then
    if assemble4le (ext2FeatureCompat sect) &&& EXT3_FEATURE_COMPAT_HAS_JOURNAL ≠ 0 then
      if journalInumNonNull then some .ext3 else some .ext2
    else some .ext2
  else if minixmagic sect = MINIX_SUPER_MAGIC || minixmagic sect = MINIX_SUPER_MAGIC2 ||
      minixmagic sect = swapped MINIX_SUPER_MAGIC2 || minixmagic sect = MINIX2_SUPER_MAGIC ||
      minixmagic sect = MINIX2_SUPER_MAGIC2 then some .minix
  else none

/-- `fstype`; `none` is `NULL`. -/
def fstype (dev : Device) : Option FsType :=
  if !dev.opens then none
  else if !dev.lseek 0 then none
  else if (dev.read 0).length ≠ 512 then none
  else
    match firstSector (dev.read 0) with
    | some type => some type
    | none =>
      if !dev.lseek 1024 then none
      else if (dev.read 1024).length ≠ 512 then none
      else secondSector (dev.read 1024)

end Dingoo.Mininit
