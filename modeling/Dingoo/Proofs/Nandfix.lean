/-
`nandfix` turns a page written by the kernel into the page the first boot stage expects.

A page written without a client's spare bytes has a closed form under each layout:
`kernelOob` with the parity bytes at the end, `iplOob` with three zero bytes and the
parity bytes behind them.  The writer keeps `oob_poi` in that form from page to page,
since every page puts its own parity over the one before.  `fixOob` takes one form to
the other, and the loop over the dump treats each page alone.
-/
import Dingoo.Linux.NandWrite
import Dingoo.Nandfix.Main
import Dingoo.Proofs.NandPlanes

namespace Dingoo.Nandfix

open Dingoo.Lib Dingoo.Nand

variable {ecc ecc' : List UInt8} {ops : OobOps}

/-! ### The two forms of the spare area -/

/-- The spare area under the layout of the kernel. -/
def kernelOob (ecc : List UInt8) : List UInt8 := List.replicate 28 0xff ++ ecc

/-- The spare area under the layout of the first boot stage. -/
def iplOob (ecc : List UInt8) : List UInt8 :=
  [0xff, 0xff, 0, 0, 0, 0xff] ++ ecc ++ List.replicate 22 0xff

theorem setEcc_range' :
    ∀ (ecc old head tail : List UInt8), old.length = ecc.length →
      setEcc (List.range' head.length ecc.length) ecc (head ++ old ++ tail) =
        head ++ ecc ++ tail := by
  intro ecc
  induction ecc with
  | nil =>
    intro old head tail hlen
    obtain rfl : old = [] := List.eq_nil_of_length_eq_zero hlen
    rfl
  | cons b ecc ih =>
    intro old head tail hlen
    cases old with
    | nil => simp at hlen
    | cons o old =>
      have hset : (head ++ o :: old ++ tail).set head.length b =
          (head ++ [b]) ++ old ++ tail := by simp
      have htail := ih old (head ++ [b]) tail (by simpa using hlen)
      rw [List.length_append, List.length_singleton] at htail
      rw [List.length_cons, List.range'_succ, setEcc, hset, htail]
      simp

theorem fixOob_kernelOob (h : ecc.length = 36) : fixOob (kernelOob ecc) = iplOob ecc := by
  have hmove : memmove (kernelOob ecc) 6 28 36 =
      List.replicate 6 0xff ++ ecc ++ (kernelOob ecc).drop 42 := by
    simp [memmove, splice, kernelOob, List.take_of_length_le (Nat.le_of_eq h), h]
  have hset : memset (List.replicate 6 0xff ++ ecc ++ (kernelOob ecc).drop 42) 42 0xff 22 =
      List.replicate 6 0xff ++ ecc ++ List.replicate 22 0xff := by
    have htake : (List.replicate 6 0xff ++ ecc ++ (kernelOob ecc).drop 42).take 42 =
        List.replicate 6 0xff ++ ecc := List.take_left' (by simp [h])
    have hdrop : (List.replicate 6 0xff ++ ecc ++ (kernelOob ecc).drop 42).drop 64 = [] :=
      List.drop_eq_nil_of_le (by simp [kernelOob, h])
    rw [memset, splice, htake, List.length_replicate, hdrop, List.append_nil]
  unfold fixOob
  dsimp only
  rw [hmove, hset]
  rfl

/-! ### The writer -/

/-- The same page under the two layouts. -/
structure Converted (a b : PageWrite) : Prop where
  chipnr : b.chipnr = a.chipnr
  page : b.page = a.page
  data : b.data = a.data
  oob : ∃ ecc, ecc.length = 36 ∧ a.oob = kernelOob ecc ∧ b.oob = iplOob ecc

theorem length_hweccSteps (rs : RsUnit) :
    ∀ (n : Nat) (p : List UInt8), (hweccSteps rs n p).2.length = n * 9 := by
  intro n
  induction n with
  | zero => intro p; rfl
  | succ n ih =>
    intro p
    rw [hweccSteps, List.length_append, rs.encode_length, ih]
    omega

section Sizes

variable {d : WriteDev}

@[simp] theorem kernel_g : d.kernel.g = d.g := rfl

@[simp] theorem kernel_fails : d.kernel.fails = d.fails := rfl

@[simp] theorem kernel_subpagesize : d.kernel.subpagesize = d.subpagesize := rfl

@[simp] theorem kernel_writeProtected : d.kernel.writeProtected = d.writeProtected := rfl

@[simp] theorem ipl_g : d.ipl.g = d.g := rfl

@[simp] theorem ipl_fails : d.ipl.fails = d.fails := rfl

@[simp] theorem ipl_subpagesize : d.ipl.subpagesize = d.subpagesize := rfl

@[simp] theorem ipl_writeProtected : d.ipl.writeProtected = d.writeProtected := rfl

section
variable (hw : d.g.writesize = 2048)
include hw

theorem hwecc_kernel (buf : List UInt8) (h : ecc'.length = 36) :
    nandWritePageHwecc d.kernel buf (kernelOob ecc') =
      ((hweccSteps d.rs 4 buf).1, kernelOob (hweccSteps d.rs 4 buf).2) := by
  have hsteps : d.kernel.g.eccSteps = 4 := by simp [Geometry.eccSteps, hw]
  have hlen := length_hweccSteps d.rs 4 buf
  have hset := setEcc_range' (hweccSteps d.rs 4 buf).2 ecc' (List.replicate 28 0xff) []
    (h.trans hlen.symm)
  rw [hlen, List.append_nil, List.append_nil, List.length_replicate] at hset
  unfold nandWritePageHwecc
  rw [Geometry.eccTotal, hsteps]
  exact congrArg (Prod.mk _) hset

theorem hwecc_ipl (buf : List UInt8) (h : ecc'.length = 36) :
    nandWritePageHwecc d.ipl buf (iplOob ecc') =
      ((hweccSteps d.rs 4 buf).1, iplOob (hweccSteps d.rs 4 buf).2) := by
  have hsteps : d.ipl.g.eccSteps = 4 := by simp [Geometry.eccSteps, hw]
  have hlen := length_hweccSteps d.rs 4 buf
  have hset := setEcc_range' (hweccSteps d.rs 4 buf).2 ecc' [0xff, 0xff, 0, 0, 0, 0xff]
    (List.replicate 22 0xff) (h.trans hlen.symm)
  rw [hlen] at hset
  unfold nandWritePageHwecc
  rw [Geometry.eccTotal, hsteps]
  exact congrArg (Prod.mk _) hset

/-- Page by page, the two devices are sent the same data, and spare areas with the same
parity. -/
theorem writePages_converted (hraw : ops.mode ≠ .raw) :
    ∀ (fuel column writelen realpage chipnr : Nat) (buf : List UInt8) {ecc ecc' : List UInt8},
      ecc.length = 36 → ecc'.length = 36 →
      List.Forall₂ Converted
        (writePages d.kernel ops fuel column writelen realpage chipnr buf none (kernelOob ecc)).2.2
        (writePages d.ipl ops fuel column writelen realpage chipnr buf none (iplOob ecc')).2.2 := by
  intro fuel
  induction fuel with
  | zero => intros; exact List.Forall₂.nil
  | succ fuel ih =>
    intro column writelen realpage chipnr buf ecc ecc' h h'
    have hlen := length_hweccSteps d.rs 4 (turnBuf d.g column writelen buf)
    have hpage : ∀ (page : Nat), Converted
        ⟨chipnr, page, (hweccSteps d.rs 4 (turnBuf d.g column writelen buf)).1,
          kernelOob (hweccSteps d.rs 4 (turnBuf d.g column writelen buf)).2⟩
        ⟨chipnr, page, (hweccSteps d.rs 4 (turnBuf d.g column writelen buf)).1,
          iplOob (hweccSteps d.rs 4 (turnBuf d.g column writelen buf)).2⟩ :=
      fun page => ⟨rfl, rfl, rfl, _, hlen, rfl, rfl⟩
    simp only [writePages, turnOob, nandWritePageData, if_neg hraw, hwecc_kernel hw _ h,
      hwecc_ipl hw _ h', kernel_g, kernel_fails, ipl_g, ipl_fails]
    -- both devices fail on the same pages and end at the same one
    by_cases hfail : d.fails chipnr (realpage &&& d.g.pagemask)
    · rw [if_pos hfail, if_pos hfail]
      exact List.Forall₂.cons (hpage _) List.Forall₂.nil
    · rw [if_neg hfail, if_neg hfail]
      by_cases hlast : writelen - turnBytes d.g column writelen = 0
      · rw [if_pos hlast, if_pos hlast]
        exact List.Forall₂.cons (hpage _) List.Forall₂.nil
      · rw [if_neg hlast, if_neg hlast]
        exact List.Forall₂.cons (hpage _) (ih _ _ _ _ _ hlen hlen)

theorem nandDoWriteOps_converted (ho : d.g.oobsize = 64) (toOffs : Nat)
    (hoob : ops.oobbuf = none) (hraw : ops.mode ≠ .raw) :
    List.Forall₂ Converted (nandDoWriteOps d.kernel toOffs ops).2.2
      (nandDoWriteOps d.ipl toOffs ops).2.2 := by
  have hkernel : blankOob d.kernel = kernelOob (List.replicate 36 0xff) := by
    simp [blankOob, ho, WriteDev.kernel, kernelOob]
  have hipl : blankOob d.ipl = iplOob (List.replicate 36 0xff) := by
    unfold blankOob
    rw [ipl_g, ho]
    rfl
  have hff : (List.replicate 36 (0xff : UInt8)).length = 36 := List.length_replicate
  have hpages := writePages_converted hw hraw ops.len (toOffs &&& (d.g.writesize - 1)) ops.len
    (toOffs >>> d.g.pageShift) (toOffs >>> d.g.chipShift) ops.datbuf hff hff
  rw [← hkernel, ← hipl] at hpages
  unfold nandDoWriteOps
  simp only [hoob, Option.isSome_none, Option.isNone_none, if_true, kernel_g, kernel_subpagesize,
    kernel_writeProtected, ipl_g, ipl_subpagesize, ipl_writeProtected, Bool.false_eq_true,
    and_false, if_false]
  by_cases hzero : ops.len = 0
  · rw [if_pos hzero, if_pos hzero]
    exact List.Forall₂.nil
  · rw [if_neg hzero, if_neg hzero]
    by_cases halign : toOffs &&& (d.subpagesize - 1) ≠ 0 ∨ ops.len &&& (d.subpagesize - 1) ≠ 0
    · rw [if_pos halign, if_pos halign]
      exact List.Forall₂.nil
    · rw [if_neg halign, if_neg halign]
      by_cases hwp : d.writeProtected
      · rw [if_pos hwp, if_pos hwp]
        exact List.Forall₂.nil
      · rw [if_neg hwp, if_neg hwp]
        exact hpages

end

end Sizes

/-! ### The dump -/

theorem length_fixOob {oob : List UInt8} (h : oob.length = 64) : (fixOob oob).length = 64 := by
  have hmove : (memmove oob 6 28 36).length = 64 := by
    rw [memmove, length_splice (by simp [h])]
    exact h
  have hset : (memset (memmove oob 6 28 36) 42 0xff 22).length = 64 := by
    rw [memset, length_splice (by simp [hmove])]
    exact hmove
  simpa [fixOob] using hset

/-- A page of the dump after `main`. -/
def fixedPage (buf : List UInt8) : List UInt8 :=
  if isErased buf then buf else splice buf 2048 (fixOob (buf.drop 2048))

section File

variable {file : List UInt8} {i : Nat}

theorem fixPage_spec (hlen : file.length = 128 * 2112) (hi : i < 128) :
    (fixPage file i).2.length = 128 * 2112 ∧
      ∀ j, piece (fixPage file i).2 2112 j =
        if i = j then fixedPage (piece file 2112 j) else piece file 2112 j := by
  have hin : (i + 1) * 2112 ≤ file.length := by omega
  have hpiece : (piece file 2112 i).length = 2112 := length_piece hin
  have hoob : (fixOob ((piece file (2048 + 64) i).drop 2048)).length = 64 :=
    length_fixOob (by rw [List.length_drop, hpiece])
  unfold fixPage fixedPage
  by_cases herased : isErased (piece file 2112 i)
  · rw [if_pos herased]
    refine ⟨hlen, fun j => ?_⟩
    split
    · rename_i hij
      subst hij
      rw [if_pos herased]
    · rfl
  · rw [if_neg herased]
    refine ⟨?_, fun j => ?_⟩
    · show (splice file (i * 2112 + 2048) _).length = _
      rw [length_splice (by rw [hoob]; omega), hlen]
    · show piece (splice file (i * 2112 + 2048) _) 2112 j = _
      split
      · rename_i hij
        subst hij
        rw [if_neg herased, piece_splice_same hin (by omega)]
      · rename_i hij
        rw [piece_splice_other hin (by omega) hij]

/-- The loop rewrites every page it meets, each from what the dump held at the start. -/
theorem fixPages_spec :
    ∀ (pages : List Nat) (acc : List Char × List UInt8), pages.Nodup → (∀ i ∈ pages, i < 128) →
      acc.2.length = 128 * 2112 →
      ∀ j, piece (pages.foldl (fun acc i =>
          (acc.1 ++ [(fixPage acc.2 i).1], (fixPage acc.2 i).2)) acc).2 2112 j =
        if j ∈ pages then fixedPage (piece acc.2 2112 j) else piece acc.2 2112 j := by
  intro pages
  induction pages with
  | nil =>
    intro acc _ _ _ j
    rfl
  | cons i pages ih =>
    intro acc hnodup hbound hlen j
    obtain ⟨hfresh, hrest⟩ := List.nodup_cons.mp hnodup
    obtain ⟨hlen', hpiece⟩ := fixPage_spec hlen (hbound i (by simp))
    rw [List.foldl_cons, ih _ hrest (fun k hk => hbound k (by simp [hk])) hlen', hpiece]
    by_cases hij : i = j
    · subst hij
      rw [if_neg hfresh, if_pos rfl, if_pos (by simp)]
    · rw [if_neg hij]
      by_cases hj : j ∈ pages
      · rw [if_pos hj, if_pos (by simp [hj])]
      · rw [if_neg hj, if_neg (by simp [hj, Ne.symm hij])]

theorem main_eq (hlen : file.length = 128 * 2112) :
    main file = .ok ("Fixing: ".toList ++ (fixPages file (List.range 128)).1 ++ ['\n'],
      (fixPages file (List.range 128)).2) := by
  unfold main
  rw [if_neg (by simp [hlen])]

/-- **`nandfix` converts to the layout of the boot loader**: a page of the dump that the kernel
wrote without spare bytes of the client's, and that does not look erased, becomes the page the
kernel built for the boot loader writes for the same data. -/
theorem main_converts {d : WriteDev} (hw : d.g.writesize = 2048) (ho : d.g.oobsize = 64)
    (toOffs : Nat) {ops : OobOps} (hoob : ops.oobbuf = none) (hraw : ops.mode ≠ .raw) {k : Nat}
    {a : PageWrite} (ha : (nandDoWriteOps d.kernel toOffs ops).2.2[k]? = some a)
    (hlen : file.length = 128 * 2112) (hi : i < 128)
    (hpage : piece file 2112 i = a.data ++ a.oob) (herased : isErased (a.data ++ a.oob) = false) :
    ∃ out file' b, main file = .ok (out, file') ∧
      (nandDoWriteOps d.ipl toOffs ops).2.2[k]? = some b ∧
      b.chipnr = a.chipnr ∧ b.page = a.page ∧ b.data = a.data ∧
      piece file' 2112 i = b.data ++ b.oob := by
  have hconv := nandDoWriteOps_converted hw ho toOffs hoob hraw
  obtain ⟨hk, rfl⟩ := List.getElem?_eq_some_iff.mp ha
  have hk' : k < (nandDoWriteOps d.ipl toOffs ops).2.2.length := hconv.length_eq ▸ hk
  have hb := hconv.get hk hk'
  simp only [List.get_eq_getElem] at hb
  obtain ⟨ecc, hecc, hkernel, hipl⟩ := hb.oob
  refine ⟨_, _, _, main_eq hlen, List.getElem?_eq_getElem hk', hb.chipnr, hb.page, hb.data, ?_⟩
  have hdata : (nandDoWriteOps d.kernel toOffs ops).2.2[k].data.length = 2048 := by
    have := congrArg List.length hpage
    rw [length_piece (by omega), List.length_append, hkernel] at this
    simp only [kernelOob, List.length_append, List.length_replicate, hecc] at this
    omega
  rw [fixPages, fixPages_spec _ _ List.nodup_range (fun j hj => List.mem_range.mp hj) hlen,
    if_pos (List.mem_range.mpr hi)]
  show fixedPage (piece file 2112 i) = _
  rw [hpage, fixedPage, if_neg (by simp [herased]), hb.data, hipl, hkernel, ← hdata,
    List.drop_left, fixOob_kernelOob hecc]
  simp [splice, iplOob, kernelOob, hecc]

end File

/-- A chip with pages of 2048 bytes, and an ECC unit with constant parity. -/
def plainDev : WriteDev where
  rs := flatRs
  g := ⟨0x8000000, 2048, 64, 0x40000, 1, 1, 11, 0xffff, 27, 0, false⟩
  iplOob := false
  eccpos := []
  oobfree := []
  subpagesize := 2048
  writeProtected := false
  fails := fun _ _ => false
  oobPoi := []

/-- A dump that starts with a written page of zeros. -/
theorem main_converts_zeros :
    plainDev.g.writesize = 2048 ∧ ∃ out file' b,
      main (List.replicate 2048 0 ++ kernelOob (List.replicate 36 0) ++
        List.replicate (127 * 2112) 0) = .ok (out, file') ∧
      (nandDoWriteOps plainDev.ipl 0
        ⟨.place, 2048, 0, 0, List.replicate 2048 0, none⟩).2.2[0]? = some b ∧
      b.chipnr = 0 ∧ b.page = 0 ∧ b.data = List.replicate 2048 0 ∧
      piece file' 2112 0 = b.data ++ b.oob := by
  have hwrite : (nandDoWriteOps plainDev.kernel 0
      ⟨.place, 2048, 0, 0, List.replicate 2048 0, none⟩).2.2[0]? =
      some ⟨0, 0, List.replicate 2048 0, kernelOob (List.replicate 36 0)⟩ := by decide +kernel
  refine ⟨rfl, main_converts rfl rfl 0 rfl (by simp) hwrite ?_ (by decide) ?_ (by decide +kernel)⟩
  · simp only [kernelOob, List.length_append, List.length_replicate]
  · refine List.take_left' ?_
    simp only [kernelOob, List.length_append, List.length_replicate]

end Dingoo.Nandfix
