/-
Frames of the camera and their buffer.

Which buffer is in use depends only on the calls whose test finds the frame too large: the last
of them decides (`inUse`).  The device follows that (`Rep`), so after each call the frame is
within its buffer, and within what is written back of it, exactly if its size is at most
`room` of the buffer in use.

There is little room.  The size of the range that is written back is computed with an exclusive
or where a power was meant: of the buffer of 256 pages that is allocated first, ten
pages are written back.
-/
import Dingoo.Linux.Cim
import Dingoo.Lib.Runs

namespace Dingoo.Cim

open Dingoo.Lib

variable {use : Option Nat} {c : CimDevice}

/-- A call with its parameters, and the address of the pages if there are any. -/
structure Call where
  param : ImgParam
  page : Option (BitVec 32)

def step (c : CimDevice) (k : Call) : CimDevice := (cimIoctl c (some k.param) k.page).2

/-- The bytes the controller writes. -/
def dmaBytes (c : CimDevice) : Nat := 4 * (c.frameDesc.dmacmd &&& CIM_CMD_LEN_MASK).toNat

/-- There is no buffer and no frame; or frame and transfer fit the buffer, and what is written back
of it covers the frame. -/
def FrameFits (c : CimDevice) : Prop :=
  (c.framebuf = none ∧ c.frameSize = 0) ∨
  ∃ p, c.framebuf = some p ∧ c.frameSize.toNat ≤ p.size ∧ dmaBytes c ≤ p.size ∧
    c.frameSize.toNat ≤ (cimStartDma c).wback.toNat

/-- The order of the buffer after one more call. -/
def inUseStep (use : Option Nat) (k : Call) : Option Nat :=
  if k.param.tooLarge then k.page.map fun _ => getOrder k.param.frameSize else use

/-- The order of the buffer in use after the calls, if there is a buffer. -/
def inUse (calls : List Call) : Option Nat :=
  calls.foldl inUseStep (some (getOrder MAX_FRAME_SIZE))

/-- The bytes of a frame that are both in the buffer and written back. -/
def room : Option Nat → Nat
  | none => 0
  | some order => min (4096 * 2 ^ order) ((2 ^^^ order) * 4096)

/-! ### Orders -/

theorem orderLoop_spec : ∀ (n : Nat) (size : BitVec 32) (order : Nat), size.toNat < 2 ^ n →
    ∃ k ≤ n, orderLoop n size order = order + k ∧ size.toNat < 2 ^ (k + 1) := by
  intro n
  induction n with
  | zero =>
    intro size order hsize
    exact ⟨0, Nat.le_refl 0, rfl, Nat.lt_trans hsize (by decide)⟩
  | succ n ih =>
    intro size order hsize
    have hhalf : (size >>> 1).toNat = size.toNat / 2 := by
      rw [BitVec.toNat_ushiftRight, Nat.shiftRight_eq_div_pow, Nat.pow_one]
    rw [Nat.pow_succ] at hsize
    rw [orderLoop]
    by_cases hzero : size >>> 1 = 0
    · rw [hzero] at hhalf
      refine ⟨0, Nat.zero_le _, if_pos hzero, ?_⟩
      change 0 = size.toNat / 2 at hhalf
      omega
    · obtain ⟨k, hk, heq, hlt⟩ := ih (size >>> 1) (order + 1) (by omega)
      refine ⟨k + 1, by omega, (if_neg hzero).trans (heq.trans (by omega)), ?_⟩
      rw [Nat.pow_succ]
      omega

theorem getOrder_spec (size : BitVec 32) :
    getOrder size ≤ 32 ∧ (size - 1).toNat < 4096 * 2 ^ getOrder size := by
  obtain ⟨k, hk, heq, hlt⟩ := orderLoop_spec 32 ((size - 1) >>> 11) 0 (BitVec.isLt _)
  have horder : getOrder size = k := heq.trans (Nat.zero_add k)
  rw [BitVec.toNat_ushiftRight, Nat.shiftRight_eq_div_pow, Nat.pow_succ] at hlt
  rw [horder]
  exact ⟨hk, by omega⟩

/-! ### The device follows the calls -/

/-- The device has the buffer in use, and its order. -/
structure Rep (c : CimDevice) (use : Option Nat) : Prop where
  framebuf : c.framebuf.map Pages.order = use
  pageOrder : ∀ order, use = some order → c.pageOrder = order ∧ order ≤ 32

theorem rep_cimFbAlloc (c : CimDevice) (page : Option (BitVec 32)) :
    Rep (cimFbAlloc page c).2 (page.map fun _ => getOrder c.img.frameSize) := by
  cases page with
  | none => exact ⟨rfl, fun order h => by cases h⟩
  | some address =>
    refine ⟨rfl, fun order h => ?_⟩
    cases h
    exact ⟨rfl, (getOrder_spec _).1⟩

theorem img_cimFbDestroy (c : CimDevice) : (cimFbDestroy c).img = c.img := by
  unfold cimFbDestroy
  split <;> rfl

/-- The buffer is given back and allocated anew. -/
def realloc (c : CimDevice) (k : Call) : CimDevice :=
  (cimFbAlloc k.page (cimFbDestroy { c with img := k.param })).2

theorem step_eq (c : CimDevice) (k : Call) :
    step c k =
      if k.param.tooLarge then if k.page.isNone then realloc c k else setFrame (realloc c k)
      else setFrame { c with img := k.param } := by
  unfold step cimIoctl realloc
  dsimp only
  cases k.param.tooLarge with
  | false => rfl
  | true =>
    cases k.page with
    | none => rfl
    | some address => rfl

theorem Rep.step (h : Rep c use) (k : Call) : Rep (step c k) (inUseStep use k) := by
  rw [step_eq, inUseStep]
  by_cases hlarge : k.param.tooLarge = true
  · rw [if_pos hlarge, if_pos hlarge]
    have halloc := rep_cimFbAlloc (cimFbDestroy { c with img := k.param }) k.page
    rw [img_cimFbDestroy] at halloc
    split
    · exact halloc
    · exact ⟨halloc.framebuf, halloc.pageOrder⟩
  · rw [if_neg hlarge, if_neg hlarge]
    exact ⟨h.framebuf, h.pageOrder⟩

theorem frameSize_max :
    ImgParam.frameSize ⟨MAX_IMAGE_WIDTH, MAX_IMAGE_HEIGHT, MAX_IMAGE_BPP⟩ = MAX_FRAME_SIZE := by
  decide

theorem rep_run (dev : CimDevice) (address : BitVec 32) (calls : List Call) :
    Rep (calls.foldl step (cimInit dev address)) (inUse calls) := by
  induction calls using List.reverseRecOn with
  | nil =>
    rw [inUse, ← frameSize_max]
    exact rep_cimFbAlloc _ (some address)
  | append_singleton calls k ih =>
    rw [inUse, List.foldl_append, List.foldl_append]
    exact ih.step k

/-- The pages that a call gets. -/
def Call.pages (k : Call) : Option Pages :=
  if k.param.tooLarge then k.page.map (⟨·, getOrder k.param.frameSize⟩) else none

theorem pages_step (h : Rep c use) (k : Call) :
    (step c k).freed.reverse ++ (step c k).framebuf.toList =
      c.freed.reverse ++ c.framebuf.toList ++ k.pages.toList := by
  have hrealloc : (realloc c k).freed.reverse = c.freed.reverse ++ c.framebuf.toList := by
    cases hp : c.framebuf with
    | none =>
      cases hk : k.page <;> simp [realloc, cimFbDestroy, cimFbAlloc, hp, hk]
    | some p =>
      -- the order kept beside the buffer is still its own
      obtain ⟨horder, -⟩ := h.pageOrder p.order (by rw [← h.framebuf, hp]; rfl)
      cases hk : k.page <;> simp [realloc, cimFbDestroy, cimFbAlloc, hp, hk, horder]
  have hbuf : (realloc c k).framebuf = k.page.map (⟨·, getOrder k.param.frameSize⟩) := by
    have himg := img_cimFbDestroy { c with img := k.param }
    cases hk : k.page <;> simp [realloc, cimFbAlloc, himg, hk]
  rw [step_eq, Call.pages]
  by_cases hlarge : k.param.tooLarge = true
  · rw [if_pos hlarge, if_pos hlarge]
    split
    · rw [hrealloc, hbuf]
    · exact congrArg₂ (· ++ ·.toList) hrealloc hbuf
  · rw [if_neg hlarge, if_neg hlarge]
    exact (List.append_nil _).symm

/-- **All pages are given back or in use**: what was freed and the buffer are the pages that the
calls got, each once, in order and with the order it was allocated with. -/
theorem pages_freed_once (dev : CimDevice) (address : BitVec 32) (calls : List Call) :
    (calls.foldl step (cimInit dev address)).freed.reverse ++
        (calls.foldl step (cimInit dev address)).framebuf.toList =
      dev.freed.reverse ++ ⟨address, getOrder MAX_FRAME_SIZE⟩ :: calls.filterMap Call.pages := by
  induction calls using List.reverseRecOn with
  | nil => rw [← frameSize_max]; rfl
  | append_singleton calls k ih =>
    rw [List.foldl_append, List.filterMap_append]
    refine (pages_step (rep_run dev address calls) k).trans ?_
    rw [ih, List.append_assoc, List.cons_append]
    cases hk : k.pages <;> simp [hk]

theorem realloc_frame (c : CimDevice) (k : Call) :
    (realloc c k).frameSize = k.param.frameSize ∧ (realloc c k).img = k.param := by
  have himg := img_cimFbDestroy { c with img := k.param }
  unfold realloc
  cases k.page with
  | none => exact ⟨congrArg ImgParam.frameSize himg, himg⟩
  | some address => exact ⟨congrArg ImgParam.frameSize himg, himg⟩

theorem step_frame (c : CimDevice) (k : Call) :
    (step c k).frameSize = k.param.frameSize ∧
    ((step c k).framebuf = none ∨
      (step c k).frameDesc.dmacmd = dmaCommand k.param.frameSize) := by
  obtain ⟨hsize, himg⟩ := realloc_frame c k
  rw [step_eq]
  split
  · split
    · rename_i hnone
      refine ⟨hsize, Or.inl ?_⟩
      rw [realloc, Option.isNone_iff_eq_none.mp hnone]
      rfl
    · have hframe := congrArg ImgParam.frameSize himg
      exact ⟨hframe, Or.inr (congrArg dmaCommand hframe)⟩
  · exact ⟨rfl, Or.inr rfl⟩

/-! ### Frames that fit -/

theorem dmaCommand_le (frameSize : BitVec 32) :
    4 * (dmaCommand frameSize &&& CIM_CMD_LEN_MASK).toNat ≤ frameSize.toNat := by
  have hflags : (CIM_CMD_EOFINT ||| CIM_CMD_STOP) &&& CIM_CMD_LEN_MASK = 0#32 := by decide
  have hlen : dmaCommand frameSize &&& CIM_CMD_LEN_MASK =
      (frameSize >>> 2) &&& CIM_CMD_LEN_MASK := by
    rw [dmaCommand, BitVec.and_comm, BitVec.and_or_distrib_left, BitVec.and_comm _ (_ ||| _),
      hflags, BitVec.zero_or, BitVec.and_comm]
  have hle : ((frameSize >>> 2) &&& CIM_CMD_LEN_MASK).toNat ≤ frameSize.toNat / 4 := by
    rw [BitVec.toNat_and, BitVec.toNat_ushiftRight, Nat.shiftRight_eq_div_pow]
    exact Nat.and_le_left
  rw [hlen]
  omega

theorem wback_toNat : ∀ order ≤ 32,
    ((2 ^^^ BitVec.ofNat 32 order) * 4096).toNat = (2 ^^^ order) * 4096 := by
  decide

theorem frameFits_iff (h : Rep c use)
    (hdma : c.framebuf = none ∨ c.frameDesc.dmacmd = dmaCommand c.frameSize) :
    FrameFits c ↔ c.frameSize.toNat ≤ room use := by
  obtain ⟨hbuf, horder⟩ := h
  unfold FrameFits
  cases hp : c.framebuf with
  | none =>
    obtain rfl : none = use := by rw [← hbuf, hp]; rfl
    have hzero : c.frameSize = 0 ↔ c.frameSize.toNat ≤ 0 := by
      rw [Nat.le_zero]
      exact ⟨fun h => by rw [h]; rfl, fun h => BitVec.eq_of_toNat_eq h⟩
    simpa [room] using hzero
  | some p =>
    obtain rfl : some p.order = use := by rw [← hbuf, hp]; rfl
    obtain ⟨hpage, hle⟩ := horder _ rfl
    have hcmd : dmaBytes c ≤ c.frameSize.toNat := by
      rw [dmaBytes, hdma.resolve_left (by rw [hp]; exact Option.some_ne_none p)]
      exact dmaCommand_le c.frameSize
    have hwback : (cimStartDma c).wback.toNat = (2 ^^^ p.order) * 4096 := by
      rw [← wback_toNat _ hle, ← hpage]
      rfl
    have hroom : c.frameSize.toNat ≤ room (some p.order) ↔
        c.frameSize.toNat ≤ p.size ∧ c.frameSize.toNat ≤ (2 ^^^ p.order) * 4096 := le_min_iff
    rw [hroom, hwback]
    constructor
    · rintro (⟨hnone, -⟩ | ⟨q, hq, hsize, -, hback⟩)
      · cases hnone
      · cases hq
        exact ⟨hsize, hback⟩
    · rintro ⟨hsize, hback⟩
      exact Or.inr ⟨p, rfl, hsize, Nat.le_trans hcmd hsize, hback⟩

/-- **After each call of a sequence the frame fits its buffer if and only if its size is at most
the room of the buffer in use by then**, whatever the parameters and whether or not there are
pages. -/
theorem frames_fit_iff (dev : CimDevice) (address : BitVec 32) (calls : List Call) :
    EachStep step (fun c k => FrameFits (step c k)) (cimInit dev address) calls ↔
      ∀ pre k post, calls = pre ++ k :: post →
        k.param.frameSize.toNat ≤ room (inUse (pre ++ [k])) := by
  refine forall_congr' fun pre => forall_congr' fun k => forall_congr' fun post =>
    imp_congr_right fun _ => ?_
  have hrep := rep_run dev address (pre ++ [k])
  rw [List.foldl_append] at hrep
  obtain ⟨hsize, hdma⟩ := step_frame (pre.foldl step (cimInit dev address)) k
  rw [← hsize] at hdma ⊢
  exact frameFits_iff hrep hdma

/-- A device before its buffer is allocated. -/
def blank : CimDevice where
  img := ⟨0, 0, 0⟩
  framebuf := none
  frameSize := 0
  pageOrder := 0
  frameDesc := ⟨0, 0, 0, 0⟩
  descAddr := 0x80100000
  freed := []

/-- The largest image set as it is: ten pages of the frame are written back.  An image whose
product wraps to zero keeps the first buffer.  An image for which there are no pages leaves a
frame and no buffer.  The largest image after one of 15 bits, which got a smaller buffer. -/
theorem frames_too_large :
    (step (cimInit blank 0x80200000) ⟨⟨640, 480, 16⟩, none⟩).frameSize = 614400 ∧
    (cimStartDma (step (cimInit blank 0x80200000) ⟨⟨640, 480, 16⟩, none⟩)).wback = 40960 ∧
    (step (cimInit blank 0x80200000) ⟨⟨65536, 4096, 16⟩, none⟩).framebuf =
      some ⟨0x80200000, 8⟩ ∧
    (step (cimInit blank 0x80200000) ⟨⟨65536, 4096, 16⟩, none⟩).frameSize = 0x20000000 ∧
    (step (cimInit blank 0x80200000) ⟨⟨1280, 960, 16⟩, none⟩).framebuf = none ∧
    (step (cimInit blank 0x80200000) ⟨⟨1280, 960, 16⟩, none⟩).frameSize = 2457600 ∧
    (step (step (cimInit blank 0x80200000) ⟨⟨800, 500, 15⟩, some 0x80400000⟩)
      ⟨⟨640, 480, 16⟩, none⟩).framebuf = some ⟨0x80400000, 7⟩ ∧
    (step (step (cimInit blank 0x80200000) ⟨⟨800, 500, 15⟩, some 0x80400000⟩)
      ⟨⟨640, 480, 16⟩, none⟩).frameSize = 614400 ∧
    ∀ k ∈ [⟨⟨640, 480, 16⟩, none⟩, ⟨⟨65536, 4096, 16⟩, none⟩, ⟨⟨1280, 960, 16⟩, none⟩],
      ¬ FrameFits (step (cimInit blank 0x80200000) k) := by
  refine ⟨by decide, by decide, by decide, by decide, by decide, by decide, by decide, by decide,
    fun k hk hfits => ?_⟩
  have hone := (frameFits_iff ((rep_run blank 0x80200000 []).step k)
    (by rw [(step_frame _ k).1]; exact (step_frame _ k).2)).mp hfits
  clear hfits
  revert hone
  revert k
  decide

end Dingoo.Cim
