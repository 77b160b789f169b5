/-
Reading from the MMC/SD card in the boot loader, `cpu/mips/jz_mmc.c`.

`mmcRead` is written over any way of reading one block, so that the card behind it
can be varied; `mmcBlockRead` is the one of the source.  The bytes a read stores are
kept by their offset from the caller's `dst`, untouched offsets being `none`, so that
what was written and what was not can both be read off.  `ulong` is 32 bits wide.

Sending a command and decoding its R1 response (`mmc_send_cmd`, `mmc_unpack_r1`) is the
card's `answer`: the value `mmc_unpack_r1` returns and the bytes received into the
buffer, as a function of the commands sent so far.
-/
import Mathlib.Data.List.Basic

namespace Dingoo.JzMmc

/-- `CFG_MMC_BASE` -/
def cfgMmcBase : BitVec 32 := 0x80600000

/-- `MMC_BLOCK_SIZE` -/
def mmcBlockSize : BitVec 32 := 512

/-- `MMC_ERROR_STATE_MISMATCH` of `enum mmc_result_t` -/
def mmcErrorStateMismatch : Int := 17

/-! ### One block -/

/-- A command with its argument. -/
structure Cmd where
  cmd : Nat
  arg : BitVec 32
  deriving DecidableEq, Repr

/-- The inserted card.  `sd20` is both the driver's `sd2_0` and the card's own addressing:
block numbers instead of byte addresses. -/
structure Card where
  content : Nat → UInt8
  sd20 : Bool
  rca : BitVec 32
  answer : List Cmd → Int × List UInt8

/-- The 512 bytes of a card that a read command with this argument selects. -/
def blockAt (content : Nat → UInt8) (sd20 : Bool) (arg : BitVec 32) : List UInt8 :=
  (List.range 512).map fun i => content ((if sd20 then arg.toNat * 512 else arg.toNat) + i)

/-- `mmc_block_read`: the commands sent, the value returned and the bytes stored at `dst`. -/
def mmcBlockRead (card : Card) (sent : List Cmd) (src len : BitVec 32) :
    List Cmd × Int × List UInt8 :=
  if len = 0 then (sent, 0, [])
  else
    let sent := sent ++ [⟨13, card.rca⟩] -- MMC_SEND_STATUS
    let retval := (card.answer sent).1
    if retval ≠ 0 ∧ retval ≠ mmcErrorStateMismatch then (sent, retval, [])
    else
      let sent := sent ++ [⟨16, len⟩] -- MMC_SET_BLOCKLEN
      let retval := (card.answer sent).1
      if retval ≠ 0 then (sent, retval, [])
      else
        let src := if card.sd20 then src / len else src
        let sent := sent ++ [⟨17, src⟩] -- MMC_READ_SINGLE_BLOCK
        (sent, card.answer sent)

/-! ### A range of bytes -/

/-- A way of reading one block: its own state, the value returned, the bytes stored. -/
abbrev BlockRead (σ : Type) := σ → BitVec 32 → BitVec 32 → σ × Int × List UInt8

/-- The state of a running `mmc_read`: the device, the static `mmc_buf` and what has been
stored at each offset from the caller's `dst`. -/
structure Run (σ : Type) where
  dev : σ
  mmcBuf : List UInt8
  dest : Nat → Option UInt8

/-- `memcpy` of these bytes to `dst + off`. -/
def store (off : Nat) (bytes : List UInt8) (dest : Nat → Option UInt8) : Nat → Option UInt8 :=
  fun i => if off ≤ i then (bytes[i - off]?).or (dest i) else dest i

/-- A block read into `mmc_buf`, keeping the bytes that were not received. -/
def readBuf {σ : Type} (blockRead : BlockRead σ) (run : Run σ) (src : BitVec 32) :
    Int × Run σ :=
  let (dev, retval, bytes) := blockRead run.dev src mmcBlockSize
  (retval, { run with dev := dev, mmcBuf := bytes ++ run.mmcBuf.drop bytes.length })

/-- A block read straight to `dst + off`. -/
def readDest {σ : Type} (blockRead : BlockRead σ) (run : Run σ) (src : BitVec 32) (off : Nat) :
    Int × Run σ :=
  let (dev, retval, bytes) := blockRead run.dev src mmcBlockSize
  (retval, { run with dev := dev, dest := store off bytes run.dest })

section

variable {σ : Type} (blockRead : BlockRead σ)

/-- The unaligned head; an error is the state at `return -1`. -/
def readHead (run : Run σ) (src alignedStart partStart : BitVec 32) :
    Except (Run σ) (Run σ × BitVec 32 × Nat) :=
  if partStart ≠ 0 then
    let partLen := mmcBlockSize - partStart
    let (retval, run) := readBuf blockRead run alignedStart
    if retval < 0 then .error run
    else
      let bytes := (run.mmcBuf.drop partStart.toNat).take partLen.toNat
      .ok ({ run with dest := store 0 bytes run.dest }, src + partLen, partLen.toNat)
  else .ok (run, src, 0)

/-- The loop over whole blocks, for at most `fuel` turns. -/
def readBlocks (alignedEnd : BitVec 32) : Nat → Run σ → BitVec 32 → Nat →
    Option (Except (Run σ) (Run σ × BitVec 32 × Nat))
  | 0, _, _, _ => none
  | fuel + 1, run, src, off =>
    if src < alignedEnd then
      let (retval, run) := readDest blockRead run src off
      if retval < 0 then some (.error run)
      else readBlocks alignedEnd fuel run (src + mmcBlockSize) (off + mmcBlockSize.toNat)
    else some (.ok (run, src, off))

/-- The last, partial block. -/
def readTail (run : Run σ) (src endw alignedEnd partEnd : BitVec 32) (off : Nat) :
    Except (Run σ) (Run σ) :=
  if partEnd ≠ 0 ∧ src < endw then
    let (retval, run) := readBuf blockRead run alignedEnd
    if retval < 0 then .error run
    else .ok { run with dest := store off (run.mmcBuf.take partEnd.toNat) run.dest }
  else .ok run

/-- The three parts of `mmc_read`, from the card address on.  The loop moves one block up
every turn, so one turn more than there are blocks below the end is enough. -/
def readRange (run : Run σ) (src size : BitVec 32) : Option (Int × Run σ) :=
  let mmcBlockAddress := ~~~(mmcBlockSize - 1)
  let endw := src + size
  let partStart := ~~~mmcBlockAddress &&& src
  let partEnd := ~~~mmcBlockAddress &&& endw
  let alignedStart := mmcBlockAddress &&& src
  let alignedEnd := mmcBlockAddress &&& endw
  match readHead blockRead run src alignedStart partStart with
  | .error run => some (-1, run)
  | .ok (run, src, off) =>
    match readBlocks blockRead alignedEnd (alignedEnd.toNat / 512 + 1) run src off with
    | none => none
    | some (.error run) => some (-1, run)
    | some (.ok (run, src, off)) =>
      match readTail blockRead run src endw alignedEnd partEnd off with
      | .error run => some (-1, run)
      | .ok run => some (0, run)

def mmcRead (mmcReady : Bool) (run : Run σ) (src size : BitVec 32) : Option (Int × Run σ) :=
  if size = 0 then some (0, run)
  else if mmcReady = false then some (-1, run)
  else readRange blockRead run (src - cfgMmcBase) size

/-- `mmc_bread`: the result of `mmc_read` is not looked at. -/
def mmcBread (mmcReady : Bool) (run : Run σ) (blknr blkcnt : BitVec 32) :
    Option (BitVec 32 × Run σ) :=
  let src := blknr * mmcBlockSize + cfgMmcBase
  (mmcRead blockRead mmcReady run src (blkcnt * mmcBlockSize)).map fun r => (blkcnt, r.2)

end

end Dingoo.JzMmc
