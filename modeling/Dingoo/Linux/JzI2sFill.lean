/-
What the fillers of the OSS sound driver (sound/oss/jz_i2s.c) store into a fragment.

A filler reads the user's bytes from the staging buffer and stores 32-bit words through a
pointer that starts at the fragment.  Its stores are listed with their place, counted in
words from the start of the fragment; a place may be negative.  The 16-bit stereo filler
of the internal codec also marks long silence: it stores ten and eleven words back.

The last samples kept for the turn-off ramp (`save_last_samples`) are left out.
-/
import Dingoo.Linux.JzI2s
import Mathlib.Data.BitVec

namespace Dingoo.JzI2s

/-- The size of `tmp1` in bytes: `__get_free_pages` of order 8. -/
def stagingSize : Nat := 256 * 4096

/-- `jz_audio_set_speed`: the value it gives `jz_audio_rate`. -/
def jzAudioSetSpeed (rate : Int) : Int :=
  let rate := if rate > 48000 then 48000 else rate
  if rate < 8000 then 8000 else rate

/-- `jz_audio_rate` after some calls; it is a static variable. -/
def jzAudioRate (speeds : List Int) : Int := speeds.foldl (fun _ rate => jzAudioSetSpeed rate) 0

/-- A store: the word it goes to and the value. -/
abbrev Store := Int × BitVec 32

section

variable (src : Nat → UInt8) (shift : Nat)

/-- `(unsigned long) (unsigned char) (*s - 0x80) << 8` -/
def word8 (s : Nat) : BitVec 32 := BitVec.ofNat 32 ((src s - 0x80).toNat <<< 8)

/-- `(signed long) *s >> codec_volue_shift` -/
def sample16 (s : Nat) : Int :=
  (BitVec.ofNat 16 ((src s).toNat + 256 * (src (s + 1)).toNat)).toInt >>> shift

/-- `replay_fill_1x8_u` -/
def replayFill1x8u : Nat → Nat → Int → List Store
  | 0, _, _ => []
  | count + 1, s, dp =>
    (dp, word8 src s) :: (dp + 1, word8 src s) :: replayFill1x8u count (s + 1) (dp + 2)

/-- `replay_fill_2x8_u` -/
def replayFill2x8u : Nat → Nat → Int → List Store
  | 0, _, _ => []
  | count + 1, s, dp => (dp, word8 src s) :: replayFill2x8u count (s + 1) (dp + 1)

/-- `replay_fill_1x16_s`; an odd last byte is read as a sample too. -/
def replayFill1x16s : Nat → Nat → Int → List Store
  | 0, _, _ => []
  | 1, s, dp =>
    let l1 := BitVec.ofInt 32 (sample16 src shift s)
    [(dp, l1), (dp + 1, l1)]
  | count + 2, s, dp =>
    let l1 := BitVec.ofInt 32 (sample16 src shift s)
    (dp, l1) :: (dp + 1, l1) :: replayFill1x16s count (s + 2) (dp + 2)

/-- The two marks for silence, if it has lasted. -/
def muteMarks (samRate l1 muteCnt : Int) (dp : Int) : List Store :=
  if l1 = 0 ∧ muteCnt + 1 ≥ samRate then [(dp - 10, 1), (dp - 11, 1)] else []

/-- `mute_cnt` after a sample. -/
def nextMute (samRate l1 muteCnt : Int) : Int :=
  if l1 = 0 then if muteCnt + 1 ≥ samRate then 0 else muteCnt + 1 else 0

/-- `replay_fill_2x16_s` -/
def replayFill2x16s (samRate : Int) : Nat → Nat → Int → Int → List Store
  | 0, _, _, _ => []
  | 1, s, dp, muteCnt =>
    let l1 := sample16 src shift s
    muteMarks samRate l1 muteCnt dp ++ [(dp, BitVec.ofInt 32 l1)]
  | count + 2, s, dp, muteCnt =>
    let l1 := sample16 src shift s
    muteMarks samRate l1 muteCnt dp ++ (dp, BitVec.ofInt 32 l1) ::
      replayFill2x16s samRate count (s + 2) (dp + 1) (nextMute samRate l1 muteCnt)

/-- The stores of `replay_filler`, for a fragment filled from `count` bytes. -/
def replayStores (cfg : Config) (rate : Int) (count : Nat) : List Store :=
  match cfg.format, cfg.channels with
  | .u8, .mono => replayFill1x8u src count 0 0
  | .u8, .stereo => replayFill2x8u src count 0 0
  | .s16le, .mono => replayFill1x16s src shift count 0 0
  | .s16le, .stereo => replayFill2x16s src shift (rate / 20) count 0 0 0

end

end Dingoo.JzI2s
