/-
Where the words of a write go.

The stores of a filler cover the words from the start of the fragment on without a gap
(`Covers`); how far they reach depends on the format.  The chunk a write hands to the
filler is computed from another constant, and for 8-bit mono it is twice what fits.

The marks of the 16-bit stereo filler fall on words already stored, since the silence that
causes them is longer than the eleven words they reach back.  That needs a sample rate:
before the first `SNDCTL_DSP_SPEED` it is zero, and the first silent sample is marked below
the fragment.
-/
import Dingoo.Linux.JzI2sFill
import Dingoo.Proofs.JzI2sSpace
import Mathlib.Data.Int.Interval

namespace Dingoo.JzI2s

variable {cfg : Config} {s : State} {count copy : Nat} {rate muteCnt i : Int}

/-! ### What a list of stores covers -/

/-- The words stored to. -/
def places (l : List Store) : List Int := l.map Prod.fst

/-- The stores go to the words from `lo` to before `hi`, to each of them and to no other. -/
def Covers (l : List Store) (lo hi : Int) : Prop := ∀ i, i ∈ places l ↔ lo ≤ i ∧ i < hi

/-- A fragment filled from `count` bytes is filled right: the words lie in the fragment and
the recorded count is that of the bytes stored. -/
structure FillSound (cfg : Config) (rate : Int) (shift : Nat) (src : Nat → UInt8)
    (count : Nat) : Prop where
  inside : ∀ i ∈ places (replayStores src shift cfg rate count),
    0 ≤ i ∧ 4 * (i + 1) ≤ cfg.fragsize
  recorded : replayFiller cfg count
    = 4 * (places (replayStores src shift cfg rate count)).toFinset.card

theorem Covers.card {l : List Store} {lo hi : Int} (h : Covers l lo hi) :
    (places l).toFinset.card = (hi - lo).toNat := by
  have hset : (places l).toFinset = Finset.Ico lo hi := by
    ext i
    rw [List.mem_toFinset, Finset.mem_Ico]
    exact h i
  rw [hset, Int.card_Ico]

theorem covers_1x8u (src : Nat → UInt8) : ∀ (count s : Nat) (dp : Int),
    Covers (replayFill1x8u src count s dp) dp (dp + 2 * count) := by
  intro count
  induction count with
  | zero =>
    intro s dp i
    simp [replayFill1x8u, places]
  | succ count ih =>
    intro s dp i
    have hrest := ih (s + 1) (dp + 2) i
    unfold places at hrest
    simp only [replayFill1x8u, places, List.map_cons, List.mem_cons, hrest]
    push_cast
    omega

theorem covers_2x8u (src : Nat → UInt8) : ∀ (count s : Nat) (dp : Int),
    Covers (replayFill2x8u src count s dp) dp (dp + count) := by
  intro count
  induction count with
  | zero =>
    intro s dp i
    simp [replayFill2x8u, places]
  | succ count ih =>
    intro s dp i
    have hrest := ih (s + 1) (dp + 1) i
    unfold places at hrest
    simp only [replayFill2x8u, places, List.map_cons, List.mem_cons, hrest]
    push_cast
    omega

/-- The samples in a number of bytes, an odd last byte counted as one. -/
def samples16 (count : Nat) : Nat := (count + 1) / 2

theorem covers_1x16s (src : Nat → UInt8) (shift : Nat) : ∀ (count s : Nat) (dp : Int),
    Covers (replayFill1x16s src shift count s dp) dp (dp + 2 * samples16 count)
  | 0, s, dp, i => by simp [replayFill1x16s, places, samples16]
  | 1, s, dp, i => by
    simp only [replayFill1x16s, places, samples16, List.map_cons, List.map_nil, List.mem_cons,
      List.not_mem_nil, or_false]
    omega
  | count + 2, s, dp, i => by
    have hrest := covers_1x16s src shift count (s + 2) (dp + 2) i
    unfold places samples16 at hrest
    simp only [replayFill1x16s, places, samples16, List.map_cons, List.mem_cons, hrest]
    omega

section

variable {samRate : Int} (hrate : 12 ≤ samRate)

include hrate

/-- A mark goes back no further than the silence before it. -/
theorem muteMarks_places {l1 dp : Int} (h : i ∈ places (muteMarks samRate l1 muteCnt dp)) :
    dp - muteCnt ≤ i ∧ i < dp := by
  unfold muteMarks places at h
  split at h
  · simp only [List.map_cons, List.map_nil, List.mem_cons, List.not_mem_nil, or_false] at h
    omega
  · simp at h

omit hrate in
theorem nextMute_le (samRate l1 : Int) (h : 0 ≤ muteCnt) :
    0 ≤ nextMute samRate l1 muteCnt ∧ nextMute samRate l1 muteCnt ≤ muteCnt + 1 := by
  unfold nextMute
  split
  · split <;> omega
  · omega

/-- With a silence of `muteCnt` words behind it the filler stores no further back than that. -/
theorem places_2x16s_within (src : Nat → UInt8) (shift : Nat) :
    ∀ (count s : Nat) (dp muteCnt : Int), 0 ≤ muteCnt →
      i ∈ places (replayFill2x16s src shift samRate count s dp muteCnt) →
      dp - muteCnt ≤ i ∧ i < dp + samples16 count
  | 0, s, dp, muteCnt, hmute, h => by simp [replayFill2x16s, places] at h
  | 1, s, dp, muteCnt, hmute, h => by
    unfold replayFill2x16s places at h
    rw [List.map_append, List.mem_append] at h
    rcases h with h | h
    · have hmark := muteMarks_places hrate h
      exact ⟨hmark.1, by unfold samples16; omega⟩
    · have hi : i = dp := by simpa using h
      unfold samples16
      omega
  | count + 2, s, dp, muteCnt, hmute, h => by
    unfold replayFill2x16s places at h
    rw [List.map_append, List.mem_append, List.map_cons, List.mem_cons] at h
    have hcount : samples16 (count + 2) = samples16 count + 1 := by unfold samples16; omega
    rcases h with h | h | h
    · have hmark := muteMarks_places hrate h
      exact ⟨hmark.1, by omega⟩
    · have hi : i = dp := h
      omega
    · have hnext := nextMute_le samRate (sample16 src shift s) hmute
      have hrest := places_2x16s_within src shift count (s + 2) (dp + 1) _ hnext.1 h
      omega

omit hrate in
theorem mem_places_2x16s (src : Nat → UInt8) (shift : Nat) :
    ∀ (count s : Nat) (dp muteCnt : Int), dp ≤ i → i < dp + samples16 count →
      i ∈ places (replayFill2x16s src shift samRate count s dp muteCnt)
  | 0, s, dp, muteCnt, hlo, hhi => by
    unfold samples16 at hhi
    omega
  | 1, s, dp, muteCnt, hlo, hhi => by
    have hi : i = dp := by
      unfold samples16 at hhi
      omega
    simp [replayFill2x16s, places, hi]
  | count + 2, s, dp, muteCnt, hlo, hhi => by
    have hcount : samples16 (count + 2) = samples16 count + 1 := by unfold samples16; omega
    unfold replayFill2x16s places
    rw [List.map_append, List.mem_append, List.map_cons, List.mem_cons]
    right
    by_cases hi : i = dp
    · exact Or.inl hi
    · exact Or.inr (mem_places_2x16s src shift count (s + 2) (dp + 1) _ (by omega) (by omega))

theorem covers_2x16s (src : Nat → UInt8) (shift count : Nat) :
    Covers (replayFill2x16s src shift samRate count 0 0 0) 0 (samples16 count) := by
  intro i
  constructor
  · intro h
    have hwithin := places_2x16s_within hrate src shift count 0 0 0 (Int.le_refl 0) h
    omega
  · rintro ⟨hlo, hhi⟩
    exact mem_places_2x16s src shift count 0 0 0 hlo (by omega)

end

/-! ### One fragment -/

theorem fillLoop8_eq : ∀ (count cnt : Nat), fillLoop8 count cnt = cnt + count := by
  intro count
  induction count with
  | zero =>
    intro cnt
    rfl
  | succ count ih =>
    intro cnt
    rw [fillLoop8, ih]
    omega

theorem fillLoop16_eq : ∀ (count cnt : Nat), fillLoop16 count cnt = cnt + 2 * samples16 count
  | 0, cnt => rfl
  | 1, cnt => rfl
  | count + 2, cnt => by
    rw [fillLoop16, fillLoop16_eq count (cnt + 2)]
    unfold samples16
    omega

/-- The words a fragment gets from `count` bytes. -/
def wordsOf (cfg : Config) (count : Nat) : Nat :=
  match cfg.format, cfg.channels with
  | .u8, .mono => 2 * count
  | .u8, .stereo => count
  | .s16le, .mono => 2 * samples16 count
  | .s16le, .stereo => samples16 count

theorem replayFiller_eq (cfg : Config) (count : Nat) :
    replayFiller cfg count = 4 * wordsOf cfg count := by
  unfold replayFiller wordsOf Config.jzAudioB
  rw [fillLoop8_eq, fillLoop16_eq]
  cases cfg.format <;> cases cfg.channels <;> simp only <;> omega

/-- A sample rate is set, or the filler does not look at it. -/
def RateSet (cfg : Config) (rate : Int) : Prop :=
  cfg.format = .s16le → cfg.channels = .stereo → 8000 ≤ rate

theorem covers_replayStores (hrate : RateSet cfg rate) (src : Nat → UInt8) (shift count : Nat) :
    Covers (replayStores src shift cfg rate count) 0 (wordsOf cfg count) := by
  unfold replayStores wordsOf
  cases hf : cfg.format <;> cases hc : cfg.channels <;> simp only
  · simpa using covers_1x8u src count 0 0
  · simpa using covers_2x8u src count 0 0
  · simpa using covers_1x16s src shift count 0 0
  · have hset := hrate hf hc
    exact covers_2x16s (by omega) src shift count

theorem fillSound_iff (hrate : RateSet cfg rate) (src : Nat → UInt8) (shift count : Nat) :
    FillSound cfg rate shift src count ↔ 4 * wordsOf cfg count ≤ cfg.fragsize := by
  have hcov := covers_replayStores hrate src shift count
  constructor
  · intro h
    rcases Nat.eq_zero_or_pos (wordsOf cfg count) with hzero | hpos
    · omega
    · have hlast := h.inside ((wordsOf cfg count : Int) - 1) ((hcov _).mpr (by omega))
      omega
  · intro hfit
    refine ⟨fun i hi => ?_, ?_⟩
    · have := (hcov i).mp hi
      omega
    · rw [replayFiller_eq, hcov.card]
      omega

theorem fillSound_zero (cfg : Config) (rate : Int) (shift : Nat) (src : Nat → UInt8) :
    FillSound cfg rate shift src 0 := by
  have hnone : replayStores src shift cfg rate 0 = [] := by
    unfold replayStores
    cases cfg.format <;> cases cfg.channels <;> rfl
  refine ⟨?_, ?_⟩
  · rw [hnone]
    intro i hi
    exact absurd hi List.not_mem_nil
  · rw [hnone, replayFiller_eq]
    unfold wordsOf
    cases cfg.format <;> cases cfg.channels <;> rfl

/-- Without a rate the first silent sample is marked below the fragment. -/
theorem not_fillSound_silent (hf : cfg.format = .s16le) (hc : cfg.channels = .stereo) (shift : Nat)
    (hpos : 0 < count) : ¬ FillSound cfg 0 shift (fun _ => 0) count := by
  intro h
  have hmark : (-10 : Int) ∈ places (replayStores (fun _ => 0) shift cfg 0 count) := by
    have hsilent : sample16 (fun _ => 0) shift 0 = 0 := by
      simp [sample16]
    unfold replayStores places
    rw [hf, hc]
    rcases count with _ | _ | count
    · exact absurd hpos (Nat.lt_irrefl 0)
    · simp [replayFill2x16s, hsilent, muteMarks]
    · simp [replayFill2x16s, hsilent, muteMarks]
  have := (h.inside _ hmark).1
  omega

/-! ### Chunks -/

theorem jzAudioRate_cases (speeds : List Int) :
    speeds = [] ∧ jzAudioRate speeds = 0 ∨ speeds ≠ [] ∧ 8000 ≤ jzAudioRate speeds := by
  rcases List.eq_nil_or_concat speeds with rfl | ⟨init, last, rfl⟩
  · exact Or.inl ⟨rfl, rfl⟩
  · right
    refine ⟨by simp, ?_⟩
    unfold jzAudioRate
    rw [List.concat_eq_append, List.foldl_append]
    show 8000 ≤ jzAudioSetSpeed last
    unfold jzAudioSetSpeed
    dsimp only
    split <;> split <;> omega

/-- A chunk of at most the usual size fits, but for 8-bit mono only half of it does. -/
theorem words_fit_iff (hfits : cfg.Fits) (hle : count ≤ cfg.copySize) :
    4 * wordsOf cfg count ≤ cfg.fragsize ↔
      (cfg.format = .u8 → cfg.channels = .mono → count ≤ cfg.fragsize / 8) := by
  obtain ⟨hdvd, -⟩ := hfits.bounds
  unfold Config.copySize Config.jzAudioB at hle
  unfold wordsOf samples16
  cases hf : cfg.format <;> cases hc : cfg.channels <;> simp only [hf, hc] at hle <;> simp <;> omega

/-- The call a position belongs to is one of `count` bytes with chunks of at most `copy`
bytes, clipped where a fragment is about to be filled. -/
def Pc.Chunked (count copy : Nat) : Pc → Prop
  | .idle => True
  | .getEmpty c | .fill c _ => c.count = count ∧ c.copyCount ≤ copy ∧ c.copyCount ≤ count
  | .loop c | .checkEmpty c | .sleepOn c | .sleeping c | .put c _ | .advance c | .checkBusy c
  | .getFull c | .putBusy c _ | .start c _ | .started c _ => c.count = count ∧ c.copyCount ≤ copy

theorem Call.clip_chunked {c : Call} (h : c.count = count ∧ c.copyCount ≤ copy) :
    c.clip.count = count ∧ c.clip.copyCount ≤ copy ∧ c.clip.copyCount ≤ count := by
  unfold Call.clip
  split
  · refine ⟨h.1, ?_, ?_⟩
    · show c.count - c.ret ≤ copy
      omega
    · show c.count - c.ret ≤ count
      omega
  · exact ⟨h.1, h.2, by omega⟩

theorem Pc.Chunked.writerStep {pc : Pc} (h : pc.Chunked count copy)
    (hpc : s.pc = pc) (cfg : Config) : (writerStep cfg s).pc.Chunked count copy := by
  unfold JzI2s.writerStep
  rw [hpc]
  cases pc with
  | idle =>
    rw [hpc]
    trivial
  | loop c =>
    dsimp only
    split
    · exact h
    · trivial
  | checkEmpty c =>
    dsimp only
    split
    · split
      · trivial
      · exact h
    · exact Call.clip_chunked h
  | sleeping c =>
    rw [hpc]
    exact h
  | getEmpty c =>
    dsimp only
    split
    · exact h
    · exact ⟨h.1, h.2.1⟩
  | fill c id => exact ⟨h.1, h.2.1⟩
  | put c id | checkBusy c | getFull c | putBusy c id =>
    dsimp only
    split <;> exact h
  | sleepOn c | advance c | start c id | started c id => exact h

theorem Pc.Chunked.woken {p : Pc} (h : p.Chunked count copy) : p.woken.Chunked count copy := by
  cases p with
  | sleeping c => exact Call.clip_chunked h
  | _ => exact h

theorem Pc.Chunked.irq (h : s.pc.Chunked count copy) (cfg : Config) :
    (jzI2sReplayDmaIrq cfg s).pc.Chunked count copy := by
  cases hpop : s.popDmaFlag with
  | true =>
    have hpc : (jzI2sReplayDmaIrq cfg s).pc = s.pc := by simp [jzI2sReplayDmaIrq, hpop]
    rw [hpc]
    exact h
  | false =>
    obtain ⟨-, -, -, hpc⟩ := irq_appends cfg hpop
    rw [hpc]
    exact h.woken

theorem chunked_run (cfg : Config) : ∀ (rest : List Act) {s : State},
    (∀ a ∈ rest, a = .writer ∨ a = .irq) → s.pc.Chunked count copy →
    (run cfg s rest).pc.Chunked count copy := by
  intro rest
  induction rest with
  | nil =>
    intro s _ h
    exact h
  | cons a rest ih =>
    intro s hacts h
    refine ih (fun b hb => hacts b (List.mem_cons_of_mem a hb)) ?_
    rcases hacts a List.mem_cons_self with rfl | rfl
    · exact h.writerStep rfl cfg
    · show (if s.inFlight then jzI2sReplayDmaIrq cfg s else s).pc.Chunked count copy
      split
      · exact h.irq cfg
      · exact h

/-! ### Whole writes -/

theorem jzAudioWrite_chunked (cfg : Config) (hpc : s.pc = .idle) (count : Nat) (nonblock : Bool) :
    (jzAudioWrite cfg count nonblock false s).pc.Chunked count cfg.copySize := by
  unfold jzAudioWrite
  split
  · rw [hpc]
    trivial
  · rw [if_neg Bool.false_ne_true]
    exact ⟨rfl, Nat.le_refl _⟩

theorem run_to_fill (cfg : Config) {c : Call} {id : Int} {l : List Int} (hpc : s.pc = .loop c)
    (hleft : c.leftCount > 0) (hempty : s.outEmpty.toList = id :: l) (hid : 0 ≤ id) :
    (run cfg s [.writer, .writer, .writer]).pc = .fill c.clip id := by
  have hsome : elementsInQueue s.outEmpty ≠ 0 := by
    intro hzero
    rw [(s.outEmpty.count_eq_zero).mp hzero] at hempty
    cases hempty
  have hloop : writerStep cfg s = { s with pc := .checkEmpty c } := by
    simp only [writerStep, hpc, if_pos hleft]
  have hcheck : writerStep cfg { s with pc := .checkEmpty c }
      = { s with pc := .getEmpty c.clip } := by
    simp only [writerStep, if_neg hsome]
  show (writerStep cfg (writerStep cfg (writerStep cfg s))).pc = _
  rw [hloop, hcheck]
  simp only [writerStep, (getBufferId_cons hempty).1]
  exact if_pos hid

theorem first_fill (hfits : cfg.Fits) (hpos : 0 < count) (hle : count ≤ stagingSize) (s : State) :
    ∃ c id, (run cfg (jzAudioWrite cfg count true false (jzAudioOpen cfg s))
        [.writer, .writer, .writer]).pc = .fill c id ∧
      c.copyCount = min cfg.copySize count := by
  obtain ⟨-, -, -, htotal, -⟩ := hfits.bounds
  have hleft : Int.bmod count (2 ^ 32) = count :=
    bmod_of_lt (Nat.lt_of_le_of_lt hle (by decide))
  have hwrite : jzAudioWrite cfg count true false (jzAudioOpen cfg s)
      = { jzAudioOpen cfg s with
          nextOut := 0
          pc := .loop ⟨count, true, 0, Int.bmod count (2 ^ 32), cfg.copySize⟩ } := by
    unfold jzAudioWrite
    rw [if_neg (Nat.ne_of_gt hpos), if_neg Bool.false_ne_true]
    rfl
  have hids : ∃ l, (jzAudioOpen cfg s).outEmpty.toList = 0 :: l := by
    obtain ⟨n, hn⟩ := Nat.exists_eq_succ_of_ne_zero (by omega : cfg.fragstotal ≠ 0)
    rw [toList_outEmpty_open, hn, fragmentIds, List.range_succ_eq_map, List.map_cons]
    exact ⟨_, rfl⟩
  obtain ⟨l, hl⟩ := hids
  rw [hwrite, hleft]
  refine ⟨_, 0, run_to_fill cfg rfl ?_ hl (Int.le_refl 0), ?_⟩
  · show (0 : Int) < count
    exact_mod_cast hpos
  · unfold Call.clip
    dsimp only
    split
    · dsimp only
      omega
    · dsimp only
      omega

/-- **A write keeps inside its buffers exactly when it is no larger than the staging buffer,
in 8-bit mono no larger than half a chunk, and in 16-bit stereo not the first thing done
with the device.** -/
theorem write_inside_iff (hfits : cfg.Fits) (speeds : List Int) (shift count : Nat) (s : State)
    (hpc : s.pc = .idle) :
    (count ≤ stagingSize ∧ ∀ (acts rest : List Act) (nonblock : Bool),
      (run cfg (jzAudioOpen cfg s) acts).pc = .idle → (∀ a ∈ rest, a = .writer ∨ a = .irq) →
      ∀ c id, (run cfg (jzAudioWrite cfg count nonblock false
          (run cfg (jzAudioOpen cfg s) acts)) rest).pc = .fill c id →
        ∀ src, FillSound cfg (jzAudioRate speeds) shift src c.copyCount) ↔
    count ≤ stagingSize ∧
      (cfg.format = .u8 → cfg.channels = .mono → count ≤ cfg.fragsize / 8) ∧
      (cfg.format = .s16le → cfg.channels = .stereo → 0 < count → speeds ≠ []) := by
  refine and_congr_right fun hle => ⟨fun hall => ?_, ?_⟩
  · rcases Nat.eq_zero_or_pos count with rfl | hpos
    · exact ⟨fun _ _ => Nat.zero_le _, fun _ _ h => absurd h (Nat.lt_irrefl 0)⟩
    obtain ⟨c, id, hfill, hcopy⟩ := first_fill hfits hpos hle s
    have hsound := hall [] [.writer, .writer, .writer] true hpc (by simp) c id hfill
    rw [hcopy] at hsound
    have hchunk := hfits.copySize_bounds
    have hset : RateSet cfg (jzAudioRate speeds) := by
      intro hf hc
      rcases jzAudioRate_cases speeds with ⟨-, hzero⟩ | ⟨-, hrate⟩
      · rw [hzero] at hsound
        exact absurd (hsound _) (not_fillSound_silent hf hc shift (by omega))
      · exact hrate
    have hfit := (fillSound_iff hset (fun _ => 0) shift _).mp (hsound _)
    rw [words_fit_iff hfits (Nat.min_le_left _ _)] at hfit
    refine ⟨fun hf hc => ?_, fun hf hc _ hnone => ?_⟩
    · -- a whole chunk does not fit, so this was not one
      have hhalf := hfit hf hc
      have hsize : cfg.copySize = cfg.fragsize / 4 := by
        unfold Config.copySize
        rw [hc]
      omega
    · have hrate := hset hf hc
      rw [hnone] at hrate
      exact absurd hrate (by decide)
  · rintro ⟨hmono, hstereo⟩ acts rest nonblock hidle hacts c id hfill src
    have hchunked := chunked_run cfg rest hacts (jzAudioWrite_chunked cfg hidle count nonblock)
    rw [hfill] at hchunked
    obtain ⟨-, hsize, hcount⟩ := hchunked
    by_cases hzero : c.copyCount = 0
    · rw [hzero]
      exact fillSound_zero cfg _ shift src
    have hset : RateSet cfg (jzAudioRate speeds) := by
      intro hf hc
      rcases jzAudioRate_cases speeds with ⟨hnone, -⟩ | ⟨-, hrate⟩
      · exact absurd hnone (hstereo hf hc (by omega))
      · exact hrate
    rw [fillSound_iff hset, words_fit_iff hfits hsize]
    exact fun hf hc => hcount.trans (hmono hf hc)

/-- A megabyte of 16-bit stereo in fragments of 16 KB, at 44100 Hz. -/
theorem write_inside_stereo :
    Config.Fits ⟨.s16le, .stereo, 16384, 2⟩ ∧
    ∀ (acts rest : List Act) (nonblock : Bool),
      (run ⟨.s16le, .stereo, 16384, 2⟩ (jzAudioOpen ⟨.s16le, .stereo, 16384, 2⟩ untouched)
        acts).pc = .idle → (∀ a ∈ rest, a = .writer ∨ a = .irq) →
      ∀ c id, (run ⟨.s16le, .stereo, 16384, 2⟩
          (jzAudioWrite ⟨.s16le, .stereo, 16384, 2⟩ 1048576 nonblock false
            (run ⟨.s16le, .stereo, 16384, 2⟩
              (jzAudioOpen ⟨.s16le, .stereo, 16384, 2⟩ untouched) acts)) rest).pc = .fill c id →
        ∀ src, FillSound ⟨.s16le, .stereo, 16384, 2⟩ (jzAudioRate [44100]) 0 src c.copyCount := by
  have hfits : Config.Fits ⟨.s16le, .stereo, 16384, 2⟩ :=
    Or.inr ⟨0x2000E, by decide, by decide⟩
  refine ⟨hfits, ((write_inside_iff hfits [44100] 0 1048576 untouched rfl).mpr ?_).2⟩
  exact ⟨by decide, by simp, by simp⟩

/-- A write of 4096 bytes of 8-bit mono in fragments of 16 KB fills 32 KB, and a silent frame
of 16-bit stereo before any speed has been set is marked below the fragment. -/
theorem write_not_inside :
    (run ⟨.u8, .mono, 16384, 2⟩ (jzAudioWrite ⟨.u8, .mono, 16384, 2⟩ 4096 true false
        (jzAudioOpen ⟨.u8, .mono, 16384, 2⟩ untouched)) [.writer, .writer, .writer]).pc
      = .fill ⟨4096, true, 0, 4096, 4096⟩ 0 ∧
    replayFiller ⟨.u8, .mono, 16384, 2⟩ 4096 = 32768 ∧
    ¬ FillSound ⟨.u8, .mono, 16384, 2⟩ 44100 0 (fun _ => 0) 4096 ∧
    replayStores (fun _ => 0) 0 ⟨.s16le, .stereo, 16384, 2⟩ 0 2
      = [(-10, 1), (-11, 1), (0, 0)] ∧
    ¬ FillSound ⟨.s16le, .stereo, 16384, 2⟩ 0 0 (fun _ => 0) 2 := by
  refine ⟨?_, ?_, ?_, by decide, not_fillSound_silent rfl rfl 0 (by decide)⟩
  · rfl
  · rw [replayFiller_eq]
    rfl
  · rw [fillSound_iff (fun h => absurd h (by decide))]
    decide

end Dingoo.JzI2s
