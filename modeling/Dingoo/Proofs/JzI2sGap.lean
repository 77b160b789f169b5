/-
A recording that returns part of a fragment and goes on has a gap.

That the gap shows takes a recording in which it does.  The reader never looks at a
sample, so a run takes the same steps whatever is recorded: `Similar` is what two such
runs have in common.  Silence in all fragments but the one whose bytes come too early
then puts a byte that is not silent where the stream is silent.
-/
import Dingoo.Proofs.JzI2sSpace
import Dingoo.Proofs.JzI2sStream

namespace Dingoo.JzI2sRecord

open Dingoo.Lib
open Dingoo.JzI2s (Config getBufferId twoFragments)

variable {cfg : Config} {s t : State} {mic : Nat → Nat → BitVec 32} {acts : List Act}

/-! ### The same run with another recording -/

/-- The same but for the samples. -/
def Similar (s t : State) : Prop :=
  ∃ words tmp2 recorded returned,
    t = { s with
      words := words, tmp2 := tmp2, recorded := recorded, returned := returned } ∧
    tmp2.length = s.tmp2.length ∧ recorded.length = s.recorded.length ∧
    returned.length = s.returned.length

theorem Similar.readerStep (h : Similar s t) (fault : Bool) :
    Similar (readerStep cfg fault s) (readerStep cfg fault t) := by
  obtain ⟨words, tmp2, recorded, returned, rfl, htmp, hrecorded, hreturned⟩ := h
  cases hpc : s.pc with
  | convert c id =>
    obtain ⟨hlen, -⟩ := recordFiller_shape cfg (s.words id) (s.words id) s.abnormalDataCount
    obtain ⟨hlen', hab⟩ := recordFiller_shape cfg (words id) (s.words id) s.abnormalDataCount
    simp only [JzI2sRecord.readerStep, hpc, hlen, hlen', hab]
    exact ⟨words, _, recorded, returned, rfl, hlen'.trans hlen.symm, hrecorded, hreturned⟩
  | copyOut c =>
    simp only [JzI2sRecord.readerStep, hpc]
    cases fault with
    | false =>
      refine ⟨words, tmp2, recorded, _, rfl, htmp, hrecorded, ?_⟩
      simp [htmp, hreturned]
    | true => exact ⟨words, tmp2, recorded, returned, rfl, htmp, hrecorded, hreturned⟩
  | idle | firstSleeping c | sleeping c =>
    simp only [JzI2sRecord.readerStep, hpc]
    exact ⟨words, tmp2, recorded, returned, by rw [hpc], htmp, hrecorded, hreturned⟩
  | _ =>
    simp only [JzI2sRecord.readerStep, hpc, audioStartDma]
    exact ⟨words, tmp2, recorded, returned, rfl, htmp, hrecorded, hreturned⟩

theorem Similar.startNext (h : Similar s t) (id1 : Int) :
    Similar (startNext cfg id1 s) (startNext cfg id1 t) := by
  obtain ⟨words, tmp2, recorded, returned, rfl, hlens⟩ := h
  unfold JzI2sRecord.startNext
  by_cases hnext : (getBufferId s.inEmpty).1 ≥ 0
  · simp only [if_pos hnext]
    exact ⟨words, tmp2, recorded, returned, rfl, hlens⟩
  · simp only [if_neg hnext]
    exact ⟨words, tmp2, recorded, returned, rfl, hlens⟩

theorem Similar.finish (h : Similar s t) (id : Int) (v w : Nat → BitVec 32) :
    Similar (wakeUpRx (finishBusy (transferDone id v s)))
      (wakeUpRx (finishBusy (transferDone id w t))) := by
  obtain ⟨words, tmp2, recorded, returned, rfl, htmp, hrecorded, hreturned⟩ := h
  refine ⟨_, tmp2, _, returned, rfl, htmp, ?_, hreturned⟩
  simp [wakeUpRx, finishBusy, transferDone, hrecorded]

theorem Similar.irq (h : Similar s t) (id : Int) (v w : Nat → BitVec 32) :
    Similar (jzI2sRecordDmaIrq cfg (transferDone id v s))
      (jzI2sRecordDmaIrq cfg (transferDone id w t)) := by
  have hbusy : (transferDone id w t).inBusy = (transferDone id v s).inBusy := by
    obtain ⟨words, tmp2, recorded, returned, rfl, -⟩ := h
    rfl
  unfold jzI2sRecordDmaIrq
  rw [hbusy]
  exact (h.finish id v w).startNext _

theorem Similar.step (h : Similar s t) (mic' : Nat → Nat → BitVec 32) (a : Act) :
    Similar (step cfg mic s a) (step cfg mic' t a) := by
  cases a with
  | read count nonblock =>
    obtain ⟨words, tmp2, recorded, returned, rfl, hlens⟩ := h
    simp only [JzI2sRecord.step]
    split
    · exact ⟨words, tmp2, recorded, returned, rfl, hlens⟩
    · exact ⟨words, tmp2, recorded, returned, rfl, hlens⟩
  | reader fault => exact h.readerStep fault
  | irq =>
    have htarget : t.target = s.target := by
      obtain ⟨words, tmp2, recorded, returned, rfl, -⟩ := h
      rfl
    simp only [JzI2sRecord.step, htarget]
    cases s.target with
    | none => exact h
    | some id => exact h.irq id _ _

theorem Similar.run (cfg : Config) (mic mic' : Nat → Nat → BitVec 32) :
    ∀ (acts : List Act) {s t : State}, Similar s t →
      Similar (run cfg mic s acts) (run cfg mic' t acts) := by
  intro acts
  induction acts with
  | nil => intro s t h; exact h
  | cons a acts ih => intro s t h; exact ih (h.step mic' a)

theorem Similar.refl (s : State) : Similar s s := ⟨_, _, _, _, rfl, rfl, rfl, rfl⟩

/-! ### What every run keeps -/

/-- The call that runs. -/
@[simp] def Pc.call : Pc → Option Call
  | .idle => none
  | .firstGet c | .firstPut c _ | .firstStart c _ | .firstSleepOn c | .firstSleeping c | .loop c
  | .checkFull c | .sleepOn c | .sleeping c | .getFull c | .convert c _ | .putEmpty c _
  | .checkBusy c | .getEmpty c | .putBusy c _ | .start c _ | .copyOut c => some c

/-- Inside the loop: there are bytes left. -/
@[simp] def Pc.inLoop : Pc → Bool
  | .checkFull _ | .sleepOn _ | .sleeping _ | .getFull _ | .convert _ _ | .putEmpty _ _
  | .checkBusy _ | .getEmpty _ | .putBusy _ _ | .start _ _ | .copyOut _ => true
  | _ => false

/-- A fragment has been taken and its bytes are not returned yet. -/
@[simp] def Pc.owing : Pc → Bool
  | .convert _ _ | .putEmpty _ _ | .checkBusy _ | .getEmpty _ | .putBusy _ _ | .start _ _
  | .copyOut _ => true
  | _ => false

/-- The bytes wanted, and no more bytes returned than were taken. -/
structure Accounted (cfg : Config) (s : State) : Prop where
  wanted : ∀ c, s.pc.call = some c → c.ret + c.leftCount ≤ c.count
  left : ∀ c, s.pc.call = some c → s.pc.inLoop = true → 0 < c.leftCount
  owed : s.returned.length + (if s.pc.owing then fragmentBytes cfg else 0)
    ≤ s.taken * fragmentBytes cfg

theorem Call.clip_cnt (c : Call) : c.clip.cnt ≤ c.cnt ∧ c.clip.count = c.count := by
  unfold Call.clip
  split
  · exact ⟨by dsimp only; omega, rfl⟩
  · exact ⟨Nat.le_refl _, rfl⟩

theorem Call.clip_pos {c : Call} (hcnt : 0 < c.cnt) (hleft : 0 < c.leftCount)
    (hwanted : c.ret + c.leftCount ≤ c.count) : 0 < c.clip.cnt := by
  unfold Call.clip
  split
  · dsimp only
    omega
  · exact hcnt

namespace Accounted

section
variable (h : Accounted cfg s)
include h

theorem goto (htaken : t.taken = s.taken) (hreturned : t.returned = s.returned)
    (hcall : ∀ c, t.pc.call = some c → s.pc.call = some c)
    (hloop : t.pc.inLoop = true → s.pc.inLoop = true)
    (howing : t.pc.owing = true → s.pc.owing = true) : Accounted cfg t where
  wanted := fun c hc => h.wanted c (hcall c hc)
  left := fun c hc hl => h.left c (hcall c hc) (hloop hl)
  owed := by
    have hle := h.owed
    rw [htaken, hreturned]
    by_cases ht : t.pc.owing = true
    · rw [if_pos (howing ht)] at hle
      rwa [if_pos ht]
    · rw [if_neg ht]
      omega

theorem reader (hinv : Inv cfg s) (fault : Bool) : Accounted cfg (readerStep cfg fault s) := by
  have howed := h.owed
  cases hpc : s.pc with
  | idle | firstSleeping c | sleeping c => simpa only [readerStep, hpc] using h
  | loop c =>
    have hwanted := h.wanted c (by rw [hpc]; rfl)
    simp only [readerStep, hpc]
    by_cases hleft : c.leftCount > 0
    · rw [if_pos hleft]
      refine ⟨?_, ?_, by simpa [hpc] using howed⟩
      · rintro c' ⟨⟩
        exact hwanted
      · rintro c' ⟨⟩ -
        exact hleft
    · rw [if_neg hleft]
      exact ⟨by simp, by simp, by simpa [hpc] using howed⟩
  | getFull c =>
    simp only [readerStep, hpc]
    by_cases hgot : (getBufferId s.inFull).1 ≥ 0
    · rw [if_pos hgot, if_pos hgot]
      refine ⟨?_, ?_, ?_⟩
      · rintro c' ⟨⟩
        exact h.wanted c (by rw [hpc]; rfl)
      · rintro c' ⟨⟩ -
        exact h.left c (by rw [hpc]; rfl) (by rw [hpc]; rfl)
      · simp only [hpc, Pc.owing, Bool.false_eq_true, if_false, if_true, Nat.add_mul] at howed ⊢
        omega
    · rw [if_neg hgot, if_neg hgot]
      exact h.goto rfl rfl (by simp [hpc]) (by simp [hpc]) (by simp)
  | convert c id =>
    simp only [readerStep, hpc]
    refine ⟨?_, ?_, by simpa [hpc] using howed⟩
    · rintro c' ⟨⟩
      exact h.wanted c (by rw [hpc]; rfl)
    · rintro c' ⟨⟩ -
      exact h.left c (by rw [hpc]; rfl) (by rw [hpc]; rfl)
  | copyOut c =>
    simp only [readerStep, hpc]
    cases fault with
    | true => exact h.goto rfl rfl (by simp) (by simp) (by simp)
    | false =>
      have hwanted := h.wanted c (by rw [hpc]; rfl)
      obtain ⟨n, w, -, -, htmp, hcnt⟩ := hinv.ready c (by rw [hpc]; rfl)
      rw [length_converted] at hcnt
      obtain ⟨hclip, hcount⟩ := c.clip_cnt
      refine ⟨?_, by simp, ?_⟩
      · rintro c' ⟨⟩
        simp only [hcount]
        omega
      · simp only [hpc, Pc.owing, Bool.false_eq_true, if_false, if_true, List.length_append,
          List.length_take] at howed ⊢
        omega
  | _ =>
    simp only [readerStep, hpc, audioStartDma]
    refine h.goto rfl rfl ?_ ?_ ?_ <;> (repeat' split) <;> simp [hpc]

theorem read (hpc : s.pc = .idle) (count : Nat) (nonblock : Bool) :
    Accounted cfg (jzAudioRead count nonblock s) := by
  have howed := h.owed
  have hle : Int.bmod count (2 ^ 32) ≤ count := by
    rw [Int.bmod_def]
    split <;> omega
  unfold jzAudioRead
  dsimp only
  split
  · refine ⟨?_, by simp, by simpa [hpc] using howed⟩
    rintro c ⟨⟩
    simpa using hle
  · refine ⟨?_, by simp, by simpa [hpc] using howed⟩
    rintro c ⟨⟩
    simpa using hle

theorem irq {id : Int} {w : Nat → BitVec 32} (hd : Finished s t id w) : Accounted cfg t := by
  obtain ⟨htaken, -, hreturned, -⟩ := hd.same
  refine h.goto htaken hreturned ?_ ?_ ?_ <;> rw [hd.pc] <;> cases s.pc <;> simp [Pc.woken]

theorem step (hinv : Inv cfg s) (mic : Nat → Nat → BitVec 32) (a : Act) :
    Accounted cfg (step cfg mic s a) :=
  step_rule hinv h (fun count nonblock _ hpc => h.read hpc count nonblock)
    (fun fault _ => h.reader hinv fault) (fun _ _ _ hd => h.irq hd)

end

end Accounted

/-- The fragments recorded are what there was to record. -/
def Heard (cfg : Config) (mic : Nat → Nat → BitVec 32) (s : State) : Prop :=
  ∀ k w, s.recorded[k]? = some w → ∀ i < copyCount cfg, w i = mic k i

theorem Heard.irq (h : Heard cfg mic s) (hinv : Inv cfg s) {id : Int} (ht : s.target = some id)
    (hd : Finished s t id (mic s.recorded.length)) : Heard cfg mic t := by
  intro k w hw i hi
  rw [hd.recorded] at hw
  rcases Nat.lt_or_ge k s.recorded.length with hlt | hge
  · rw [List.getElem?_append_left hlt] at hw
    exact h k w hw i hi
  · obtain ⟨hk, rfl⟩ : k = s.recorded.length ∧
        filledWords id (mic s.recorded.length) s = w := by
      rw [List.getElem?_append_right hge, List.getElem?_singleton] at hw
      split at hw
      · exact ⟨by omega, Option.some.inj hw⟩
      · cases hw
    rw [hk]
    refine if_pos ?_
    rw [hinv.counted id ht]
    omega

theorem Heard.step (h : Heard cfg mic s) (hinv : Inv cfg s) (a : Act) :
    Heard cfg mic (step cfg mic s a) := by
  refine step_rule hinv h (fun _ _ _ _ => h) ?_ (fun _ _ ht hd => h.irq hinv ht hd)
  intro fault _
  unfold Heard
  rw [(logs_readerStep cfg fault s).1]
  exact h

/-- All three, for a whole run. -/
structure Kept (cfg : Config) (mic : Nat → Nat → BitVec 32) (s : State) : Prop where
  inv : Inv cfg s
  accounted : Accounted cfg s
  heard : Heard cfg mic s

theorem kept_open (cfg : Config) (mic : Nat → Nat → BitVec 32) (hpc : s.pc = .idle)
    (ht : s.target = none) : Kept cfg mic (jzAudioOpen cfg s) where
  inv := inv_open cfg hpc ht
  accounted := ⟨by simp [jzAudioOpen, hpc], by simp [jzAudioOpen, hpc],
    by simp [jzAudioOpen, hpc]⟩
  heard := by simp [Heard, jzAudioOpen]

theorem Kept.step (h : Kept cfg mic s) (a : Act) : Kept cfg mic (step cfg mic s a) :=
  ⟨inv_step mic h.inv a, h.accounted.step h.inv mic a, h.heard.step h.inv a⟩

theorem kept_run (mic : Nat → Nat → BitVec 32) (acts : List Act) (h : Kept cfg mic s) :
    Kept cfg mic (run cfg mic s acts) :=
  List.foldlRecOn acts _ h fun _ hs a _ => hs.step a

theorem logs_step (mic : Nat → Nat → BitVec 32) (hinv : Inv cfg s) (a : Act) :
    s.recorded <+: (step cfg mic s a).recorded ∧ s.returned <+: (step cfg mic s a).returned := by
  have hsame : s.recorded <+: s.recorded ∧ s.returned <+: s.returned :=
    ⟨List.prefix_rfl, List.prefix_rfl⟩
  refine step_rule (P := fun t => s.recorded <+: t.recorded ∧ s.returned <+: t.returned) hinv
    hsame (fun _ _ _ _ => hsame) ?_ ?_
  · intro fault _
    obtain ⟨hrecorded, -, hreturned⟩ := logs_readerStep cfg fault s
    rw [hrecorded]
    refine ⟨List.prefix_rfl, ?_⟩
    rcases hreturned with hreturned | ⟨rfl, c, hpc⟩
    · rw [hreturned]
    · simp [readerStep, hpc]
  · intro id t _ hd
    obtain ⟨-, -, hreturned, -⟩ := hd.same
    rw [hd.recorded, hreturned]
    exact ⟨List.prefix_append _ _, List.prefix_rfl⟩

theorem logs_run (mic : Nat → Nat → BitVec 32) :
    ∀ (acts : List Act) {s : State}, Inv cfg s →
      s.recorded <+: (run cfg mic s acts).recorded ∧
        s.returned <+: (run cfg mic s acts).returned := by
  intro acts
  induction acts with
  | nil => intro s _; exact ⟨List.prefix_rfl, List.prefix_rfl⟩
  | cons a acts ih =>
    intro s hinv
    obtain ⟨hrecorded, hreturned⟩ := logs_step mic hinv a
    obtain ⟨hrecorded', hreturned'⟩ := ih (inv_step mic hinv a)
    exact ⟨hrecorded.trans hrecorded', hreturned.trans hreturned'⟩

/-! ### Sixteen bits, stereo -/

theorem fillLoop_silent (hformat : cfg.format = .s16le) (hchannels : cfg.channels = .stereo)
    (w : Nat → BitVec 32) :
    ∀ (count i : Nat), count % 2 = 0 → (∀ j, i ≤ j → j < i + count → w j = 0) →
      ∀ b ∈ (fillLoop cfg w count i 0).1, b = 0
  | 0, _, _, _ => by simp [fillLoop]
  | 1, _, heven, _ => by simp at heven
  | count + 2, i, heven, hw => by
    have ih := fillLoop_silent hformat hchannels w count (i + 2) (by omega)
      (fun j hj hlt => hw j (by omega) (by omega))
    simp only [fillLoop, fillPair_zero, hw i (by omega) (by omega),
      hw (i + 1) (by omega) (by omega), List.mem_append]
    rintro b (hb | hb)
    · simpa [samples, hformat, hchannels, halfword] using hb
    · exact ih b hb

theorem converted_head (hformat : cfg.format = .s16le) (hchannels : cfg.channels = .stereo)
    (hpos : 2 ≤ copyCount cfg) (w : Nat → BitVec 32) :
    ∃ l, converted cfg w = (w 0).extractLsb' 0 8 :: l := by
  obtain ⟨count, hcount⟩ := Nat.exists_eq_add_of_le' hpos
  unfold converted recordFiller
  rw [hcount, fillLoop, fillPair_zero]
  simp [samples, hformat, hchannels, halfword]

theorem copyCount_even (hfits : cfg.Fits) : copyCount cfg % 2 = 0 ∧ 2 ≤ copyCount cfg := by
  obtain ⟨⟨k, hk⟩, hlow, -⟩ := hfits.bounds
  unfold copyCount
  omega

/-- A recording that is silent but for one fragment. -/
def spike (n k : Nat) (_ : Nat) : BitVec 32 := if k = n then 0xFFFFFFFF else 0

theorem stream_silent (hfits : cfg.Fits) (hformat : cfg.format = .s16le)
    (hchannels : cfg.channels = .stereo) {n : Nat} (h : Heard cfg (spike n) s) :
    ∀ b ∈ stream cfg (s.recorded.take n), b = 0 := by
  intro b hb
  obtain ⟨w, hw, hbyte⟩ := List.mem_flatMap.mp hb
  obtain ⟨k, hk⟩ := List.mem_iff_getElem?.mp hw
  rw [List.getElem?_take] at hk
  split at hk
  · rename_i hlt
    refine fillLoop_silent hformat hchannels w _ 0 (copyCount_even hfits).1 ?_ b hbyte
    intro j _ hj
    rw [h k w hk j (by omega)]
    exact if_neg (by omega)
  · cases hk

/-- Bytes of a fragment returned before those of the fragments ahead of it: with a spike in
that fragment, what was returned is not what was recorded. -/
theorem gap (hfits : cfg.Fits) (hformat : cfg.format = .s16le)
    (hchannels : cfg.channels = .stereo) {n : Nat} (h : Kept cfg (spike n) s) {c : Call}
    (hpc : s.pc = .copyOut c) (htaken : s.taken = n + 1)
    (hshort : s.returned.length < n * fragmentBytes cfg) (acts : List Act) :
    ¬ (run cfg (spike n) s (.reader false :: acts)).returned <+:
      stream cfg (run cfg (spike n) s (.reader false :: acts)).recorded := by
  intro hfirst
  have hend := kept_run (spike n) (.reader false :: acts) h
  obtain ⟨hrecorded, -⟩ := logs_run (spike n) (.reader false :: acts) h.inv
  have hreturned : (step cfg (spike n) s (.reader false)).returned <+:
      (run cfg (spike n) s (.reader false :: acts)).returned :=
    (logs_run (spike n) acts (inv_step (spike n) h.inv (.reader false))).2
  -- the byte that comes too early
  obtain ⟨m, w, hm, hword, htmp, hcnt⟩ := h.inv.ready c (by rw [hpc]; rfl)
  obtain rfl : m = n := by omega
  obtain ⟨l, hl⟩ := converted_head hformat hchannels (copyCount_even hfits).2 w
  have hbyte : (w 0).extractLsb' 0 8 = 0xFF := by
    rw [h.heard m w hword 0 (by have := (copyCount_even hfits).2; omega)]
    simp [spike]
  have hclip : 0 < c.clip.cnt := by
    refine Call.clip_pos (by rw [hcnt, hl]; simp) ?_ (h.accounted.wanted c (by rw [hpc]; rfl))
    exact h.accounted.left c (by rw [hpc]; rfl) (by rw [hpc]; rfl)
  obtain ⟨k, hk⟩ := Nat.exists_eq_add_of_lt hclip
  have hearly : s.returned ++ [0xFF] <+: (step cfg (spike m) s (.reader false)).returned := by
    simp [step, readerStep, hpc, htmp, hl, hbyte, hk]
  -- it stands where the stream is silent
  have hsilent := stream_silent hfits hformat hchannels hend.heard
  have hle : m ≤ (run cfg (spike m) s (.reader false :: acts)).recorded.length := by
    have := hrecorded.length_le
    have := (List.getElem?_eq_some_iff.mp hword).1
    omega
  generalize run cfg (spike m) s (.reader false :: acts) = t at *
  have hinside : s.returned ++ [0xFF] <+: stream cfg (t.recorded.take m) := by
    refine List.prefix_of_prefix_length_le ((hearly.trans hreturned).trans hfirst)
      (stream_mono (List.take_prefix m t.recorded)) ?_
    rw [length_stream, List.length_take, Nat.min_eq_left hle, List.length_append]
    exact hshort
  exact absurd (hsilent 0xFF (hinside.subset (by simp))) (by decide)

/-- **A recording is returned without a gap, whatever is recorded, if and only if bytes are
copied out only after all fragments before have been returned completely.** -/
theorem returned_prefix_iff (cfg : Config) (hfits : cfg.Fits) (hformat : cfg.format = .s16le)
    (hchannels : cfg.channels = .stereo) (s : State) (hpc : s.pc = .idle) (ht : s.target = none)
    (acts : List Act) :
    (∀ mic, (run cfg mic (jzAudioOpen cfg s) acts).returned <+:
        stream cfg (run cfg mic (jzAudioOpen cfg s) acts).recorded) ↔
      ∀ mic, EachStep (step cfg mic) (Whole cfg) (jzAudioOpen cfg s) acts := by
  constructor
  · rintro hall mic pre a post hacts rfl c hcopy
    have hkept := kept_run mic pre (kept_open cfg mic hpc ht)
    obtain ⟨n, -, hn, -⟩ := hkept.inv.ready c (by rw [run, hcopy]; rfl)
    have howed := hkept.accounted.owed
    rw [run, hcopy] at howed
    refine Nat.le_antisymm howed (Nat.le_of_not_lt fun hlt => ?_)
    -- the same run with a spike in the fragment that comes too early
    have hspike := kept_run (spike n) pre (kept_open cfg (spike n) hpc ht)
    obtain ⟨words, tmp2, recorded, returned, heq, -, -, hlen⟩ :=
      Similar.run cfg mic (spike n) pre (Similar.refl (jzAudioOpen cfg s))
    have hrun := hall (spike n)
    rw [hacts, run, List.foldl_append] at hrun
    refine gap hfits hformat hchannels hspike (c := c) ?_ ?_ ?_ post hrun
    · rw [heq]
      exact hcopy
    · rw [heq]
      exact hn
    · have hshort : (run cfg mic (jzAudioOpen cfg s) pre).returned.length + fragmentBytes cfg
          < (run cfg mic (jzAudioOpen cfg s) pre).taken * fragmentBytes cfg := hlt
      rw [hn, Nat.succ_mul] at hshort
      rw [heq, hlen]
      omega
  · intro hall mic
    refine (unbroken_run mic acts (inv_open cfg hpc ht) ?_ (hall mic)).trans ?_
    · simp [Unbroken, jzAudioOpen]
    · exact stream_mono (List.take_prefix _ _)

/-! ### Reads of whole fragments -/

/-- A read that asks for whole fragments, and copies that succeed. -/
def Act.Aligned (cfg : Config) : Act → Prop
  | .read count _ => fragmentBytes cfg ∣ count
  | .reader fault => fault = false
  | .irq => True

instance (cfg : Config) : (a : Act) → Decidable (a.Aligned cfg)
  | .read count _ => inferInstanceAs (Decidable (fragmentBytes cfg ∣ count))
  | .reader fault => inferInstanceAs (Decidable (fault = false))
  | .irq => inferInstanceAs (Decidable True)

/-- Every fragment taken has been returned completely, but the one in hand. -/
structure Complete (cfg : Config) (s : State) : Prop where
  wanted : ∀ c, s.pc.call = some c → fragmentBytes cfg ∣ c.count - c.ret
  owed : s.returned.length + (if s.pc.owing then fragmentBytes cfg else 0)
    = s.taken * fragmentBytes cfg

namespace Complete

theorem goto (h : Complete cfg s) (htaken : t.taken = s.taken)
    (hreturned : t.returned = s.returned)
    (hcall : ∀ c, t.pc.call = some c → s.pc.call = some c)
    (howing : t.pc.owing = s.pc.owing) : Complete cfg t where
  wanted := fun c hc => h.wanted c (hcall c hc)
  owed := by rw [htaken, hreturned, howing, h.owed]

theorem reader (h : Complete cfg s) (hinv : Inv cfg s) (hacc : Accounted cfg s) :
    Complete cfg (readerStep cfg false s) := by
  have howed := h.owed
  cases hpc : s.pc with
  | idle | firstSleeping c | sleeping c => simpa only [readerStep, hpc] using h
  | getFull c =>
    simp only [readerStep, hpc]
    by_cases hgot : (getBufferId s.inFull).1 ≥ 0
    · rw [if_pos hgot, if_pos hgot]
      refine ⟨?_, ?_⟩
      · rintro c' ⟨⟩
        exact h.wanted c (by rw [hpc]; rfl)
      · simp only [hpc, Pc.owing, Bool.false_eq_true, if_false, if_true, Nat.add_mul] at howed ⊢
        omega
    · rw [if_neg hgot, if_neg hgot]
      exact h.goto rfl rfl (by simp [hpc]) (by simp [hpc])
  | convert c id =>
    simp only [readerStep, hpc]
    refine ⟨?_, by simpa [hpc] using howed⟩
    rintro c' ⟨⟩
    exact h.wanted c (by rw [hpc]; rfl)
  | copyOut c =>
    obtain ⟨n, w, -, -, htmp, hcnt⟩ := hinv.ready c (by rw [hpc]; rfl)
    rw [length_converted] at hcnt
    have hwanted := h.wanted c (by rw [hpc]; rfl)
    have hle := hacc.wanted c (by rw [hpc]; rfl)
    have hleft := hacc.left c (by rw [hpc]; rfl) (by rw [hpc]; rfl)
    -- a whole fragment is still wanted, so nothing is cut off
    have hroom : fragmentBytes cfg ≤ c.count - c.ret := Nat.le_of_dvd (by omega) hwanted
    have hclip : c.clip = c := if_neg (by omega)
    simp only [readerStep, hpc, Bool.false_eq_true, if_false, hclip]
    refine ⟨?_, ?_⟩
    · rintro c' ⟨⟩
      simp only [hcnt, Nat.sub_add_eq]
      exact Nat.dvd_sub hwanted (Nat.dvd_refl _)
    · simp only [hpc, Pc.owing, Bool.false_eq_true, if_false, if_true, List.length_append,
        List.length_take, htmp, length_converted, hcnt, Nat.min_self] at howed ⊢
      omega
  | _ =>
    simp only [readerStep, hpc, audioStartDma]
    refine h.goto rfl rfl ?_ ?_ <;> (repeat' split) <;> simp [hpc]

theorem step (h : Complete cfg s) (hinv : Inv cfg s) (hacc : Accounted cfg s)
    (mic : Nat → Nat → BitVec 32) {a : Act} (ha : a.Aligned cfg) :
    Complete cfg (step cfg mic s a) := by
  have howed := h.owed
  refine step_rule hinv h ?_ ?_ ?_
  · rintro count nonblock rfl hpc
    unfold jzAudioRead
    dsimp only
    split
    · refine ⟨?_, by simpa [hpc] using howed⟩
      rintro c ⟨⟩
      exact ha
    · refine ⟨?_, by simpa [hpc] using howed⟩
      rintro c ⟨⟩
      exact ha
  · rintro fault rfl
    obtain rfl : fault = false := ha
    exact h.reader hinv hacc
  · intro id t _ hd
    obtain ⟨htaken, -, hreturned, -⟩ := hd.same
    refine h.goto htaken hreturned ?_ ?_ <;> rw [hd.pc] <;> cases s.pc <;> simp [Pc.woken]

end Complete

theorem complete_run (hpc : s.pc = .idle) (ht : s.target = none) (hacts : ∀ a ∈ acts, a.Aligned cfg)
    (mic : Nat → Nat → BitVec 32) : Complete cfg (run cfg mic (jzAudioOpen cfg s) acts) := by
  have hopen : Complete cfg (jzAudioOpen cfg s) :=
    ⟨by simp [jzAudioOpen, hpc], by simp [jzAudioOpen, hpc]⟩
  have heach : EachStep (step cfg mic) (fun _ a => a.Aligned cfg) (jzAudioOpen cfg s) acts := by
    rintro pre a post rfl
    exact hacts a (by simp)
  exact (heach.invariant (fun t => Kept cfg mic t ∧ Complete cfg t)
    (fun t a ht ha => ⟨ht.1.step a, ht.2.step ht.1.inv ht.1.accounted mic ha⟩) acts
    ⟨kept_open cfg mic hpc ht, hopen⟩).2

theorem whole_of_aligned (hpc : s.pc = .idle) (ht : s.target = none)
    (hacts : ∀ a ∈ acts, a.Aligned cfg) (mic : Nat → Nat → BitVec 32) :
    EachStep (step cfg mic) (Whole cfg) (jzAudioOpen cfg s) acts := by
  rintro pre a post rfl rfl c hcopy
  have hpre : ∀ b ∈ pre, b.Aligned cfg := fun b hb => hacts b (by simp [hb])
  have heven := (complete_run hpc ht hpre mic).owed
  unfold run at heven
  rwa [hcopy] at heven

/-! ### Evaluating a run -/

/-- `step` with the length of a converted fragment put in: a run on given data can be
evaluated without converting fragments of 16 kB, but for the bytes looked at. -/
def quickStep (cfg : Config) (mic : Nat → Nat → BitVec 32) (s : State) (a : Act) : State :=
  match s.pc, a with
  | .convert c id, .reader _ =>
    { s with
      tmp2 := converted cfg (s.words id)
      abnormalDataCount := 0
      pc := .putEmpty { c with cnt := fragmentBytes cfg } id }
  | _, _ => step cfg mic s a

theorem quickStep_eq (h : Inv cfg s) (a : Act) : quickStep cfg mic s a = step cfg mic s a := by
  unfold quickStep
  split
  · rename_i c id fault hpc
    have hzero : (recordFiller cfg (s.words id) (copyCount cfg) 0).2 = 0 :=
      fillLoop_abnormal _ _ _ _
    have hlen := length_converted cfg (s.words id)
    unfold converted at hlen ⊢
    simp only [step, readerStep, hpc, h.abnormal, hzero, hlen]
  · rfl

theorem quickRun_eq :
    ∀ (acts : List Act) {s : State}, Inv cfg s →
      acts.foldl (quickStep cfg mic) s = run cfg mic s acts := by
  intro acts
  induction acts with
  | nil => intro s h; rfl
  | cons a acts ih =>
    intro s h
    rw [List.foldl_cons, quickStep_eq h, ih (inv_step mic h a)]
    rfl

/-! ### Two reads -/

/-- The driver's data before anything was recorded. -/
def untouched : State where
  inEmpty := ⟨0, fun _ => 0⟩
  inFull := ⟨0, fun _ => 0⟩
  inBusy := ⟨0, fun _ => 0⟩
  dataCount := fun _ => 0
  words := fun _ _ => 0
  firstRecordCall := false
  abnormalDataCount := 0
  tranCount := 0
  totalBytes := 0
  blocks := 0
  nextIn := 0
  target := none
  pc := .idle
  tmp2 := []
  recorded := []
  taken := 0
  returned := []

/-- Two reads of `count` bytes; both fragments are full before the first one goes on. -/
def twoReads (count : Nat) : List Act :=
  .read count false :: List.replicate 4 (.reader false) ++ [.irq, .irq] ++
    List.replicate 12 (.reader false) ++ .read count false :: List.replicate 12 (.reader false)

/-- Two whole fragments. -/
theorem returned_prefix_twoFragments :
    (run twoFragments (spike 0) (jzAudioOpen twoFragments untouched)
        (twoReads 8192)).returned.length = 16384 ∧
    ∀ mic, (run twoFragments mic (jzAudioOpen twoFragments untouched) (twoReads 8192)).returned <+:
      stream twoFragments
        (run twoFragments mic (jzAudioOpen twoFragments untouched) (twoReads 8192)).recorded := by
  have haligned : ∀ a ∈ twoReads 8192, a.Aligned twoFragments := by decide
  constructor
  · have howed := (complete_run (s := untouched) rfl rfl haligned (spike 0)).owed
    have hend : (run twoFragments (spike 0) (jzAudioOpen twoFragments untouched)
          (twoReads 8192)).pc.owing = false ∧
        (run twoFragments (spike 0) (jzAudioOpen twoFragments untouched)
          (twoReads 8192)).taken = 2 := by
      rw [← quickRun_eq _ (inv_open twoFragments rfl rfl)]
      decide +kernel
    rw [hend.1, hend.2, if_neg Bool.false_ne_true, Nat.add_zero] at howed
    rw [howed]
    decide
  · refine (returned_prefix_iff twoFragments (Or.inr ⟨0x2000E, by decide, by decide⟩) rfl rfl
      untouched rfl rfl (twoReads 8192)).mpr ?_
    exact whole_of_aligned rfl rfl haligned

/-- One frame, then another one: the second is the first of the second fragment. -/
theorem returned_frames_apart :
    (run twoFragments (spike 1) (jzAudioOpen twoFragments untouched) (twoReads 4)).returned
      = [0, 0, 0, 0, 0xFF, 0xFF, 0xFF, 0xFF] ∧
    ¬ (run twoFragments (spike 1) (jzAudioOpen twoFragments untouched) (twoReads 4)).returned <+:
      stream twoFragments
        (run twoFragments (spike 1) (jzAudioOpen twoFragments untouched)
          (twoReads 4)).recorded := by
  rw [← quickRun_eq _ (inv_open twoFragments rfl rfl)]
  decide +kernel

end Dingoo.JzI2sRecord
