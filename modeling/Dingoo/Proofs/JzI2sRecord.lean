/-
The recording queues under every interleaving of the reader and the DMA interrupt.

The queues work as those of the playback side do, with the roles exchanged: the
channel fills the busy fragment, the reader empties the full ones.  What matters
beyond the ids is what the fragments hold.

  * The words in the full queue, in its order, are the fragments recorded that the
    reader has not taken yet.  The channel writes only to the busy fragment, which is
    in no other queue and not in the reader's hands.
  * The fragment the reader is about to convert is the last one it has taken, and
    what it has converted stays in `tmp2` until it is copied out.
  * The reader starts a transfer only while none is in flight, so no interrupt comes
    between its look at the busy queue and that start.
-/
import Dingoo.Proofs.JzI2s
import Dingoo.Linux.JzI2sRecord

namespace Dingoo.JzI2sRecord

open Dingoo.JzI2s (Config Queue getBufferId putBufferId elementsInQueue getBufferId_nil
  getBufferId_cons toList_putBufferId fragmentIds nodup_fragmentIds nonneg_of_mem_fragmentIds)

variable {cfg : Config} {s : State} {id : Int} {c : Call}

/-! ### What the reader's position says -/

/-- The id the reader has got from a queue and not yet put into another. -/
@[simp] def Pc.held : Pc → List Int
  | .firstPut _ id | .convert _ id | .putEmpty _ id | .putBusy _ id => [id]
  | _ => []

/-- The fragment in the busy queue that the reader is about to start. -/
@[simp] def Pc.starting : Pc → List Int
  | .firstStart _ id | .start _ id => [id]
  | _ => []

/-- From the decision to start a transfer to its start. -/
@[simp] def Pc.inStartWindow : Pc → Bool
  | .firstGet _ | .firstPut _ _ | .firstStart _ _ | .getEmpty _ | .putBusy _ _ | .start _ _ => true
  | _ => false

/-- The call whose bytes are in `tmp2`. -/
@[simp] def Pc.delivering : Pc → Option Call
  | .putEmpty c _ | .checkBusy c | .getEmpty c | .putBusy c _ | .start c _ | .copyOut c => some c
  | _ => none

/-! ### The fillers -/

theorem muffles_zero (cfg : Config) : muffles cfg 0 = false := by
  unfold muffles
  split <;> rfl

theorem fillPair_zero (cfg : Config) (d1 d2 : BitVec 32) :
    fillPair cfg d1 d2 0 = (samples cfg d1 d2, 0) := by
  simp [fillPair, muffles_zero]

theorem fillLoop_abnormal (cfg : Config) (w : Nat → BitVec 32) :
    ∀ (count i : Nat), (fillLoop cfg w count i 0).2 = 0
  | 0, _ => rfl
  | 1, i => by rw [fillLoop, fillPair_zero]
  | count + 2, i => by
    rw [fillLoop, fillPair_zero]
    exact fillLoop_abnormal cfg w count (i + 2)

/-! ### The invariant -/

/-- `tmp2` holds the last fragment taken. -/
def Ready (cfg : Config) (s : State) (c : Call) : Prop :=
  ∃ n w, s.taken = n + 1 ∧ s.recorded[n]? = some w ∧ s.tmp2 = converted cfg w ∧
    c.cnt = (converted cfg w).length

/-- What every interleaving keeps. -/
structure Inv (cfg : Config) (s : State) : Prop where
  ids : (s.inEmpty.toList ++ s.inFull.toList ++ s.inBusy.toList ++ s.pc.held).Perm
    (fragmentIds cfg.fragstotal)
  busy : s.inBusy.toList = s.target.toList ++ s.pc.starting
  window : s.pc.inStartWindow = true → s.target = none
  unstarted : s.firstRecordCall = true → s.pc = .idle ∧ s.target = none
  abnormal : s.abnormalDataCount = 0
  counted : ∀ id, s.target = some id → s.dataCount id = copyCount cfg * 4
  taken_le : s.taken ≤ s.recorded.length
  contents : s.inFull.toList.map s.words = s.recorded.drop s.taken
  current : ∀ c id, s.pc = .convert c id →
    ∃ n, s.taken = n + 1 ∧ s.recorded[n]? = some (s.words id)
  ready : ∀ c, s.pc.delivering = some c → Ready cfg s c

namespace Inv

section
variable (h : Inv cfg s)
include h

theorem nodup : (s.inEmpty.toList ++ s.inFull.toList ++ s.inBusy.toList ++ s.pc.held).Nodup :=
  h.ids.nodup_iff.mpr (nodup_fragmentIds _)

theorem nonneg_empty (hid : id ∈ s.inEmpty.toList) : 0 ≤ id :=
  nonneg_of_mem_fragmentIds (h.ids.subset (by simp [hid]))

theorem nonneg_full (hid : id ∈ s.inFull.toList) : 0 ≤ id :=
  nonneg_of_mem_fragmentIds (h.ids.subset (by simp [hid]))

theorem started (hpc : s.pc ≠ .idle) : s.firstRecordCall = false :=
  Bool.eq_false_iff.mpr fun hf => hpc (h.unstarted hf).1

theorem busy_of_target (ht : s.target = some id) :
    s.inBusy.toList = [id] ∧ s.pc.inStartWindow = false := by
  have hwindow : s.pc.inStartWindow = false := by
    by_contra hw
    rw [h.window (by simpa using hw)] at ht
    cases ht
  have hstarting : s.pc.starting = [] := by
    cases hp : s.pc with
    | firstStart c i => simp [hp] at hwindow
    | start c i => simp [hp] at hwindow
    | _ => rfl
  refine ⟨?_, hwindow⟩
  rw [h.busy, ht, hstarting]
  rfl

theorem moved (e f b : Queue) (n : Nat) (u : List (BitVec 8)) (p : Pc)
    (hne : s.pc ≠ .idle)
    (hids : ∀ id, (e.toList ++ f.toList ++ b.toList ++ p.held).count id =
      (s.inEmpty.toList ++ s.inFull.toList ++ s.inBusy.toList ++ s.pc.held).count id)
    (hfull : f.toList = s.inFull.toList)
    (hbusy : b.toList = s.target.toList ++ p.starting)
    (hwindow : p.inStartWindow = true → s.target = none)
    (hconvert : ∀ c id, p ≠ .convert c id)
    (hready : ∀ c, p.delivering = some c → Ready cfg s c) :
    Inv cfg { s with
      inEmpty := e, inFull := f, inBusy := b, nextIn := n, returned := u, pc := p } where
  ids := (List.perm_iff_count.mpr hids).trans h.ids
  busy := hbusy
  window := hwindow
  unstarted := fun hf => absurd (hf.symm.trans (h.started hne)) (by simp)
  abnormal := h.abnormal
  counted := h.counted
  taken_le := h.taken_le
  contents := by
    show f.toList.map s.words = _
    rw [hfull]
    exact h.contents
  current := fun c id hp => absurd hp (hconvert c id)
  ready := hready

theorem goto (n : Nat) (u : List (BitVec 8)) (p : Pc) (hne : s.pc ≠ .idle)
    (hs : s.pc.held = [] ∧ s.pc.starting = []) (hp : p.held = [] ∧ p.starting = [])
    (hwindow : p.inStartWindow = true → s.target = none)
    (hready : ∀ c, p.delivering = some c → Ready cfg s c) :
    Inv cfg { s with nextIn := n, returned := u, pc := p } := by
  refine h.moved s.inEmpty s.inFull s.inBusy n u p hne ?_ rfl ?_ hwindow ?_ hready
  · intro id
    rw [hs.1, hp.1]
  · rw [h.busy, hs.2, hp.2]
  · rintro c id rfl
    simp at hp

theorem startDma {p : Pc} (hne : s.pc ≠ .idle) (hids : s.pc.held = [] ∧ p.held = [])
    (hstarting : s.pc.starting = [id] ∧ p.starting = []) (hidle : s.target = none)
    (hwindow : p.inStartWindow = false) (hready : ∀ c, p.delivering = some c → Ready cfg s c) :
    Inv cfg { audioStartDma cfg id { s with
      dataCount := Function.update s.dataCount id (copyCount cfg * 4) } with pc := p } where
  ids := by
    have := h.ids
    rwa [hids.1, ← hids.2] at this
  busy := by
    show s.inBusy.toList = (some id).toList ++ p.starting
    rw [h.busy, hidle, hstarting.1, hstarting.2]
    rfl
  window := fun hw => absurd (hw.symm.trans hwindow) (by simp)
  unstarted := fun hf => absurd (hf.symm.trans (h.started hne)) (by simp)
  abnormal := h.abnormal
  counted := by
    intro i hi
    obtain rfl := Option.some.inj hi
    exact Function.update_self _ _ _
  taken_le := h.taken_le
  contents := h.contents
  current := by
    rintro c i rfl
    exact absurd hids.2 (by simp)
  ready := hready

end

/-! ### The reader's steps -/

section
variable (h : Inv cfg s)
include h

/-- An empty fragment is taken, if there is one. -/
theorem takeEmpty {p : Pc} (q : Int → Pc) (hne : s.pc ≠ .idle)
    (hs : s.pc.held = [] ∧ s.pc.starting = []) (hidle : s.target = none)
    (hp : p.held = [] ∧ p.starting = [])
    (hq : ∀ id, (q id).held = [id] ∧ (q id).starting = [] ∧ ∀ c i, q id ≠ .convert c i)
    (hready : ∀ c, (p.delivering = some c ∨ ∃ id, (q id).delivering = some c) → Ready cfg s c) :
    Inv cfg { s with
      inEmpty := (getBufferId s.inEmpty).2
      pc := if (getBufferId s.inEmpty).1 ≥ 0 then q (getBufferId s.inEmpty).1 else p } := by
  cases he : s.inEmpty.toList with
  | nil =>
    rw [getBufferId_nil he, if_neg (by simp)]
    exact h.goto _ _ p hne hs hp (fun _ => hidle) (fun c hc => hready c (Or.inl hc))
  | cons id l =>
    obtain ⟨hid, hl⟩ := getBufferId_cons he
    obtain ⟨hheld, hstarting, hconvert⟩ := hq id
    rw [hid, if_pos (h.nonneg_empty (by simp [he]))]
    refine h.moved _ s.inFull s.inBusy _ _ (q id) hne (fun a => ?_) rfl ?_ (fun _ => hidle)
      hconvert (fun c hc => hready c (Or.inr ⟨id, hc⟩))
    · simp only [hl, he, hs.1, hheld, List.count_append, List.count_cons, List.count_nil]
      omega
    · rw [h.busy, hs.2, hstarting]

/-- The fragment taken goes into the busy queue. -/
theorem putBusy {p : Pc} (hne : s.pc ≠ .idle) (hs : s.pc.held = [id] ∧ s.pc.starting = [])
    (hidle : s.target = none) (hp : p.held = [] ∧ p.starting = [id])
    (hready : ∀ c, p.delivering = some c → Ready cfg s c) :
    Inv cfg { s with inBusy := putBufferId s.inBusy id, pc := p } := by
  refine h.moved s.inEmpty s.inFull _ _ _ p hne (fun a => ?_) rfl ?_ (fun _ => hidle) ?_ hready
  · simp only [toList_putBufferId, hs.1, hp.1, List.count_append, List.count_nil]
    omega
  · rw [toList_putBufferId, h.busy, hs.2, hp.2, List.append_nil]
  · rintro c i rfl
    simp at hp

theorem getFull (hpc : s.pc = .getFull c) (fault : Bool) : Inv cfg (readerStep cfg fault s) := by
  simp only [readerStep, hpc]
  cases hf : s.inFull.toList with
  | nil =>
    rw [getBufferId_nil hf, if_neg (by simp), if_neg (by simp)]
    exact h.goto _ _ (.checkFull c) (by simp [hpc]) (by simp [hpc]) (by simp) (by simp) (by simp)
  | cons id l =>
    obtain ⟨hid, hl⟩ := getBufferId_cons hf
    have hpos : id ≥ 0 := h.nonneg_full (by simp [hf])
    have hcontents := h.contents
    rw [hf, List.map_cons] at hcontents
    have hlt : s.taken < s.recorded.length := by
      by_contra hge
      rw [List.drop_eq_nil_of_le (by omega)] at hcontents
      cases hcontents
    rw [List.drop_eq_getElem_cons hlt] at hcontents
    obtain ⟨hfirst, hrest⟩ := List.cons.inj hcontents
    rw [hid, if_pos hpos, if_pos hpos]
    refine ⟨(List.perm_iff_count.mpr fun a => ?_).trans h.ids, ?_, by simp, ?_, h.abnormal,
      h.counted, hlt, ?_, ?_, by simp⟩
    · simp only [hl, hf, hpc, Pc.held, List.count_append, List.count_cons, List.count_nil]
      omega
    · simp [h.busy, hpc]
    · exact fun hf => absurd (hf.symm.trans (h.started (by simp [hpc]))) (by simp)
    · show (getBufferId s.inFull).2.toList.map s.words = _
      rw [hl]
      exact hrest
    · rintro c' id' heq
      obtain ⟨-, rfl⟩ := Pc.convert.inj heq
      exact ⟨s.taken, rfl, by rw [List.getElem?_eq_getElem hlt, hfirst]⟩

theorem convert (hpc : s.pc = .convert c id) (fault : Bool) : Inv cfg (readerStep cfg fault s) := by
  obtain ⟨n, htaken, hword⟩ := h.current c id hpc
  have hzero : (recordFiller cfg (s.words id) (copyCount cfg) 0).2 = 0 := fillLoop_abnormal _ _ _ _
  simp only [readerStep, hpc, h.abnormal]
  refine ⟨?_, ?_, by simp, ?_, hzero, h.counted, h.taken_le, h.contents, by simp, ?_⟩
  · simpa [hpc] using h.ids
  · simp [h.busy, hpc]
  · exact fun hf => absurd (hf.symm.trans (h.started (by simp [hpc]))) (by simp)
  · intro c' hc
    obtain rfl := Option.some.inj hc
    exact ⟨n, s.words id, htaken, hword, rfl, rfl⟩

theorem putEmpty (hpc : s.pc = .putEmpty c id) (fault : Bool) :
    Inv cfg (readerStep cfg fault s) := by
  simp only [readerStep, hpc]
  refine h.moved _ s.inFull s.inBusy _ _ (.checkBusy c) (by simp [hpc]) (fun a => ?_) rfl ?_
    (by simp) (by simp) (fun c' hc => h.ready c' (by rw [hpc]; exact hc))
  · simp only [toList_putBufferId, hpc, Pc.held, List.count_append, List.count_nil]
    omega
  · simp [h.busy, hpc]

theorem copyOut (hpc : s.pc = .copyOut c) (fault : Bool) : Inv cfg (readerStep cfg fault s) := by
  simp only [readerStep, hpc]
  split
  · exact h.goto _ _ .idle (by simp [hpc]) (by simp [hpc]) (by simp) (by simp) (by simp)
  · exact h.goto _ _ (.loop _) (by simp [hpc]) (by simp [hpc]) (by simp) (by simp) (by simp)

theorem reader (fault : Bool) : Inv cfg (readerStep cfg fault s) := by
  cases hpc : s.pc with
  | firstGet c =>
    simp only [readerStep, hpc]
    exact h.takeEmpty (.firstPut c) (by simp [hpc]) (by simp [hpc]) (h.window (by simp [hpc]))
      (by simp) (by simp) (by simp)
  | firstPut c id =>
    simp only [readerStep, hpc]
    exact h.putBusy (by simp [hpc]) (by simp [hpc]) (h.window (by simp [hpc])) (by simp) (by simp)
  | getFull c => exact h.getFull hpc fault
  | convert c id => exact h.convert hpc fault
  | putEmpty c id => exact h.putEmpty hpc fault
  | getEmpty c =>
    simp only [readerStep, hpc]
    exact h.takeEmpty (.putBusy c) (by simp [hpc]) (by simp [hpc]) (h.window (by simp [hpc]))
      (by simp) (by simp) (fun c' hc => h.ready c' (by simpa [hpc] using hc))
  | putBusy c id =>
    simp only [readerStep, hpc]
    exact h.putBusy (by simp [hpc]) (by simp [hpc]) (h.window (by simp [hpc])) (by simp)
      (fun c' hc => h.ready c' (by rw [hpc]; exact hc))
  | copyOut c => exact h.copyOut hpc fault
  | idle | firstSleeping c | sleeping c => simpa only [readerStep, hpc] using h
  | firstStart c id =>
    simp only [readerStep, hpc]
    exact h.startDma (by simp [hpc]) (by simp [hpc]) (by simp [hpc]) (h.window (by simp [hpc]))
      (by simp) (by simp)
  | start c id =>
    simp only [readerStep, hpc]
    exact h.startDma (by simp [hpc]) (by simp [hpc]) (by simp [hpc]) (h.window (by simp [hpc]))
      (by simp) (fun c' hc => h.ready c' (by rw [hpc]; exact hc))
  | firstSleepOn c | sleepOn c =>
    simp only [readerStep, hpc]
    exact h.goto _ _ _ (by simp [hpc]) (by simp [hpc]) (by simp) (by simp) (by simp)
  | loop c =>
    simp only [readerStep, hpc]
    refine h.goto _ _ _ (by simp [hpc]) (by simp [hpc]) ?_ ?_ ?_ <;> split <;> simp
  | checkFull c =>
    simp only [readerStep, hpc]
    split
    · split <;>
        exact h.goto _ _ _ (by simp [hpc]) (by simp [hpc]) (by simp) (by simp) (by simp)
    · exact h.goto _ _ _ (by simp [hpc]) (by simp [hpc]) (by simp) (by simp) (by simp)
  | checkBusy c =>
    have hready : ∀ c', some c = some c' → Ready cfg s c' :=
      fun c' hc => h.ready c' (by rw [hpc]; exact hc)
    have hbusy := h.busy
    simp only [readerStep, hpc, elementsInQueue, s.inBusy.count_eq_zero]
    split
    · rename_i hnil
      refine h.goto _ _ (.getEmpty c) (by simp [hpc]) (by simp [hpc]) (by simp) (fun _ => ?_)
        hready
      rw [hnil, hpc] at hbusy
      simpa using hbusy
    · exact h.goto _ _ (.copyOut c) (by simp [hpc]) (by simp [hpc]) (by simp) (by simp) hready

end

end Inv

/-! ### The interrupt -/

/-- What the interrupt at the end of the transfer of `id` leaves: the fragment is full, and
the next empty one, if any, is busy and started. -/
structure Finished (s t : State) (id : Int) (w : Nat → BitVec 32) : Prop where
  inFull : t.inFull.toList = s.inFull.toList ++ [id]
  inEmpty : t.inEmpty.toList = s.inEmpty.toList.tail
  inBusy : t.inBusy.toList = s.inEmpty.toList.head?.toList
  target : t.target = s.inEmpty.toList.head?
  words : t.words = Function.update s.words id (filledWords id w s)
  recorded : t.recorded = s.recorded ++ [filledWords id w s]
  dataCount : ∀ i, t.target = some i → t.dataCount i = s.dataCount id
  pc : t.pc = s.pc.woken
  same : t.taken = s.taken ∧ t.tmp2 = s.tmp2 ∧ t.returned = s.returned ∧
    t.abnormalDataCount = s.abnormalDataCount ∧ t.firstRecordCall = s.firstRecordCall

theorem finished_irq (h : Inv cfg s) (hb : s.inBusy.toList = [id]) (w : Nat → BitVec 32) :
    Finished s (jzI2sRecordDmaIrq cfg (transferDone id w s)) id w := by
  obtain ⟨hid, hrest⟩ := getBufferId_cons hb
  unfold jzI2sRecordDmaIrq startNext
  cases he : s.inEmpty.toList with
  | nil =>
    have hget : getBufferId s.inEmpty = (-1, s.inEmpty) := getBufferId_nil he
    simp only [wakeUpRx, finishBusy, transferDone, hget]
    rw [if_neg (by simp)]
    constructor <;> simp [hid, he]
  | cons next l =>
    have hpos : next ≥ 0 := h.nonneg_empty (by simp [he])
    obtain ⟨hnext, hl⟩ := getBufferId_cons he
    simp only [wakeUpRx, finishBusy, transferDone, hnext]
    rw [if_pos hpos]
    constructor <;> simp [audioStartDma, hid, hrest, he, hl]

theorem Pc.woken_eq (p : Pc) :
    p.woken.held = p.held ∧ p.woken.starting = p.starting ∧
      p.woken.inStartWindow = p.inStartWindow ∧ p.woken.delivering = p.delivering := by
  cases p <;> exact ⟨rfl, rfl, rfl, rfl⟩

theorem Pc.woken_convert {p : Pc} (h : p.woken = .convert c id) : p = .convert c id := by
  cases p <;> simp_all [Pc.woken]

theorem Inv.busy_fresh (h : Inv cfg s) (hb : s.inBusy.toList = [id]) :
    id ∉ s.inFull.toList ∧ id ∉ s.pc.held := by
  have hn := h.nodup
  rw [hb] at hn
  constructor
  · intro hin
    exact List.disjoint_of_nodup_append (List.nodup_append.mp hn).1 (a := id) (by simp [hin])
      (by simp)
  · intro hin
    exact List.disjoint_of_nodup_append hn (a := id) (by simp) hin

theorem Inv.recorded_append (h : Inv cfg s) {n : Nat} (hn : s.taken = n + 1)
    (l : List (Nat → BitVec 32)) : (s.recorded ++ l)[n]? = s.recorded[n]? := by
  have hle := h.taken_le
  exact List.getElem?_append_left (by omega)

/-- An interrupt cannot come inside the reader's start window, and outside of it it adds
what was recorded at the end of the full queue. -/
theorem Inv.irq (h : Inv cfg s) (ht : s.target = some id) {t : State} {w : Nat → BitVec 32}
    (hd : Finished s t id w) : Inv cfg t := by
  obtain ⟨hb, hwindow⟩ := h.busy_of_target ht
  obtain ⟨wheld, wstarting, wwindow, wdelivering⟩ := Pc.woken_eq s.pc
  have hstarting : s.pc.starting = [] := by
    have hbusy := h.busy
    rw [hb, ht] at hbusy
    simpa using hbusy
  have hnot := h.busy_fresh hb
  obtain ⟨htaken, htmp, -, habnormal, hfirst⟩ := hd.same
  refine ⟨(List.perm_iff_count.mpr fun a => ?_).trans h.ids, ?_, ?_, ?_, ?_, ?_, ?_, ?_, ?_, ?_⟩
  · rw [hd.inEmpty, hd.inFull, hd.inBusy, hd.pc, wheld, hb]
    cases s.inEmpty.toList <;>
      simp only [List.count_append, List.count_cons, List.count_nil, List.tail_nil,
        List.tail_cons, List.head?, Option.toList] <;> omega
  · rw [hd.inBusy, hd.target, hd.pc, wstarting, hstarting, List.append_nil]
  · rw [hd.pc, wwindow, hwindow]
    simp
  · rw [hfirst]
    intro hf
    rw [(h.unstarted hf).2] at ht
    cases ht
  · rw [habnormal, h.abnormal]
  · intro i hi
    rw [hd.dataCount i hi]
    exact h.counted id ht
  · rw [htaken, hd.recorded, List.length_append]
    exact Nat.le_add_right_of_le h.taken_le
  · have hsame : s.inFull.toList.map t.words = s.inFull.toList.map s.words := by
      refine List.map_congr_left fun i hi => ?_
      have hne : i ≠ id := by
        rintro rfl
        exact hnot.1 hi
      rw [hd.words, Function.update_of_ne hne]
    rw [hd.inFull, List.map_append, hsame, h.contents, htaken, hd.recorded,
      List.drop_append_of_le_length h.taken_le]
    simp [hd.words]
  · intro c i hpc
    rw [hd.pc] at hpc
    have hs := Pc.woken_convert hpc
    obtain ⟨n, hn, hword⟩ := h.current c i hs
    have hne : i ≠ id := by
      rintro rfl
      exact hnot.2 (by simp [hs])
    refine ⟨n, htaken.trans hn, ?_⟩
    rw [hd.recorded, h.recorded_append hn, hword, hd.words, Function.update_of_ne hne]
  · intro c hc
    rw [hd.pc, wdelivering] at hc
    obtain ⟨n, v, hn, hword, htmp', hcnt⟩ := h.ready c hc
    refine ⟨n, v, htaken.trans hn, ?_, htmp.trans htmp', hcnt⟩
    rw [hd.recorded, h.recorded_append hn, hword]

/-! ### Whole runs -/

theorem inv_open (cfg : Config) (hpc : s.pc = .idle) (ht : s.target = none) :
    Inv cfg (jzAudioOpen cfg s) := by
  have hids : (jzAudioOpen cfg s).inEmpty.toList = fragmentIds cfg.fragstotal := by
    refine List.map_congr_left fun i hi => ?_
    exact if_pos (List.mem_range.mp hi)
  constructor
  · rw [hids]
    simp [jzAudioOpen, hpc]
  all_goals simp [jzAudioOpen, hpc, ht]

theorem Inv.read (h : Inv cfg s) (hpc : s.pc = .idle) (count : Nat) (nonblock : Bool) :
    Inv cfg (jzAudioRead count nonblock s) := by
  unfold jzAudioRead
  dsimp only
  split
  · rename_i hfirst
    have hidle := (h.unstarted hfirst).2
    refine ⟨?_, ?_, fun _ => hidle, by simp, h.abnormal, h.counted, h.taken_le, h.contents,
      by simp, by simp⟩
    · simpa [hpc] using h.ids
    · simp [h.busy, hpc]
  · refine ⟨?_, ?_, by simp, by simp, h.abnormal, h.counted, h.taken_le, h.contents, by simp,
      by simp⟩
    · simpa [hpc] using h.ids
    · simp [h.busy, hpc]

/-- What one action does: nothing, the start of a call, a step of the call that runs, or the
end of the transfer in flight. -/
theorem step_rule {P : State → Prop} {mic : Nat → Nat → BitVec 32} {a : Act} (h : Inv cfg s)
    (hs : P s)
    (hread : ∀ count nonblock, a = .read count nonblock → s.pc = .idle →
      P (jzAudioRead count nonblock s))
    (hreader : ∀ fault, a = .reader fault → P (readerStep cfg fault s))
    (hirq : ∀ id t, s.target = some id → Finished s t id (mic s.recorded.length) → P t) :
    P (step cfg mic s a) := by
  cases a with
  | read count nonblock =>
    simp only [step]
    split
    · rename_i hpc
      exact hread count nonblock rfl hpc
    · exact hs
  | reader fault => exact hreader fault rfl
  | irq =>
    simp only [step]
    split
    · rename_i id ht
      exact hirq id _ ht (finished_irq h (h.busy_of_target ht).1 _)
    · exact hs

theorem inv_step (mic : Nat → Nat → BitVec 32) (h : Inv cfg s) (a : Act) :
    Inv cfg (step cfg mic s a) :=
  step_rule h h (fun count nonblock _ hpc => h.read hpc count nonblock)
    (fun fault _ => h.reader fault) (fun _ _ ht hd => h.irq ht hd)

theorem inv_run (mic : Nat → Nat → BitVec 32) (acts : List Act) (h : Inv cfg s) :
    Inv cfg (run cfg mic s acts) :=
  List.foldlRecOn acts _ h fun _ hs a _ => inv_step mic hs a

end Dingoo.JzI2sRecord
