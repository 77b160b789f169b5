/-
The playback queues under every interleaving of the writer and the DMA interrupt.

One invariant is carried along a run.

  * The three queues and what the writer holds are the fragments, each once.
  * The fragments filled are those started, in order, followed by those that wait:
    one the writer has taken to start, the full queue, one filled and not yet put.
  * The busy queue is the fragment of the last start while that transfer is in
    flight, and the one the writer is about to start.
  * The writer takes a fragment to start only while nothing is in flight, and then
    no interrupt can come until it has started it.  Outside of that, and once the
    busy check behind a put is done, a full queue is never left without a transfer.

The last point is what makes the queues work without a common lock: the writer puts
into the full queue before it looks at the busy queue, so whichever of the two
comes last, the writer's check or the interrupt, sees the other's fragment.
-/
import Dingoo.Linux.JzI2s
import Mathlib.Data.List.Perm.Basic
import Mathlib.Data.List.Nodup

namespace Dingoo.JzI2s

variable {cfg : Config} {s : State} {id : Int} {c : Call} {l : List Int} {p : Pc}

/-! ### Queues as lists -/

@[simp] theorem toList_putBufferId (q : Queue) (id : Int) :
    (putBufferId q id).toList = q.toList ++ [id] := q.toList_push id

theorem getBufferId_nil {q : Queue} (h : q.toList = []) : getBufferId q = (-1, q) :=
  if_pos (q.count_eq_zero.mpr h)

theorem getBufferId_cons {q : Queue} (h : q.toList = id :: l) :
    (getBufferId q).1 = id ∧ (getBufferId q).2.toList = l := by
  have hc : q.count ≠ 0 := by
    rw [Ne, q.count_eq_zero, h]
    exact List.cons_ne_nil id l
  unfold getBufferId
  rw [if_neg hc]
  have hd := Lib.ArrayQueue.toList_dropFirst hc
  rw [h, List.cons.injEq] at hd
  exact ⟨hd.1.symm, hd.2.symm⟩

/-- The ids of `n` fragments. -/
def fragmentIds (n : Nat) : List Int := (List.range n).map Int.ofNat

theorem nodup_fragmentIds (n : Nat) : (fragmentIds n).Nodup :=
  List.nodup_range.map fun _ _ => Int.ofNat.inj

theorem nonneg_of_mem_fragmentIds {n : Nat} (h : id ∈ fragmentIds n) : 0 ≤ id := by
  obtain ⟨i, _, rfl⟩ := List.mem_map.mp h
  exact Int.natCast_nonneg i

/-! ### What the writer's position says -/

/-- The id the writer has got from a queue and not yet put into another. -/
@[simp] def Pc.held : Pc → List Int
  | .fill _ id | .put _ id | .putBusy _ id => [id]
  | _ => []

/-- The fragment the writer has taken from the full queue and not yet started. -/
@[simp] def Pc.taken : Pc → List Int
  | .putBusy _ id | .start _ id => [id]
  | _ => []

/-- The fragment in the busy queue that the writer is about to start. -/
@[simp] def Pc.starting : Pc → List Int
  | .start _ id => [id]
  | _ => []

/-- Everywhere the writer neither holds a fragment nor owes one its start. -/
@[simp] def Pc.plain : Pc → Bool
  | .fill _ _ | .put _ _ | .putBusy _ _ | .start _ _ => false
  | _ => true

theorem Pc.plain_eq (h : p.plain = true) : p.held = [] ∧ p.taken = [] ∧ p.starting = [] := by
  cases p with
  | fill c id => exact absurd h (by simp)
  | put c id => exact absurd h (by simp)
  | putBusy c id => exact absurd h (by simp)
  | start c id => exact absurd h (by simp)
  | _ => exact ⟨rfl, rfl, rfl⟩

/-- From the get of a full fragment to its start. -/
@[simp] def Pc.inStartWindow : Pc → Bool
  | .getFull _ | .putBusy _ _ | .start _ _ => true
  | _ => false

/-- Everywhere but between a put into the full queue and the start the writer may owe it. -/
@[simp] def Pc.owesNoStart : Pc → Bool
  | .advance _ | .checkBusy _ | .getFull _ | .putBusy _ _ | .start _ _ => false
  | _ => true

/-- Outside the loop body: between two iterations or two calls. -/
def Pc.betweenIterations : Pc → Bool
  | .idle | .loop _ => true
  | _ => false

/-- The fragment that is filled and not yet in the full queue. -/
def State.justFilled (s : State) : List Int :=
  match s.pc with
  | .put _ id => if s.dataCount id > 0 then [id] else []
  | _ => []

/-- The fragments filled and not yet started, in the order they will be. -/
def State.waiting (s : State) : List Int := s.pc.taken ++ s.outFull.toList ++ s.justFilled

theorem waiting_plain (h : s.pc.plain = true) : s.waiting = s.outFull.toList := by
  have hjust : s.justFilled = [] := by
    unfold State.justFilled
    split
    · rename_i hpc
      simp [hpc] at h
    · rfl
  rw [State.waiting, (Pc.plain_eq h).2.1, hjust]
  simp

/-- The fragment of the last start, while it is in flight. -/
def State.playing (s : State) : List Int :=
  if s.inFlight then s.dmaStarts.getLast?.toList.map Prod.fst else []

/-! ### The invariant -/

/-- What every interleaving keeps. -/
structure Inv (cfg : Config) (s : State) : Prop where
  ids : (s.outEmpty.toList ++ s.outFull.toList ++ s.outBusy.toList ++ s.pc.held).Perm
    (fragmentIds cfg.fragstotal)
  order : s.filled = s.dmaStarts ++ s.waiting.map fun id => (id, s.dataCount id)
  counted : ∀ id ∈ s.waiting, 0 < s.dataCount id
  noPop : s.popDmaFlag = false
  busy : s.outBusy.toList = s.playing ++ s.pc.starting
  begun : s.inFlight = true → s.dmaStarts ≠ []
  window : s.pc.inStartWindow = true → s.inFlight = false
  noStall : s.pc.owesNoStart = true → s.outFull.toList ≠ [] → s.inFlight = true

namespace Inv

section
variable (h : Inv cfg s)
include h

theorem nodup : (s.outEmpty.toList ++ s.outFull.toList ++ s.outBusy.toList ++ s.pc.held).Nodup :=
  h.ids.nodup_iff.mpr (nodup_fragmentIds _)

theorem nonneg_empty (hid : id ∈ s.outEmpty.toList) : 0 ≤ id :=
  nonneg_of_mem_fragmentIds (h.ids.subset (by simp [hid]))

theorem nonneg_full (hid : id ∈ s.outFull.toList) : 0 ≤ id :=
  nonneg_of_mem_fragmentIds (h.ids.subset (by simp [hid]))

/-- In flight is one fragment, the last one started, and it is what the busy queue holds. -/
theorem inFlight_last (hf : s.inFlight = true) :
    ∃ id n, s.outBusy.toList = [id] ∧ s.dmaStarts.getLast? = some (id, n) := by
  have hpc : s.pc.starting = [] := by
    cases hp : s.pc with
    | start c id => simp [h.window (by rw [hp]; rfl)] at hf
    | _ => rfl
  obtain ⟨⟨id, n⟩, he⟩ := Option.isSome_iff_exists.mp (List.getLast?_isSome.mpr (h.begun hf))
  refine ⟨id, n, ?_, he⟩
  rw [h.busy, hpc, State.playing, if_pos hf, he]
  rfl

theorem busy_of_inFlight (hf : s.inFlight = true) : ∃ id, s.outBusy.toList = [id] := by
  obtain ⟨id, _, hid, _⟩ := h.inFlight_last hf
  exact ⟨id, hid⟩

theorem busy_le_one : s.outBusy.toList.length ≤ 1 := by
  by_cases hf : s.inFlight = true
  · obtain ⟨id, hid⟩ := h.busy_of_inFlight hf
    simp [hid]
  · rw [h.busy, State.playing, if_neg hf]
    cases s.pc <;> simp

theorem inFlight_iff_busy (hs : s.pc.starting = []) :
    s.inFlight = true ↔ s.outBusy.toList ≠ [] := by
  constructor
  · intro hf
    obtain ⟨id, hid⟩ := h.busy_of_inFlight hf
    simp [hid]
  · intro hne
    by_contra hf
    rw [h.busy, hs, State.playing, if_neg hf] at hne
    exact hne rfl

/-- A step of the writer that starts and fills nothing: it deals the ids out anew and leaves
the order of what waits. -/
theorem moved (e f b : Queue) (n : Nat) (last : Int) (p : Pc)
    (hids : ∀ id, (e.toList ++ f.toList ++ b.toList ++ p.held).count id =
      (s.outEmpty.toList ++ s.outFull.toList ++ s.outBusy.toList ++ s.pc.held).count id)
    (hwait : State.waiting { s with
      outEmpty := e, outFull := f, outBusy := b, nextOut := n, lastDmaBufferId := last, pc := p } =
        s.waiting)
    (hbusy : b.toList = s.playing ++ p.starting)
    (hwindow : p.inStartWindow = true → s.inFlight = false)
    (hstall : p.owesNoStart = true → f.toList ≠ [] → s.inFlight = true) :
    Inv cfg { s with
      outEmpty := e, outFull := f, outBusy := b
      nextOut := n, lastDmaBufferId := last, pc := p } where
  ids := (List.perm_iff_count.mpr hids).trans h.ids
  order := by rw [hwait]; exact h.order
  counted := by rw [hwait]; exact h.counted
  noPop := h.noPop
  busy := hbusy
  begun := h.begun
  window := hwindow
  noStall := hstall

theorem goto (n : Nat) (last : Int) (p : Pc) (hs : s.pc.plain = true) (hp : p.plain = true)
    (hwindow : p.inStartWindow = true → s.inFlight = false)
    (hstall : p.owesNoStart = true → s.outFull.toList ≠ [] → s.inFlight = true) :
    Inv cfg { s with nextOut := n, lastDmaBufferId := last, pc := p } := by
  obtain ⟨sheld, -, sstarting⟩ := Pc.plain_eq hs
  obtain ⟨pheld, -, pstarting⟩ := Pc.plain_eq hp
  refine h.moved s.outEmpty s.outFull s.outBusy n last p ?_ ?_ ?_ hwindow hstall
  · intro id; rw [sheld, pheld]
  · rw [waiting_plain hs, waiting_plain hp]
  · rw [h.busy, sstarting, pstarting]

end

/-! ### The writer's steps that move a fragment -/

section
variable (h : Inv cfg s)
include h

theorem getEmpty (hpc : s.pc = .getEmpty c) : Inv cfg (writerStep cfg s) := by
  have hstall := h.noStall (by simp [hpc])
  simp only [writerStep, hpc]
  cases he : s.outEmpty.toList with
  | nil =>
    rw [getBufferId_nil he, if_neg (by simp)]
    exact h.goto _ _ (.checkEmpty c) (by simp [hpc]) (by simp)
      (by simp) (fun _ => hstall)
  | cons id l =>
    obtain ⟨hid, hl⟩ := getBufferId_cons he
    rw [hid, if_pos (h.nonneg_empty (by simp [he]))]
    refine h.moved _ s.outFull s.outBusy _ _ (.fill c id) (fun a => ?_) ?_ ?_ (by simp)
      (fun _ => hstall)
    · simp only [hl, he, hpc, Pc.held, List.count_append, List.count_cons, List.count_nil]
      omega
    · simp [State.waiting, State.justFilled, hpc]
    · simp [h.busy, hpc]

theorem fill (hpc : s.pc = .fill c id) : Inv cfg (writerStep cfg s) := by
  have hwait : s.waiting = s.outFull.toList := by simp [State.waiting, State.justFilled, hpc]
  -- the fragment being filled is nowhere else, so no count of a waiting one changes
  have hnot : id ∉ s.outFull.toList := by
    have hn := h.nodup
    rw [hpc] at hn
    intro hin
    exact List.disjoint_of_nodup_append hn (by simp [hin]) (List.mem_singleton.mpr rfl)
  have hsame : ∀ i ∈ s.outFull.toList,
      Function.update s.dataCount id (replayFiller cfg c.copyCount) i = s.dataCount i := by
    intro i hi
    refine Function.update_of_ne ?_ _ _
    rintro rfl
    exact hnot hi
  simp only [writerStep, hpc]
  refine ⟨?_, ?_, ?_, h.noPop, ?_, h.begun, by simp, fun _ => h.noStall (by simp [hpc])⟩
  · simpa [hpc] using h.ids
  · have hmap : (s.outFull.toList.map fun i =>
        (i, Function.update s.dataCount id (replayFiller cfg c.copyCount) i)) =
        s.outFull.toList.map fun i => (i, s.dataCount i) :=
      List.map_congr_left fun i hi => by rw [hsame i hi]
    have ho := h.order
    rw [hwait] at ho
    simp only [State.waiting, State.justFilled, Pc.taken, Function.update_self, List.nil_append,
      List.map_append, hmap, ho]
    split <;> simp
  · intro i hi
    simp only [State.waiting, State.justFilled, Pc.taken, Function.update_self, List.nil_append,
      List.mem_append] at hi
    show 0 < Function.update s.dataCount id (replayFiller cfg c.copyCount) i
    rcases hi with hi | hi
    · rw [hsame i hi]
      exact h.counted i (hwait ▸ hi)
    · split at hi
      · rename_i hpos
        rw [List.mem_singleton.mp hi, Function.update_self]
        exact hpos
      · exact absurd hi List.not_mem_nil
  · have hb := h.busy
    rw [hpc] at hb
    exact hb

theorem put (hpc : s.pc = .put c id) : Inv cfg (writerStep cfg s) := by
  simp only [writerStep, hpc]
  split
  · rename_i hpos
    refine h.moved s.outEmpty _ s.outBusy _ _ (.advance c) (fun a => ?_) ?_ ?_ (by simp) (by simp)
    · simp only [toList_putBufferId, hpc, Pc.held, List.count_append, List.count_nil]
      omega
    · simp [State.waiting, State.justFilled, hpc, hpos]
    · simp [h.busy, hpc]
  · rename_i hzero
    refine h.moved _ s.outFull s.outBusy _ _ (.advance c) (fun a => ?_) ?_ ?_ (by simp) (by simp)
    · simp only [toList_putBufferId, hpc, Pc.held, List.count_append, List.count_nil]
      omega
    · simp [State.waiting, State.justFilled, hpc, hzero]
    · simp [h.busy, hpc]

theorem getFull (hpc : s.pc = .getFull c) : Inv cfg (writerStep cfg s) := by
  have hidle := h.window (by simp [hpc])
  simp only [writerStep, hpc]
  cases hf : s.outFull.toList with
  | nil =>
    rw [getBufferId_nil hf, if_neg (by simp)]
    exact h.goto _ _ (.loop c) (by simp [hpc]) (by simp)
      (by simp) (fun _ hne => absurd hf hne)
  | cons id l =>
    obtain ⟨hid, hl⟩ := getBufferId_cons hf
    rw [hid, if_pos (h.nonneg_full (by simp [hf]))]
    refine h.moved s.outEmpty _ s.outBusy _ _ (.putBusy c id) (fun a => ?_) ?_ ?_
      (fun _ => hidle) (by simp)
    · simp only [hl, hf, hpc, Pc.held, List.count_append, List.count_cons, List.count_nil]
      omega
    · simp [State.waiting, State.justFilled, hpc, hl, hf]
    · simp [h.busy, hpc]

theorem putBusy (hpc : s.pc = .putBusy c id) : Inv cfg (writerStep cfg s) := by
  have hidle := h.window (by simp [hpc])
  have hpos : s.dataCount id > 0 := h.counted id (by simp [State.waiting, hpc])
  simp only [writerStep, hpc, if_pos hpos]
  refine h.moved s.outEmpty s.outFull _ _ _ (.start c id) (fun a => ?_) ?_ ?_
    (fun _ => hidle) (by simp)
  · simp only [toList_putBufferId, hpc, Pc.held, List.count_append, List.count_nil]
    omega
  · simp [State.waiting, State.justFilled, hpc]
  · simp [h.busy, hpc]

theorem start (hpc : s.pc = .start c id) : Inv cfg (writerStep cfg s) := by
  have hidle := h.window (by simp [hpc])
  simp only [writerStep, hpc, audioStartDma]
  refine ⟨?_, ?_, ?_, h.noPop, ?_, by simp, by simp, by simp⟩
  · simpa [hpc] using h.ids
  · simpa [State.waiting, State.justFilled, hpc] using h.order
  · intro i hi
    exact h.counted i (by
      simp only [State.waiting, State.justFilled, hpc, Pc.taken] at hi ⊢
      exact List.mem_cons_of_mem id hi)
  · have hb := h.busy
    rw [hpc] at hb
    simpa [State.playing, hidle] using hb

theorem writer : Inv cfg (writerStep cfg s) := by
  cases hpc : s.pc with
  | getEmpty c => exact h.getEmpty hpc
  | fill c id => exact h.fill hpc
  | put c id => exact h.put hpc
  | getFull c => exact h.getFull hpc
  | putBusy c id => exact h.putBusy hpc
  | start c id => exact h.start hpc
  | idle => simpa only [writerStep, hpc] using h
  | sleeping c => simpa only [writerStep, hpc] using h
  | checkBusy c =>
    have hiff := h.inFlight_iff_busy (by simp [hpc])
    simp only [writerStep, hpc, elementsInQueue, s.outBusy.count_eq_zero]
    have hs : s.pc.plain = true := by simp [hpc]
    split
    · rename_i hnil
      refine h.goto _ _ (.getFull c) hs (by simp) (fun _ => ?_) (by simp)
      exact Bool.eq_false_iff.mpr fun hf => hiff.mp hf hnil
    · rename_i hne
      exact h.goto _ _ (.loop c) hs (by simp) (by simp) (fun _ _ => hiff.mpr hne)
  | advance c =>
    simp only [writerStep, hpc]
    exact h.goto _ _ _ (by simp [hpc]) (by simp) (by simp)
      (by simp)
  | loop c =>
    have hs : s.pc.plain = true := by simp [hpc]
    simp only [writerStep, hpc]
    refine h.goto _ _ _ hs ?_ ?_ fun _ => h.noStall (by simp [hpc]) <;> split <;> simp
  | checkEmpty c =>
    have hs : s.pc.plain = true := by simp [hpc]
    simp only [writerStep, hpc]
    split
    · refine h.goto _ _ _ hs ?_ ?_ fun _ => h.noStall (by simp [hpc]) <;> split <;> simp
    · exact h.goto _ _ _ hs (by simp) (by simp) fun _ => h.noStall (by simp [hpc])
  | sleepOn c =>
    simp only [writerStep, hpc]
    exact h.goto _ _ _ (by simp [hpc]) (by simp) (by simp)
      fun _ => h.noStall (by simp [hpc])
  | started c id =>
    simp only [writerStep, hpc]
    exact h.goto _ _ _ (by simp [hpc]) (by simp) (by simp)
      fun _ => h.noStall (by simp [hpc])

end

end Inv

/-! ### The interrupt -/

theorem outEmpty_startNext (cfg : Config) (s : State) :
    (startNext cfg s).outEmpty = s.outEmpty := by
  unfold startNext audioStartDma
  dsimp only
  split
  · split <;> rfl
  · rfl

/-- The interrupt has just put a fragment into the empty queue, so it always wakes. -/
theorem irq_eq (cfg : Config) (hpop : s.popDmaFlag = false) :
    jzI2sReplayDmaIrq cfg s =
      wakeUpTx (startNext cfg (finishBusy (accountTransfer { s with inFlight := false }))) := by
  have hwake : elementsInQueue (startNext cfg (finishBusy (accountTransfer
      { s with inFlight := false }))).outEmpty > 0 := by
    rw [outEmpty_startNext]
    exact Nat.succ_pos _
  unfold jzI2sReplayDmaIrq
  simp only [hpop, Bool.false_eq_true, if_false] at hwake ⊢
  exact if_pos hwake

theorem startNext_nil (cfg : Config) (hq : s.outFull.toList = []) :
    startNext cfg s = { s with outBusy := s.outBusy.clear } := by
  unfold startNext
  rw [getBufferId_nil hq]
  exact if_neg (by simp)

theorem startNext_cons (cfg : Config) (hq : s.outFull.toList = id :: l) (hid : 0 ≤ id)
    (hpos : 0 < s.dataCount id) :
    startNext cfg s = { audioStartDma cfg id { s with
      outFull := (getBufferId s.outFull).2
      outBusy := putBufferId s.outBusy id } with lastDmaBufferId := id } := by
  unfold startNext
  rw [(getBufferId_cons hq).1, if_pos hid]
  exact if_pos hpos

/-- What the interrupt at the end of the transfer of `id` leaves: the fragment is empty, and
the next full one, if any, is busy and started. -/
structure Finished (s t : State) (id : Int) : Prop where
  outEmpty : t.outEmpty.toList = s.outEmpty.toList ++ [id]
  outFull : t.outFull.toList = s.outFull.toList.tail
  outBusy : t.outBusy.toList = s.outFull.toList.head?.toList
  inFlight : t.inFlight = s.outFull.toList.head?.isSome
  dmaStarts : t.dmaStarts =
    s.dmaStarts ++ s.outFull.toList.head?.toList.map fun i => (i, s.dataCount i)
  filled : t.filled = s.filled
  dataCount : t.dataCount = s.dataCount
  noPop : t.popDmaFlag = false
  pc : t.pc = s.pc.woken

theorem finished_irq (h : Inv cfg s) (hb : s.outBusy.toList = [id]) :
    Finished s (jzI2sReplayDmaIrq cfg s) id := by
  obtain ⟨hid, hrest⟩ := getBufferId_cons hb
  rw [irq_eq cfg h.noPop]
  cases hq : s.outFull.toList with
  | nil =>
    have hq' : (finishBusy (accountTransfer { s with inFlight := false })).outFull.toList = [] :=
      hq
    rw [startNext_nil cfg hq']
    constructor <;> simp [wakeUpTx, finishBusy, accountTransfer, hid, hq, h.noPop]
  | cons next l =>
    have hmem : next ∈ s.outFull.toList := by simp [hq]
    have hq' : (finishBusy (accountTransfer { s with inFlight := false })).outFull.toList =
        next :: l := hq
    rw [startNext_cons cfg hq' (h.nonneg_full hmem)
      (h.counted next (by simp [State.waiting, hq]))]
    have hl := (getBufferId_cons hq).2
    constructor <;>
      simp [wakeUpTx, finishBusy, accountTransfer, audioStartDma, hid, hrest, hl, hq, h.noPop]

theorem Pc.woken_eq (p : Pc) :
    p.woken.held = p.held ∧ p.woken.taken = p.taken ∧ p.woken.starting = p.starting ∧
      p.woken.inStartWindow = p.inStartWindow := by
  cases p <;> exact ⟨rfl, rfl, rfl, rfl⟩

theorem justFilled_woken {t : State} (hpc : t.pc = s.pc.woken) (hd : t.dataCount = s.dataCount) :
    t.justFilled = s.justFilled := by
  unfold State.justFilled
  rw [hpc, hd]
  cases s.pc <;> rfl

theorem Pc.outside_window (h : p.inStartWindow = false) : p.taken = [] ∧ p.starting = [] := by
  cases p with
  | putBusy c id => exact absurd h (by simp)
  | start c id => exact absurd h (by simp)
  | _ => exact ⟨rfl, rfl⟩

/-- An interrupt cannot come inside the writer's start window, and outside of it it passes
the head of the full queue on to the busy queue and the channel. -/
theorem Inv.irq (h : Inv cfg s) (hf : s.inFlight = true) :
    Inv cfg (jzI2sReplayDmaIrq cfg s) := by
  obtain ⟨id, hb⟩ := h.busy_of_inFlight hf
  have hd := finished_irq h hb
  have hout : s.pc.inStartWindow = false :=
    Bool.eq_false_iff.mpr fun hw => by simp [h.window hw] at hf
  obtain ⟨htaken, hstarting⟩ := Pc.outside_window hout
  obtain ⟨wheld, wtaken, wstarting, wwindow⟩ := Pc.woken_eq s.pc
  generalize jzI2sReplayDmaIrq cfg s = t at hd ⊢
  refine ⟨(List.perm_iff_count.mpr fun a => ?_).trans h.ids, ?_, ?_, hd.noPop, ?_, ?_, ?_, ?_⟩
  · rw [hd.outEmpty, hd.outFull, hd.outBusy, hd.pc, wheld, hb]
    cases s.outFull.toList <;>
      simp only [List.count_append, List.count_cons, List.count_nil, List.tail_nil,
        List.tail_cons, List.head?, Option.toList] <;> omega
  · rw [hd.filled, hd.dmaStarts, hd.dataCount, h.order]
    simp only [State.waiting, hd.outFull, hd.pc, wtaken, htaken,
      justFilled_woken hd.pc hd.dataCount]
    cases s.outFull.toList <;> simp
  · intro i hi
    rw [hd.dataCount]
    refine h.counted i ?_
    simp only [State.waiting, hd.outFull, hd.pc, wtaken, htaken,
      justFilled_woken hd.pc hd.dataCount, List.nil_append, List.mem_append] at hi ⊢
    exact hi.imp_left List.mem_of_mem_tail
  · rw [hd.outBusy, hd.pc, wstarting, hstarting, State.playing, hd.inFlight, hd.dmaStarts]
    cases s.outFull.toList <;> simp
  · rw [hd.inFlight, hd.dmaStarts]
    cases s.outFull.toList <;> simp
  · rw [hd.pc, wwindow, hout]
    simp
  · rw [hd.outFull, hd.inFlight]
    cases s.outFull.toList <;> simp

/-! ### Whole runs -/

theorem toList_outEmpty_open (cfg : Config) (s : State) :
    (jzAudioOpen cfg s).outEmpty.toList = fragmentIds cfg.fragstotal := by
  refine List.map_congr_left fun i hi => ?_
  exact if_pos (List.mem_range.mp hi)

theorem inv_open (cfg : Config) (hpc : s.pc = .idle) (hf : s.inFlight = false) :
    Inv cfg (jzAudioOpen cfg s) := by
  constructor
  · rw [toList_outEmpty_open]
    simp [jzAudioOpen, hpc]
  all_goals simp [jzAudioOpen, State.waiting, State.justFilled, State.playing, hpc, hf]

theorem jzAudioWrite_eq (cfg : Config) (hpc : s.pc = .idle) (count : Nat)
    (nonblock fault : Bool) :
    ∃ n pc, jzAudioWrite cfg count nonblock fault s = { s with nextOut := n, pc := pc } ∧
      (pc = .idle ∨ ∃ c, pc = .loop c) := by
  unfold jzAudioWrite
  split
  · exact ⟨s.nextOut, s.pc, rfl, Or.inl hpc⟩
  · split
    · exact ⟨0, s.pc, rfl, Or.inl hpc⟩
    · exact ⟨0, _, rfl, Or.inr ⟨_, rfl⟩⟩

theorem Inv.enter (h : Inv cfg s) (hpc : s.pc = .idle) (n : Nat) {pc : Pc}
    (hnext : pc = .idle ∨ ∃ c, pc = .loop c) : Inv cfg { s with nextOut := n, pc := pc } := by
  have hplain : pc.plain = true ∧ pc.inStartWindow = false := by
    rcases hnext with rfl | ⟨c, rfl⟩ <;> exact ⟨rfl, rfl⟩
  refine h.goto n _ pc (by simp [hpc]) hplain.1 (fun hwindow => ?_)
    fun _ => h.noStall (by simp [hpc])
  rw [hplain.2] at hwindow
  cases hwindow

theorem Inv.write (h : Inv cfg s) (hpc : s.pc = .idle) (count : Nat) (nonblock fault : Bool) :
    Inv cfg (jzAudioWrite cfg count nonblock fault s) := by
  obtain ⟨n, pc, heq, hnext⟩ := jzAudioWrite_eq cfg hpc count nonblock fault
  rw [heq]
  exact h.enter hpc n hnext

theorem inv_step (h : Inv cfg s) (a : Act) : Inv cfg (step cfg s a) := by
  cases a with
  | write count nonblock fault =>
    simp only [step]
    split
    · rename_i hpc
      exact h.write hpc count nonblock fault
    · exact h
  | writer => exact h.writer
  | irq =>
    simp only [step]
    split
    · rename_i hf
      exact h.irq hf
    · exact h

theorem inv_run (acts : List Act) (h : Inv cfg s) : Inv cfg (run cfg s acts) :=
  List.foldlRecOn acts _ h fun _ hs a _ => inv_step hs a

theorem Pc.between_eq (h : p.betweenIterations = true) :
    p.woken = p ∧ p.plain = true ∧ p.owesNoStart = true := by
  cases p with
  | idle => exact ⟨rfl, rfl, rfl⟩
  | loop c => exact ⟨rfl, rfl, rfl⟩
  | _ => exact absurd h (by simp [Pc.betweenIterations])

theorem dmaStarts_drained :
    ∀ (n : Nat) {s : State}, Inv cfg s → s.pc.betweenIterations = true →
      s.outFull.toList.length = n →
      (run cfg s (List.replicate n .irq)).dmaStarts = s.filled := by
  intro n
  induction n with
  | zero =>
    intro s h hpc hlen
    have hnil := List.length_eq_zero_iff.mp hlen
    have ho := h.order
    rw [waiting_plain (Pc.between_eq hpc).2.1, hnil] at ho
    simpa [run] using ho.symm
  | succ n ih =>
    intro s h hpc hlen
    obtain ⟨hwoken, _, howes⟩ := Pc.between_eq hpc
    have hne : s.outFull.toList ≠ [] := by
      intro hnil
      simp [hnil] at hlen
    have hf := h.noStall howes hne
    obtain ⟨id, hb⟩ := h.busy_of_inFlight hf
    have hd := finished_irq h hb
    have hstep : step cfg s .irq = jzI2sReplayDmaIrq cfg s := if_pos hf
    rw [List.replicate_succ, run, List.foldl_cons, hstep, ← hd.filled]
    refine ih (h.irq hf) ?_ ?_
    · rw [hd.pc, hwoken]; exact hpc
    · rw [hd.outFull, List.length_tail, hlen]; rfl

/-- What holds of the playback side at every step. -/
structure PlaybackSound (cfg : Config) (s : State) : Prop where
  /-- the queues and the writer's hands hold every fragment once -/
  partition : (s.outEmpty.toList ++ s.outFull.toList ++ s.outBusy.toList ++ s.pc.held).Perm
    (fragmentIds cfg.fragstotal)
  busy_le_one : s.outBusy.toList.length ≤ 1
  inFlight_iff : (∀ c id, s.pc ≠ .start c id) → (s.inFlight = true ↔ s.outBusy.toList ≠ [])
  /-- the transfer in flight is the last one started, and of the busy fragment -/
  inFlight_last : s.inFlight = true →
    ∃ id n, s.outBusy.toList = [id] ∧ s.dmaStarts.getLast? = some (id, n)
  /-- the starts are the fills in order, up to those that wait -/
  order : s.filled = s.dmaStarts ++ s.waiting.map fun id => (id, s.dataCount id)
  noStall : s.pc.betweenIterations = true → s.outFull.toList ≠ [] → s.inFlight = true
  /-- and those that wait get started by the interrupts still to come -/
  drains : s.pc.betweenIterations = true →
    (run cfg s (List.replicate s.outFull.toList.length .irq)).dmaStarts = s.filled

/-- **The playback queue protocol.**  From an open for writing on an idle channel, under every
sequence of writes and every interleaving of their steps with the interrupts of the transfers
they start. -/
theorem playback_protocol (cfg : Config) (s : State) (hpc : s.pc = .idle)
    (hf : s.inFlight = false) (acts : List Act) :
    PlaybackSound cfg (run cfg (jzAudioOpen cfg s) acts) := by
  have h := inv_run acts (inv_open cfg hpc hf)
  generalize run cfg (jzAudioOpen cfg s) acts = t at h
  exact
    { partition := h.ids
      busy_le_one := h.busy_le_one
      inFlight_iff := fun hne => h.inFlight_iff_busy (by
        cases hp : t.pc with
        | start c id => exact absurd hp (hne c id)
        | _ => rfl)
      inFlight_last := h.inFlight_last
      order := h.order
      noStall := fun hb => h.noStall (Pc.between_eq hb).2.2
      drains := fun hb => dmaStarts_drained _ h hb rfl }

/-- The driver before its first open. -/
def untouched : State where
  outEmpty := ⟨0, fun _ => 0⟩
  outFull := ⟨0, fun _ => 0⟩
  outBusy := ⟨0, fun _ => 0⟩
  dataCount := fun _ => 0
  tranCount := 0
  totalBytes := 0
  blocks := 0
  nextOut := 0
  popDmaFlag := false
  drainFlag := false
  lastDmaBufferId := 0
  inFlight := false
  pc := .idle
  filled := []
  dmaStarts := []

/-- Two fragments of 16 kB. -/
def twoFragments : Config := ⟨.s16le, .stereo, 16384, 2⟩

/-- Two fragments of four bytes each: a write of twelve fills both and sleeps until the
interrupt gives the first one back. -/
def sleepyWrite : List Act :=
  .write 12 false false :: List.replicate 24 .writer ++ .irq :: List.replicate 4 .writer

theorem playback_protocol_sleepy :
    (run ⟨.s16le, .stereo, 8, 2⟩ (jzAudioOpen ⟨.s16le, .stereo, 8, 2⟩ untouched)
      sleepyWrite).filled = [(0, 8), (1, 8), (0, 8)] ∧
    (run ⟨.s16le, .stereo, 8, 2⟩ (jzAudioOpen ⟨.s16le, .stereo, 8, 2⟩ untouched)
      sleepyWrite).dmaStarts = [(0, 8), (1, 8)] ∧
    PlaybackSound ⟨.s16le, .stereo, 8, 2⟩
      (run ⟨.s16le, .stereo, 8, 2⟩ (jzAudioOpen ⟨.s16le, .stereo, 8, 2⟩ untouched)
        sleepyWrite) :=
  ⟨by decide, by decide, playback_protocol _ untouched rfl rfl sleepyWrite⟩

end Dingoo.JzI2s
