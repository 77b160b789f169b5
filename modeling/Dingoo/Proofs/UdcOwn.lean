/-
Transfers that nothing disturbs.

The driver does not remember which request a transfer was started for: at its end it takes
the one at the head of the queue.  A gadget driver that never dequeues the request whose
transfer is running, and that queues on an idle endpoint only while the other endpoint on
the same channel has no transfer, is safe with that: a running channel works for the request
at the head of its endpoint (`Own`), from the start of its buffer, and the bytes it counts
are those it moved.

What is queued meanwhile, by the gadget driver or by a completion callback, comes behind
the head (`HeadsKept`).
-/
import Dingoo.Proofs.UdcDma

namespace Dingoo.Udc

open Dingoo.Lib

variable {B : EpId → Prop} {s t u s₀ : Dev} {e : EpId} {r : Nat} {a : BitVec 32}
  {b : Submission} {p : Nat → Prop} {skip : Chan → Prop}

/-! ### Heads of queues -/

/-- The heads of the queues, those of `p` apart, are what they were. -/
def HeadsKept (p : Nat → Prop) (s t : Dev) : Prop :=
  ∀ e r, ¬p r → (s.eps e).queue.head? = some r →
    (t.eps e).queue.head? = some r ∧ (t.reqs r).buf = (s.reqs r).buf ∧
      (t.reqs r).length = (s.reqs r).length

theorem HeadsKept.of_eq
    (hq : ∀ e, (t.eps e).queue = (s.eps e).queue)
    (hr : ∀ r, (t.reqs r).buf = (s.reqs r).buf ∧ (t.reqs r).length = (s.reqs r).length) :
    HeadsKept p s t := fun e r _ h => ⟨by rw [hq]; exact h, hr r⟩

theorem HeadsKept.trans (h : HeadsKept p s t)
    (h' : HeadsKept p t u) : HeadsKept p s u := by
  intro e r hr hhead
  obtain ⟨hhead', hbuf, hlen⟩ := h e r hr hhead
  obtain ⟨hhead'', hbuf', hlen'⟩ := h' e r hr hhead'
  exact ⟨hhead'', hbuf'.trans hbuf, hlen'.trans hlen⟩

theorem accept_heads (h : s.refusal e b = 0) : HeadsKept p s (accept e b s).2 := by
  intro i r _ hhead
  have hne : r ≠ b.req := fun heq =>
    not_mem_of_refusal h i (heq ▸ List.mem_of_mem_head? hhead)
  have hsame : (accept e b s).2.reqs r = s.reqs r := if_neg hne
  exact ⟨hhead, by rw [hsame], by rw [hsame]⟩

theorem addTail_heads (e : EpId) (r : Nat) (s : Dev) :
    HeadsKept p s (addTail e r s).2 := by
  intro i x _ hhead
  refine ⟨?_, rfl, rfl⟩
  rw [queue_addTail]
  by_cases hi : i = e
  · rw [if_pos hi, List.head?_append, hhead]
    rfl
  · rw [if_neg hi]
    exact hhead

theorem retire_heads (e : EpId) (r : Nat) (status : Int) (s : Dev) :
    HeadsKept (· = r) s (retire e r status s).2 := by
  intro i x hne hhead
  have hsame : (retire e r status s).2.reqs x = s.reqs x := if_neg hne
  refine ⟨?_, by rw [hsame], by rw [hsame]⟩
  rw [queue_retire]
  by_cases hi : i = e
  · rw [if_pos hi]
    cases hq : (s.eps i).queue with
    | nil =>
      rw [hq] at hhead
      cases hhead
    | cons y rest =>
      rw [hq] at hhead
      cases hhead
      rw [List.erase_cons_tail (by simpa using hne)]
      rfl
  · rw [if_neg hi]
    exact hhead

theorem done_heads (e : EpId) (r : Nat) (status : Int) (s : Dev) :
    HeadsKept (· = r) s (done e r status s).2 := by
  have hcalled : HeadsKept (· = r) s (called e r status s) := retire_heads e r status s
  refine (callbackQueues_keeps (P := HeadsKept (· = r) s) e (fun b t h ht => ?_)
    (s.callbacks.headD []) _ hcalled).trans ?_
  · exact (ht.trans (accept_heads h)).trans (addTail_heads e b.req _)
  · exact HeadsKept.of_eq (queue_done e r status s) fun _ => ⟨rfl, rfl⟩

/-! ### The request of a running channel -/

/-- A running channel, `skip` apart, works for the request at the head of its endpoint. -/
def OwnBut (skip : Chan → Prop) (s : Dev) : Prop :=
  ∀ e, e ≠ 0 → ¬skip (chanOf e) → (s.chans (chanOf e)).running = true →
    (s.chans (chanOf e)).ep = epIndex e →
    ∃ r, (s.eps e).queue.head? = some r ∧ (s.chans (chanOf e)).addr = (s.reqs r).buf ∧
      (s.chans (chanOf e)).count = (s.reqs r).length

/-- Every running channel does. -/
abbrev Own : Dev → Prop := OwnBut fun _ => False

theorem OwnBut.kept (h : OwnBut skip s)
    (hchans : ∀ ch, ¬skip ch → t.chans ch = s.chans ch) (hheads : HeadsKept p s t)
    (hp : ∀ e r, e ≠ 0 → ¬skip (chanOf e) → (s.chans (chanOf e)).running = true →
      (s.chans (chanOf e)).ep = epIndex e → (s.eps e).queue.head? = some r → ¬p r) :
    OwnBut skip t := by
  intro e he hskip hrun hep
  rw [hchans _ hskip] at hrun hep ⊢
  obtain ⟨r, hhead, haddr, hcount⟩ := h e he hskip hrun hep
  obtain ⟨hhead', hbuf, hlen⟩ := hheads e r (hp e r he hskip hrun hep hhead) hhead
  exact ⟨r, hhead', haddr.trans hbuf.symm, hcount.trans hlen.symm⟩

theorem OwnBut.all_kept (h : OwnBut skip s)
    (hchans : ∀ ch, ¬skip ch → t.chans ch = s.chans ch)
    (hheads : HeadsKept (fun _ => False) s t) : OwnBut skip t :=
  h.kept hchans hheads fun _ _ _ _ _ _ _ hnone => hnone

theorem OwnBut.own {ch : Chan} (h : OwnBut (· = ch) s)
    (hfree : (s.chans ch).running = false) : Own s := by
  intro e he _ hrun hep
  refine h e he (fun heq => ?_) hrun hep
  rw [heq, hfree] at hrun
  cases hrun

theorem OwnBut.start (he : e ≠ 0) (h : OwnBut (· = chanOf e) s)
    (hself : u.chans (chanOf e) = ⟨(u.reqs r).buf, (u.reqs r).length, epIndex e, true⟩)
    (hothers : ∀ ch, ch ≠ chanOf e → u.chans ch = s.chans ch)
    (hheads : HeadsKept (fun _ => False) s u) (hhead : (u.eps e).queue.head? = some r) :
    Own u := by
  have hrest : OwnBut (· = chanOf e) u := h.all_kept hothers hheads
  intro i hi _ hrun hep
  by_cases hch : chanOf i = chanOf e
  · -- the index in the channel says which of the two endpoints it works for
    rw [hch, hself] at hep
    have hie : i = e := epIndex_inj hi he hch hep.symm
    rw [hie, hself]
    exact ⟨r, hhead, rfl, rfl⟩
  · exact hrest i hi hch hrun hep

/-! ### The steps -/

theorem queue_own (hs : Tidy s) (ho : Own s) (he : e ≠ 0) (b : Submission) :
    Own (jz4740Queue e b s).2 := by
  rw [jz4740Queue_dma hs.wired he]
  by_cases hrefuse : s.refusal e b ≠ 0
  · rw [if_pos hrefuse]
    exact ho
  · rw [if_neg hrefuse]
    have hok := not_not.mp hrefuse
    have hsame : wiring (accept e b s).2 = wiring s := rfl
    by_cases hidle : (s.eps e).queue = [] ∧ (s.eps e).stopped = false
    · rw [if_pos hidle]
      have hchans := kickDma_chans (hs.wired.of_wiring hsame) e b.req
      have hqueue := queue_of_books (kickDma_books e b.req (accept e b s).2)
      refine OwnBut.start (s := s) (r := b.req) he (fun i hi _ => ho i hi (fun h => h)) ?_ ?_ ?_ ?_
      · exact (hchans (chanOf e)).trans (if_pos rfl)
      · intro ch hch
        exact (hchans ch).trans (if_neg hch)
      · refine ((accept_heads hok).trans ?_).trans (addTail_heads e b.req _)
        exact HeadsKept.of_eq hqueue fun _ => ⟨rfl, rfl⟩
      · rw [queue_addTail, if_pos rfl, hqueue]
        show ((s.eps e).queue ++ [b.req]).head? = some b.req
        rw [hidle.1]
        rfl
    · rw [if_neg hidle]
      exact ho.all_kept (fun _ _ => rfl) ((accept_heads hok).trans (addTail_heads e b.req _))

theorem dequeue_own (hs : Tidy s) (ho : Own s)
    (hcalm : (s.chans (chanOf e)).running = true → (s.chans (chanOf e)).ep = epIndex e →
      (s.eps e).queue.head? ≠ some r) : Own (jz4740Dequeue e r s).2 := by
  rw [jz4740Dequeue_eq]
  by_cases h : e ≠ 0 ∧ r ∈ (s.eps e).queue
  · rw [if_pos h]
    have hchans := chans_of_wiring (done_wiring e r (- ECONNRESET) s)
    refine ho.kept (p := (· = r)) (fun ch _ => congrFun hchans ch) (done_heads e r _ s) ?_
    intro i x _ _ hrun hep hhead hx
    have hie : i = e := hs.fresh.apart i e r (hx ▸ List.mem_of_mem_head? hhead) h.2
    rw [hie, hx] at hhead
    rw [hie] at hrun hep
    exact hcalm hrun hep hhead
  · rw [if_neg h]
    exact ho

theorem Ended.own (he : e ≠ 0)
    (h : Ended e r a s₀ t) (hr : r ∈ (s₀.eps e).queue) (ho : OwnBut (· = chanOf e) s₀)
    (hnext : Next e (done e r 0 t).2 u) : Own u := by
  have hchans := chans_of_wiring (done_wiring e r 0 t)
  have hcount : HeadsKept (fun _ => False) s₀ t := by
    refine HeadsKept.of_eq h.queues fun x => ?_
    by_cases hx : x = r
    · rw [hx, h.req]
      exact ⟨rfl, rfl⟩
    · rw [h.others x hx]
      exact ⟨rfl, rfl⟩
  have hcounted : OwnBut (· = chanOf e) t := ho.all_kept h.chans hcount
  have hdone : OwnBut (· = chanOf e) (done e r 0 t).2 := by
    refine hcounted.kept (p := (· = r)) (fun ch _ => congrFun hchans ch) (done_heads e r 0 t) ?_
    -- the heads of the endpoints on the other channel are other requests
    intro i x _ hch _ _ hhead hx
    have hmem : r ∈ (t.eps i).queue := hx ▸ List.mem_of_mem_head? hhead
    have hie : i = e := h.queued.apart i e r hmem (by rw [h.queues]; exact hr)
    exact hch (by rw [hie])
  have hfree : ((done e r 0 t).2.chans (chanOf e)).running = false := by
    rw [hchans]
    exact h.free
  cases hnext with
  | idle hw hq hreqs hrep =>
    have hsame := chans_of_wiring hw
    have hkept : HeadsKept (fun _ => False) (done e r 0 t).2 u :=
      HeadsKept.of_eq hq fun x => by rw [hreqs]; exact ⟨rfl, rfl⟩
    exact (hdone.own hfree).all_kept (fun ch _ => congrFun hsame ch) hkept
  | @start r' hhead =>
    have hwired := h.wired.of_wiring (done_wiring e r 0 t)
    have hkick := kickDma_chans hwired e r'
    have hqueue := queue_of_books (kickDma_books e r' (done e r 0 t).2)
    refine hdone.start he ((hkick (chanOf e)).trans (if_pos rfl)) ?_
      (HeadsKept.of_eq hqueue fun _ => ⟨rfl, rfl⟩) (by rw [hqueue]; exact hhead)
    intro ch hch
    exact (hkick ch).trans (if_neg hch)

theorem dmaEnd_own (hs : Tidy s) (ho : Own s) (ch : Chan) (moved : BitVec 32) :
    Own (transferEnds ch moved s).2 := by
  by_cases hrun : (s.chans ch).running = true
  · obtain ⟨e, he, hch, hep, hhandled⟩ := transferEnds_handled hs moved hrun
    have hended : OwnBut (· = ch) (ended ch moved s) := by
      intro i hi hne hrun' hep'
      have hsame : (ended ch moved s).chans (chanOf i) = s.chans (chanOf i) := if_neg hne
      rw [hsame] at hrun' hep' ⊢
      exact ho i hi (fun h => h) hrun' hep'
    cases hhandled with
    | nothing hw hq hr hrep =>
      have hsame := chans_of_wiring hw
      have hfree : ((ended ch moved s).chans ch).running = false := by rw [ended_chan]
      refine (hended.own hfree).all_kept (fun i _ => congrFun hsame i) ?_
      exact HeadsKept.of_eq hq fun x => by rw [hr]; exact ⟨rfl, rfl⟩
    | @gave r t hhead hcount hnext =>
      refine hcount.own he (List.mem_of_mem_head? hhead) ?_ hnext
      rw [hch]
      exact hended
  · rw [transferEnds_eq, if_neg hrun]
    exact ho

/-! ### Runs -/

/-- A step that disturbs no transfer.  A request that starts one finds no transfer of another
endpoint on its channel; the request whose transfer is running is not dequeued; and a transfer
moves no more bytes than it was programmed with. -/
def Calm (s : Dev) (a : Step) : Prop :=
  match a.act with
  | .call (.queue e b) => s.refusal e b = 0 → (s.eps e).queue = [] → (s.eps e).stopped = false →
      (s.chans (chanOf e)).running = true → (s.chans (chanOf e)).ep = epIndex e
  | .call (.dequeue e r) => (s.chans (chanOf e)).running = true →
      (s.chans (chanOf e)).ep = epIndex e → (s.eps e).queue.head? ≠ some r
  | .dmaEnd ch moved => moved ≤ (s.chans ch).count
  | _ => True

instance (s : Dev) (a : Step) : Decidable (Calm s a) := by
  unfold Calm
  split
  all_goals infer_instance

theorem OwnBut.free (ho : Own s) (he : e ≠ 0) (hq : (s.eps e).queue = [])
    (hcalm : (s.chans (chanOf e)).running = true → (s.chans (chanOf e)).ep = epIndex e) :
    (s.chans (chanOf e)).running = false := by
  by_contra hrun
  have hbusy : (s.chans (chanOf e)).running = true := by simpa using hrun
  obtain ⟨r, hhead, -⟩ := ho e he (fun h => h) hbusy (hcalm hbusy)
  rw [hq] at hhead
  cases hhead

/-- A transfer that moved no more than it was asked for counts no more, with the rest of
the last packet too. -/
theorem counted_own (ch : Chan) (req : Request) {moved : BitVec 32} (rest : BitVec 32)
    (h : moved ≤ req.length) : counted ch (req.buf + moved) req rest ≤ req.length := by
  have hmoved : req.buf + moved - req.buf = moved := by
    rw [BitVec.add_comm, BitVec.add_sub_cancel]
  cases ch with
  | dma1 =>
    show req.buf + moved - req.buf ≤ req.length
    rw [hmoved]
    exact h
  | dma2 =>
    show req.buf + moved - req.buf + BitVec.ofInt 32
      (min (req.length - (req.buf + moved - req.buf)).toInt rest.toNat) ≤ req.length
    rw [hmoved]
    by_cases hfull : (req.length - moved).toInt ≤ rest.toNat
    · -- the packet fills the request
      rw [Int.min_eq_left hfull, BitVec.ofInt_toInt, BitVec.add_comm, BitVec.sub_add_cancel]
      exact BitVec.le_refl _
    · have hroom : rest.toNat < (req.length - moved).toNat := by
        have hsigned := BitVec.toInt_eq_toNat_cond (req.length - moved)
        omega
      rw [Int.min_eq_right (by omega), BitVec.ofInt_natCast, BitVec.ofNat_toNat,
        BitVec.setWidth_eq]
      bv_omega

theorem step_own (hs : Tidy s) (ho : Own s) (ha : Attributed B s) {c : Step} (hc : c.act.OnDma)
    (hcalm : Calm s c) : (Tidy (step s c) ∧ Attributed B (step s c)) ∧ Own (step s c) := by
  have htidy := hs.scripted c
  obtain ⟨act, reads, callbacks⟩ := c
  rcases hc.cases with ⟨e, b, he, rfl⟩ | ⟨e, r, rfl⟩ | ⟨ch, moved, rfl⟩
  · refine ⟨⟨queue_tidy htidy he b, queue_attributed htidy ha he b fun hok hq hst => ?_⟩,
      queue_own htidy ho he b⟩
    exact ho.free he hq (hcalm hok hq hst)
  · exact ⟨dequeue_step htidy ha e r, dequeue_own htidy ho hcalm⟩
  · refine ⟨dmaEnd_step htidy ha ch moved fun e r he hch hrun hep hhead => ?_,
      dmaEnd_own htidy ho ch moved⟩
    -- the request at the head is the one the channel was programmed for
    subst hch
    obtain ⟨r', hhead', haddr, hcount⟩ := ho e he (fun h => h) hrun hep
    cases hhead.symm.trans hhead'
    have hmoved : moved ≤ (s.reqs r).length := hcount ▸ hcalm
    show counted (chanOf e) ((s.chans (chanOf e)).addr + moved) (s.reqs r) _ ≤ (s.reqs r).length
    rw [haddr]
    exact counted_own (chanOf e) (s.reqs r) _ hmoved

/-- **A gadget driver that disturbs no running transfer sees each attributed to its own
request**, for the requests of any endpoints `B`: `Bulk`, or all.  A channel that is still
running at the end of the run works for the request at the head of its endpoint. -/
theorem attributed_of_calm (B : EpId → Prop) (max : EpId → Nat) (l : List Step)
    (hl : ∀ a ∈ l, a.act.OnDma) (hcalm : EachStep step Calm (readyDev max) l) :
    Attributed B (run (readyDev max) l) ∧ Own (run (readyDev max) l) := by
  have hown : Own (readyDev max) := fun e he _ hrun => by cases hrun
  have hboth : EachStep step (fun s c => c.act.OnDma ∧ Calm s c) (readyDev max) l :=
    fun pre c post h => ⟨hl c (by rw [h]; simp), hcalm pre c post h⟩
  have hend := EachStep.invariant (fun s => (Tidy s ∧ Attributed B s) ∧ Own s)
    (fun s c hs hc => step_own hs.1.1 hs.2 hs.1.2 hc.1 hc.2) l
    ⟨⟨readyDev_tidy max, readyDev_attributed max⟩, hown⟩ hboth
  exact ⟨hend.1.2, hend.2⟩

/-- Two requests on `ep1in-bulk`, the second behind the transfer of the first; then one on
`ep2in-int`, and one on `ep1out-bulk` that ends with a short packet and is still counted. -/
def inTurn : List Step :=
  [⟨.call (.queue 2 ⟨0, true, 512, 0x1000, false⟩), [], []⟩,
    ⟨.call (.queue 2 ⟨1, true, 16, 0x8000, false⟩), [], []⟩,
    ⟨.call (.queue 1 ⟨2, true, 100, 0x9000, false⟩), [], []⟩,
    ⟨.dmaEnd .dma1 512, [], []⟩, ⟨.dmaEnd .dma2 64, [36], []⟩, ⟨.dmaEnd .dma1 16, [], []⟩,
    ⟨.call (.queue 3 ⟨3, true, 8, 0xa000, false⟩), [], []⟩]

theorem attributed_inTurn :
    (Entry.completed 1 2 0 100 100 ∈ (run (readyDev fun _ => 64) inTurn).ledger ∧
      Entry.completed 2 1 0 16 16 ∈ (run (readyDev fun _ => 64) inTurn).ledger) ∧
    Attributed Bulk (run (readyDev fun _ => 64) inTurn) ∧
    Own (run (readyDev fun _ => 64) inTurn) := by
  refine ⟨by decide +kernel, attributed_of_calm _ _ _ ?_ (by decide +kernel)⟩
  simp [inTurn, Act.OnDma]

/-- A request on each of the two IN endpoints. -/
def bothIn : List Step :=
  [⟨.call (.queue 2 ⟨0, true, 512, 0x1000, false⟩), [], []⟩,
    ⟨.call (.queue 3 ⟨1, true, 16, 0x8000, false⟩), [], []⟩]

/-- Two requests on one endpoint; the first is dequeued during its transfer. -/
def dequeuedHead : List Step :=
  [⟨.call (.queue 2 ⟨0, true, 512, 0x1000, false⟩), [], []⟩,
    ⟨.call (.queue 2 ⟨1, true, 16, 0x8000, false⟩), [], []⟩,
    ⟨.call (.dequeue 2 0), [], []⟩, ⟨.dmaEnd .dma1 512, [], []⟩]

/-- The second of two IN endpoints takes the channel over; and the bytes of a dequeued
request are counted for the next one. -/
theorem wrong_transfer : (∀ a ∈ bothIn ++ dequeuedHead, a.act.OnDma) ∧
    ¬Attributed Bulk (run (readyDev fun _ => 64) bothIn) ∧
    ¬Attributed Bulk (run (readyDev fun _ => 64) dequeuedHead) := by
  have hkick : Wire.kick .dma1 true ∈ (run (readyDev fun _ => 64) bothIn).wire := by
    decide +kernel
  have hdone : Entry.completed 2 1 0 (0x1200 - 0x8000) 16 ∈
      (run (readyDev fun _ => 64) dequeuedHead).ledger := by decide +kernel
  refine ⟨by simp [bothIn, dequeuedHead, Act.OnDma], fun h => h.1 .dma1 hkick, fun h => ?_⟩
  exact absurd (h.2 2 1 _ 16 (Or.inr rfl) hdone) (by decide)

end Dingoo.Udc
