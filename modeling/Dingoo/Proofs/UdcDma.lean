/-
Whose bytes a DMA transfer moved.

With DMA the driver starts a transfer for the request at the head of a queue and, when the
channel reports its end, computes what was moved as the distance between the address
register of the channel and the buffer of the request that is at the head *then*.  Nothing
ties the two requests together: both IN endpoints use channel 1, and `jz4740_dequeue` takes
a request off the queue without stopping its transfer.

Here is what each step does to the two things that can go wrong: a transfer is started on a
channel that is still running, or a request is given back with more bytes than it has room
for.  How a gadget driver stays clear of both is in `Proofs/UdcOwn.lean`.

  * `Wired` says which endpoint a running channel works for, so that the interrupt is
    known to look at the queue of that endpoint and at the register of that channel.
  * `Queued` says that a linked request is on one queue, once, and has not been touched
    since it was accepted, so that what it is given back with is what one transfer counts.
-/
import Dingoo.Proofs.Jz4740Udc

namespace Dingoo.Udc

open Dingoo.Lib

variable {s s₀ s' : Dev} {e : EpId} {r : Nat} {a : BitVec 32} {f : Endpoint → Endpoint}
  {b : Submission} {skip : Nat → Prop} {ch : Chan} {status : Int}

/-! ### The wiring of the endpoints -/

/-- `ep_is_in`, `ep_index` and the DMA channel of the endpoints in `udc_dev`. -/
def epIn : EpId → Bool
  | 0 | 1 => false
  | 2 | 3 => true

def epIndex : EpId → Nat
  | 0 => 0
  | 1 => 1
  | 2 => 1
  | 3 => 2

def chanOf (e : EpId) : Chan := if epIn e then .dma1 else .dma2

/-- The part of the state that only the start and the end of a transfer change. -/
def wiring (s : Dev) : Bool × (Chan → Transfer) × (EpId → Bool × Nat × Bool × Option Chan) :=
  (s.useDma, s.chans, fun e =>
    ((s.eps e).isIn, (s.eps e).index, (s.eps e).desc.isSome, (s.eps e).regAddr))

/-- DMA is used, the endpoints are those of `udc_dev`, and a running channel works for an
endpoint that reads its address register. -/
structure Wired (s : Dev) : Prop where
  dma : s.useDma = true
  isIn : ∀ e, (s.eps e).isIn = epIn e
  index : ∀ e, (s.eps e).index = epIndex e
  enabled : ∀ e, e ≠ 0 → (s.eps e).desc.isSome = true
  regs : ∀ ch, (s.chans ch).running = true →
    ∃ e, e ≠ 0 ∧ chanOf e = ch ∧ (s.chans ch).ep = epIndex e ∧ (s.eps e).regAddr = some ch

theorem chans_of_wiring (h : wiring s' = wiring s) : s'.chans = s.chans :=
  congrArg (·.2.1) h

theorem Wired.of_wiring (h : wiring s' = wiring s) (hs : Wired s) : Wired s' := by
  have hdma : s'.useDma = s.useDma := congrArg (·.1) h
  have hchans := chans_of_wiring h
  have hep : ∀ e, ((s'.eps e).isIn, (s'.eps e).index, (s'.eps e).desc.isSome, (s'.eps e).regAddr) =
      ((s.eps e).isIn, (s.eps e).index, (s.eps e).desc.isSome, (s.eps e).regAddr) :=
    fun e => congrFun (congrArg (·.2.2) h) e
  simp only [Prod.mk.injEq] at hep
  refine ⟨hdma ▸ hs.dma, fun e => ?_, fun e => ?_, fun e he => ?_, fun ch hrun => ?_⟩
  · rw [(hep e).1, hs.isIn]
  · rw [(hep e).2.1, hs.index]
  · rw [(hep e).2.2.1, hs.enabled e he]
  · rw [hchans] at hrun ⊢
    obtain ⟨e, he, hch, hepf, hreg⟩ := hs.regs ch hrun
    exact ⟨e, he, hch, hepf, by rw [(hep e).2.2.2, hreg]⟩

section
variable (hf : ∀ ep, (f ep).isIn = ep.isIn ∧ (f ep).index = ep.index ∧ (f ep).desc = ep.desc ∧
  (f ep).regAddr = ep.regAddr)
include hf

theorem wiring_setEp (e : EpId) (s : Dev) : wiring (s.setEp e f) = wiring s := by
  have hrow : ∀ i, (((s.setEp e f).eps i).isIn, ((s.setEp e f).eps i).index,
      ((s.setEp e f).eps i).desc.isSome, ((s.setEp e f).eps i).regAddr) =
      ((s.eps i).isIn, (s.eps i).index, (s.eps i).desc.isSome, (s.eps i).regAddr) := by
    intro i
    by_cases hi : i = e
    · rw [show (s.setEp e f).eps i = f (s.eps i) from if_pos hi]
      obtain ⟨h1, h2, h3, h4⟩ := hf (s.eps i)
      rw [h1, h2, h3, h4]
    · rw [show (s.setEp e f).eps i = s.eps i from if_neg hi]
  exact Prod.ext rfl (Prod.ext rfl (funext hrow))

theorem modifyEp_wiring (e : EpId) : Leaves wiring (modifyEp e f) := wiring_setEp hf e

end

theorem addTail_wiring (e : EpId) (r : Nat) : Leaves wiring (addTail e r) := by
  refine modifyEp_wiring ?_ e
  intro ep
  exact ⟨rfl, rfl, rfl, rfl⟩

theorem retire_wiring (e : EpId) (r : Nat) (status : Int) : Leaves wiring (retire e r status) := by
  intro s
  exact wiring_setEp (f := fun ep => { ep with queue := ep.queue.erase r, stopped := true })
    (fun _ => ⟨rfl, rfl, rfl, rfl⟩) e s

theorem callbackQueues_wiring (e : EpId) (bs : List Submission) :
    Leaves wiring (callbackQueues e bs) :=
  fun s => callbackQueues_keeps (P := fun t => wiring t = wiring s) e
    (fun b t _ ht => (addTail_wiring e b.req (accept e b t).2).trans ht) bs s rfl

theorem done_wiring (e : EpId) (r : Nat) (status : Int) : Leaves wiring (done e r status) := by
  refine Leaves.bind Leaves.get fun s => Leaves.bind (retire_wiring e r status) fun _ => ?_
  refine Leaves.bind (Leaves.bind Leaves.get fun _ => Leaves.bind (fun _ => rfl) fun _ => ?_) ?_
  · exact callbackQueues_wiring e _
  · intro _
    refine modifyEp_wiring ?_ e
    intro ep
    exact ⟨rfl, rfl, rfl, rfl⟩

/-! ### Linked requests -/

/-- Each linked request is on one queue, once, and, `skip` apart, as it was accepted. -/
structure Queued (skip : Nat → Prop) (s : Dev) : Prop where
  nodup : ∀ e, (s.eps e).queue.Nodup
  apart : ∀ e e' r, r ∈ (s.eps e).queue → r ∈ (s.eps e').queue → e = e'
  fresh : ∀ e, ∀ r ∈ (s.eps e).queue, ¬skip r →
    (s.reqs r).actual = 0 ∧ (s.reqs r).status = - EINPROGRESS

/-- No request is touched. -/
abbrev AllFresh : Dev → Prop := Queued fun _ => False

theorem Queued.untouched (hs : AllFresh s) (hr : r ∈ (s.eps e).queue) :
    (s.reqs r).actual = 0 ∧ (s.reqs r).status = - EINPROGRESS :=
  hs.fresh e r hr fun h => h

theorem Queued.of_eq (hs : Queued skip s) (hq : ∀ e, (s'.eps e).queue = (s.eps e).queue)
    (hr : s'.reqs = s.reqs) : Queued skip s' where
  nodup e := by rw [hq]; exact hs.nodup e
  apart e e' r h h' := by
    rw [hq] at h h'
    exact hs.apart e e' r h h'
  fresh e r h := by
    rw [hq] at h
    rw [hr]
    exact hs.fresh e r h

theorem accept_fresh (hs : AllFresh s) (h : s.refusal e b = 0) : AllFresh (accept e b s).2 where
  nodup := hs.nodup
  apart := hs.apart
  fresh i r hr hskip := by
    have hne : r ≠ b.req := fun heq => not_mem_of_refusal h i (heq ▸ hr)
    have hsame : (accept e b s).2.reqs r = s.reqs r := if_neg hne
    rw [hsame]
    exact hs.fresh i r hr hskip

theorem addTail_fresh (hs : AllFresh s) (hnew : ∀ i, r ∉ (s.eps i).queue)
    (hr : (s.reqs r).actual = 0 ∧ (s.reqs r).status = - EINPROGRESS) :
    AllFresh (addTail e r s).2 := by
  have hmem : ∀ i x, x ∈ ((addTail e r s).2.eps i).queue →
      x ∈ (s.eps i).queue ∨ (i = e ∧ x = r) := by
    intro i x hx
    rw [queue_addTail] at hx
    by_cases hi : i = e
    · rw [if_pos hi] at hx
      rcases List.mem_append.mp hx with hold | hone
      · exact Or.inl hold
      · exact Or.inr ⟨hi, List.mem_singleton.mp hone⟩
    · rw [if_neg hi] at hx
      exact Or.inl hx
  refine ⟨fun i => ?_, fun i i' x hx hx' => ?_, fun i x hx _ => ?_⟩
  · rw [queue_addTail]
    by_cases hi : i = e
    · rw [if_pos hi]
      rw [← List.concat_eq_append]
      exact (hs.nodup i).concat (hnew i)
    · rw [if_neg hi]
      exact hs.nodup i
  · rcases hmem i x hx with h | ⟨hi, rfl⟩
    · rcases hmem i' x hx' with h' | ⟨_, rfl⟩
      · exact hs.apart i i' x h h'
      · exact absurd h (hnew i)
    · rcases hmem i' x hx' with h' | ⟨hi', _⟩
      · exact absurd h' (hnew i')
      · rw [hi, hi']
  · rcases hmem i x hx with h | ⟨_, rfl⟩
    · exact hs.untouched h
    · exact hr

theorem link_fresh (hs : AllFresh s) (h : s.refusal e b = 0) :
    AllFresh (addTail e b.req (accept e b s).2).2 := by
  refine addTail_fresh (accept_fresh hs h) (not_mem_of_refusal h) ?_
  have hnew : (accept e b s).2.reqs b.req = ⟨b.length, 0, b.buf, b.zero, - EINPROGRESS⟩ :=
    if_pos rfl
  rw [hnew]
  exact ⟨rfl, rfl⟩

theorem retire_fresh (status : Int) (hs : Queued (· = r) s) (hr : r ∈ (s.eps e).queue) :
    AllFresh (retire e r status s).2 := by
  have hmem : ∀ i x, x ∈ ((retire e r status s).2.eps i).queue →
      x ∈ (s.eps i).queue ∧ x ≠ r := by
    intro i x hx
    rw [queue_retire] at hx
    by_cases hi : i = e
    · rw [if_pos hi] at hx
      exact ⟨List.mem_of_mem_erase hx, ((hs.nodup i).mem_erase_iff.mp hx).1⟩
    · rw [if_neg hi] at hx
      exact ⟨hx, fun heq => hi (hs.apart i e x hx (heq ▸ hr))⟩
  refine ⟨fun i => ?_, fun i i' x hx hx' => ?_, fun i x hx _ => ?_⟩
  · rw [queue_retire]
    by_cases hi : i = e
    · rw [if_pos hi]
      exact (hs.nodup i).erase r
    · rw [if_neg hi]
      exact hs.nodup i
  · exact hs.apart i i' x (hmem i x hx).1 (hmem i' x hx').1
  · obtain ⟨hold, hne⟩ := hmem i x hx
    have hsame : (retire e r status s).2.reqs x = s.reqs x := if_neg hne
    rw [hsame]
    exact hs.fresh i x hold hne

theorem done_fresh (status : Int) (hs : Queued (· = r) s) (hr : r ∈ (s.eps e).queue) :
    AllFresh (done e r status s).2 := by
  have hstart : AllFresh (called e r status s) :=
    (retire_fresh status hs hr).of_eq (fun _ => rfl) rfl
  have hcalls := callbackQueues_keeps e (fun b t h ht => link_fresh ht h)
    (s.callbacks.headD []) _ hstart
  refine hcalls.of_eq (fun i => ?_) rfl
  rw [queue_done]

/-! ### What is reported -/

/-- The endpoints `ep1out-bulk` and `ep1in-bulk`. -/
def Bulk (e : EpId) : Prop := e = 1 ∨ e = 2

/-- No transfer was started on a running channel, and no request of the endpoints `B` was
given back as successful with more bytes than its length. -/
def Attributed (B : EpId → Prop) (s : Dev) : Prop :=
  (∀ ch, Wire.kick ch true ∉ s.wire) ∧
  ∀ e r actual length, B e → Entry.completed e r 0 actual length ∈ s.ledger → actual ≤ length

variable {B : EpId → Prop}

/-- Nothing that matters has been reported since. -/
def SameReports (s s' : Dev) : Prop :=
  s'.ledger = s.ledger ∧ ∀ ch, Wire.kick ch true ∈ s'.wire → Wire.kick ch true ∈ s.wire

theorem SameReports.attributed (h : SameReports s s') (hs : Attributed B s) : Attributed B s' := by
  refine ⟨fun ch hch => hs.1 ch (h.2 ch hch), ?_⟩
  rw [h.1]
  exact hs.2

theorem attributed_emit (hs : Attributed B s) {w : Wire} (hw : ∀ ch, w ≠ .kick ch true) :
    Attributed B (emit w s).2 := by
  refine ⟨fun ch h => ?_, hs.2⟩
  rcases List.mem_append.mp h with hold | hnew
  · exact hs.1 ch hold
  · exact hw ch (List.mem_singleton.mp hnew).symm

theorem attributed_entry (hs : Attributed B s) {x : Entry} (hl : s'.ledger = s.ledger ++ [x])
    (hw : s'.wire = s.wire)
    (hx : ∀ e r actual length, B e → x = .completed e r 0 actual length → actual ≤ length) :
    Attributed B s' := by
  refine ⟨by rw [hw]; exact hs.1, fun e r a l he h => ?_⟩
  rw [hl] at h
  rcases List.mem_append.mp h with hold | hnew
  · exact hs.2 e r a l he hold
  · exact hx e r a l he (List.mem_singleton.mp hnew).symm

theorem attributed_accept (hs : Attributed B s) : Attributed B (accept e b s).2 := by
  refine attributed_entry (x := .accepted e b.req) hs rfl rfl ?_
  intro i r a l _ h
  cases h

theorem attributed_retire (hs : Attributed B s)
    (hfit : B e → (s.reqs r).finalStatus status = 0 → (s.reqs r).actual ≤ (s.reqs r).length) :
    Attributed B (retire e r status s).2 := by
  refine attributed_entry (x := .completed e r ((s.reqs r).finalStatus status) (s.reqs r).actual
    (s.reqs r).length) hs rfl rfl fun i r' a l hi heq => ?_
  obtain ⟨rfl, -, hzero, rfl, rfl⟩ := Entry.completed.inj heq
  exact hfit hi hzero

theorem attributed_done (hs : Attributed B s)
    (hfit : B e → (s.reqs r).finalStatus status = 0 → (s.reqs r).actual ≤ (s.reqs r).length) :
    Attributed B (done e r status s).2 :=
  callbackQueues_keeps (P := Attributed B) e
    (fun b _ _ ht => attributed_accept (e := e) (b := b) ht) (s.callbacks.headD [])
    (called e r status s) (attributed_retire hs hfit)

/-! ### Starting a transfer -/

theorem chan_of_isIn (hs : Wired s) (e : EpId) :
    (if (s.eps e).isIn = true then Chan.dma1 else Chan.dma2) = chanOf e := by
  rw [hs.isIn]
  rfl

theorem kickDma_chans (hs : Wired s) (e : EpId) (r : Nat) (ch : Chan) :
    (kickDma e r s).2.chans ch =
      if ch = chanOf e then ⟨(s.reqs r).buf, (s.reqs r).length, epIndex e, true⟩
      else s.chans ch := by
  rw [← chan_of_isIn hs e, ← hs.index e]
  show (if ch = (if (s.eps e).isIn = true then Chan.dma1 else Chan.dma2) then
    ⟨_, _, (if e = e then _ else s.eps e : Endpoint).index, true⟩ else s.chans ch) = _
  rw [if_pos (rfl : e = e)]
  rfl

theorem kickDma_eps (hs : Wired s) (e : EpId) (r : Nat) (i : EpId) :
    (kickDma e r s).2.eps i =
      if i = e then { s.eps i with regAddr := some (chanOf e), irq := true } else s.eps i := by
  rw [← chan_of_isIn hs e]
  rfl

theorem kickDma_wired (hs : Wired s) (he : e ≠ 0) (r : Nat) : Wired (kickDma e r s).2 := by
  have hrow : ∀ i, ((kickDma e r s).2.eps i).isIn = (s.eps i).isIn ∧
      ((kickDma e r s).2.eps i).index = (s.eps i).index ∧
      ((kickDma e r s).2.eps i).desc = (s.eps i).desc := by
    intro i
    rw [kickDma_eps hs]
    split
    · exact ⟨rfl, rfl, rfl⟩
    · exact ⟨rfl, rfl, rfl⟩
  refine ⟨hs.dma, fun i => ?_, fun i => ?_, fun i hi => ?_, fun ch hrun => ?_⟩
  · rw [(hrow i).1, hs.isIn]
  · rw [(hrow i).2.1, hs.index]
  · rw [(hrow i).2.2, hs.enabled i hi]
  · rw [kickDma_chans hs] at hrun ⊢
    by_cases hch : ch = chanOf e
    · rw [if_pos hch]
      refine ⟨e, he, hch.symm, rfl, ?_⟩
      rw [kickDma_eps hs, if_pos rfl, hch]
    · -- the other channel works for another endpoint
      rw [if_neg hch] at hrun ⊢
      obtain ⟨i, hi, hich, hep, hreg⟩ := hs.regs ch hrun
      have hie : i ≠ e := fun h => hch (by rw [← hich, h])
      refine ⟨i, hi, hich, hep, ?_⟩
      rw [kickDma_eps hs, if_neg hie, hreg]

theorem kickDma_fresh (hs : Queued skip s) (e : EpId) (r : Nat) : Queued skip (kickDma e r s).2 :=
  hs.of_eq (fun i => queue_of_books (kickDma_books e r s) i) rfl

theorem attributed_kickDma (hs : Wired s) (ha : Attributed B s) (r : Nat)
    (hfree : (s.chans (chanOf e)).running = false) : Attributed B (kickDma e r s).2 := by
  have hemit : Attributed B
      (emit (.kick (chanOf e) (s.chans (chanOf e)).running) s).2 := by
    refine attributed_emit ha fun ch heq => ?_
    obtain ⟨-, hbusy⟩ := Wire.kick.inj heq
    exact Bool.noConfusion (hfree.symm.trans hbusy)
  rw [← chan_of_isIn hs e] at hemit
  exact SameReports.attributed ⟨rfl, fun _ h => h⟩ hemit

/-! ### The steps -/

/-- The bytes that the end of a transfer counts for a request, with the channel at `addr`.
For an OUT transfer the rest of the last packet, `count` bytes, is read by the driver. -/
def counted (ch : Chan) (addr : BitVec 32) (req : Request) (count : BitVec 32) : BitVec 32 :=
  match ch with
  | .dma1 => addr - req.buf
  | .dma2 => addr - req.buf +
      BitVec.ofInt 32 (min (req.length - (addr - req.buf)).toInt count.toNat)

/-- `jz4740_queue` with DMA: an idle endpoint starts its transfer before the request is
linked. -/
theorem jz4740Queue_dma (hs : Wired s) (he : e ≠ 0) (b : Submission) :
    (jz4740Queue e b s).2 =
      if s.refusal e b ≠ 0 then s
      else if (s.eps e).queue = [] ∧ (s.eps e).stopped = false then
        (addTail e b.req (kickDma e b.req (accept e b s).2).2).2
      else (addTail e b.req (accept e b s).2).2 := by
  have hindex : ((accept e b s).2.eps e).index ≠ 0 := by
    show (s.eps e).index ≠ 0
    rw [hs.index]
    revert he
    revert e
    decide
  have hkick : kickstart e b.req (accept e b s).2 =
      (false, (kickDma e b.req (accept e b s).2).2) := by
    show (if ((accept e b s).2.eps e).index = 0 then _ else _ : M Bool) _ = _
    rw [if_neg hindex]
    show (if s.useDma = true then _ else _ : M Bool) _ = _
    rw [if_pos hs.dma]
    rfl
  show ((if s.refusal e b ≠ 0 then _ else _ : M Int) s).2 = _
  by_cases hrefuse : s.refusal e b ≠ 0
  · rw [if_pos hrefuse, if_pos hrefuse]
    rfl
  · rw [if_neg hrefuse, if_neg hrefuse]
    show ((if ((s.eps e).queue = [] && !(s.eps e).stopped) = true then _ else _ : M Int)
      (accept e b s).2).2 = _
    by_cases hidle : (s.eps e).queue = [] ∧ (s.eps e).stopped = false
    · rw [if_pos (by simp [hidle.1, hidle.2]), if_pos hidle, run_bind, hkick]
      rfl
    · rw [if_neg (by simpa using hidle), if_neg hidle]
      rfl

/-- What a run keeps. -/
structure Tidy (s : Dev) : Prop where
  wired : Wired s
  fresh : AllFresh s

theorem queue_tidy (hs : Tidy s) (he : e ≠ 0) (b : Submission) :
    Tidy (jz4740Queue e b s).2 := by
  rw [jz4740Queue_dma hs.wired he]
  by_cases hrefuse : s.refusal e b ≠ 0
  · rw [if_pos hrefuse]
    exact hs
  · rw [if_neg hrefuse]
    have hok := not_not.mp hrefuse
    have hsame : wiring (accept e b s).2 = wiring s := rfl
    have hwired := hs.wired.of_wiring hsame
    by_cases hidle : (s.eps e).queue = [] ∧ (s.eps e).stopped = false
    · rw [if_pos hidle]
      have hkick := kickDma_wired hwired he b.req
      refine ⟨hkick.of_wiring (addTail_wiring e b.req _), ?_⟩
      -- the start of the transfer touches neither queues nor requests
      refine (link_fresh hs.fresh hok).of_eq (fun i => ?_) rfl
      rw [queue_addTail, queue_addTail, queue_of_books (kickDma_books e b.req _)]
    · rw [if_neg hidle]
      exact ⟨hwired.of_wiring (addTail_wiring e b.req _), link_fresh hs.fresh hok⟩

theorem queue_attributed (hs : Tidy s) (ha : Attributed B s) (he : e ≠ 0) (b : Submission)
    (hfree : s.refusal e b = 0 → (s.eps e).queue = [] → (s.eps e).stopped = false →
      (s.chans (chanOf e)).running = false) : Attributed B (jz4740Queue e b s).2 := by
  rw [jz4740Queue_dma hs.wired he]
  have hsame : wiring (accept e b s).2 = wiring s := rfl
  have haccept : Attributed B (accept e b s).2 := attributed_accept ha
  split
  · exact ha
  · rename_i hok
    split
    · rename_i hidle
      exact attributed_kickDma (hs.wired.of_wiring hsame) haccept b.req
        (hfree (not_not.mp hok) hidle.1 hidle.2)
    · exact haccept

theorem jz4740Dequeue_eq (e : EpId) (r : Nat) (s : Dev) :
    (jz4740Dequeue e r s).2 =
      if e ≠ 0 ∧ r ∈ (s.eps e).queue then (done e r (- ECONNRESET) s).2 else s := by
  show ((if e = 0 then _ else _ : M Int) s).2 = _
  by_cases he : e = 0
  · rw [if_pos he, if_neg fun h => h.1 he]
    rfl
  · rw [if_neg he]
    show ((if r ∈ (s.eps e).queue then _ else _ : M Int) s).2 = _
    by_cases hr : r ∈ (s.eps e).queue
    · rw [if_pos hr, if_pos ⟨he, hr⟩]
      rfl
    · rw [if_neg hr, if_neg fun h => hr h.2]
      rfl

theorem dequeue_step (hs : Tidy s) (ha : Attributed B s) (e : EpId) (r : Nat) :
    Tidy (jz4740Dequeue e r s).2 ∧ Attributed B (jz4740Dequeue e r s).2 := by
  rw [jz4740Dequeue_eq]
  by_cases h : e ≠ 0 ∧ r ∈ (s.eps e).queue
  · rw [if_pos h]
    have hskip : Queued (· = r) s :=
      ⟨hs.fresh.nodup, hs.fresh.apart, fun i x hx _ => hs.fresh.untouched hx⟩
    refine ⟨⟨hs.wired.of_wiring (done_wiring e r _ s), done_fresh _ hskip h.2⟩, ?_⟩
    refine attributed_done ha fun _ hzero => ?_
    rw [finalStatus_fresh (hs.fresh.untouched h.2).2] at hzero
    exact absurd hzero (by decide)
  · rw [if_neg h]
    exact ⟨hs, ha⟩

/-! ### The end of a transfer -/

theorem readRegAddr_eq (e : EpId) (s : Dev) :
    readRegAddr e s = (match (s.eps e).regAddr with
      | some ch => pure (s.chans ch).addr
      | none => read : M (BitVec 32)) s := rfl

theorem readRegAddr_some (h : (s.eps e).regAddr = some ch) :
    readRegAddr e s = ((s.chans ch).addr, s) := by
  rw [readRegAddr_eq, h]
  rfl

theorem wired_setChan (hs : Wired s) (ch : Chan) {f : Transfer → Transfer}
    (hf : ∀ t, (f t).running = false) : Wired (s.setChan ch f) := by
  refine ⟨hs.dma, hs.isIn, hs.index, hs.enabled, fun i hrun => ?_⟩
  by_cases hi : i = ch
  · rw [show (s.setChan ch f).chans i = f (s.chans i) from if_pos hi, hf] at hrun
    cases hrun
  · rw [show (s.setChan ch f).chans i = s.chans i from if_neg hi] at hrun ⊢
    exact hs.regs i hrun

/-- Since `s₀` the request `r` of endpoint `e`, whose transfer is over, has been counted
as `a` bytes, and nothing else has happened. -/
structure Ended (e : EpId) (r : Nat) (a : BitVec 32) (s₀ s : Dev) : Prop where
  wired : Wired s
  queued : Queued (· = r) s
  queues : ∀ i, (s.eps i).queue = (s₀.eps i).queue
  req : s.reqs r = { s₀.reqs r with actual := a }
  others : ∀ x, x ≠ r → s.reqs x = s₀.reqs x
  free : (s.chans (chanOf e)).running = false
  chans : ∀ ch, ch ≠ chanOf e → s.chans ch = s₀.chans ch
  reported : SameReports s₀ s

theorem countDma_ended (hs : Tidy s) (hr : r ∈ (s.eps e).queue)
    (hreg : (s.eps e).regAddr = some (chanOf e)) (hfree : (s.chans (chanOf e)).running = false) :
    Ended e r ((s.chans (chanOf e)).addr - (s.reqs r).buf) s (countDma e r s).2 := by
  have hcount : (countDma e r s).2 = (modifyReq r (fun req =>
      { req with actual := req.actual + ((s.chans (chanOf e)).addr - (s.reqs r).buf) }) s).2 := by
    rw [countDma, run_bind, readRegAddr_some hreg]
    rfl
  have hsame : ∀ f x, x ≠ r → (modifyReq r f s).2.reqs x = s.reqs x := fun f x hne => if_neg hne
  have hself : ∀ f, (modifyReq r f s).2.reqs r = f (s.reqs r) := fun f => if_pos rfl
  rw [hcount]
  refine ⟨Wired.of_wiring (s := s) rfl hs.wired, ⟨hs.fresh.nodup, hs.fresh.apart, ?_⟩,
    fun _ => rfl, ?_, hsame _, hfree, fun _ _ => rfl, ⟨rfl, fun _ h => h⟩⟩
  · intro i x hx hne
    rw [hsame _ x hne]
    exact hs.fresh.untouched hx
  · rw [hself, (hs.fresh.untouched hr).1]
    simp

theorem Ended.mark (h : Ended e r a s₀ s) (c : Bool) (i : EpId) :
    Ended e r a s₀ (when c (emit (.inReady i false)) s).2 := by
  cases c with
  | true =>
    refine ⟨Wired.of_wiring (s := s) rfl h.wired, h.queued.of_eq (fun _ => rfl) rfl, h.queues,
      h.req, h.others, h.free, h.chans, ⟨h.reported.1, fun ch => ?_⟩⟩
    intro hkick
    rcases List.mem_append.mp hkick with hold | hnew
    · exact h.reported.2 ch hold
    · cases List.mem_singleton.mp hnew
  | false => exact h

theorem pioIrqDisable_wiring (e : EpId) : Leaves wiring (pioIrqDisable e) := by
  refine modifyEp_wiring ?_ e
  intro ep
  exact ⟨rfl, rfl, rfl, rfl⟩

theorem Ended.stop (hout : chanOf e = .dma2) (h : Ended e r a s₀ s) :
    Ended e r a s₀ ((pioIrqDisable e s).2.setChan .dma2
      fun t => { t with ep := 0, running := false }) := by
  have hqueue := queue_of_books (pioIrqDisable_books e s)
  refine ⟨wired_setChan (h.wired.of_wiring (pioIrqDisable_wiring e s)) .dma2 fun _ => rfl,
    h.queued.of_eq hqueue rfl, fun i => (hqueue i).trans (h.queues i), h.req, h.others, ?_, ?_,
    h.reported⟩
  · show (if chanOf e = .dma2 then _ else s.chans (chanOf e) : Transfer).running = false
    rw [if_pos hout]
  · intro ch hch
    show (if ch = .dma2 then _ else s.chans ch : Transfer) = _
    rw [if_neg (hout ▸ hch)]
    exact h.chans ch hch

theorem Ended.take (h : Ended e r a s₀ s) (count : Int) :
    Ended e r (a + BitVec.ofInt 32 (min ((s₀.reqs r).length - a).toInt count)) s₀
      (takePacket r count s).2 := by
  have htake : ∀ x, (takePacket r count s).2.reqs x =
      if x = r then { s.reqs x with
        actual := (s.reqs x).actual + BitVec.ofInt 32 (packetLength (s.reqs r) count) }
      else s.reqs x := fun _ => rfl
  refine ⟨Wired.of_wiring (s := s) rfl h.wired, ⟨h.queued.nodup, h.queued.apart, ?_⟩, h.queues, ?_,
    ?_, h.free, h.chans, h.reported⟩
  · intro i x hx hne
    rw [htake, if_neg hne]
    exact h.queued.fresh i x hx hne
  · rw [htake, if_pos rfl, h.req]
    rfl
  · intro x hne
    rw [htake, if_neg hne]
    exact h.others x hne

/-- What follows the completion: nothing that matters, or the start of the request that
is at the head now. -/
inductive Next (e : EpId) (t : Dev) : Dev → Prop where
  | idle {u : Dev} (hw : wiring u = wiring t) (hq : ∀ i, (u.eps i).queue = (t.eps i).queue)
      (hr : u.reqs = t.reqs) (hrep : SameReports t u) : Next e t u
  | start {r : Nat} (hhead : (t.eps e).queue.head? = some r) : Next e t (kickDma e r t).2

theorem writeFifo_eq {t : Dev} (hdma : s.useDma = true)
    (ht : t = (when ((countDma e r s).1.toNat % ((countDma e r s).2.eps e).desc.getD 0 ≠ 0)
      (emit (.inReady e false)) (countDma e r s).2).2) :
    (writeFifo e r s).2 = ((match ((done e r 0 t).2.eps e).queue.head? with
      | none => pioIrqDisable e >>= fun _ => pure 1
      | some r' => kickDma e r' >>= fun _ => pure 0 : M Int) (done e r 0 t).2).2 := by
  show ((if s.useDma = true then _ else _ : M Int) s).2 = _
  rw [if_pos hdma, ht]
  rfl

theorem writeFifo_ends (hs : Tidy s) (hr : r ∈ (s.eps e).queue)
    (hreg : (s.eps e).regAddr = some (chanOf e)) (hfree : (s.chans (chanOf e)).running = false) :
    ∃ t, Ended e r ((s.chans (chanOf e)).addr - (s.reqs r).buf) s t ∧
      Next e (done e r 0 t).2 (writeFifo e r s).2 := by
  refine ⟨_, (countDma_ended hs hr hreg hfree).mark ((countDma e r s).1.toNat %
    ((countDma e r s).2.eps e).desc.getD 0 ≠ 0) e, ?_⟩
  obtain ⟨t, ht⟩ : ∃ t, t = (when ((countDma e r s).1.toNat %
    ((countDma e r s).2.eps e).desc.getD 0 ≠ 0) (emit (.inReady e false)) (countDma e r s).2).2 :=
    ⟨_, rfl⟩
  rw [writeFifo_eq hs.wired.dma ht, ← ht]
  cases hq : ((done e r 0 t).2.eps e).queue.head? with
  | none =>
    exact .idle (pioIrqDisable_wiring e _) (queue_of_books (pioIrqDisable_books e _)) rfl
      ⟨rfl, fun _ h => h⟩
  | some r' => exact .start hq

theorem readFifo_eq {t u : Dev} (hdma : s.useDma = true)
    (ht : t = (pioIrqDisable e (countDma e r s).2).2.setChan .dma2
      fun t => { t with ep := 0, running := false })
    (hu : u = (takePacket r (t.reads.headD 0).toNat (read t).2).2) :
    (readFifo e r s).2 = ((match ((done e r 0 u).2.eps e).queue.head? with
      | none => pure 1
      | some r' => kickDma e r' >>= fun _ => pure 1 : M Int) (done e r 0 u).2).2 := by
  show ((if s.useDma = true then _ else _ : M Int) s).2 = _
  rw [if_pos hdma, hu, ht]
  rfl

theorem readFifo_ends (hs : Tidy s) (hout : chanOf e = .dma2) (hr : r ∈ (s.eps e).queue)
    (hreg : (s.eps e).regAddr = some (chanOf e)) (hfree : (s.chans (chanOf e)).running = false) :
    ∃ t, Ended e r (counted .dma2 (s.chans (chanOf e)).addr (s.reqs r) (s.reads.headD 0)) s t ∧
      Next e (done e r 0 t).2 (readFifo e r s).2 := by
  obtain ⟨t, ht⟩ : ∃ t, t = (pioIrqDisable e (countDma e r s).2).2.setChan .dma2
    fun t => { t with ep := 0, running := false } := ⟨_, rfl⟩
  have hstop : Ended e r _ s t := ht ▸ (countDma_ended hs hr hreg hfree).stop hout
  have hreads : t.reads = s.reads := by
    rw [ht, countDma, run_bind, readRegAddr_some hreg]
    rfl
  have hread : Ended e r _ s (read t).2 :=
    ⟨Wired.of_wiring (s := t) rfl hstop.wired, hstop.queued.of_eq (fun _ => rfl) rfl, hstop.queues,
      hstop.req, hstop.others, hstop.free, hstop.chans, hstop.reported⟩
  refine ⟨_, hread.take (s.reads.headD 0).toNat, ?_⟩
  obtain ⟨u, hu⟩ : ∃ u, u = (takePacket r (s.reads.headD 0).toNat (read t).2).2 := ⟨_, rfl⟩
  have hu' : u = (takePacket r (t.reads.headD 0).toNat (read t).2).2 := by rw [hu, hreads]
  rw [readFifo_eq hs.wired.dma ht hu', ← hu]
  cases hq : ((done e r 0 u).2.eps e).queue.head? with
  | none => exact .idle rfl (fun _ => rfl) rfl ⟨rfl, fun _ h => h⟩
  | some r' => exact .start hq

/-- The request is given back with what was counted; the next one gets a free channel. -/
theorem Ended.finish (he : e ≠ 0) {t u : Dev} (h : Ended e r a s₀ t) (hr : r ∈ (s₀.eps e).queue)
    (ha : Attributed B s₀) (hfit : a ≤ (s₀.reqs r).length) (hnext : Next e (done e r 0 t).2 u) :
    Tidy u ∧ Attributed B u := by
  have hwiring := done_wiring e r 0 t
  have hwired := h.wired.of_wiring hwiring
  have hfresh := done_fresh 0 h.queued (by rw [h.queues]; exact hr)
  have hdone : Attributed B (done e r 0 t).2 := by
    refine attributed_done (h.reported.attributed ha) fun _ _ => ?_
    rw [h.req]
    exact hfit
  cases hnext with
  | idle hw hq hreqs hrep =>
    exact ⟨⟨hwired.of_wiring hw, hfresh.of_eq hq hreqs⟩, hrep.attributed hdone⟩
  | start hhead =>
    refine ⟨⟨kickDma_wired hwired he _, kickDma_fresh hfresh e _⟩, ?_⟩
    refine attributed_kickDma hwired hdone _ ?_
    rw [chans_of_wiring hwiring]
    exact h.free

theorem epIndex_inj {e' : EpId} (he : e ≠ 0) (he' : e' ≠ 0) (hch : chanOf e = chanOf e')
    (hep : epIndex e = epIndex e') : e = e' := by
  revert e e'
  decide

theorem irq_dma1 (s : Dev) :
    jz4740UdcIrq (dmaIrq .dma1) noSetup s = inEpn (s.chans .dma1).ep s := rfl

theorem irq_dma2 (s : Dev) :
    jz4740UdcIrq (dmaIrq .dma2) noSetup s = outEpn (s.chans .dma2).ep s := rfl

theorem inEpn_eq (hin : chanOf e = .dma1) : inEpn (epIndex e) = inEp e := by
  have hcases : e = 2 ∨ e = 3 := by
    revert e
    decide
  rcases hcases with rfl | rfl
  · rfl
  · rfl

theorem outEpn_eq (he : e ≠ 0) (hout : chanOf e = .dma2) : outEpn (epIndex e) = outEp e := by
  have hone : e = 1 := by
    revert e
    decide
  rw [hone]
  rfl

theorem Wired.not_isNone (hs : Wired s) (he : e ≠ 0) : ¬((s.eps e).desc.isNone = true) := by
  intro hnone
  have hsome := hs.enabled e he
  rw [Option.isNone_iff_eq_none.mp hnone] at hsome
  cases hsome

/-- The handler finds no request to give back, or counts for the one at the head. -/
inductive Handled (ch : Chan) (e : EpId) (s u : Dev) : Prop where
  | nothing (hw : wiring u = wiring s) (hq : ∀ i, (u.eps i).queue = (s.eps i).queue)
      (hr : u.reqs = s.reqs) (hrep : SameReports s u)
  | gave {r : Nat} {t : Dev} (hhead : (s.eps e).queue.head? = some r)
      (hended : Ended e r (counted ch (s.chans ch).addr (s.reqs r) (s.reads.headD 0)) s t)
      (hnext : Next e (done e r 0 t).2 u)

theorem inEp_handled (hs : Tidy s) (he : e ≠ 0) (hin : chanOf e = .dma1)
    (hreg : (s.eps e).regAddr = some (chanOf e)) (hfree : (s.chans (chanOf e)).running = false) :
    Handled .dma1 e s (inEp e s).2 := by
  have htidy : Tidy (read s).2 :=
    ⟨Wired.of_wiring (s := s) rfl hs.wired, hs.fresh.of_eq (fun _ => rfl) rfl⟩
  by_cases hstall : s.reads.headD 0 &&& USB_INCSR_SENTSTALL ≠ 0
  · have heq : inEp e s = ((), (read s).2) := by
      show (if s.reads.headD 0 &&& USB_INCSR_SENTSTALL ≠ 0 then _ else _ : M Unit) (read s).2 = _
      rw [if_pos hstall]
      rfl
    rw [heq]
    exact .nothing rfl (fun _ => rfl) rfl ⟨rfl, fun _ h => h⟩
  · rw [inEp_eq hstall (hs.wired.not_isNone he)]
    cases hq : (s.eps e).queue.head? with
    | none => exact .nothing rfl (fun _ => rfl) rfl ⟨rfl, fun _ h => h⟩
    | some r =>
      obtain ⟨t, hended, hnext⟩ := writeFifo_ends htidy (List.mem_of_mem_head? hq) hreg hfree
      rw [hin] at hended
      refine .gave hq ?_ hnext
      exact ⟨hended.wired, hended.queued, hended.queues, hended.req, hended.others,
        hended.free, hended.chans, hended.reported⟩

theorem outEp_eq (hdesc : ¬(s.eps e).desc.isNone = true) (hdma : s.useDma = true) :
    outEp e s = (match (s.eps e).queue.head? with
      | none => pure ()
      | some r => readFifo e r >>= fun _ => pure () : M Unit) s := by
  show (if (s.eps e).desc.isNone = true then _ else _ : M Unit) s = _
  rw [if_neg hdesc, if_pos hdma]
  rfl

theorem outEp_handled (hs : Tidy s) (he : e ≠ 0) (hout : chanOf e = .dma2)
    (hreg : (s.eps e).regAddr = some (chanOf e)) (hfree : (s.chans (chanOf e)).running = false) :
    Handled .dma2 e s (outEp e s).2 := by
  rw [outEp_eq (hs.wired.not_isNone he) hs.wired.dma]
  cases hq : (s.eps e).queue.head? with
  | none => exact .nothing rfl (fun _ => rfl) rfl ⟨rfl, fun _ h => h⟩
  | some r =>
    obtain ⟨t, hended, hnext⟩ := readFifo_ends hs hout (List.mem_of_mem_head? hq) hreg hfree
    rw [hout] at hended
    exact .gave hq hended hnext

/-- The state in which the interrupt of a transfer finds the driver. -/
def ended (ch : Chan) (moved : BitVec 32) (s : Dev) : Dev :=
  s.setChan ch fun t => { t with addr := t.addr + moved, running := false }

theorem transferEnds_eq (ch : Chan) (moved : BitVec 32) (s : Dev) :
    transferEnds ch moved s = (if (s.chans ch).running = true then
      (modify (ended ch moved) >>= fun _ => jz4740UdcIrq (dmaIrq ch) noSetup)
      else pure () : M Unit) s := rfl

theorem ended_chan (ch : Chan) (moved : BitVec 32) (s : Dev) :
    (ended ch moved s).chans ch =
      { s.chans ch with addr := (s.chans ch).addr + moved, running := false } := if_pos rfl

theorem ended_tidy (hs : Tidy s) (ch : Chan) (moved : BitVec 32) : Tidy (ended ch moved s) :=
  ⟨wired_setChan hs.wired ch fun _ => rfl, hs.fresh.of_eq (fun _ => rfl) rfl⟩

/-- **What the end of a transfer does**: the interrupt is handled for the endpoint the
channel was started for. -/
theorem transferEnds_handled (hs : Tidy s) (moved : BitVec 32)
    (hrun : (s.chans ch).running = true) :
    ∃ e, e ≠ 0 ∧ chanOf e = ch ∧ (s.chans ch).ep = epIndex e ∧
      Handled ch e (ended ch moved s) (transferEnds ch moved s).2 := by
  obtain ⟨e, he, hch, hep, hreg⟩ := hs.wired.regs ch hrun
  have htidy := ended_tidy hs ch moved
  have hself := ended_chan ch moved s
  have hreg' : ((ended ch moved s).eps e).regAddr = some (chanOf e) := by
    rw [hch]
    exact hreg
  have hfree : ((ended ch moved s).chans (chanOf e)).running = false := by rw [hch, hself]
  have hep' : ((ended ch moved s).chans ch).ep = epIndex e := by rw [hself]; exact hep
  refine ⟨e, he, hch, hep, ?_⟩
  rw [transferEnds_eq, if_pos hrun, run_bind, run_modify]
  cases ch with
  | dma1 =>
    rw [irq_dma1, hep', inEpn_eq hch]
    exact inEp_handled htidy he hch hreg' hfree
  | dma2 =>
    rw [irq_dma2, hep', outEpn_eq he hch]
    exact outEp_handled htidy he hch hreg' hfree

/-- **The end of a transfer reports correctly if its bytes fit the request that is at the
head by then.** -/
theorem dmaEnd_step (hs : Tidy s) (ha : Attributed B s) (ch : Chan) (moved : BitVec 32)
    (hfits : ∀ e r, e ≠ 0 → chanOf e = ch → (s.chans ch).running = true →
      (s.chans ch).ep = epIndex e → (s.eps e).queue.head? = some r →
      counted ch ((s.chans ch).addr + moved) (s.reqs r) (s.reads.headD 0) ≤ (s.reqs r).length) :
    Tidy (transferEnds ch moved s).2 ∧ Attributed B (transferEnds ch moved s).2 := by
  by_cases hrun : (s.chans ch).running = true
  · obtain ⟨e, he, hch, hep, hhandled⟩ := transferEnds_handled hs moved hrun
    have htidy := ended_tidy hs ch moved
    have hended : Attributed B (ended ch moved s) := ha
    cases hhandled with
    | nothing hw hq hr hrep =>
      exact ⟨⟨htidy.wired.of_wiring hw, htidy.fresh.of_eq hq hr⟩, hrep.attributed hended⟩
    | @gave r t hhead hcount hnext =>
      refine hcount.finish he (List.mem_of_mem_head? hhead) hended ?_ hnext
      rw [ended_chan]
      exact hfits e r he hch hrun hep hhead
  · rw [transferEnds_eq, if_neg hrun]
    exact ⟨hs, ha⟩

/-! ### Runs -/

/-- Calls on the three endpoints that use DMA, and the ends of transfers. -/
def Act.OnDma : Act → Prop
  | .call (.queue e _) => e ≠ 0
  | .call (.dequeue e _) => e ≠ 0
  | .dmaEnd _ _ => True
  | _ => False

theorem Act.OnDma.cases {act : Act} (h : act.OnDma) :
    (∃ e b, e ≠ 0 ∧ act = .call (.queue e b)) ∨ (∃ e r, act = .call (.dequeue e r)) ∨
      ∃ ch moved, act = .dmaEnd ch moved := by
  cases act with
  | call c =>
    cases c with
    | queue e b => exact Or.inl ⟨e, b, h, rfl⟩
    | dequeue e r => exact Or.inr (Or.inl ⟨e, r, rfl⟩)
    | _ => exact h.elim
  | dmaEnd ch moved => exact Or.inr (Or.inr ⟨ch, moved, rfl⟩)
  | _ => exact h.elim

/-- The controller in use, with DMA: a gadget driver is bound, the host has reset the bus,
and the endpoints are enabled with packet sizes `max`. -/
def readyDev (max : EpId → Nat) : Dev :=
  { initDev true with
    driver := true
    speedKnown := true
    eps := fun e => { (initDev true).eps e with
      desc := if e = 0 then none else some (max e)
      maxpacket := if e = 0 then ((initDev true).eps e).maxpacket else max e } }

theorem readyDev_tidy (max : EpId → Nat) : Tidy (readyDev max) := by
  have hempty : ∀ e, ((readyDev max).eps e).queue = []
    | 0 | 1 | 2 | 3 => rfl
  refine ⟨⟨rfl, ?_, ?_, fun e he => ?_, fun ch hrun => ?_⟩, ⟨fun e => ?_, fun e e' r h => ?_,
    fun e r h => ?_⟩⟩
  · exact fun
      | 0 | 1 | 2 | 3 => rfl
  · exact fun
      | 0 | 1 | 2 | 3 => rfl
  · show (if e = 0 then none else some (max e)).isSome = true
    rw [if_neg he]
    rfl
  · cases hrun
  · rw [hempty]
    exact List.nodup_nil
  · rw [hempty] at h
    cases h
  · rw [hempty] at h
    cases h

theorem readyDev_attributed (max : EpId → Nat) : Attributed B (readyDev max) := by
  refine ⟨fun ch h => ?_, fun e r actual length _ h => ?_⟩
  · cases h
  · cases h

theorem Tidy.scripted (hs : Tidy s) (a : Step) :
    Tidy { s with reads := a.reads, callbacks := a.callbacks } :=
  ⟨Wired.of_wiring (s := s) rfl hs.wired, hs.fresh.of_eq (fun _ => rfl) rfl⟩

end Dingoo.Udc
