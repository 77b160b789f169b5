/-
The data stage of a control IN transfer.

The data go out as they should if their last packet is a short one.  If it is full,
`jz4740_ep0_in` asks for an empty packet behind it, whatever the gadget driver said, while
`write_fifo_ep0` goes by the `zero` flag: without the flag the request is given back and an
empty packet follows that nobody asked for; with it the empty packet is the right one, but
the request stays on the queue.
-/
import Dingoo.Proofs.UdcPackets

namespace Dingoo.Udc

open Dingoo.Lib

/-! ### The data stage -/

/-- The interrupt of endpoint 0. -/
def ep0Irq : Irq := ⟨false, true, false, false, false, false, false⟩

/-- An interrupt of endpoint 0 that finds no packet in either direction, and no stall. -/
def Ep0Irq (a : Step) : Prop :=
  (∃ setup, a.act = .irq ep0Irq setup) ∧ a.reads.headD 0 &&& USB_CSR0_SENTSTALL = 0 ∧
    a.reads.headD 0 &&& (USB_CSR0_INPKTRDY ||| USB_CSR0_OUTPKTRDY) = 0

/-- Endpoint 0 is idle in an IN transfer and takes the request. -/
structure IdleEp0 (b : Submission) (s : Dev) : Prop where
  isIn : (s.eps 0).isIn = true
  index : (s.eps 0).index = 0
  maxpacket : (s.eps 0).maxpacket = EP0_MAXPACKETSIZE
  queue : (s.eps 0).queue = []
  started : (s.eps 0).stopped = false
  taken : s.refusal 0 b = 0

/-- Packets of which the last one ends the data. -/
def endMarked (packets : List (List (BitVec 8))) : List Packet :=
  (packets.dropLast.map fun bytes => ⟨bytes, false⟩) ++
    packets.getLast?.toList.map fun bytes => ⟨bytes, true⟩

/-- The data are sent as they should be, by the call `a` and one interrupt for each packet:
the last packet is there before the last interrupt. -/
structure SendsEp0 (mem : BitVec 32 → BitVec 8) (b : Submission) (s : Dev) (a : Step)
    (irqs : List Step) : Prop where
  packets : packetsOf mem b.buf s (a :: irqs) =
    endMarked (inPackets EP0_MAXPACKETSIZE b.zero (bytesAt mem b.buf b.length.toNat))
  inTime : ∃ actual, completions (run s (a :: irqs.dropLast)).ledger =
    completions s.ledger ++ [.completed 0 b.req 0 actual b.length]
  once : completions (run s (a :: irqs)).ledger =
    completions (run s (a :: irqs.dropLast)).ledger

theorem endMarked_concat (packets : List (List (BitVec 8))) (p : List (BitVec 8)) :
    endMarked (packets ++ [p]) = (packets.map fun bytes => ⟨bytes, false⟩) ++ [⟨p, true⟩] := by
  rw [endMarked, List.dropLast_concat, List.getLast?_concat]
  rfl

/-! ### One packet -/

section
variable {k : Nat} {b : Submission} {c : List Entry} {s : Dev} {a : Step}

/-- `k` packets of the request have been sent. -/
structure Xmit (b : Submission) (c : List Entry) (k : Nat) (s : Dev) : Prop where
  state : s.ep0state = .dataStateXmit
  maxpacket : (s.eps 0).maxpacket = EP0_MAXPACKETSIZE
  queue : (s.eps 0).queue = [b.req]
  req : s.reqs b.req = b.request (EP0_MAXPACKETSIZE * k)
  quiet : completions s.ledger = c

/-- How a packet is marked as ready. -/
def readyWire (last needZlp : Bool) : List Wire :=
  if last && !needZlp then [.inReady 0 true]
  else .inReady 0 false :: if needZlp then [.inReady 0 false] else []

/-- The state of endpoint 0 behind a packet. -/
def readyState (last needZlp : Bool) (st : Ep0State) : Ep0State :=
  if last && !needZlp then .waitForSetup else if needZlp then .dataStateNeedZlp else st

theorem writeFifoEp0_eq {r : Nat} (hmax : (s.eps 0).maxpacket = EP0_MAXPACKETSIZE) :
    writeFifoEp0 r s =
      if isLast ((s.fill 0 r EP0_MAXPACKETSIZE).reqs r)
          (packetLength (s.reqs r) EP0_MAXPACKETSIZE) EP0_MAXPACKETSIZE then
        (1, (done 0 r 0 (s.fill 0 r EP0_MAXPACKETSIZE)).2)
      else (0, s.fill 0 r EP0_MAXPACKETSIZE) := by
  rw [← hmax]
  show (if isLast ((s.fill 0 r (s.eps 0).maxpacket).reqs r) _ _ = true then _ else _ : M Int)
    (s.fill 0 r (s.eps 0).maxpacket) = _
  rw [run_ite]
  rfl

theorem ep0InReady_eq (last needZlp : Bool) (s : Dev) :
    (ep0InReady (if last then 1 else 0) needZlp s).2 =
      { s with
        wire := s.wire ++ readyWire last needZlp
        ep0state := readyState last needZlp s.ep0state } := by
  have htwo : s.wire ++ [.inReady 0 false, .inReady 0 false] =
      s.wire ++ [.inReady 0 false] ++ [.inReady 0 false] := by simp
  cases last with
  | false =>
    cases needZlp with
    | false => rfl
    | true =>
      simp only [readyWire, Bool.false_and, Bool.false_eq_true, if_false, if_true, htwo]
      rfl
  | true =>
    cases needZlp with
    | false => rfl
    | true =>
      simp only [readyWire, Bool.not_true, Bool.and_false, Bool.false_eq_true, if_false,
        if_true, htwo]
      rfl

/-- The state behind `write_fifo_ep0`. -/
def ep0Fed (b : Submission) (last : Bool) (s : Dev) : Dev :=
  if last then (done 0 b.req 0 (s.fill 0 b.req EP0_MAXPACKETSIZE)).2
  else s.fill 0 b.req EP0_MAXPACKETSIZE

/-- The event of the packet with number `k`. -/
def ep0Data (b : Submission) (k : Nat) : Wire :=
  .data 0 b.req (b.request (EP0_MAXPACKETSIZE * k)).actual
    (packetLength (b.request (EP0_MAXPACKETSIZE * k)) EP0_MAXPACKETSIZE)

theorem ep0Fed_seen (h : Xmit b c k s) (last : Bool) :
    seen (ep0Fed b last s) = (s.wire ++ [ep0Data b k],
      c ++ if last then [.completed 0 b.req 0
        ((s.fill 0 b.req EP0_MAXPACKETSIZE).reqs b.req).actual b.length] else []) := by
  have hwire : (s.fill 0 b.req EP0_MAXPACKETSIZE).wire = s.wire ++ [ep0Data b k] := by
    rw [wire_fill, h.req]
    rfl
  have hlength : ((s.fill 0 b.req EP0_MAXPACKETSIZE).reqs b.req).length = b.length := by
    show (if b.req = b.req then _ else _ : Request).length = _
    rw [if_pos rfl, h.req]
    rfl
  have hstatus : ((s.fill 0 b.req EP0_MAXPACKETSIZE).reqs b.req).status = - EINPROGRESS := by
    show (if b.req = b.req then _ else _ : Request).status = _
    rw [if_pos rfl, h.req]
    rfl
  have hquiet : completions (s.fill 0 b.req EP0_MAXPACKETSIZE).ledger = c := h.quiet
  cases last with
  | false =>
    rw [if_neg Bool.false_ne_true, List.append_nil, ← hwire]
    exact Prod.ext rfl hquiet
  | true =>
    rw [ep0Fed, if_pos rfl, if_pos rfl, done_seen, hwire, hquiet, hlength,
      finalStatus_fresh hstatus]

/-- The state behind `jz4740_ep0_in`. -/
def ep0Sent (b : Submission) (last needZlp : Bool) (s : Dev) : Dev :=
  { ep0Fed b last s with
    wire := (ep0Fed b last s).wire ++ readyWire last needZlp
    ep0state := readyState last needZlp (ep0Fed b last s).ep0state }

section
variable (h : Xmit b c k s)
include h

/-- **A call of `jz4740_ep0_in`** in terms of the two tests for the last packet. -/
theorem Xmit.ep0In_eq (hne : b.length ≠ 0) :
    (ep0In s).2 = ep0Sent b
      (isLast ((s.fill 0 b.req EP0_MAXPACKETSIZE).reqs b.req)
        (packetLength (s.reqs b.req) EP0_MAXPACKETSIZE) EP0_MAXPACKETSIZE)
      ((b.length - (b.request (EP0_MAXPACKETSIZE * k)).actual).toNat = EP0_MAXPACKETSIZE) s := by
  have hhead : head 0 s = (some b.req, s) := by
    show ((s.eps 0).queue.head?, s) = _
    rw [h.queue]
    rfl
  have hlength : (s.reqs b.req).length = b.length := by rw [h.req]; rfl
  have hactual : (s.reqs b.req).actual = (b.request (EP0_MAXPACKETSIZE * k)).actual := by
    rw [h.req]
  have hin : ep0In s = ep0InReady (writeFifoEp0 b.req s).1
      (((s.reqs b.req).length - (s.reqs b.req).actual).toNat = EP0_MAXPACKETSIZE)
      (writeFifoEp0 b.req s).2 := by
    unfold ep0In
    rw [run_bind, hhead]
    show (if (s.reqs b.req).length = 0 then _ else _ : M Unit) s = _
    rw [if_neg (by rw [hlength]; exact hne)]
    rfl
  rw [hin, writeFifoEp0_eq h.maxpacket, hlength, hactual]
  generalize isLast _ _ _ = last
  rw [ep0Sent, ← ep0InReady_eq, ep0Fed]
  cases last with
  | false => rfl
  | true => rfl

theorem Xmit.sent (hlen : b.length.toNat < 2147483648)
    (hk : EP0_MAXPACKETSIZE * k < b.length.toNat) :
    (ep0In s).2 = ep0Sent b
      (decide (¬ k + 1 < packetCount EP0_MAXPACKETSIZE b.zero b.length.toNat))
      (decide (EP0_MAXPACKETSIZE * (k + 1) = b.length.toNat)) s := by
  have hne : b.length ≠ 0 := fun hzero => by
    rw [hzero] at hk
    exact absurd hk (Nat.not_lt_zero _)
  have hrest : (b.length - (b.request (EP0_MAXPACKETSIZE * k)).actual).toNat =
      b.length.toNat - EP0_MAXPACKETSIZE * k := by
    show (b.length - BitVec.ofNat 32 (EP0_MAXPACKETSIZE * k)).toNat = _
    rw [BitVec.toNat_sub, BitVec.toNat_ofNat]
    omega
  have hfull : (b.length.toNat - EP0_MAXPACKETSIZE * k = EP0_MAXPACKETSIZE) ↔
      EP0_MAXPACKETSIZE * (k + 1) = b.length.toNat := by
    rw [Nat.mul_succ]
    omega
  rw [h.ep0In_eq hne, req_fill 0 h.req hlen (Nat.le_of_lt hk), h.req,
    packetLength_request hlen (Nat.le_of_lt hk),
    isLast_request (by decide) hlen (Nat.le_of_lt hk), hrest]
  simp only [hfull]

theorem Xmit.more (hlen : b.length.toNat < 2147483648)
    (hk : EP0_MAXPACKETSIZE * (k + 1) < b.length.toNat) :
    (ep0In s).2.wire = s.wire ++ [ep0Data b k, .inReady 0 false] ∧
    Xmit b c (k + 1) (ep0In s).2 := by
  have hnext : EP0_MAXPACKETSIZE * (k + 1) = EP0_MAXPACKETSIZE * k + EP0_MAXPACKETSIZE :=
    Nat.mul_succ _ _
  have hlast : k + 1 < packetCount EP0_MAXPACKETSIZE b.zero b.length.toNat :=
    (lt_packetCount (by decide) _ _).mpr (Or.inl hk)
  have hsent := h.sent hlen (by omega)
  rw [decide_eq_false (not_not.mpr hlast), decide_eq_false (Nat.ne_of_lt hk)] at hsent
  have hseen := ep0Fed_seen h false
  rw [hsent]
  refine ⟨?_, h.state, h.maxpacket, h.queue, ?_, (congrArg Prod.snd hseen).trans (by simp)⟩
  · show (ep0Fed b false s).wire ++ [.inReady 0 false] = _
    rw [show (ep0Fed b false s).wire = _ from congrArg Prod.fst hseen, List.append_assoc]
    rfl
  · refine (req_fill 0 h.req hlen (by omega)).trans ?_
    congr 1
    omega

theorem Xmit.short (hlen : b.length.toNat < 2147483648)
    (hk : EP0_MAXPACKETSIZE * k < b.length.toNat)
    (hend : b.length.toNat < EP0_MAXPACKETSIZE * (k + 1)) :
    seen (ep0In s).2 = (s.wire ++ [ep0Data b k, .inReady 0 true],
      c ++ [.completed 0 b.req 0 b.length b.length]) ∧
    (ep0In s).2.ep0state = .waitForSetup := by
  have hnext : EP0_MAXPACKETSIZE * (k + 1) = EP0_MAXPACKETSIZE * k + EP0_MAXPACKETSIZE :=
    Nat.mul_succ _ _
  have hlast : ¬ k + 1 < packetCount EP0_MAXPACKETSIZE b.zero b.length.toNat := by
    rw [lt_packetCount (by decide)]
    omega
  have hactual : ((s.fill 0 b.req EP0_MAXPACKETSIZE).reqs b.req).actual = b.length := by
    rw [req_fill 0 h.req hlen (Nat.le_of_lt hk)]
    show BitVec.ofNat 32 (EP0_MAXPACKETSIZE * k + _) = _
    rw [show EP0_MAXPACKETSIZE * k + min (b.length.toNat - EP0_MAXPACKETSIZE * k)
      EP0_MAXPACKETSIZE = b.length.toNat by omega]
    exact BitVec.ofNat_toNat ..
  have hsent := h.sent hlen hk
  rw [decide_eq_true hlast, decide_eq_false (Nat.ne_of_gt hend)] at hsent
  have hseen := ep0Fed_seen h true
  rw [hactual, if_pos rfl] at hseen
  rw [hsent]
  have hledger : completions (ep0Fed b true s).ledger = _ := congrArg Prod.snd hseen
  refine ⟨Prod.ext ?_ hledger, rfl⟩
  show (ep0Fed b true s).wire ++ [.inReady 0 true] = _
  rw [show (ep0Fed b true s).wire = _ from congrArg Prod.fst hseen, List.append_assoc]
  rfl

theorem ep0Sent_zlp (last : Bool) :
    (ep0Sent b last true s).wire = s.wire ++ [ep0Data b k, .inReady 0 false, .inReady 0 false] ∧
    (ep0Sent b last true s).ep0state = .dataStateNeedZlp := by
  have hwire : (ep0Fed b last s).wire = s.wire ++ [ep0Data b k] :=
    congrArg Prod.fst (ep0Fed_seen h last)
  unfold ep0Sent
  rw [hwire, List.append_assoc]
  cases last with
  | false => exact ⟨rfl, rfl⟩
  | true => exact ⟨rfl, rfl⟩

end

theorem Xmit.full (h : Xmit b c k s) (hlen : b.length.toNat < 2147483648)
    (hend : EP0_MAXPACKETSIZE * (k + 1) = b.length.toNat) :
    (ep0In s).2.wire = s.wire ++ [ep0Data b k, .inReady 0 false, .inReady 0 false] ∧
    (ep0In s).2.ep0state = .dataStateNeedZlp ∧
    (b.zero = true → completions (ep0In s).2.ledger = c) := by
  have hnext : EP0_MAXPACKETSIZE * (k + 1) = EP0_MAXPACKETSIZE * k + EP0_MAXPACKETSIZE :=
    Nat.mul_succ _ _
  have hsize : 0 < EP0_MAXPACKETSIZE := by decide
  have hsent := h.sent hlen (by omega)
  rw [decide_eq_true hend] at hsent
  rw [hsent]
  obtain ⟨hwire, hstate⟩ := ep0Sent_zlp h
    (decide (¬ k + 1 < packetCount EP0_MAXPACKETSIZE b.zero b.length.toNat))
  refine ⟨hwire, hstate, fun hzero => ?_⟩
  have hmore : k + 1 < packetCount EP0_MAXPACKETSIZE b.zero b.length.toNat :=
    (lt_packetCount hsize _ _).mpr (Or.inr ⟨hend, hzero⟩)
  rw [decide_eq_false (not_not.mpr hmore)]
  exact (congrArg Prod.snd (ep0Fed_seen h false)).trans (by simp)

/-! ### The actions -/

/-- The state in which `jz4740_queue` sends the first packet. -/
def ep0Started (b : Submission) (s : Dev) (a : Step) : Dev :=
  (setEp0state .dataStateXmit (read (addTail 0 b.req
    (accept 0 b { s with reads := a.reads, callbacks := a.callbacks }).2).2).2).2

theorem ep0Queue_step (hs : IdleEp0 b s) (hact : a.act = .call (.queue 0 b)) :
    step s a = (ep0In (ep0Started b s a)).2 := by
  rw [step, hact]
  show ((if s.refusal 0 b ≠ 0 then _ else _ : M Int) _).2 = _
  rw [if_neg (not_not.mpr hs.taken)]
  show ((if ((s.eps 0).queue = [] && !(s.eps 0).stopped) = true then _ else _ : M Int)
    (accept 0 b { s with reads := a.reads, callbacks := a.callbacks }).2).2 = _
  rw [if_pos (by simp [hs.queue, hs.started]), run_bind]
  have hkick : kickstart 0 b.req
      (accept 0 b { s with reads := a.reads, callbacks := a.callbacks }).2 =
      (true, (ep0In (ep0Started b s a)).2) := by
    show (if (s.eps 0).index = 0 then _ else _ : M Bool) _ = _
    rw [if_pos hs.index]
    show (true, ((if (s.eps 0).isIn = true then _ else _ : M Unit) _).2) = _
    rw [if_pos hs.isIn]
    rfl
  rw [hkick]
  rfl

theorem ep0Started_xmit (hs : IdleEp0 b s) (a : Step) :
    Xmit b (completions s.ledger) 0 (ep0Started b s a) where
  state := rfl
  maxpacket := hs.maxpacket
  queue := by
    show (s.eps 0).queue ++ [b.req] = _
    rw [hs.queue]
    rfl
  req := if_pos rfl
  quiet := congrArg Prod.snd (accept_seen 0 b s)

theorem ep0Irq_step (ha : Ep0Irq a) :
    step s a = (handleEp0In { s with reads := a.reads.tail, callbacks := a.callbacks }).2 := by
  obtain ⟨⟨setup, hact⟩, hstall, hfree⟩ := ha
  rw [step, hact]
  show ((if a.reads.headD 0 &&& USB_CSR0_SENTSTALL ≠ 0 then _ else _ : M Unit) _).2 = _
  rw [if_neg (not_not.mpr hstall)]
  show ((if a.reads.headD 0 &&& (USB_CSR0_INPKTRDY ||| USB_CSR0_OUTPKTRDY) = 0 then _ else _ :
    M Unit) _).2 = _
  rw [if_pos hfree]
  rfl

theorem Xmit.irq_step (h : Xmit b c k s) (ha : Ep0Irq a) :
    step s a = (ep0In { s with reads := a.reads.tail, callbacks := a.callbacks }).2 := by
  rw [ep0Irq_step ha]
  simp only [handleEp0In, run_bind, run_get, h.state]

theorem ep0Irq_parked (ha : Ep0Irq a) (hstate : s.ep0state ≠ .dataStateXmit) :
    completions (step s a).ledger = completions s.ledger ∧
    (step s a).ep0state ≠ .dataStateXmit := by
  rw [ep0Irq_step ha]
  simp only [handleEp0In, run_bind, run_get]
  cases hst : s.ep0state with
  | dataStateXmit => exact absurd hst hstate
  | waitForSetup => exact ⟨rfl, Ep0State.noConfusion⟩
  | dataStateNeedZlp => exact ⟨rfl, Ep0State.noConfusion⟩
  | waitForOutStatus => exact ⟨rfl, Ep0State.noConfusion⟩
  | dataStateRecv => exact ⟨rfl, Ep0State.noConfusion⟩

theorem ep0Irqs_parked : ∀ (l : List Step) (s : Dev), (∀ a ∈ l, Ep0Irq a) →
    s.ep0state ≠ .dataStateXmit → completions (run s l).ledger = completions s.ledger := by
  intro l
  induction l with
  | nil => intro s _ _; rfl
  | cons a l ih =>
    intro s hirqs hstate
    obtain ⟨hledger, hnext⟩ := ep0Irq_parked (hirqs a List.mem_cons_self) hstate
    exact (ih (step s a) (List.forall_mem_cons.mp hirqs).2 hnext).trans hledger

theorem ep0Irq_waiting (ha : Ep0Irq a) (hstate : s.ep0state = .waitForSetup) :
    seen (step s a) = seen s := by
  rw [ep0Irq_step ha]
  simp only [handleEp0In, run_bind, run_get, hstate]
  rfl

/-! ### The run -/

/-- The action sends the packet with number `k`. -/
def Loads (b : Submission) (c : List Entry) (k : Nat) (s : Dev) (a : Step) : Prop :=
  ∃ t, step s a = (ep0In t).2 ∧ t.wire = s.wire ∧ Xmit b c k t

theorem Xmit.loads (h : Xmit b c k s) (ha : Ep0Irq a) : Loads b c k s a :=
  ⟨_, h.irq_step ha, rfl, h.state, h.maxpacket, h.queue, h.req, h.quiet⟩

theorem loads_queue (hs : IdleEp0 b s) (hact : a.act = .call (.queue 0 b)) :
    Loads b (completions s.ledger) 0 s a :=
  ⟨_, ep0Queue_step hs hact, rfl, ep0Started_xmit hs a⟩

/-- The packet with number `k`. -/
def ep0Packet (mem : BitVec 32 → BitVec 8) (b : Submission) (dataEnd : Bool) (k : Nat) : Packet :=
  ⟨((bytesAt mem b.buf b.length.toNat).drop (EP0_MAXPACKETSIZE * k)).take EP0_MAXPACKETSIZE,
    dataEnd⟩

theorem packetOf_ready (mem : BitVec 32 → BitVec 8) (b : Submission) (k : Nat)
    (last needZlp : Bool) :
    packetOf mem b.buf (ep0Data b k :: readyWire last needZlp) =
      some ⟨Wire.bytes mem b.buf (ep0Data b k), last && !needZlp⟩ := by
  have hnil : Wire.bytes mem b.buf (ep0Data b k) ++ [] = _ := List.append_nil _
  cases last <;> cases needZlp <;> exact congrArg (fun bytes => some (⟨bytes, _⟩ : Packet)) hnil

theorem packetOf_ep0 (mem : BitVec 32 → BitVec 8) (hlen : b.length.toNat < 2147483648)
    (hk : EP0_MAXPACKETSIZE * k ≤ b.length.toNat) (last needZlp : Bool) :
    packetOf mem b.buf (ep0Data b k :: readyWire last needZlp) =
      some (ep0Packet mem b (last && !needZlp) k) := by
  rw [packetOf_ready]
  exact congrArg (fun bytes => some (⟨bytes, _⟩ : Packet)) (bytes_packet mem 0 hlen hk)

section
variable (mem : BitVec 32 → BitVec 8) {last : Nat}

theorem Loads.more (h : Loads b c k s a) (hlen : b.length.toNat < 2147483648)
    (hk : EP0_MAXPACKETSIZE * (k + 1) < b.length.toNat) :
    (∀ l, packetsOf mem b.buf s (a :: l) =
      ep0Packet mem b false k :: packetsOf mem b.buf (step s a) l) ∧
    Xmit b c (k + 1) (step s a) := by
  obtain ⟨t, hstep, hwire, hxmit⟩ := h
  have hle : EP0_MAXPACKETSIZE * k ≤ EP0_MAXPACKETSIZE * (k + 1) :=
    Nat.mul_le_mul_left _ (Nat.le_succ k)
  obtain ⟨hsent, hnext⟩ := hxmit.more hlen hk
  rw [← hstep] at hsent hnext
  rw [hwire] at hsent
  exact ⟨packetsOf_cons hsent (packetOf_ep0 mem hlen (by omega) false false), hnext⟩

theorem full_of_lt (hk : k < last) (hlast : EP0_MAXPACKETSIZE * last < b.length.toNat) :
    EP0_MAXPACKETSIZE * (k + 1) < b.length.toNat :=
  Nat.lt_of_le_of_lt (Nat.mul_le_mul_left _ hk) hlast

/-- **Data with a short packet at the end** are sent with the end marked there, and given
back with it. -/
theorem ep0_short_run (hlen : b.length.toNat < 2147483648)
    (hlast : EP0_MAXPACKETSIZE * last < b.length.toNat)
    (hend : b.length.toNat < EP0_MAXPACKETSIZE * (last + 1)) :
    ∀ (l : List Step) (s : Dev) (a : Step) (k : Nat), k ≤ last → Loads b c k s a →
    (∀ i ∈ l, Ep0Irq i) → k + l.length = last + 1 →
    packetsOf mem b.buf s (a :: l) =
      (List.range' k (last - k)).map (ep0Packet mem b false) ++ [ep0Packet mem b true last] ∧
    completions (run s (a :: l.dropLast)).ledger =
      c ++ [.completed 0 b.req 0 b.length b.length] ∧
    completions (run s (a :: l)).ledger = c ++ [.completed 0 b.req 0 b.length b.length] := by
  intro l
  induction l with
  | nil =>
    intro s a k hk _ _ hcount
    rw [List.length_nil] at hcount
    omega
  | cons i l ih =>
    intro s a k hk hloads hirqs hcount
    have hi := hirqs i List.mem_cons_self
    rw [List.length_cons] at hcount
    rcases Nat.lt_or_eq_of_le hk with hlt | rfl
    · obtain ⟨hfirst, hxmit⟩ := hloads.more mem hlen (full_of_lt hlt hlast)
      obtain ⟨hpackets, hintime, hrun⟩ := ih (step s a) i (k + 1) hlt (hxmit.loads hi)
        (List.forall_mem_cons.mp hirqs).2 (by omega)
      refine ⟨?_, ?_, hrun⟩
      · rw [hfirst, hpackets, show last - k = last - (k + 1) + 1 by omega, List.range'_succ]
        rfl
      · cases l with
        | nil =>
          rw [List.length_nil] at hcount
          omega
        | cons i' l => exact hintime
    · -- the last packet, and an interrupt behind it
      obtain rfl : l = [] := List.eq_nil_of_length_eq_zero (by omega)
      obtain ⟨t, hstep, hwire, hxmit⟩ := hloads
      obtain ⟨hseen, hstate⟩ := hxmit.short hlen hlast hend
      rw [← hstep] at hseen hstate
      rw [hwire] at hseen
      have hwait := ep0Irq_waiting hi hstate
      refine ⟨?_, congrArg Prod.snd hseen, (congrArg Prod.snd hwait).trans
        (congrArg Prod.snd hseen)⟩
      have hnone : packetsOf mem b.buf (step s a) [i] = [] := by
        have hsame : (step (step s a) i).wire = (step s a).wire := congrArg Prod.fst hwait
        rw [packetsOf, hsame, List.drop_length]
        rfl
      rw [packetsOf_cons (congrArg Prod.fst hseen)
        (packetOf_ep0 mem hlen (Nat.le_of_lt hlast) true false), hnone, Nat.sub_self]
      rfl

/-- **Data with a full packet at the end**: it does not end them. -/
theorem ep0_full_packet (hlen : b.length.toNat < 2147483648)
    (hend : EP0_MAXPACKETSIZE * (last + 1) = b.length.toNat)
    (hlast : EP0_MAXPACKETSIZE * last < b.length.toNat) :
    ∀ (l : List Step) (s : Dev) (a : Step) (k : Nat), k ≤ last → Loads b c k s a →
    (∀ i ∈ l, Ep0Irq i) → last ≤ k + l.length →
    (packetsOf mem b.buf s (a :: l))[last - k]? = some (ep0Packet mem b false last) := by
  have hfull : ∀ (l : List Step) (s : Dev) (a : Step), Loads b c last s a →
      (packetsOf mem b.buf s (a :: l))[last - last]? = some (ep0Packet mem b false last) := by
    rintro l s a ⟨t, hstep, hwire, hxmit⟩
    have hsent := (hxmit.full hlen hend).1
    rw [← hstep, hwire] at hsent
    rw [packetsOf_cons hsent (packetOf_ep0 mem hlen (Nat.le_of_lt hlast) false true),
      Nat.sub_self]
    rfl
  intro l
  induction l with
  | nil =>
    intro s a k hk hloads _ hcount
    obtain rfl : k = last := Nat.le_antisymm hk hcount
    exact hfull [] s a hloads
  | cons i l ih =>
    intro s a k hk hloads hirqs hcount
    rcases Nat.lt_or_eq_of_le hk with hlt | rfl
    · obtain ⟨hfirst, hxmit⟩ := hloads.more mem hlen (full_of_lt hlt hlast)
      rw [hfirst, show last - k = last - (k + 1) + 1 by omega, List.getElem?_cons_succ]
      rw [List.length_cons] at hcount
      exact ih (step s a) i (k + 1) hlt (hxmit.loads (hirqs i List.mem_cons_self))
        (List.forall_mem_cons.mp hirqs).2 (by omega)
    · exact hfull (i :: l) s a hloads

theorem ep0_full_pending (hlen : b.length.toNat < 2147483648) (hzero : b.zero = true)
    (hend : EP0_MAXPACKETSIZE * (last + 1) = b.length.toNat)
    (hlast : EP0_MAXPACKETSIZE * last < b.length.toNat) :
    ∀ (l : List Step) (s : Dev) (a : Step) (k : Nat), k ≤ last → Loads b c k s a →
    (∀ i ∈ l, Ep0Irq i) → completions (run s (a :: l)).ledger = c := by
  have hfull : ∀ (l : List Step) (s : Dev) (a : Step), Loads b c last s a →
      (∀ i ∈ l, Ep0Irq i) → completions (run s (a :: l)).ledger = c := by
    rintro l s a ⟨t, hstep, -, hxmit⟩ hirqs
    obtain ⟨-, hstate, hquiet⟩ := hxmit.full hlen hend
    rw [← hstep] at hstate hquiet
    have hparked : (step s a).ep0state ≠ .dataStateXmit := by
      rw [hstate]
      exact Ep0State.noConfusion
    exact (ep0Irqs_parked l (step s a) hirqs hparked).trans (hquiet hzero)
  intro l
  induction l with
  | nil =>
    intro s a k hk hloads hirqs
    rcases Nat.lt_or_eq_of_le hk with hlt | rfl
    · exact (hloads.more (fun _ => 0) hlen (full_of_lt hlt hlast)).2.quiet
    · exact hfull [] s a hloads hirqs
  | cons i l ih =>
    intro s a k hk hloads hirqs
    rcases Nat.lt_or_eq_of_le hk with hlt | rfl
    · have hxmit := (hloads.more (fun _ => 0) hlen (full_of_lt hlt hlast)).2
      exact ih (step s a) i (k + 1) hlt (hxmit.loads (hirqs i List.mem_cons_self))
        (List.forall_mem_cons.mp hirqs).2
    · exact hfull (i :: l) s a hloads hirqs

theorem ep0_neg_packet (hlen : ¬ b.length.toNat < 2147483648) (hloads : Loads b c 0 s a)
    (l : List Step) : ∃ p ∈ packetsOf mem b.buf s (a :: l), 2147483648 ≤ p.bytes.length := by
  obtain ⟨t, hstep, hwire, hxmit⟩ := hloads
  have hne : b.length ≠ 0 := fun hzero => by
    rw [hzero] at hlen
    exact hlen (by decide)
  have hin := hxmit.ep0In_eq hne
  rw [← hstep] at hin
  generalize isLast _ _ _ = last at hin
  generalize decide (_ = EP0_MAXPACKETSIZE) = needZlp at hin
  have hsent : (step s a).wire = s.wire ++ ep0Data b 0 :: readyWire last needZlp := by
    have hfed : (ep0Fed b last t).wire = t.wire ++ [ep0Data b 0] :=
      congrArg Prod.fst (ep0Fed_seen hxmit last)
    rw [hin, ← hwire]
    show (ep0Fed b last t).wire ++ readyWire last needZlp = _
    rw [hfed, List.append_assoc]
    rfl
  rw [packetsOf_cons hsent (packetOf_ready mem b 0 last needZlp)]
  exact ⟨_, List.mem_cons_self, length_bytes_neg mem 0 hlen EP0_MAXPACKETSIZE⟩

theorem mem_of_mem_endMarked {packets : List (List (BitVec 8))} {p : Packet}
    (hp : p ∈ endMarked packets) : p.bytes ∈ packets := by
  rcases List.mem_append.mp hp with hp | hp
  · obtain ⟨bytes, hbytes, rfl⟩ := List.mem_map.mp hp
    exact (List.dropLast_sublist packets).subset hbytes
  · obtain ⟨bytes, hbytes, rfl⟩ := List.mem_map.mp hp
    exact List.mem_of_getLast? (Option.mem_toList.mp hbytes)

end

theorem endMarked_chunks (mem : BitVec 32 → BitVec 8) (b : Submission) (n : Nat) :
    endMarked (chunks EP0_MAXPACKETSIZE (bytesAt mem b.buf b.length.toNat) (n + 1)) =
      (List.range n).map (ep0Packet mem b false) ++ [ep0Packet mem b true n] := by
  rw [chunks_succ, endMarked_concat, chunks, List.map_map]
  rfl

section
variable {mem : BitVec 32 → BitVec 8} {irqs : List Step}

theorem SendsEp0.length_lt (h : SendsEp0 mem b s a irqs) (hs : IdleEp0 b s)
    (hact : a.act = .call (.queue 0 b)) : b.length.toNat < 2147483648 := by
  by_contra hlen
  obtain ⟨p, hp, hlong⟩ := ep0_neg_packet mem hlen (loads_queue hs hact) irqs
  rw [h.packets] at hp
  have hshort := length_of_mem_inPackets (by decide) (mem_of_mem_endMarked hp)
  have hmax : EP0_MAXPACKETSIZE < 2147483648 := by decide
  omega

theorem SendsEp0.not_full (h : SendsEp0 mem b s a irqs) (hs : IdleEp0 b s)
    (hact : a.act = .call (.queue 0 b)) (hirqs : ∀ i ∈ irqs, Ep0Irq i)
    (hcount : irqs.length =
      (inPackets EP0_MAXPACKETSIZE b.zero (bytesAt mem b.buf b.length.toNat)).length)
    (last : Nat) : b.length.toNat ≠ EP0_MAXPACKETSIZE * (last + 1) := by
  intro hend
  have hsize : 0 < EP0_MAXPACKETSIZE := by decide
  have hloads := loads_queue hs hact
  have hlen := h.length_lt hs hact
  have hlast : EP0_MAXPACKETSIZE * last < b.length.toNat := by
    rw [hend]
    exact Nat.mul_lt_mul_of_pos_left (Nat.lt_succ_self last) hsize
  cases hzero : b.zero with
  | false =>
    -- it should be marked, and it is not
    have hpackets := @inPackets_eq EP0_MAXPACKETSIZE false hsize
      (bytesAt mem b.buf b.length.toNat)
    rw [length_bytesAt, hend, packetCount_of_full hsize, ← hend] at hpackets
    rw [hzero, hpackets, chunks, List.length_map, List.length_range] at hcount
    have hfull := ep0_full_packet mem hlen hend.symm hlast irqs s a 0 (Nat.zero_le _) hloads
      hirqs (by omega)
    rw [h.packets, hzero, hpackets, endMarked_chunks, Nat.sub_zero,
      List.getElem?_append_right (by simp)] at hfull
    simp [ep0Packet] at hfull
  | true =>
    -- the request should be given back, and it is not
    obtain ⟨actual, hgiven⟩ := h.inTime
    rw [ep0_full_pending hlen hzero hend.symm hlast irqs.dropLast s a 0 (Nat.zero_le _) hloads
      fun i hi => hirqs i ((List.dropLast_sublist irqs).subset hi)] at hgiven
    have hlength := congrArg List.length hgiven
    rw [List.length_append, List.length_singleton] at hlength
    omega

theorem sendsEp0_of_short (hs : IdleEp0 b s) (hact : a.act = .call (.queue 0 b))
    (hirqs : ∀ i ∈ irqs, Ep0Irq i)
    (hcount : irqs.length =
      (inPackets EP0_MAXPACKETSIZE b.zero (bytesAt mem b.buf b.length.toNat)).length)
    (hlen : b.length.toNat < 2147483648) (hshort : ¬ EP0_MAXPACKETSIZE ∣ b.length.toNat) :
    SendsEp0 mem b s a irqs := by
  have hsize : 0 < EP0_MAXPACKETSIZE := by decide
  have hpackets := @inPackets_eq EP0_MAXPACKETSIZE b.zero hsize
    (bytesAt mem b.buf b.length.toNat)
  rw [length_bytesAt, packetCount_of_not_dvd hshort] at hpackets
  rw [hpackets, chunks, List.length_map, List.length_range] at hcount
  have hlast : EP0_MAXPACKETSIZE * (b.length.toNat / EP0_MAXPACKETSIZE) < b.length.toNat := by
    refine Nat.lt_of_le_of_ne (Nat.mul_div_le _ _) fun heq => hshort ?_
    exact ⟨_, heq.symm⟩
  have hend : b.length.toNat <
      EP0_MAXPACKETSIZE * (b.length.toNat / EP0_MAXPACKETSIZE + 1) :=
    Nat.lt_mul_div_succ _ hsize
  obtain ⟨hrun, hintime, honce⟩ := ep0_short_run mem hlen hlast hend irqs s a 0 (Nat.zero_le _)
    (loads_queue hs hact) hirqs (by omega)
  refine ⟨?_, ⟨b.length, hintime⟩, honce.trans hintime.symm⟩
  rw [hrun, hpackets, endMarked_chunks, List.range_eq_range']
  rfl

end

/-- **Exactly the data with a short packet at the end are sent as they should be.** -/
theorem sendsEp0_iff (mem : BitVec 32 → BitVec 8) (hs : IdleEp0 b s)
    (hact : a.act = .call (.queue 0 b)) {irqs : List Step} (hirqs : ∀ i ∈ irqs, Ep0Irq i)
    (hpos : 0 < b.length.toNat)
    (hcount : irqs.length =
      (inPackets EP0_MAXPACKETSIZE b.zero (bytesAt mem b.buf b.length.toNat)).length) :
    SendsEp0 mem b s a irqs ↔
      b.length.toNat < 2147483648 ∧ ¬ EP0_MAXPACKETSIZE ∣ b.length.toNat := by
  constructor
  · intro h
    refine ⟨h.length_lt hs hact, ?_⟩
    rintro ⟨n, hn⟩
    cases n with
    | zero =>
      rw [Nat.mul_zero] at hn
      omega
    | succ last => exact h.not_full hs hact hirqs hcount last hn
  · rintro ⟨hlen, hshort⟩
    exact sendsEp0_of_short hs hact hirqs hcount hlen hshort

end

/-- The device with a gadget driver, in an IN transfer of endpoint 0. -/
def ep0Dev : Dev :=
  { initDev false with driver := true, speedKnown := true }.setEp 0
    fun ep => { ep with isIn := true }

def queueEp0 (length : BitVec 32) (zero : Bool) : Submission := ⟨1, true, length, 0x1000, zero⟩

def queueEp0Step (b : Submission) : Step := ⟨.call (.queue 0 b), [], []⟩

def ep0IrqStep : Step := ⟨.irq ep0Irq noSetup, [], []⟩

theorem ep0Dev_idle (length : BitVec 32) (zero : Bool) :
    IdleEp0 (queueEp0 length zero) ep0Dev := ⟨rfl, rfl, rfl, rfl, rfl, rfl⟩

/-- 70 bytes in two packets. -/
theorem sendsEp0_two_packets :
    IdleEp0 (queueEp0 70 true) ep0Dev ∧
    SendsEp0 (fun a => a.setWidth 8) (queueEp0 70 true) ep0Dev (queueEp0Step (queueEp0 70 true))
      [ep0IrqStep, ep0IrqStep] := by
  refine ⟨ep0Dev_idle 70 true, (sendsEp0_iff _ (ep0Dev_idle 70 true) rfl (fun i hi => ?_)
    (by decide) (by decide +kernel)).mpr (by decide)⟩
  have hirq : i = ep0IrqStep := by simpa using hi
  rw [hirq]
  exact ⟨⟨noSetup, rfl⟩, by decide, by decide⟩

/-- 64 bytes: without the `zero` flag an empty packet follows and has the end of the data;
with it the request is not given back. -/
theorem full_packet_not_last :
    (run ep0Dev [queueEp0Step (queueEp0 64 false), ep0IrqStep]).wire =
      [.data 0 1 0 64, .inReady 0 false, .inReady 0 false, .inReady 0 true] ∧
    ¬ SendsEp0 (fun a => a.setWidth 8) (queueEp0 64 false) ep0Dev
      (queueEp0Step (queueEp0 64 false)) [ep0IrqStep] ∧
    completions (run ep0Dev [queueEp0Step (queueEp0 64 true), ep0IrqStep, ep0IrqStep]).ledger =
      [] ∧
    ¬ SendsEp0 (fun a => a.setWidth 8) (queueEp0 64 true) ep0Dev
      (queueEp0Step (queueEp0 64 true)) [ep0IrqStep, ep0IrqStep] := by
  have hpending :
      completions (run ep0Dev [queueEp0Step (queueEp0 64 true), ep0IrqStep]).ledger = [] := by
    decide +kernel
  refine ⟨by decide +kernel, fun h => absurd h.packets (by decide +kernel), by decide +kernel,
    fun h => ?_⟩
  obtain ⟨actual, hgiven⟩ := h.inTime
  rw [show [ep0IrqStep, ep0IrqStep].dropLast = [ep0IrqStep] from rfl, hpending] at hgiven
  cases hgiven

end Dingoo.Udc
