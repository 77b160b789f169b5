/-
Bulk IN transfers without DMA.

`jz4740_queue` sends the first packet of a request to an idle endpoint, before it links the
request; every interrupt sends another one, and the request is given back with the last.
So the packets of a transfer are those of `inPackets`.  A length that is negative as an
`int` is the exception: the length of the first packet is then negative, too.
-/
import Dingoo.Proofs.UdcPackets

namespace Dingoo.Udc

open Dingoo.Lib

variable {reads : List (BitVec 32)} {a : Step}

/-! ### The transfer -/

/-- The interrupt of `ep1in-bulk`. -/
def inep1Irq : Irq := ⟨false, false, false, false, true, false, false⟩

/-- The endpoint's status shows an empty FIFO and no stall. -/
def Drained (reads : List (BitVec 32)) : Prop :=
  ∀ csr ∈ reads, csr &&& USB_INCSR_FFNOTEMPT = 0 ∧ csr &&& USB_INCSR_SENTSTALL = 0

def BulkIrq (a : Step) : Prop := (∃ setup, a.act = .irq inep1Irq setup) ∧ Drained a.reads

/-- The request is queued. -/
def BulkQueue (b : Submission) (a : Step) : Prop := a.act = .call (.queue 2 b) ∧ Drained a.reads

/-- The completion callbacks of an action queue nothing. -/
def Silent (a : Step) : Prop := ∀ bs ∈ a.callbacks, bs = []

/-- The endpoint is idle, has packets of `m` bytes, and takes the request. -/
structure IdleBulk (m : Nat) (b : Submission) (s : Dev) : Prop where
  pio : s.useDma = false
  desc : (s.eps 2).desc = some m
  isIn : (s.eps 2).isIn = true
  index : (s.eps 2).index ≠ 0
  queue : (s.eps 2).queue = []
  started : (s.eps 2).stopped = false
  taken : s.refusal 2 b = 0

/-- The request is sent as it should be. -/
structure SendsBulk (mem : BitVec 32 → BitVec 8) (m : Nat) (b : Submission) (s : Dev)
    (l : List Step) : Prop where
  packets : packetsOf mem b.buf s l =
    (inPackets m b.zero (bytesAt mem b.buf b.length.toNat)).map fun bytes => ⟨bytes, false⟩
  /-- it is not given back before the last packet -/
  early : ∀ j < l.length, completions (run s (l.take j)).ledger = completions s.ledger
  completed : completions (run s l).ledger =
    completions s.ledger ++ [.completed 2 b.req 0 b.length b.length]
  /-- there is nothing more to send for it -/
  nothingMore : (∀ a ∈ l, Silent a) → ∀ more, (∀ a ∈ more, BulkIrq a) →
    packetsOf mem b.buf (run s l) more = [] ∧
    completions (run s (l ++ more)).ledger = completions (run s l).ledger

theorem Drained.head (h : Drained reads) :
    reads.headD 0 &&& USB_INCSR_FFNOTEMPT = 0 ∧ reads.headD 0 &&& USB_INCSR_SENTSTALL = 0 := by
  cases reads with
  | nil => exact ⟨rfl, rfl⟩
  | cons csr reads => exact h csr List.mem_cons_self

theorem Drained.tail (h : Drained reads) : Drained reads.tail :=
  fun csr hcsr => h csr (List.mem_of_mem_tail hcsr)

/-! ### A packet -/

section
variable {m k : Nat} {b : Submission} {c : List Entry} {s : Dev}

/-- The state behind a packet in the FIFO that is marked as ready. -/
def packetSent (m r : Nat) (s : Dev) : Dev :=
  (emit (.inReady 2 false) ((read s).2.fill 2 r m)).2

/-- What the driver does for it. -/
def packetWire (m : Nat) (r : Nat) (req : Request) : List Wire :=
  [.data 2 r req.actual (packetLength req m), .inReady 2 false]

theorem packetSent_wire (m r : Nat) (s : Dev) :
    (packetSent m r s).wire = s.wire ++ packetWire m r (s.reqs r) := by
  show s.wire ++ [_] ++ [_] = _
  rw [List.append_assoc]
  rfl

theorem writeFifoPio_eq {r : Nat} (hdesc : (s.eps 2).desc = some m)
    (hcsr : s.reads.headD 0 &&& USB_INCSR_FFNOTEMPT = 0) :
    writeFifoPio 2 r s =
      if isLast ((packetSent m r s).reqs r) (packetLength (s.reqs r) m) m then
        (1, (pioIrqDisableIfEmpty 2 (done 2 r 0 (packetSent m r s)).2).2)
      else (0, packetSent m r s) := by
  have hmax : (s.eps 2).desc.getD 0 = m := by
    rw [hdesc]
    rfl
  show (if s.reads.headD 0 &&& USB_INCSR_FFNOTEMPT = 0 then _ else _ : M Int) (read s).2 = _
  rw [if_pos hcsr, ← hmax]
  show (if isLast ((packetSent ((s.eps 2).desc.getD 0) r s).reqs r) _ _ = true then _ else _ :
    M Int) (packetSent ((s.eps 2).desc.getD 0) r s) = _
  rw [run_ite]
  rfl

/-- `k` packets of the request have been sent. -/
structure Fed (m : Nat) (b : Submission) (c : List Entry) (k : Nat) (s : Dev) : Prop where
  pio : s.useDma = false
  desc : (s.eps 2).desc = some m
  req : s.reqs b.req = b.request (m * k)
  quiet : completions s.ledger = c

theorem Fed.more (hm : 0 < m) (hlen : b.length.toNat < 2147483648) (h : Fed m b c k s)
    (hcsr : s.reads.headD 0 &&& USB_INCSR_FFNOTEMPT = 0)
    (hk : k + 1 < packetCount m b.zero b.length.toNat) :
    writeFifoPio 2 b.req s = (0, packetSent m b.req s) ∧
    Fed m b c (k + 1) (packetSent m b.req s) := by
  have hle : m * k ≤ b.length.toNat := le_of_lt_packetCount hm (Nat.lt_of_succ_lt hk)
  have hreq : (packetSent m b.req s).reqs b.req =
      b.request (m * k + min (b.length.toNat - m * k) m) :=
    req_fill (s := (read s).2) 2 h.req hlen hle
  constructor
  · rw [writeFifoPio_eq h.desc hcsr, hreq, h.req, packetLength_request hlen hle,
      isLast_request hm hlen hle, if_neg (by simpa using hk)]
  · refine ⟨h.pio, h.desc, ?_, h.quiet⟩
    rw [hreq]
    have hfull := (lt_packetCount hm b.length.toNat k).mp hk
    have hnext : m * (k + 1) = m * k + m := Nat.mul_succ m k
    congr 1
    omega

theorem pioIrqDisableIfEmpty_seen (e : EpId) : Leaves seen (pioIrqDisableIfEmpty e) :=
  Leaves.bind Leaves.get fun _ => Leaves.ite _ (fun _ => rfl) (Leaves.pure ())

theorem queue_done_silent {r : Nat} (hsilent : ∀ bs ∈ s.callbacks, bs = []) :
    ((done 2 r 0 s).2.eps 2).queue = (s.eps 2).queue.erase r := by
  have hnone : s.callbacks.headD [] = [] := by
    cases hcb : s.callbacks with
    | nil => rfl
    | cons bs rest => exact hsilent bs (by rw [hcb]; exact List.mem_cons_self)
  rw [queue_done, hnone]
  exact queue_retire 2 r 0 s 2

theorem Fed.last (hm : 0 < m) (hlen : b.length.toNat < 2147483648) (h : Fed m b c k s)
    (hcsr : s.reads.headD 0 &&& USB_INCSR_FFNOTEMPT = 0)
    (hk : k + 1 = packetCount m b.zero b.length.toNat) :
    ∃ t, writeFifoPio 2 b.req s = (1, t) ∧
      seen t = (s.wire ++ packetWire m b.req (b.request (m * k)),
        c ++ [.completed 2 b.req 0 b.length b.length]) ∧
      ((∀ bs ∈ s.callbacks, bs = []) → (t.eps 2).queue = (s.eps 2).queue.erase b.req) := by
  have hle : m * k ≤ b.length.toNat := @le_of_lt_packetCount m b.zero hm _ _ (by omega)
  have hend : m * k + min (b.length.toNat - m * k) m = b.length.toNat := by
    have hnot := mt (@lt_packetCount m b.zero hm b.length.toNat k).mpr (by omega)
    have hnext : m * (k + 1) = m * k + m := Nat.mul_succ m k
    omega
  have hreq : (packetSent m b.req s).reqs b.req =
      b.request (m * k + min (b.length.toNat - m * k) m) :=
    req_fill (s := (read s).2) 2 h.req hlen hle
  refine ⟨(pioIrqDisableIfEmpty 2 (done 2 b.req 0 (packetSent m b.req s)).2).2, ?_, ?_, ?_⟩
  · rw [writeFifoPio_eq h.desc hcsr, hreq, h.req, packetLength_request hlen hle,
      isLast_request hm hlen hle, if_pos (by simp [hk])]
  · have hall : BitVec.ofNat 32 b.length.toNat = b.length := BitVec.ofNat_toNat ..
    rw [pioIrqDisableIfEmpty_seen, done_seen, packetSent_wire, hreq, hend, h.req,
      finalStatus_fresh rfl]
    show (_, completions s.ledger ++ [.completed 2 b.req 0 (BitVec.ofNat 32 _) b.length]) = _
    rw [hall, h.quiet]
  · intro hsilent
    rw [queue_of_books (pioIrqDisableIfEmpty_books 2 _) 2]
    exact queue_done_silent (s := packetSent m b.req s) hsilent

/-! ### The actions -/

/-- The state in which `jz4740_queue` sends the first packet. -/
def bulkStarted (b : Submission) (s : Dev) (a : Step) : Dev :=
  (pioIrqEnable 2 (read (accept 2 b { s with reads := a.reads, callbacks := a.callbacks }).2).2).2

theorem kickstart_bulk (hs : IdleBulk m b s) (ha : Drained a.reads) :
    kickstart 2 b.req (accept 2 b { s with reads := a.reads, callbacks := a.callbacks }).2 =
      (decide ((writeFifoPio 2 b.req (bulkStarted b s a)).1 = 1),
        (writeFifoPio 2 b.req (bulkStarted b s a)).2) := by
  have hpio : (bulkStarted b s a).useDma = false := hs.pio
  show (if (s.eps 2).index = 0 then _ else _ : M Bool) _ = _
  rw [if_neg hs.index]
  show (if s.useDma = true then _ else _ : M Bool) _ = _
  rw [if_neg (by rw [hs.pio]; exact Bool.false_ne_true)]
  show (if (s.eps 2).isIn = true then _ else _ : M Bool) (bulkStarted b s a) = _
  rw [if_pos hs.isIn]
  show (if a.reads.headD 0 &&& USB_INCSR_FFNOTEMPT = 0 then _ else _ : M Bool)
    (bulkStarted b s a) = _
  rw [if_pos ha.head.1, run_bind, writeFifo_pio hpio]
  rfl

theorem bulkQueue_step (hs : IdleBulk m b s) (ha : BulkQueue b a) :
    step s a = if (writeFifoPio 2 b.req (bulkStarted b s a)).1 = 1 then
      (writeFifoPio 2 b.req (bulkStarted b s a)).2
    else (addTail 2 b.req (writeFifoPio 2 b.req (bulkStarted b s a)).2).2 := by
  rw [step, ha.1]
  show ((if s.refusal 2 b ≠ 0 then _ else _ : M Int) _).2 = _
  rw [if_neg (not_not.mpr hs.taken)]
  show ((if ((s.eps 2).queue = [] && !(s.eps 2).stopped) = true then _ else _ : M Int)
    (accept 2 b { s with reads := a.reads, callbacks := a.callbacks }).2).2 = _
  rw [if_pos (by simp [hs.queue, hs.started]), run_bind, kickstart_bulk hs ha.2, run_ite]
  by_cases hdone : (writeFifoPio 2 b.req (bulkStarted b s a)).1 = 1
  · rw [if_pos (decide_eq_true hdone), if_pos hdone]
    rfl
  · rw [if_neg (by simpa using hdone), if_neg hdone]
    rfl

theorem inEp_bulk {setup : Setup} (hact : a.act = .irq inep1Irq setup) :
    step s a = (inEp 2 { s with reads := a.reads, callbacks := a.callbacks }).2 := by
  rw [step, hact]
  rfl

theorem bulkIrq_step (ha : BulkIrq a) (hpio : s.useDma = false) (hdesc : (s.eps 2).desc = some m)
    (hqueue : (s.eps 2).queue = [b.req]) :
    step s a = (writeFifoPio 2 b.req
      { s with reads := a.reads.tail, callbacks := a.callbacks }).2 := by
  obtain ⟨⟨setup, hact⟩, hreads⟩ := ha
  have hhead : (s.eps 2).queue.head? = some b.req := by rw [hqueue]; rfl
  rw [inEp_bulk hact, inEp_eq (not_not.mpr hreads.head.2) (by simp [hdesc]), hhead]
  exact congrArg Prod.snd (writeFifo_pio
    (s := { s with reads := a.reads.tail, callbacks := a.callbacks }) hpio 2 b.req)

/-! ### The run -/

/-- The packet with number `k`. -/
def bulkPacket (mem : BitVec 32 → BitVec 8) (m : Nat) (b : Submission) (k : Nat) : Packet :=
  ⟨((bytesAt mem b.buf b.length.toNat).drop (m * k)).take m, false⟩

theorem packetOf_packetWire (mem : BitVec 32 → BitVec 8) (hlen : b.length.toNat < 2147483648)
    (hk : m * k ≤ b.length.toNat) :
    packetOf mem b.buf (packetWire m b.req (b.request (m * k))) =
      some (bulkPacket mem m b k) := by
  have hbytes := bytes_packet mem 2 hlen hk
  show some (⟨Wire.bytes mem b.buf _ ++ [], false⟩ : Packet) = _
  rw [List.append_nil, hbytes]
  rfl

/-- The actions send the packets from number `k` on, and give the request back. -/
structure Finishes (mem : BitVec 32 → BitVec 8) (m : Nat) (b : Submission) (c : List Entry)
    (k : Nat) (s : Dev) (l : List Step) : Prop where
  packets : packetsOf mem b.buf s l = (List.range' k l.length).map (bulkPacket mem m b)
  early : ∀ j < l.length, completions (run s (l.take j)).ledger = c
  completed : completions (run s l).ledger = c ++ [.completed 2 b.req 0 b.length b.length]
  idle : (∀ a ∈ l, Silent a) → ((run s l).eps 2).queue = []

variable {mem : BitVec 32 → BitVec 8}

theorem Finishes.one (hquiet : completions s.ledger = c)
    (hlen : b.length.toNat < 2147483648) (hk : m * k ≤ b.length.toNat)
    (hseen : seen (step s a) = (s.wire ++ packetWire m b.req (b.request (m * k)),
      c ++ [.completed 2 b.req 0 b.length b.length]))
    (hidle : Silent a → ((step s a).eps 2).queue = []) : Finishes mem m b c k s [a] where
  packets := packetsOf_cons (congrArg Prod.fst hseen) (packetOf_packetWire mem hlen hk) []
  early j hj := by
    obtain rfl : j = 0 := by simpa using hj
    exact hquiet
  completed := congrArg Prod.snd hseen
  idle hsilent := hidle (hsilent a List.mem_cons_self)

theorem Finishes.cons {l : List Step} (hquiet : completions s.ledger = c)
    (hlen : b.length.toNat < 2147483648) (hk : m * k ≤ b.length.toNat)
    (hwire : (step s a).wire = s.wire ++ packetWire m b.req (b.request (m * k)))
    (hrest : Finishes mem m b c (k + 1) (step s a) l) : Finishes mem m b c k s (a :: l) where
  packets := by
    rw [packetsOf_cons hwire (packetOf_packetWire mem hlen hk), hrest.packets]
    rfl
  early j hj := by
    cases j with
    | zero => exact hquiet
    | succ j => exact hrest.early j (Nat.lt_of_succ_lt_succ hj)
  completed := hrest.completed
  idle hsilent := hrest.idle fun x hx => hsilent x (List.mem_cons_of_mem a hx)

/-- **The interrupts send the rest of the packets.** -/
theorem finishes_of_fed (hm : 0 < m) (hlen : b.length.toNat < 2147483648) :
    ∀ (l : List Step) (s : Dev) (k : Nat), l ≠ [] → (∀ a ∈ l, BulkIrq a) →
    k + l.length = packetCount m b.zero b.length.toNat → Fed m b c k s →
    (s.eps 2).queue = [b.req] → Finishes mem m b c k s l := by
  intro l
  induction l with
  | nil => intro s k hne; exact absurd rfl hne
  | cons a l ih =>
    intro s k _ hirqs hcount hfed hqueue
    have ha := hirqs a List.mem_cons_self
    rw [List.length_cons] at hcount
    have hk : m * k ≤ b.length.toNat := @le_of_lt_packetCount m b.zero hm _ _ (by omega)
    have hstep := bulkIrq_step ha hfed.pio hfed.desc hqueue
    have hcsr := ha.2.tail.head.1
    have hfed' : Fed m b c k { s with reads := a.reads.tail, callbacks := a.callbacks } :=
      ⟨hfed.pio, hfed.desc, hfed.req, hfed.quiet⟩
    cases l with
    | nil =>
      obtain ⟨t, hrun, hseen, hidle⟩ := hfed'.last hm hlen hcsr hcount
      rw [hrun] at hstep
      refine .one hfed.quiet hlen hk (by rw [hstep]; exact hseen) fun hsilent => ?_
      rw [hstep]
      refine (hidle hsilent).trans ?_
      show (s.eps 2).queue.erase b.req = []
      rw [hqueue]
      exact List.erase_cons_head _ _
    | cons a' l =>
      rw [List.length_cons] at hcount
      obtain ⟨hrun, hnext⟩ := hfed'.more hm hlen hcsr (by omega)
      rw [hrun] at hstep
      refine .cons hfed.quiet hlen hk ?_ ?_
      · rw [hstep, packetSent_wire]
        show s.wire ++ packetWire m b.req (s.reqs b.req) = _
        rw [hfed.req]
      · refine ih _ (k + 1) (List.cons_ne_nil _ _) (List.forall_mem_cons.mp hirqs).2
          (by rw [List.length_cons]; omega) ?_ ?_
        · rw [hstep]
          exact hnext
        · rw [hstep]
          exact hqueue

theorem bulkStarted_fed (hs : IdleBulk m b s) (a : Step) :
    Fed m b (completions s.ledger) 0 (bulkStarted b s a) where
  pio := hs.pio
  desc := hs.desc
  req := if_pos rfl
  quiet := congrArg Prod.snd (accept_seen 2 b s)

/-- **A transfer**: the call sends the first packet, the interrupts the others. -/
theorem bulk_finishes (hm : 0 < m) (hlen : b.length.toNat < 2147483648) (hs : IdleBulk m b s)
    {irqs : List Step} (ha : BulkQueue b a) (hirqs : ∀ i ∈ irqs, BulkIrq i)
    (hcount : irqs.length + 1 = packetCount m b.zero b.length.toNat) :
    Finishes mem m b (completions s.ledger) 0 s (a :: irqs) := by
  have hfed := bulkStarted_fed hs a
  have hcsr : (bulkStarted b s a).reads.headD 0 &&& USB_INCSR_FFNOTEMPT = 0 := ha.2.tail.head.1
  have hstep := bulkQueue_step hs ha
  have hzero : m * 0 ≤ b.length.toNat := Nat.zero_le _
  cases irqs with
  | nil =>
    obtain ⟨t, hrun, hseen, hidle⟩ := hfed.last hm hlen hcsr hcount
    rw [hrun, if_pos rfl] at hstep
    refine .one rfl hlen hzero (by rw [hstep]; exact hseen) fun hsilent => ?_
    rw [hstep, hidle hsilent]
    show (s.eps 2).queue.erase b.req = []
    rw [hs.queue]
    rfl
  | cons i irqs =>
    rw [List.length_cons] at hcount
    obtain ⟨hrun, hnext⟩ := hfed.more hm hlen hcsr (by omega)
    rw [hrun, if_neg (by show ¬ (0 : Int) = 1; decide)] at hstep
    refine .cons rfl hlen hzero ?_ ?_
    · rw [hstep]
      refine (packetSent_wire m b.req (bulkStarted b s a)).trans ?_
      rw [hfed.req]
      rfl
    · refine finishes_of_fed hm hlen _ _ 1 (List.cons_ne_nil _ _) hirqs
        (by rw [List.length_cons]; omega) ?_ ?_
      · rw [hstep]
        exact ⟨hnext.pio, hnext.desc, hnext.req, hnext.quiet⟩
      · rw [hstep, queue_addTail, if_pos rfl]
        show (s.eps 2).queue ++ [b.req] = _
        rw [hs.queue]
        rfl

theorem bulkIrq_idle (ha : BulkIrq a) (hqueue : (s.eps 2).queue = []) :
    seen (step s a) = seen s ∧ ((step s a).eps 2).queue = [] := by
  obtain ⟨⟨setup, hact⟩, hreads⟩ := ha
  have hhead : (s.eps 2).queue.head? = none := by rw [hqueue]; rfl
  have hstep : step s a = { s with reads := a.reads.tail, callbacks := a.callbacks } := by
    rw [inEp_bulk hact]
    by_cases hdesc : (s.eps 2).desc.isNone = true
    · show ((if a.reads.headD 0 &&& USB_INCSR_SENTSTALL ≠ 0 then _ else _ : M Unit) _).2 = _
      rw [if_neg (not_not.mpr hreads.head.2)]
      show ((if (s.eps 2).desc.isNone = true then _ else _ : M Unit) _).2 = _
      rw [if_pos hdesc]
      rfl
    · rw [inEp_eq (s := { s with reads := a.reads, callbacks := a.callbacks })
        (not_not.mpr hreads.head.2) hdesc, hhead]
      rfl
  rw [hstep]
  exact ⟨rfl, hqueue⟩

theorem bulkIrqs_idle : ∀ (more : List Step) (s : Dev), (∀ a ∈ more, BulkIrq a) →
    (s.eps 2).queue = [] → packetsOf mem b.buf s more = [] ∧
      completions (run s more).ledger = completions s.ledger := by
  intro more
  induction more with
  | nil => intro s _ _; exact ⟨rfl, rfl⟩
  | cons a more ih =>
    intro s hirqs hqueue
    obtain ⟨hseen, hqueue'⟩ := bulkIrq_idle (hirqs a List.mem_cons_self) hqueue
    obtain ⟨hpackets, hledger⟩ := ih (step s a) (List.forall_mem_cons.mp hirqs).2 hqueue'
    have hwire : (step s a).wire = s.wire := congrArg Prod.fst hseen
    refine ⟨?_, hledger.trans (congrArg Prod.snd hseen)⟩
    rw [packetsOf, hwire, List.drop_length, hpackets]
    rfl

/-! ### A negative length -/

theorem bulkQueue_wire (hs : IdleBulk m b s) (ha : BulkQueue b a) :
    (step s a).wire = s.wire ++ packetWire m b.req (b.request 0) := by
  have hfed := bulkStarted_fed hs a
  have hcsr : (bulkStarted b s a).reads.headD 0 &&& USB_INCSR_FFNOTEMPT = 0 := ha.2.tail.head.1
  have hsent : (packetSent m b.req (bulkStarted b s a)).wire =
      s.wire ++ packetWire m b.req (b.request 0) := by
    rw [packetSent_wire, hfed.req]
    rfl
  have hwrite : (writeFifoPio 2 b.req (bulkStarted b s a)).2.wire =
      s.wire ++ packetWire m b.req (b.request 0) := by
    rw [writeFifoPio_eq hfed.desc hcsr, ← hsent]
    split
    · refine congrArg Prod.fst ((pioIrqDisableIfEmpty_seen 2 _).trans (done_seen 2 b.req 0 _))
    · rfl
  rw [bulkQueue_step hs ha]
  split
  · exact hwrite
  · exact hwrite

theorem not_sends_of_neg (hm : 0 < m) (hmax : m < 65536) (hlen : ¬ b.length.toNat < 2147483648)
    (hs : IdleBulk m b s) (ha : BulkQueue b a) (irqs : List Step) :
    packetsOf mem b.buf s (a :: irqs) ≠
      (inPackets m b.zero (bytesAt mem b.buf b.length.toNat)).map fun bytes => ⟨bytes, false⟩ := by
  intro heq
  have hlong := length_bytes_neg mem 2 hlen m
  rw [packetsOf_cons (bulkQueue_wire hs ha) rfl] at heq
  obtain ⟨p, hp, hfirst⟩ := List.mem_map.mp (heq ▸ List.mem_cons_self)
  have hshort := length_of_mem_inPackets hm hp
  have hbytes := congrArg (fun q : Packet => q.bytes.length) hfirst
  have happend : ((packetWire m b.req (b.request 0)).flatMap (Wire.bytes mem b.buf)).length =
      (Wire.bytes mem b.buf (.data 2 b.req (b.request 0).actual
        (packetLength (b.request 0) m))).length := congrArg List.length (List.append_nil _)
  simp only [happend] at hbytes
  omega

/-- **Exactly the lengths that are not negative as an `int` are sent as they should be.** -/
theorem sendsBulk_iff (mem : BitVec 32 → BitVec 8) (hm : 0 < m) (hmax : m < 65536)
    (hs : IdleBulk m b s) (ha : BulkQueue b a) {irqs : List Step}
    (hirqs : ∀ i ∈ irqs, BulkIrq i)
    (hcount : irqs.length + 1 =
      (inPackets m b.zero (bytesAt mem b.buf b.length.toNat)).length) :
    SendsBulk mem m b s (a :: irqs) ↔ b.length.toNat < 2147483648 := by
  have hpackets := @inPackets_eq m b.zero hm (bytesAt mem b.buf b.length.toNat)
  rw [length_bytesAt] at hpackets
  rw [hpackets, chunks, List.length_map, List.length_range] at hcount
  constructor
  · intro h
    by_contra hlen
    exact not_sends_of_neg hm hmax hlen hs ha irqs h.packets
  · intro hlen
    have hfin := @bulk_finishes a m b s mem hm hlen hs irqs ha hirqs hcount
    refine ⟨?_, hfin.early, hfin.completed, fun hsilent more hmore => ?_⟩
    · rw [hfin.packets, hpackets, List.length_cons, hcount, chunks, List.map_map,
        List.range_eq_range']
      rfl
    · have hrun : run s (a :: irqs ++ more) = run (run s (a :: irqs)) more :=
        List.foldl_append
      rw [hrun]
      exact bulkIrqs_idle more _ hmore (hfin.idle hsilent)

end

/-- The device with a gadget driver and the endpoint enabled. -/
def bulkDev (m : Nat) : Dev :=
  { initDev false with driver := true, speedKnown := true }.setEp 2
    fun ep => { ep with desc := some m, maxpacket := m }

/-- A call of `jz4740_queue` for the endpoint. -/
def queueBulk (length : BitVec 32) (zero : Bool) : Submission := ⟨1, true, length, 0x1000, zero⟩

def queueBulkStep (b : Submission) : Step := ⟨.call (.queue 2 b), [], []⟩

theorem bulkDev_idle (m : Nat) (length : BitVec 32) (zero : Bool) :
    IdleBulk m (queueBulk length zero) (bulkDev m) :=
  ⟨rfl, rfl, rfl, Nat.one_ne_zero, rfl, rfl, rfl⟩

theorem queueBulkStep_queues (b : Submission) : BulkQueue b (queueBulkStep b) :=
  ⟨rfl, fun _ h => absurd h List.not_mem_nil⟩

/-- Eight bytes in packets of four, with an empty one behind them. -/
theorem sendsBulk_zero_packet :
    IdleBulk 4 (queueBulk 8 true) (bulkDev 4) ∧
    SendsBulk (fun a => a.setWidth 8) 4 (queueBulk 8 true) (bulkDev 4)
      [queueBulkStep (queueBulk 8 true), ⟨.irq inep1Irq noSetup, [], []⟩,
        ⟨.irq inep1Irq noSetup, [], []⟩] := by
  refine ⟨bulkDev_idle 4 8 true, (sendsBulk_iff _ (by decide) (by decide) (bulkDev_idle 4 8 true)
    (queueBulkStep_queues _) (fun i hi => ?_) (by decide)).mpr (by decide)⟩
  have hirq : i = ⟨.irq inep1Irq noSetup, [], []⟩ := by simpa using hi
  rw [hirq]
  exact ⟨⟨noSetup, rfl⟩, fun _ h => absurd h List.not_mem_nil⟩

/-- With 2 GB the length of the first packet is negative, and the request is given back at
once, with all bytes sent. -/
theorem two_gigabytes_given_back :
    (run (bulkDev 64) [queueBulkStep (queueBulk 0x80000000 false)]).wire =
      [.data 2 1 0 (-2147483648), .inReady 2 false] ∧
    completions (run (bulkDev 64) [queueBulkStep (queueBulk 0x80000000 false)]).ledger =
      [.completed 2 1 0 0x80000000 0x80000000] ∧
    ∀ irqs, ¬ SendsBulk (fun a => a.setWidth 8) 64 (queueBulk 0x80000000 false) (bulkDev 64)
      (queueBulkStep (queueBulk 0x80000000 false) :: irqs) := by
  refine ⟨by decide +kernel, by decide +kernel, fun irqs h => ?_⟩
  exact not_sends_of_neg (by decide) (by decide) (by decide) (bulkDev_idle 64 0x80000000 false)
    (queueBulkStep_queues _) irqs h.packets

end Dingoo.Udc
