/-
Every request that the USB device controller driver accepts is given back at most once,
and until then it is on the queue of its endpoint.

The ledger of a run lists what was accepted and what was completed.  `pending` is what is
still owed: an accepted request joins the end, a completed one leaves.  `Balanced` says
that the queues are exactly that.  Two moments are out of balance, and both are inside one
call.

  * Between `accept` and `addTail` a request is owed and not linked (`Floating`).  On an
    idle endpoint it can be completed right there, before it was ever linked.
  * `done` needs one thing of its request: that without it queue and ledger agree
    (`Owes`).  That covers the head of a queue, any member of it, and a floating request
    of an empty one.

The completion callback runs in between, with the endpoint stopped; so what it queues is
linked and not started, and `done` ends in balance whatever the callback did.
-/
import Dingoo.Lib.Ensures
import Dingoo.Lib.Runs
import Dingoo.Linux.Jz4740Udc
import Mathlib.Data.List.Nodup

namespace Dingoo.Udc

open Dingoo.Lib

variable {e : EpId} {r : Nat} {s : Dev} {f : Endpoint → Endpoint} {b : Submission} {α : Type}
  {x : M Unit}

/-! ### The ledger -/

/-- What is owed after one more entry. -/
def book (p : EpId → List Nat) : Entry → EpId → List Nat
  | .accepted e r => fun i => if i = e then p i ++ [r] else p i
  | .completed e r _ _ _ => fun i => if i = e then (p i).erase r else p i

/-- The requests accepted on each endpoint and not completed, in order of acceptance. -/
def pending (ledger : List Entry) : EpId → List Nat := ledger.foldl book fun _ => []

/-- A completion is of a request that is owed. -/
def Due (p : EpId → List Nat) : Entry → Prop
  | .accepted _ _ => True
  | .completed e r _ _ _ => r ∈ p e

/-- Every completion is of a request accepted before and not completed since. -/
def AtMostOnce (ledger : List Entry) : Prop := EachStep book Due (fun _ => []) ledger

theorem pending_concat (ledger : List Entry) (x : Entry) :
    pending (ledger ++ [x]) = book (pending ledger) x := by
  simp [pending]

theorem atMostOnce_concat {ledger : List Entry} {x : Entry} :
    AtMostOnce (ledger ++ [x]) ↔ AtMostOnce ledger ∧ Due (pending ledger) x :=
  eachStep_concat ledger

/-! ### Balance -/

/-- The part of the state the account is about. -/
def books (s : Dev) : List Entry × (EpId → List Nat) := (s.ledger, fun e => (s.eps e).queue)

/-- The queues are what is owed, each request once. -/
structure Balanced (s : Dev) : Prop where
  once : AtMostOnce s.ledger
  account : ∀ e, pending s.ledger e = (s.eps e).queue
  nodup : ∀ e, (s.eps e).queue.Nodup

/-- Request `r` is owed on `e`; apart from it the account is balanced. -/
structure Owes (e : EpId) (r : Nat) (s : Dev) : Prop where
  once : AtMostOnce s.ledger
  others : ∀ i, i ≠ e → pending s.ledger i = (s.eps i).queue ∧ (s.eps i).queue.Nodup
  mem : r ∈ pending s.ledger e
  rest : (pending s.ledger e).erase r = (s.eps e).queue.erase r
  nodup : ((s.eps e).queue.erase r).Nodup

/-- Request `r` has been accepted on `e` and is not linked yet. -/
structure Floating (e : EpId) (r : Nat) (s : Dev) : Prop where
  once : AtMostOnce s.ledger
  others : ∀ i, i ≠ e → pending s.ledger i = (s.eps i).queue ∧ (s.eps i).queue.Nodup
  account : pending s.ledger e = (s.eps e).queue ++ [r]
  nodup : ((s.eps e).queue ++ [r]).Nodup

theorem ledger_of_books {s' : Dev} (h : books s' = books s) : s'.ledger = s.ledger :=
  congrArg Prod.fst h

theorem queue_of_books {s' : Dev} (h : books s' = books s) (e : EpId) :
    (s'.eps e).queue = (s.eps e).queue :=
  congrFun (congrArg Prod.snd h) e

theorem Balanced.of_books (s s' : Dev) (h : books s' = books s) (hs : Balanced s) :
    Balanced s' where
  once := by rw [ledger_of_books h]; exact hs.once
  account e := by rw [ledger_of_books h, queue_of_books h]; exact hs.account e
  nodup e := by rw [queue_of_books h]; exact hs.nodup e

theorem Owes.of_books (s s' : Dev) (h : books s' = books s) (hs : Owes e r s) : Owes e r s' where
  once := by rw [ledger_of_books h]; exact hs.once
  others i hi := by rw [ledger_of_books h, queue_of_books h]; exact hs.others i hi
  mem := by rw [ledger_of_books h]; exact hs.mem
  rest := by rw [ledger_of_books h, queue_of_books h]; exact hs.rest
  nodup := by rw [queue_of_books h]; exact hs.nodup

theorem Floating.of_books (s s' : Dev) (h : books s' = books s)
    (hs : Floating e r s) : Floating e r s' where
  once := by rw [ledger_of_books h]; exact hs.once
  others i hi := by rw [ledger_of_books h, queue_of_books h]; exact hs.others i hi
  account := by rw [ledger_of_books h, queue_of_books h]; exact hs.account
  nodup := by rw [queue_of_books h]; exact hs.nodup

theorem Balanced.owes (hs : Balanced s) (hr : r ∈ (s.eps e).queue) : Owes e r s where
  once := hs.once
  others i _ := ⟨hs.account i, hs.nodup i⟩
  mem := by rw [hs.account]; exact hr
  rest := by rw [hs.account]
  nodup := (hs.nodup e).erase r

theorem Floating.owes (hs : Floating e r s) (hempty : (s.eps e).queue = []) : Owes e r s where
  once := hs.once
  others := hs.others
  mem := by rw [hs.account]; simp
  rest := by rw [hs.account, hempty]; simp
  nodup := by rw [hempty]; simp

/-! ### What leaves the books alone -/

theorem books_setEp (hf : ∀ ep, (f ep).queue = ep.queue) (e : EpId) (s : Dev) :
    books (s.setEp e f) = books s := by
  have hqueue : (fun i => ((s.setEp e f).eps i).queue) = fun i => (s.eps i).queue := by
    funext i
    by_cases hi : i = e
    · rw [show (s.setEp e f).eps i = f (s.eps i) from if_pos hi, hf]
    · rw [show (s.setEp e f).eps i = s.eps i from if_neg hi]
  exact Prod.ext rfl hqueue

theorem modifyEp_books (hf : ∀ ep, (f ep).queue = ep.queue)
    (e : EpId) : Leaves books (modifyEp e f) := books_setEp hf e

theorem modifyReq_books (r : Nat) (f : Request → Request) : Leaves books (modifyReq r f) :=
  fun _ => rfl

theorem read_books : Leaves books read := fun _ => rfl

theorem emit_books (w : Wire) : Leaves books (emit w) := fun _ => rfl

theorem setEp0state_books (st : Ep0State) : Leaves books (setEp0state st) := fun _ => rfl

theorem head_books (e : EpId) : Leaves books (head e) := fun _ => rfl

theorem pioIrqEnable_books (e : EpId) : Leaves books (pioIrqEnable e) := by
  refine modifyEp_books ?_ e
  intro ep
  rfl

theorem pioIrqDisable_books (e : EpId) : Leaves books (pioIrqDisable e) := by
  refine modifyEp_books ?_ e
  intro ep
  rfl

theorem when_books {c : Bool} (hx : Leaves books x) : Leaves books (when c x) :=
  Leaves.ite _ hx (Leaves.pure ())

theorem pioIrqDisableIfEmpty_books (e : EpId) : Leaves books (pioIrqDisableIfEmpty e) :=
  Leaves.bind Leaves.get fun _ => when_books (pioIrqDisable_books e)

theorem readRegAddr_books (e : EpId) : Leaves books (readRegAddr e) := by
  refine Leaves.bind Leaves.get fun s => ?_
  cases (s.eps e).regAddr with
  | some ch => exact Leaves.pure _
  | none => exact read_books

theorem countDma_books (e : EpId) (r : Nat) : Leaves books (countDma e r) := by
  refine Leaves.bind (readRegAddr_books e) fun _ => Leaves.bind Leaves.get fun _ => ?_
  exact Leaves.bind (modifyReq_books r _) fun _ => Leaves.pure _

theorem takePacket_books (r : Nat) (max : Int) : Leaves books (takePacket r max) :=
  Leaves.bind Leaves.get fun _ => Leaves.bind (modifyReq_books r _) fun _ => Leaves.pure _

theorem writePacket_books (e : EpId) (r : Nat) (max : Int) :
    Leaves books (writePacket e r max) := by
  refine Leaves.bind Leaves.get fun _ => Leaves.bind Leaves.get fun _ => ?_
  exact Leaves.bind (emit_books _) fun _ => takePacket_books r max

theorem kickDma_books (e : EpId) (r : Nat) : Leaves books (kickDma e r) := by
  refine Leaves.bind Leaves.get fun _ => Leaves.bind (modifyEp_books ?_ e) fun _ => ?_
  · intro ep
    rfl
  · exact Leaves.bind (emit_books _) fun _ => fun _ => rfl

theorem ep0InLast_books : Leaves books ep0InLast :=
  Leaves.bind (emit_books _) fun _ => setEp0state_books _

theorem ep0InReady_books (ret : Int) (needZlp : Bool) : Leaves books (ep0InReady ret needZlp) := by
  refine Leaves.ite _ ep0InLast_books (Leaves.bind (emit_books _) fun _ => when_books ?_)
  exact Leaves.bind (emit_books _) fun _ => setEp0state_books _

/-! ### What changes a queue -/

theorem queue_addTail (e : EpId) (r : Nat) (s : Dev) (i : EpId) :
    ((addTail e r s).2.eps i).queue =
      if i = e then (s.eps i).queue ++ [r] else (s.eps i).queue := by
  show (if i = e then _ else s.eps i : Endpoint).queue = _
  split
  · rfl
  · rfl

theorem queue_retire (e : EpId) (r : Nat) (status : Int) (s : Dev) (i : EpId) :
    ((retire e r status s).2.eps i).queue =
      if i = e then (s.eps i).queue.erase r else (s.eps i).queue := by
  show (if i = e then _ else s.eps i : Endpoint).queue = _
  split
  · rfl
  · rfl

/-! ### Taking a request -/

theorem not_mem_of_refusal (h : s.refusal e b = 0) (i : EpId) : b.req ∉ (s.eps i).queue := by
  unfold Dev.refusal at h
  by_cases hbad : (!b.valid || s.linked b.req) = true
  · rw [if_pos hbad] at h
    exact absurd h (by decide)
  · intro hmem
    have hlinked : s.linked b.req = true := decide_eq_true ⟨i, hmem⟩
    simp [hlinked] at hbad

theorem accept_floating (hs : Balanced s) (h : s.refusal e b = 0) :
    Floating e b.req (accept e b s).2 := by
  have hnew := not_mem_of_refusal h e
  have hledger : (accept e b s).2.ledger = s.ledger ++ [.accepted e b.req] := rfl
  have hqueue : ∀ i, ((accept e b s).2.eps i).queue = (s.eps i).queue := fun _ => rfl
  have hpending : ∀ i, pending (accept e b s).2.ledger i =
      if i = e then pending s.ledger i ++ [b.req] else pending s.ledger i := by
    intro i
    rw [hledger, pending_concat]
    rfl
  refine ⟨?_, ?_, ?_, ?_⟩
  · rw [hledger, atMostOnce_concat]
    exact ⟨hs.once, trivial⟩
  · intro i hi
    rw [hpending, if_neg hi, hqueue]
    exact ⟨hs.account i, hs.nodup i⟩
  · rw [hpending, if_pos rfl, hqueue, hs.account]
  · rw [hqueue]
    rw [← List.concat_eq_append]
    exact (hs.nodup e).concat hnew

theorem addTail_balanced (hs : Floating e r s) : Balanced (addTail e r s).2 := by
  have hledger : (addTail e r s).2.ledger = s.ledger := rfl
  refine ⟨?_, fun i => ?_, fun i => ?_⟩
  · rw [hledger]
    exact hs.once
  · rw [hledger, queue_addTail]
    by_cases hi : i = e
    · rw [if_pos hi, hi]
      exact hs.account
    · rw [if_neg hi]
      exact (hs.others i hi).1
  · rw [queue_addTail]
    by_cases hi : i = e
    · rw [if_pos hi, hi]
      exact hs.nodup
    · rw [if_neg hi]
      exact (hs.others i hi).2

/-- What a start on an idle endpoint may do with the request: give it back, or leave it
to be linked. -/
def StartOk (start : EpId → Nat → M Bool) (e : EpId) : Prop :=
  ∀ r, Ensures (fun s => Floating e r s ∧ (s.eps e).queue = []) (start e r)
    (fun handled s => if handled then Balanced s else Floating e r s)

theorem addTail_zero_balanced (e : EpId) (r : Nat) :
    Ensures (Floating e r) (addTail e r >>= fun _ => pure (0 : Int)) (fun _ => Balanced) :=
  fun _ hs => addTail_balanced hs

theorem startOrLink_balanced {start : EpId → Nat → M Bool} (hstart : StartOk start e) (r : Nat) :
    Ensures (Floating e r) (startOrLink start e r) (fun _ => Balanced) := by
  refine Ensures.get_bind fun s hs => ?_
  by_cases hidle : ((s.eps e).queue = [] && !(s.eps e).stopped) = true
  · rw [if_pos hidle]
    have hempty : (s.eps e).queue = [] := by
      simp only [Bool.and_eq_true, decide_eq_true_eq] at hidle
      exact hidle.1
    refine Ensures.at (Ensures.bind (hstart r) fun handled => ?_) ⟨hs, hempty⟩
    cases handled with
    | true => exact Ensures.pure fun _ ht => ht
    | false => exact addTail_zero_balanced e r
  · rw [if_neg hidle]
    exact (addTail_zero_balanced e r).at hs

/-- **`jz4740_queue` keeps the balance.** -/
theorem queueWith_balanced {start : EpId → Nat → M Bool} (hstart : StartOk start e)
    (b : Submission) : Ensures Balanced (queueWith start e b) (fun _ => Balanced) := by
  refine Ensures.get_bind fun s hs => ?_
  by_cases hrefuse : s.refusal e b ≠ 0
  · rw [if_pos hrefuse]
    exact Ensures.at (Ensures.pure fun _ ht => ht) hs
  · rw [if_neg hrefuse]
    have hfloat := accept_floating hs (not_not.mp hrefuse)
    exact Ensures.eq_bind ((startOrLink_balanced hstart b.req).at hfloat)

/-! ### The completion callback -/

/-- A call in a completion callback: the request is refused, or taken and linked. -/
theorem queueWith_nothing (e : EpId) (b : Submission) (s : Dev) :
    (queueWith (fun _ _ => pure false) e b s).2 =
      if s.refusal e b = 0 then (addTail e b.req (accept e b s).2).2 else s := by
  have hlink : (startOrLink (fun _ _ => pure false) e b.req (accept e b s).2).2 =
      (addTail e b.req (accept e b s).2).2 := by
    show ((if _ then _ else _ : M Int) (accept e b s).2).2 = _
    split
    · rfl
    · rfl
  show ((if s.refusal e b ≠ 0 then _ else _ : M Int) s).2 = _
  by_cases hrefuse : s.refusal e b = 0
  · rw [if_neg (not_not.mpr hrefuse), if_pos hrefuse]
    exact hlink
  · rw [if_pos hrefuse, if_neg hrefuse]
    rfl

/-- What a request that is taken and linked keeps, the calls of a callback keep. -/
theorem callbackQueues_keeps {P : Dev → Prop} (e : EpId)
    (hlink : ∀ (b : Submission) (s : Dev), s.refusal e b = 0 → P s →
      P (addTail e b.req (accept e b s).2).2) :
    ∀ (bs : List Submission) (s : Dev), P s → P (callbackQueues e bs s).2 := by
  intro bs
  induction bs with
  | nil => intro s hs; exact hs
  | cons b bs ih =>
    intro s hs
    refine ih _ ?_
    show P (queueWith (fun _ _ => pure false) e b s).2
    rw [queueWith_nothing]
    split
    · rename_i h
      exact hlink b s h hs
    · exact hs

/-! ### Giving a request back -/

theorem finalStatus_fresh {req : Request} (h : req.status = - EINPROGRESS) (status : Int) :
    req.finalStatus status = status := if_pos h

theorem callbackQueues_balanced (e : EpId) : ∀ bs : List Submission,
    Ensures Balanced (callbackQueues e bs) (fun _ => Balanced) := by
  have hnothing : StartOk (fun _ _ => pure false) e := fun r => Ensures.pure fun _ hs => hs.1
  intro bs
  induction bs with
  | nil => exact Ensures.pure fun _ hs => hs
  | cons b bs ih => exact Ensures.bind (queueWith_balanced hnothing b) fun _ => ih

theorem callback_balanced (e : EpId) : Ensures Balanced (callback e) (fun _ => Balanced) := by
  refine Ensures.get_bind fun s hs => Ensures.eq_bind ?_
  exact (callbackQueues_balanced e _).at (Balanced.of_books s _ rfl hs)

theorem retire_balanced (status : Int) (hs : Owes e r s) : Balanced (retire e r status s).2 := by
  have hledger : (retire e r status s).2.ledger = s.ledger ++
      [.completed e r ((s.reqs r).finalStatus status) (s.reqs r).actual (s.reqs r).length] := rfl
  have hpending : ∀ i, pending (retire e r status s).2.ledger i =
      if i = e then (pending s.ledger i).erase r else pending s.ledger i := by
    intro i
    rw [hledger, pending_concat]
    rfl
  refine ⟨?_, fun i => ?_, fun i => ?_⟩
  · rw [hledger, atMostOnce_concat]
    exact ⟨hs.once, hs.mem⟩
  · rw [hpending, queue_retire]
    by_cases hi : i = e
    · rw [if_pos hi, if_pos hi, hi]
      exact hs.rest
    · rw [if_neg hi, if_neg hi]
      exact (hs.others i hi).1
  · rw [queue_retire]
    by_cases hi : i = e
    · rw [if_pos hi, hi]
      exact hs.nodup
    · rw [if_neg hi]
      exact (hs.others i hi).2

/-- **`done` ends in balance**, whatever the callback queues. -/
theorem done_balanced (e : EpId) (r : Nat) (status : Int) :
    Ensures (Owes e r) (done e r status) (fun _ => Balanced) := by
  refine Ensures.get_bind fun s hs => Ensures.eq_bind ?_
  refine Ensures.at (Ensures.bind (callback_balanced e) fun _ => ?_) (retire_balanced status hs)
  refine Leaves.ensures (modifyEp_books ?_ e) Balanced.of_books
  intro ep
  rfl

theorem head_balanced {f : Option Nat → M α} {Q : α → Dev → Prop}
    (hnone : Ensures Balanced (f none) Q)
    (hsome : ∀ r, Ensures (fun s => Balanced s ∧ r ∈ (s.eps e).queue) (f (some r)) Q) :
    Ensures Balanced (head e >>= f) Q := by
  intro s hs
  show Q (f (s.eps e).queue.head? s).1 (f (s.eps e).queue.head? s).2
  cases hq : (s.eps e).queue.head? with
  | none => exact hnone s hs
  | some r => exact hsome r s ⟨hs, List.mem_of_mem_head? hq⟩

theorem done_linked_balanced (e : EpId) (r : Nat) (status : Int) :
    Ensures (fun s => Balanced s ∧ r ∈ (s.eps e).queue) (done e r status) (fun _ => Balanced) :=
  (done_balanced e r status).strengthen fun _ hs => hs.1.owes hs.2

theorem nukeLoop_balanced (e : EpId) (status : Int) : ∀ n,
    Ensures Balanced (nukeLoop e status n) (fun _ => Balanced) := by
  intro n
  induction n with
  | zero => exact Ensures.pure fun _ hs => hs
  | succ n ih =>
    refine head_balanced (Ensures.pure fun _ hs => hs) fun r => ?_
    exact Ensures.bind (done_linked_balanced e r status) fun _ => ih

theorem nuke_balanced (e : EpId) (status : Int) :
    Ensures Balanced (nuke e status) (fun _ => Balanced) := by
  refine Ensures.get_any fun s => ?_
  refine Ensures.bind (nukeLoop_balanced e status _) fun _ => ?_
  refine Leaves.ensures (Leaves.bind Leaves.get fun _ => ?_) Balanced.of_books
  exact when_books (pioIrqDisable_books e)

/-! ### The FIFOs -/

/-- A transfer step on request `r`, which may not be linked: its result is 1 if it gave
the request back, and otherwise it left the books alone. -/
def Settles (e : EpId) (r : Nat) (x : M Int) : Prop :=
  ∀ b, Ensures (fun s => Owes e r s ∧ books s = b) x
    (fun v s => (v = 1 ∧ Balanced s) ∨ (v ≠ 1 ∧ books s = b))

theorem Settles.balanced {x : M Int} (hx : Settles e r x) :
    Ensures (fun s => Balanced s ∧ r ∈ (s.eps e).queue) x (fun _ => Balanced) := by
  intro s hs
  rcases hx (books s) s ⟨hs.1.owes hs.2, rfl⟩ with ⟨_, hdone⟩ | ⟨_, hsame⟩
  · exact hdone
  · exact Balanced.of_books s _ hsame hs.1

theorem settles_leaves_bind {x : M α} {f : α → M Int} (hx : Leaves books x)
    (hf : ∀ a, Settles e r (f a)) : Settles e r (x >>= f) := by
  intro b
  refine Ensures.bind (hx.ensures ?_) fun a => hf a b
  intro s s' hsame hs
  exact ⟨Owes.of_books s s' hsame hs.1, hsame.trans hs.2⟩

theorem settles_pure {v : Int} (hv : v ≠ 1) : Settles e r (pure v) :=
  fun _ => Ensures.pure fun _ hs => Or.inr ⟨hv, hs.2⟩

theorem settles_ite (c : Prop) [Decidable c] {x y : M Int}
    (hx : Settles e r x) (hy : Settles e r y) : Settles e r (if c then x else y) :=
  fun b => Ensures.ite c (fun _ => hx b) (fun _ => hy b)

theorem settles_done {status : Int} (hx : Leaves books x) :
    Settles e r (done e r status >>= fun _ => x >>= fun _ => pure 1) := by
  intro b
  refine Ensures.bind ((done_balanced e r status).strengthen fun _ hs => hs.1) fun _ => ?_
  refine Ensures.bind (hx.ensures Balanced.of_books) fun _ => ?_
  exact Ensures.pure fun _ hs => Or.inl ⟨rfl, hs⟩

theorem writeFifoPio_settles (e : EpId) (r : Nat) : Settles e r (writeFifoPio e r) := by
  refine settles_leaves_bind Leaves.get fun _ => settles_leaves_bind read_books fun csr => ?_
  refine settles_ite _ ?_ (settles_pure (by decide))
  refine settles_leaves_bind (writePacket_books e r _) fun count => ?_
  refine settles_leaves_bind (emit_books _) fun _ => settles_leaves_bind Leaves.get fun _ => ?_
  exact settles_ite _ (settles_done (pioIrqDisableIfEmpty_books e)) (settles_pure (by decide))

theorem readFifoPio_settles (e : EpId) (r : Nat) : Settles e r (readFifoPio e r) := by
  refine settles_leaves_bind read_books fun csr => settles_ite _ (settles_pure (by decide)) ?_
  refine settles_leaves_bind read_books fun count => settles_leaves_bind Leaves.get fun _ => ?_
  refine settles_leaves_bind (takePacket_books r _) fun _ => ?_
  refine settles_leaves_bind Leaves.get fun _ => ?_
  exact settles_ite _ (settles_done (pioIrqDisableIfEmpty_books e)) (settles_pure (by decide))

theorem writeFifoEp0_settles (r : Nat) : Settles 0 r (writeFifoEp0 r) := by
  refine settles_leaves_bind Leaves.get fun _ => ?_
  refine settles_leaves_bind (writePacket_books 0 r _) fun count => ?_
  refine settles_leaves_bind Leaves.get fun _ => settles_ite _ ?_ (settles_pure (by decide))
  exact settles_done (Leaves.pure ())

theorem readFifoEp0_settles (r : Nat) : Settles 0 r (readFifoEp0 r) := by
  refine settles_leaves_bind read_books fun csr => settles_ite _ (settles_pure (by decide)) ?_
  refine settles_leaves_bind read_books fun count => ?_
  refine settles_leaves_bind (modifyReq_books r _) fun _ => ?_
  refine settles_leaves_bind Leaves.get fun _ => settles_ite _ ?_ (settles_pure (by decide))
  exact settles_done (Leaves.pure ())

theorem leaves_owes {x : M α} (hx : Leaves books x) :
    Ensures (Owes e r) x (fun _ => Owes e r) := hx.ensures Owes.of_books

theorem leaves_balanced {x : M α} (hx : Leaves books x) :
    Ensures Balanced x (fun _ => Balanced) := hx.ensures Balanced.of_books

theorem writeFifoDma_balanced (e : EpId) (r : Nat) :
    Ensures (Owes e r) (writeFifoDma e r) (fun _ => Balanced) := by
  refine Ensures.bind (leaves_owes (countDma_books e r)) fun _ => Ensures.get_any fun _ => ?_
  refine Ensures.bind (leaves_owes (when_books (emit_books _))) fun _ => ?_
  refine Ensures.bind (done_balanced e r 0) fun _ => leaves_balanced ?_
  refine Leaves.bind (head_books e) fun next => ?_
  cases next with
  | none => exact Leaves.bind (pioIrqDisable_books e) fun _ => Leaves.pure 1
  | some r' => exact Leaves.bind (kickDma_books e r') fun _ => Leaves.pure 0

theorem readFifoDma_balanced (e : EpId) (r : Nat) :
    Ensures (Owes e r) (readFifoDma e r) (fun _ => Balanced) := by
  refine Ensures.bind (leaves_owes (countDma_books e r)) fun _ => ?_
  refine Ensures.bind (leaves_owes (pioIrqDisable_books e)) fun _ => ?_
  refine Ensures.bind (leaves_owes fun _ => rfl) fun _ => ?_
  refine Ensures.bind (leaves_owes read_books) fun count => ?_
  refine Ensures.bind (leaves_owes (takePacket_books r _)) fun _ => ?_
  refine Ensures.bind (done_balanced e r 0) fun _ => leaves_balanced ?_
  refine Leaves.bind (head_books e) fun next => ?_
  cases next with
  | none => exact Leaves.pure 1
  | some r' => exact Leaves.bind (kickDma_books e r') fun _ => Leaves.pure 1

/-- A program that gives a linked request back, or leaves it. -/
abbrev OnLinked (e : EpId) (r : Nat) (x : M Int) : Prop :=
  Ensures (fun s => Balanced s ∧ r ∈ (s.eps e).queue) x (fun _ => Balanced)

theorem writeFifo_linked (e : EpId) (r : Nat) : OnLinked e r (writeFifo e r) := by
  refine Ensures.get_any fun _ => Ensures.ite _ (fun _ => ?_) fun _ => ?_
  · exact (writeFifoDma_balanced e r).strengthen fun _ hs => hs.1.owes hs.2
  · exact (writeFifoPio_settles e r).balanced

theorem readFifo_linked (e : EpId) (r : Nat) : OnLinked e r (readFifo e r) := by
  refine Ensures.get_any fun _ => Ensures.ite _ (fun _ => ?_) fun _ => ?_
  · exact (readFifoDma_balanced e r).strengthen fun _ hs => hs.1.owes hs.2
  · exact (readFifoPio_settles e r).balanced

/-! ### Endpoint 0 -/

/-- A program that keeps the balance. -/
abbrev KeepsBalance (x : M Unit) : Prop := Ensures Balanced x (fun _ => Balanced)

theorem keeps_pure : KeepsBalance (pure ()) := Ensures.pure fun _ hs => hs

theorem when_keeps {c : Bool} (hx : KeepsBalance x) : KeepsBalance (when c x) :=
  Ensures.ite _ (fun _ => hx) fun _ => keeps_pure

theorem ep0Out_keeps : KeepsBalance ep0Out := by
  refine head_balanced keeps_pure fun r => Ensures.get_any fun _ => Ensures.ite _ (fun _ => ?_) ?_
  · exact (leaves_balanced (setEp0state_books _)).strengthen fun _ hs => hs.1
  · intro _
    refine Ensures.bind (readFifoEp0_settles r).balanced fun ret => ?_
    exact Ensures.ite _ (fun _ => leaves_balanced (setEp0state_books _)) fun _ => keeps_pure

theorem ep0In_keeps : KeepsBalance ep0In := by
  refine head_balanced keeps_pure fun r => Ensures.get_any fun _ => Ensures.ite _ (fun _ => ?_) ?_
  · exact (leaves_balanced ep0InLast_books).strengthen fun _ hs => hs.1
  · intro _
    refine Ensures.bind (writeFifoEp0_settles r).balanced fun ret => ?_
    exact leaves_balanced (ep0InReady_books _ _)

theorem ep0Kick_keeps : KeepsBalance ep0Kick := by
  refine Ensures.bind (leaves_balanced read_books) fun _ => Ensures.get_any fun _ => ?_
  refine Ensures.ite _ (fun _ => ?_) fun _ => ?_
  · exact Ensures.bind (leaves_balanced (setEp0state_books _)) fun _ => ep0In_keeps
  · exact Ensures.bind (leaves_balanced (setEp0state_books _)) fun _ => ep0Out_keeps

/-! ### The calls of the gadget driver -/

theorem Settles.start {x : M Int} (hx : Settles e r x) (hs : Floating e r s)
    (hempty : (s.eps e).queue = []) :
    Ensures (Eq s) (x >>= fun v => pure (decide (v = 1)))
      (fun handled t => if handled then Balanced t else Floating e r t) := by
  rintro _ rfl
  show if decide ((x s).1 = 1) = true then Balanced (x s).2 else Floating e r (x s).2
  rcases hx (books s) s ⟨hs.owes hempty, rfl⟩ with ⟨hv, hdone⟩ | ⟨hv, hsame⟩
  · rw [if_pos (decide_eq_true hv)]
    exact hdone
  · rw [if_neg (by simpa using hv)]
    exact Floating.of_books s _ hsame hs

theorem writeFifo_pio (hpio : s.useDma = false) (e : EpId) (r : Nat) :
    writeFifo e r s = writeFifoPio e r s := by
  show (if s.useDma = true then _ else _ : M Int) s = _
  rw [if_neg (by simp [hpio])]

theorem readFifo_pio (hpio : s.useDma = false) (e : EpId) (r : Nat) :
    readFifo e r s = readFifoPio e r s := by
  show (if s.useDma = true then _ else _ : M Int) s = _
  rw [if_neg (by simp [hpio])]

theorem kickstart_ok (e : EpId) : StartOk kickstart e := by
  intro r
  refine Ensures.get_bind fun s hs => ?_
  refine Ensures.ite _ (fun _ => ?_) fun _ => Ensures.ite _ (fun _ => ?_) fun hpio => ?_
  · -- endpoint 0: the request is linked first
    refine Ensures.eq_bind (Ensures.at ?_ (addTail_balanced hs.1))
    exact Ensures.bind ep0Kick_keeps fun _ => Ensures.pure fun _ ht => ht
  · have hkick := (kickDma_books e r).ensures (Floating.of_books (e := e) (r := r))
    exact Ensures.at (Ensures.bind hkick fun _ => Ensures.pure fun _ ht => ht) hs.1
  · -- without DMA: the status has been read and the interrupt enabled
    refine Ensures.eq_bind (Ensures.eq_bind ?_)
    have hsame : books (pioIrqEnable e (read s).2).2 = books s := by
      rw [pioIrqEnable_books, read_books]
    have hfloat := Floating.of_books s _ hsame hs.1
    have hempty : ((pioIrqEnable e (read s).2).2.eps e).queue = [] := by
      rw [queue_of_books hsame]
      exact hs.2
    have hpio' : (pioIrqEnable e (read s).2).2.useDma = false := by
      show s.useDma = false
      simpa using hpio
    refine Ensures.ite _ (fun _ => ?_) fun _ => ?_
    · refine Ensures.ite _ (fun _ => ?_) fun _ => ?_
      · exact Ensures.eq_congr (writeFifo_pio hpio' e r)
          ((writeFifoPio_settles e r).start hfloat hempty)
      · exact Ensures.at (Ensures.pure fun _ ht => ht) hfloat
    · refine Ensures.ite _ (fun _ => ?_) fun _ => ?_
      · exact Ensures.eq_congr (readFifo_pio hpio' e r)
          ((readFifoPio_settles e r).start hfloat hempty)
      · exact Ensures.at (Ensures.pure fun _ ht => ht) hfloat

theorem jz4740Queue_balanced (e : EpId) (b : Submission) :
    Ensures Balanced (jz4740Queue e b) (fun _ => Balanced) := queueWith_balanced (kickstart_ok e) b

theorem jz4740Dequeue_balanced (e : EpId) (r : Nat) :
    Ensures Balanced (jz4740Dequeue e r) (fun _ => Balanced) := by
  refine Ensures.ite _ (fun _ => Ensures.pure fun _ hs => hs) fun _ => ?_
  refine Ensures.get_bind fun s hs => Ensures.ite _ (fun hmem => ?_) fun _ => ?_
  · refine Ensures.at (Ensures.bind (done_linked_balanced e r _) fun _ => ?_) ⟨hs, hmem⟩
    exact Ensures.pure fun _ ht => ht
  · exact Ensures.at (Ensures.pure fun _ ht => ht) hs

theorem setStopped_books (e : EpId) (value : Bool) :
    Leaves books (modifyEp e fun ep => { ep with stopped := value }) := by
  refine modifyEp_books ?_ e
  intro ep
  rfl

theorem jz4740SetHalt_books (e : EpId) (value : Bool) : Leaves books (jz4740SetHalt e value) := by
  refine Leaves.bind Leaves.get fun _ => Leaves.ite _ (Leaves.pure _) (Leaves.ite _ ?_ ?_)
  · refine Leaves.bind read_books fun _ => Leaves.ite _ (Leaves.pure _) ?_
    exact Leaves.bind (setStopped_books e value) fun _ => Leaves.pure 0
  · exact Leaves.bind (setStopped_books e value) fun _ => Leaves.pure 0

theorem jz4740EpEnable_books (e : EpId) (max : Nat) : Leaves books (jz4740EpEnable e max) := by
  refine Leaves.bind Leaves.get fun _ => Leaves.ite _ (Leaves.pure _) ?_
  refine Leaves.ite _ (Leaves.pure _) (Leaves.bind (modifyEp_books ?_ e) fun _ => ?_)
  · intro ep
    rfl
  · exact jz4740SetHalt_books e false

theorem jz4740EpDisable_balanced (e : EpId) :
    Ensures Balanced (jz4740EpDisable e) (fun _ => Balanced) := by
  refine Ensures.get_any fun _ => Ensures.ite _ (fun _ => Ensures.pure fun _ hs => hs) fun _ => ?_
  refine Ensures.bind (nuke_balanced e _) fun _ => leaves_balanced ?_
  refine Leaves.bind (modifyEp_books ?_ e) fun _ => Leaves.pure 0
  intro ep
  rfl

theorem call_balanced (c : Call) : Ensures Balanced c.exec (fun _ => Balanced) := by
  cases c with
  | queue e b => exact jz4740Queue_balanced e b
  | dequeue e r => exact jz4740Dequeue_balanced e r
  | enable e max => exact leaves_balanced (jz4740EpEnable_books e max)
  | disable e => exact jz4740EpDisable_balanced e
  | setHalt e value => exact leaves_balanced (jz4740SetHalt_books e value)

theorem execAll_keeps : ∀ cs : List Call, KeepsBalance (execAll cs) := by
  intro cs
  induction cs with
  | nil => exact keeps_pure
  | cons c cs ih => exact Ensures.bind (call_balanced c) fun _ => ih

/-! ### Interrupts -/

theorem gadgetSetup_keeps (setup : Setup) : KeepsBalance (gadgetSetup setup) := by
  refine Ensures.get_any fun _ => Ensures.ite _ (fun _ => ?_) fun _ => keeps_pure
  exact Ensures.bind (execAll_keeps _) fun _ => when_keeps (leaves_balanced (setEp0state_books _))

theorem ep0Setup_keeps (setup : Setup) : KeepsBalance (ep0Setup setup) := by
  refine Ensures.bind (nuke_balanced 0 _) fun _ => ?_
  refine Ensures.bind (leaves_balanced (modifyEp_books ?_ 0)) fun _ => ?_
  · intro ep
    rfl
  · refine Ensures.ite _ (fun _ => leaves_balanced fun _ => rfl) fun _ => ?_
    refine Ensures.ite _ (fun _ => ?_) fun _ => gadgetSetup_keeps setup
    cases haltTarget setup.ctrl with
    | none => exact gadgetSetup_keeps setup
    | some e => exact Ensures.bind (leaves_balanced (jz4740SetHalt_books e _)) fun _ => keeps_pure

theorem handleEp0Out_keeps (csr : BitVec 32) (setup : Setup) :
    KeepsBalance (handleEp0Out csr setup) := by
  refine Ensures.ite _ (fun _ => Ensures.get_any fun s => ?_) fun _ => keeps_pure
  cases s.ep0state with
  | waitForSetup => exact ep0Setup_keeps setup
  | dataStateRecv => exact ep0Out_keeps
  | dataStateXmit => exact keeps_pure
  | dataStateNeedZlp => exact keeps_pure
  | waitForOutStatus => exact keeps_pure

theorem handleEp0In_keeps : KeepsBalance handleEp0In := by
  refine Ensures.get_any fun s => ?_
  cases s.ep0state with
  | dataStateXmit => exact ep0In_keeps
  | dataStateNeedZlp => exact leaves_balanced ep0InLast_books
  | waitForSetup => exact leaves_balanced (setEp0state_books _)
  | dataStateRecv => exact leaves_balanced (setEp0state_books _)
  | waitForOutStatus => exact leaves_balanced (setEp0state_books _)

theorem handleEp0_keeps (setup : Setup) : KeepsBalance (handleEp0 setup) := by
  refine Ensures.bind (leaves_balanced read_books) fun csr => ?_
  refine Ensures.ite _ (fun _ => ?_) fun _ => Ensures.ite _ (fun _ => handleEp0In_keeps) fun _ => ?_
  · exact Ensures.bind (nuke_balanced 0 _) fun _ => leaves_balanced (setEp0state_books _)
  · refine Ensures.ite _ (fun _ => ?_) fun _ => handleEp0Out_keeps csr setup
    refine Ensures.bind (nuke_balanced 0 0) fun _ => ?_
    exact Ensures.bind (leaves_balanced (setEp0state_books _)) fun _ => handleEp0Out_keeps csr setup

theorem inEp_eq (hstall : ¬s.reads.headD 0 &&& USB_INCSR_SENTSTALL ≠ 0)
    (hdesc : ¬(s.eps e).desc.isNone = true) :
    inEp e s = (match (s.eps e).queue.head? with
      | none => pure ()
      | some r => writeFifo e r >>= fun _ => pure () : M Unit) (read s).2 := by
  show (if s.reads.headD 0 &&& USB_INCSR_SENTSTALL ≠ 0 then _ else _ : M Unit) (read s).2 = _
  rw [if_neg hstall]
  show (if (s.eps e).desc.isNone = true then _ else _ : M Unit) (read s).2 = _
  rw [if_neg hdesc]
  rfl

theorem inEp_keeps (e : EpId) : KeepsBalance (inEp e) := by
  refine Ensures.bind (leaves_balanced read_books) fun csr => ?_
  refine Ensures.ite _ (fun _ => keeps_pure) fun _ => Ensures.get_any fun _ => ?_
  refine Ensures.ite _ (fun _ => keeps_pure) fun _ => head_balanced keeps_pure fun r => ?_
  exact Ensures.bind (writeFifo_linked e r) fun _ => keeps_pure

theorem inEpn_keeps (epIdx : Nat) : KeepsBalance (inEpn epIdx) := by
  unfold inEpn
  split
  · exact inEp_keeps _
  · exact keeps_pure

theorem outLoop_keeps (e : EpId) : ∀ n, KeepsBalance (outLoop e n) := by
  intro n
  induction n with
  | zero => exact keeps_pure
  | succ n ih =>
    refine Ensures.bind (leaves_balanced read_books) fun csr => ?_
    refine Ensures.ite _ (fun _ => keeps_pure) fun _ => Ensures.ite _ (fun _ => ih) fun _ => ?_
    exact head_balanced keeps_pure fun r => Ensures.bind (readFifo_linked e r) fun _ => ih

theorem outEp_keeps (e : EpId) : KeepsBalance (outEp e) := by
  refine Ensures.get_any fun s => Ensures.ite _ (fun _ => keeps_pure) fun _ => ?_
  refine Ensures.ite _ (fun _ => head_balanced keeps_pure fun r => ?_) fun _ => outLoop_keeps e _
  exact Ensures.bind (readFifo_linked e r) fun _ => keeps_pure

theorem outEpn_keeps (epIdx : Nat) : KeepsBalance (outEpn epIdx) := by
  unfold outEpn
  split
  · exact outEp_keeps _
  · exact keeps_pure

theorem jz4740UdcIrq_keeps (irq : Irq) (setup : Setup) :
    KeepsBalance (jz4740UdcIrq irq setup) := by
  refine Ensures.bind (when_keeps (leaves_balanced fun _ => rfl)) fun _ => ?_
  refine Ensures.bind (when_keeps (handleEp0_keeps setup)) fun _ => ?_
  refine Ensures.bind (when_keeps (Ensures.get_any fun _ => inEpn_keeps _)) fun _ => ?_
  refine Ensures.bind (when_keeps (Ensures.get_any fun _ => outEpn_keeps _)) fun _ => ?_
  refine Ensures.bind (when_keeps (inEpn_keeps 1)) fun _ => ?_
  exact Ensures.bind (when_keeps (inEpn_keeps 2)) fun _ => when_keeps (outEpn_keeps 1)

/-! ### The loop of `nuke` empties the queue

A callback may queue what it likes, so the loop can meet more requests than were linked
when it began.  What bounds it is the backlog: `done` takes one request off the queue and
moves at most the submissions of one callback onto it. -/

/-- At most `n` requests have joined the queue of `e`, and the other queues are as before. -/
structure Grows (e : EpId) (n : Nat) (s s' : Dev) : Prop where
  callbacks : s'.callbacks = s.callbacks
  others : ∀ i, i ≠ e → (s'.eps i).queue = (s.eps i).queue
  length : (s'.eps e).queue.length ≤ (s.eps e).queue.length + n

theorem Grows.trans {m n : Nat} {t u : Dev} (h : Grows e m s t)
    (h' : Grows e n t u) : Grows e (m + n) s u where
  callbacks := h'.callbacks.trans h.callbacks
  others i hi := (h'.others i hi).trans (h.others i hi)
  length := by
    have := h.length
    have := h'.length
    omega

theorem addTail_grows (e : EpId) (r : Nat) (s : Dev) : Grows e 1 s (addTail e r s).2 where
  callbacks := rfl
  others i hi := by rw [queue_addTail, if_neg hi]
  length := by
    rw [queue_addTail, if_pos rfl]
    exact Nat.le_of_eq List.length_append

theorem queueWith_grows (e : EpId) (b : Submission) (s : Dev) :
    Grows e 1 s (queueWith (fun _ _ => pure false) e b s).2 := by
  rw [queueWith_nothing]
  by_cases hrefuse : s.refusal e b = 0
  · rw [if_pos hrefuse]
    have haccept : Grows e 0 s (accept e b s).2 := ⟨rfl, fun _ _ => rfl, Nat.le_refl _⟩
    exact haccept.trans (addTail_grows e b.req _)
  · rw [if_neg hrefuse]
    exact ⟨rfl, fun _ _ => rfl, Nat.le_succ _⟩

theorem callbackQueues_grows (e : EpId) : ∀ (bs : List Submission) (s : Dev),
    Grows e bs.length s (callbackQueues e bs s).2 := by
  intro bs
  induction bs with
  | nil => intro s; exact ⟨rfl, fun _ _ => rfl, Nat.le_refl _⟩
  | cons b bs ih =>
    intro s
    have hboth := (queueWith_grows e b s).trans (ih _)
    rw [List.length_cons, Nat.add_comm]
    exact hboth

/-- The state in which the callback of `done` makes its calls. -/
def called (e : EpId) (r : Nat) (status : Int) (s : Dev) : Dev :=
  { (retire e r status s).2 with callbacks := s.callbacks.tail }

theorem done_eq (e : EpId) (r : Nat) (status : Int) (s : Dev) :
    (done e r status s).2 =
      (callbackQueues e (s.callbacks.headD []) (called e r status s)).2.setEp e
        fun ep => { ep with stopped := (s.eps e).stopped } := rfl

theorem queue_done (e : EpId) (r : Nat) (status : Int) (s : Dev) (i : EpId) :
    ((done e r status s).2.eps i).queue =
      ((callbackQueues e (s.callbacks.headD []) (called e r status s)).2.eps i).queue := by
  rw [done_eq]
  refine queue_of_books (books_setEp ?_ e _) i
  intro ep
  rfl

theorem done_backlog (status : Int) (hr : r ∈ (s.eps e).queue) :
    (done e r status s).2.backlog e + 1 ≤ s.backlog e ∧
    ∀ i, i ≠ e → ((done e r status s).2.eps i).queue = (s.eps i).queue := by
  have hsum : (s.callbacks.map List.length).sum =
      (s.callbacks.headD []).length + (s.callbacks.tail.map List.length).sum := by
    cases s.callbacks with
    | nil => rfl
    | cons bs rest => rfl
  have hlen : ((s.eps e).queue.erase r).length + 1 = (s.eps e).queue.length := by
    have hpos := List.length_pos_of_mem hr
    rw [List.length_erase_of_mem hr]
    omega
  have hgrows := callbackQueues_grows e (s.callbacks.headD []) (called e r status s)
  constructor
  · have hqueue : ((called e r status s).eps e).queue = (s.eps e).queue.erase r :=
      (queue_retire e r status s e).trans (if_pos rfl)
    have hcallbacks : (done e r status s).2.callbacks = s.callbacks.tail := hgrows.callbacks
    have hbound := hgrows.length
    unfold Dev.backlog
    rw [hcallbacks, queue_done, hsum]
    rw [hqueue] at hbound
    omega
  · intro i hi
    rw [queue_done, hgrows.others i hi]
    exact (queue_retire e r status s i).trans (if_neg hi)

theorem nukeLoop_succ (e : EpId) (status : Int) (n : Nat) (s : Dev) :
    nukeLoop e status (n + 1) s = (match (s.eps e).queue.head? with
      | none => pure ()
      | some r => done e r status >>= fun _ => nukeLoop e status n : M Unit) s := rfl

theorem nukeLoop_empties (e : EpId) (status : Int) : ∀ (n : Nat) (s : Dev), s.backlog e ≤ n →
    ((nukeLoop e status n s).2.eps e).queue = [] ∧
    ∀ i, i ≠ e → ((nukeLoop e status n s).2.eps i).queue = (s.eps i).queue := by
  intro n
  induction n with
  | zero =>
    intro s hn
    have hlen : (s.eps e).queue.length = 0 := by
      unfold Dev.backlog at hn
      omega
    exact ⟨List.length_eq_zero_iff.mp hlen, fun _ _ => rfl⟩
  | succ n ih =>
    intro s hn
    rw [nukeLoop_succ]
    cases hq : (s.eps e).queue.head? with
    | none => exact ⟨List.head?_eq_none_iff.mp hq, fun _ _ => rfl⟩
    | some r =>
      obtain ⟨hless, hothers⟩ := done_backlog status (List.mem_of_mem_head? hq)
      obtain ⟨hempty, hrest⟩ := ih (done e r status s).2 (by omega)
      exact ⟨hempty, fun i hi => (hrest i hi).trans (hothers i hi)⟩

/-- **`nuke` ends with an empty queue**, and with the other queues as they were. -/
theorem nuke_empties (e : EpId) (status : Int) (s : Dev) :
    ((nuke e status s).2.eps e).queue = [] ∧
    ∀ i, i ≠ e → ((nuke e status s).2.eps i).queue = (s.eps i).queue := by
  obtain ⟨hempty, hothers⟩ := nukeLoop_empties e status (s.backlog e) s (Nat.le_refl _)
  have hsame : books (nuke e status s).2 = books (nukeLoop e status (s.backlog e) s).2 :=
    (Leaves.bind Leaves.get fun _ => when_books (pioIrqDisable_books e) :
      Leaves books (get >>= fun t => when (t.eps e).desc.isSome (pioIrqDisable e))) _
  refine ⟨?_, fun i hi => ?_⟩
  · rw [queue_of_books hsame]
    exact hempty
  · rw [queue_of_books hsame]
    exact hothers i hi

/-! ### The gadget driver goes -/

/-- The queues of the first `k` endpoints are empty. -/
def EmptyBelow (k : Nat) (s : Dev) : Prop :=
  Balanced s ∧ ∀ i : EpId, i.val < k → (s.eps i).queue = []

theorem stopEp_empties (e : EpId) :
    Ensures (EmptyBelow e.val) (stopEp e) (fun _ => EmptyBelow (e.val + 1)) := by
  intro s hs
  obtain ⟨t, ht⟩ : ∃ t, t = s.setEp e fun ep => { ep with stopped := true } := ⟨_, rfl⟩
  have hsame : books t = books s := by
    rw [ht]
    exact books_setEp (f := fun ep => { ep with stopped := true }) (fun _ => rfl) e s
  have hbal := Balanced.of_books s t hsame hs.1
  have hstop : (stopEp e s).2 = (nuke e (- ESHUTDOWN) t).2 := by rw [ht]; rfl
  obtain ⟨hempty, hothers⟩ := nuke_empties e (- ESHUTDOWN) t
  rw [hstop]
  refine ⟨nuke_balanced e _ t hbal, fun i hi => ?_⟩
  by_cases hie : i = e
  · rw [hie]
    exact hempty
  · rw [hothers i hie, queue_of_books hsame]
    exact hs.2 i (Nat.lt_of_le_of_ne (Nat.le_of_lt_succ hi) fun h => hie (Fin.ext h))

theorem unregisterDriver_keeps : KeepsBalance unregisterDriver := by
  have hstart : ∀ s, Balanced s → EmptyBelow 0 s :=
    fun s hs => ⟨hs, fun i hi => absurd hi (Nat.not_lt_zero _)⟩
  refine Ensures.bind ((leaves_balanced fun _ => rfl).weaken fun _ => hstart) fun _ => ?_
  refine Ensures.bind (stopEp_empties 0) fun _ => Ensures.bind (stopEp_empties 1) fun _ => ?_
  refine Ensures.bind (stopEp_empties 2) fun _ => Ensures.bind (stopEp_empties 3) fun _ => ?_
  intro s hs
  -- every queue is empty, so `udc_reinit` takes nothing off
  refine Balanced.of_books s _ ?_ hs.1
  have hqueues : (fun _ => []) = fun e => (s.eps e).queue :=
    funext fun e => (hs.2 e (by have := e.isLt; show e.val < 4; omega)).symm
  exact Prod.ext rfl hqueues

/-! ### Runs -/

theorem registerDriver_keeps : KeepsBalance registerDriver :=
  Ensures.get_any fun _ => Ensures.ite _ (fun _ => keeps_pure) fun _ => leaves_balanced fun _ => rfl

theorem transferEnds_keeps (ch : Chan) (moved : BitVec 32) :
    KeepsBalance (transferEnds ch moved) := by
  refine Ensures.get_any fun _ => Ensures.ite _ (fun _ => ?_) fun _ => keeps_pure
  exact Ensures.bind (leaves_balanced fun _ => rfl) fun _ => jz4740UdcIrq_keeps _ _

theorem act_keeps (a : Act) : KeepsBalance a.exec := by
  cases a with
  | call c => exact Ensures.bind (call_balanced c) fun _ => keeps_pure
  | irq i setup => exact jz4740UdcIrq_keeps i setup
  | engine ch addr => exact leaves_balanced fun _ => rfl
  | dmaEnd ch moved => exact transferEnds_keeps ch moved
  | register => exact registerDriver_keeps
  | unregister => exact unregisterDriver_keeps

theorem step_balanced (hs : Balanced s) (a : Step) : Balanced (step s a) :=
  act_keeps a.act _ (Balanced.of_books s _ rfl hs)

theorem run_balanced (l : List Step) (hs : Balanced s) : Balanced (run s l) :=
  List.foldlRecOn l _ hs fun _ hs a _ => step_balanced hs a

theorem initDev_balanced (useDma : Bool) : Balanced (initDev useDma) := by
  have hempty : ∀ e, ((initDev useDma).eps e).queue = []
    | 0 | 1 | 2 | 3 => rfl
  refine ⟨eachStep_nil _, fun e => ?_, fun e => ?_⟩
  · rw [hempty]
    rfl
  · rw [hempty]
    exact List.nodup_nil

/-- **Every accepted request is completed at most once, and is on its queue until then.**
At every quiescent point of every run the queue of an endpoint holds the requests accepted
on it and not completed, each once and in order of acceptance. -/
theorem queues_are_pending (useDma : Bool) (l : List Step) :
    AtMostOnce (run (initDev useDma) l).ledger ∧
    ∀ e, pending (run (initDev useDma) l).ledger e = ((run (initDev useDma) l).eps e).queue ∧
      ((run (initDev useDma) l).eps e).queue.Nodup := by
  have hs := run_balanced l (initDev_balanced useDma)
  exact ⟨hs.once, fun e => ⟨hs.account e, hs.nodup e⟩⟩

end Dingoo.Udc
