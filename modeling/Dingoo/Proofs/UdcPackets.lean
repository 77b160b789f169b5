/-
The packets of an IN transfer.

`inPackets` says which packets the data of a request should go out in, `packetsOf` which ones
a run puts into a FIFO: in one action the driver fills it, by words and bytes that come
to consecutive bytes of the buffer, and marks it as ready.  Both write functions of the
driver go by the same test for the last packet, and for lengths that are not negative as
an `int` it finds the last one of `inPackets` (`isLast_request`).
-/
import Dingoo.Lib.Masks
import Dingoo.Linux.UdcFifo
import Dingoo.Proofs.Jz4740Udc

namespace Dingoo.Udc

open Dingoo.Lib

section
variable (mem : BitVec 32 → BitVec 8)

/-! ### The bytes in the FIFO -/

/-- `n` bytes of the memory. -/
def bytesAt (buf : BitVec 32) (n : Nat) : List (BitVec 8) :=
  (List.range n).map fun i => mem (buf + BitVec.ofNat 32 i)

variable {mem}

theorem length_bytesAt (buf : BitVec 32) (n : Nat) : (bytesAt mem buf n).length = n := by
  rw [bytesAt, List.length_map, List.length_range]

theorem bytesAt_add (buf : BitVec 32) (m n : Nat) :
    bytesAt mem buf (m + n) = bytesAt mem buf m ++ bytesAt mem (buf + BitVec.ofNat 32 m) n := by
  rw [bytesAt, List.range_add, List.map_append, List.map_map]
  congr 1
  refine List.map_congr_left fun i _ => ?_
  show mem (buf + BitVec.ofNat 32 (m + i)) = _
  rw [BitVec.ofNat_add, BitVec.add_assoc]

theorem loadWord_toNat (buf : BitVec 32) :
    (loadWord mem buf).toNat = (((mem (buf + 3)).toNat * 256 + (mem (buf + 2)).toNat) * 256 +
      (mem (buf + 1)).toNat) * 256 + (mem buf).toNat := by
  have hjoin : ∀ {n : Nat} (x : BitVec n) (y : BitVec 8),
      (x ++ y).toNat = x.toNat * 256 + y.toNat := by
    intro n x y
    rw [BitVec.toNat_append, shiftLeft_or _ y.isLt]
    rfl
  rw [loadWord, hjoin, hjoin, hjoin]

theorem loadWord_bytes (buf : BitVec 32) :
    (FifoWrite.word (loadWord mem buf)).bytes = bytesAt mem buf 4 := by
  have hbyte : ∀ (k : Nat) (b : BitVec 8), (loadWord mem buf).toNat / 2 ^ k % 256 = b.toNat →
      (loadWord mem buf).extractLsb' k 8 = b := by
    intro k b hb
    refine BitVec.eq_of_toNat_eq ?_
    rw [BitVec.extractLsb'_toNat, Nat.shiftRight_eq_div_pow]
    exact hb
  have hzero : buf + BitVec.ofNat 32 0 = buf := BitVec.add_zero buf
  have hword := @loadWord_toNat mem buf
  have h0 := (mem buf).isLt
  have h1 := (mem (buf + 1)).isLt
  have h2 := (mem (buf + 2)).isLt
  show _ = [mem (buf + BitVec.ofNat 32 0), mem (buf + 1), mem (buf + 2), mem (buf + 3)]
  rw [hzero, FifoWrite.bytes, hbyte 0 (mem buf) (by omega), hbyte 8 (mem (buf + 1)) (by omega),
    hbyte 16 (mem (buf + 2)) (by omega), hbyte 24 (mem (buf + 3)) (by omega)]

theorem fifoBytes_writeLongs : ∀ (n : Nat) (buf : BitVec 32),
    fifoBytes (writeLongs mem n buf) = bytesAt mem buf (4 * n) := by
  intro n
  induction n with
  | zero => intro buf; rfl
  | succ n ih =>
    intro buf
    have hlen : 4 * (n + 1) = 4 + 4 * n := by omega
    rw [hlen, bytesAt_add, ← loadWord_bytes]
    exact congrArg (_ ++ ·) (ih (buf + 4))

theorem fifoBytes_writeBytes : ∀ (n : Nat) (buf : BitVec 32),
    fifoBytes (writeBytes mem n buf) = bytesAt mem buf n := by
  intro n
  induction n with
  | zero => intro buf; rfl
  | succ n ih =>
    intro buf
    have hone : bytesAt mem buf 1 = [mem buf] :=
      congrArg (fun a => [mem a]) (BitVec.add_zero buf)
    have hsplit := @bytesAt_add mem buf 1 n
    rw [Nat.add_comm, hone] at hsplit
    rw [hsplit]
    exact congrArg (mem buf :: ·) (ih (buf + 1))

theorem fifoBytes_packetWrites (buf : BitVec 32) (length : Int) :
    fifoBytes (packetWrites mem buf length) =
      bytesAt mem buf (4 * turns (length / 4) + turns (length % 4)) := by
  rw [bytesAt_add, ← fifoBytes_writeLongs, ← fifoBytes_writeBytes]
  exact List.flatMap_append

theorem turns_eq (n : Int) : turns n = (n % 4294967296).toNat := by
  rw [turns, BitVec.toNat_ofInt]
  rfl

theorem fifoBytes_of_nonneg (buf : BitVec 32) {n : Nat} (hn : n < 2147483648) :
    fifoBytes (packetWrites mem buf n) = bytesAt mem buf n := by
  rw [fifoBytes_packetWrites, turns_eq, turns_eq]
  congr 1
  omega

/-- With a negative length the loops do not end before the whole range of an `int`. -/
theorem length_fifoBytes_of_neg (buf : BitVec 32) {length : Int} (hneg : length < 0)
    (hmin : - 2147483648 ≤ length) :
    2147483648 ≤ (fifoBytes (packetWrites mem buf length)).length := by
  rw [fifoBytes_packetWrites, length_bytesAt, turns_eq, turns_eq]
  omega

theorem take_drop_bytesAt (buf : BitVec 32) (a m n : Nat) :
    ((bytesAt mem buf n).drop a).take m =
      bytesAt mem (buf + BitVec.ofNat 32 a) (min (n - a) m) := by
  have hlen : (((bytesAt mem buf n).drop a).take m).length =
      (bytesAt mem (buf + BitVec.ofNat 32 a) (min (n - a) m)).length := by
    rw [List.length_take, List.length_drop, length_bytesAt, length_bytesAt, Nat.min_comm]
  refine List.ext_getElem hlen fun i _ _ => ?_
  simp [bytesAt, BitVec.ofNat_add, BitVec.add_assoc]

end

/-! ### The packets there should be -/

section
variable {m : Nat} {zero : Bool}

/-- The first `n` packets of `m` bytes. -/
def chunks (m : Nat) (data : List (BitVec 8)) (n : Nat) : List (List (BitVec 8)) :=
  (List.range n).map fun k => (data.drop (m * k)).take m

theorem chunks_succ (m : Nat) (data : List (BitVec 8)) (n : Nat) :
    chunks m data (n + 1) = chunks m data n ++ [(data.drop (m * n)).take m] := by
  rw [chunks, List.range_succ, List.map_append]
  rfl

/-- The packets of an IN transfer: full ones, and a shorter one behind them if the last one
is not full, if there is none, or if the gadget driver asks for it. -/
def inPackets (m : Nat) (zero : Bool) (data : List (BitVec 8)) : List (List (BitVec 8)) :=
  chunks m data (data.length / m) ++
    if data.length % m ≠ 0 ∨ data.length = 0 ∨ zero = true then
      [data.drop (m * (data.length / m))]
    else []

def packetCount (m : Nat) (zero : Bool) (length : Nat) : Nat :=
  length / m + if length % m ≠ 0 ∨ length = 0 ∨ zero = true then 1 else 0

theorem inPackets_eq (hm : 0 < m) (data : List (BitVec 8)) :
    inPackets m zero data = chunks m data (packetCount m zero data.length) := by
  unfold inPackets packetCount
  by_cases hshort : data.length % m ≠ 0 ∨ data.length = 0 ∨ zero = true
  · have hlast : (data.drop (m * (data.length / m))).take m =
        data.drop (m * (data.length / m)) := by
      refine List.take_of_length_le ?_
      rw [List.length_drop]
      have := Nat.mod_lt data.length hm
      have := Nat.div_add_mod data.length m
      omega
    rw [if_pos hshort, if_pos hshort, chunks_succ, hlast]
  · rw [if_neg hshort, if_neg hshort, List.append_nil, Nat.add_zero]

theorem length_of_mem_inPackets (hm : 0 < m) {data p : List (BitVec 8)}
    (hp : p ∈ inPackets m zero data) : p.length ≤ m := by
  rw [inPackets_eq hm] at hp
  obtain ⟨k, -, rfl⟩ := List.mem_map.mp hp
  exact List.length_take_le m _

theorem lt_packetCount (hm : 0 < m) (length k : Nat) :
    k + 1 < packetCount m zero length ↔
      m * (k + 1) < length ∨ (m * (k + 1) = length ∧ zero = true) := by
  have hle : k + 1 ≤ length / m ↔ m * (k + 1) ≤ length := by
    rw [Nat.le_div_iff_mul_le hm, Nat.mul_comm]
  have heq : m * (k + 1) = length → length % m = 0 ∧ length ≠ 0 := by
    rintro rfl
    exact ⟨Nat.mul_mod_right m (k + 1), Nat.mul_ne_zero (Nat.ne_of_gt hm) (Nat.succ_ne_zero k)⟩
  unfold packetCount
  by_cases hshort : length % m ≠ 0 ∨ length = 0 ∨ zero = true
  · rw [if_pos hshort, Nat.lt_succ_iff, hle]
    constructor
    · intro h
      rcases Nat.lt_or_eq_of_le h with hlt | hfull
      · exact Or.inl hlt
      · obtain ⟨hmod, hne⟩ := heq hfull
        rcases hshort with h' | h' | hzero
        · exact absurd hmod h'
        · exact absurd h' hne
        · exact Or.inr ⟨hfull, hzero⟩
    · rintro (hlt | ⟨hfull, -⟩)
      · exact Nat.le_of_lt hlt
      · exact Nat.le_of_eq hfull
  · rw [if_neg hshort, Nat.add_zero]
    obtain ⟨hmod, -, hzero⟩ : length % m = 0 ∧ length ≠ 0 ∧ ¬ zero = true := by
      refine ⟨?_, fun h => hshort (Or.inr (Or.inl h)), fun h => hshort (Or.inr (Or.inr h))⟩
      exact Decidable.byContradiction fun h => hshort (Or.inl h)
    have hfull : m * (length / m) = length := Nat.mul_div_cancel' (Nat.dvd_of_mod_eq_zero hmod)
    constructor
    · intro h
      refine Or.inl ?_
      calc m * (k + 1) < m * (length / m) := (Nat.mul_lt_mul_left hm).mpr h
        _ = length := hfull
    · rintro (hlt | ⟨-, h⟩)
      · rw [← hfull] at hlt
        exact (Nat.mul_lt_mul_left hm).mp hlt
      · exact absurd h hzero

theorem packetCount_of_not_dvd {length : Nat} (h : ¬ m ∣ length) :
    packetCount m zero length = length / m + 1 := by
  rw [packetCount, if_pos (Or.inl fun hmod => h (Nat.dvd_of_mod_eq_zero hmod))]

theorem packetCount_of_full (hm : 0 < m) (n : Nat) :
    packetCount m false (m * (n + 1)) = n + 1 := by
  have hne : m * (n + 1) ≠ 0 := Nat.mul_ne_zero (Nat.ne_of_gt hm) (Nat.succ_ne_zero n)
  rw [packetCount, if_neg, Nat.mul_div_cancel_left _ hm]
  rintro (h | h | h)
  · exact h (Nat.mul_mod_right m (n + 1))
  · exact hne h
  · cases h

theorem le_of_lt_packetCount (hm : 0 < m) {length k : Nat} (hk : k < packetCount m zero length) :
    m * k ≤ length := by
  have hle : k ≤ length / m := by
    unfold packetCount at hk
    split at hk
    · exact Nat.le_of_lt_succ hk
    · exact Nat.le_of_lt hk
  rw [Nat.mul_comm]
  exact (Nat.le_div_iff_mul_le hm).mp hle

end

/-! ### What the host gets -/

structure Packet where
  bytes : List (BitVec 8)
  dataEnd : Bool
deriving DecidableEq, Repr

def Wire.isReady : Wire → Bool
  | .inReady _ _ => true
  | _ => false

def Wire.isEnd : Wire → Bool
  | .inReady _ dataEnd => dataEnd
  | _ => false

section
variable (mem : BitVec 32 → BitVec 8) (buf : BitVec 32)

/-- The bytes that come into a FIFO from the buffer at `buf`. -/
def Wire.bytes : Wire → List (BitVec 8)
  | .data _ _ off len => fifoBytes (packetWrites mem (buf + off) len)
  | _ => []

/-- The packet that is ready behind what the driver does in one action. -/
def packetOf (wire : List Wire) : Option Packet :=
  if wire.any Wire.isReady then
    some ⟨wire.flatMap (Wire.bytes mem buf), wire.any Wire.isEnd⟩
  else none

/-- The packets of a run. -/
def packetsOf : Dev → List Step → List Packet
  | _, [] => []
  | s, a :: l =>
    (packetOf mem buf ((step s a).wire.drop s.wire.length)).toList ++ packetsOf (step s a) l

end

def Entry.isCompletion : Entry → Bool
  | .completed _ _ _ _ _ => true
  | .accepted _ _ => false

/-- The completions of a ledger. -/
def completions (ledger : List Entry) : List Entry := ledger.filter Entry.isCompletion

theorem packetsOf_cons {mem : BitVec 32 → BitVec 8} {buf : BitVec 32} {s : Dev} {a : Step}
    {wire : List Wire} {p : Packet} (hwire : (step s a).wire = s.wire ++ wire)
    (hp : packetOf mem buf wire = some p) (l : List Step) :
    packetsOf mem buf s (a :: l) = p :: packetsOf mem buf (step s a) l := by
  rw [packetsOf, hwire, List.drop_left, hp]
  rfl

/-! ### Completion -/

/-- What the host and the gadget driver see of a state. -/
def seen (s : Dev) : List Wire × List Entry := (s.wire, completions s.ledger)

theorem accept_seen (e : EpId) (b : Submission) : Leaves seen (accept e b) := by
  intro s
  show (s.wire, completions (s.ledger ++ [.accepted e b.req])) = _
  rw [completions, List.filter_append]
  exact Prod.ext rfl (List.append_nil _)

theorem callbackQueues_seen (e : EpId) (bs : List Submission) : Leaves seen (callbackQueues e bs) :=
  fun s => callbackQueues_keeps (P := fun t => seen t = seen s) e
    (fun b t _ ht => (accept_seen e b t).trans ht) bs s rfl

/-- **`done`** gives the request back once; whatever the callback queues, nothing is put on
the wire and no other request is given back. -/
theorem done_seen (e : EpId) (r : Nat) (status : Int) (s : Dev) :
    seen (done e r status s).2 = (s.wire, completions s.ledger ++
      [.completed e r ((s.reqs r).finalStatus status) (s.reqs r).actual (s.reqs r).length]) := by
  have hcalled : seen (called e r status s) = (s.wire, completions s.ledger ++
      [.completed e r ((s.reqs r).finalStatus status) (s.reqs r).actual (s.reqs r).length]) :=
    Prod.ext rfl (List.filter_append ..)
  rw [← hcalled]
  exact callbackQueues_seen e (s.callbacks.headD []) (called e r status s)

/-! ### One packet -/

/-- The request of a submission when `a` bytes have been sent. -/
def Submission.request (b : Submission) (a : Nat) : Request :=
  ⟨b.length, BitVec.ofNat 32 a, b.buf, b.zero, - EINPROGRESS⟩

section
variable {b : Submission} {a m k : Nat}

theorem packetLength_request (hlen : b.length.toNat < 2147483648) (ha : a ≤ b.length.toNat)
    (m : Nat) : packetLength (b.request a) m = (min (b.length.toNat - a) m : Nat) := by
  have hrest : (b.length - BitVec.ofNat 32 a).toNat = b.length.toNat - a := by
    rw [BitVec.toNat_sub, BitVec.toNat_ofNat]
    omega
  have hint : (b.length - BitVec.ofNat 32 a).toInt = (b.length.toNat - a : Nat) := by
    rw [BitVec.toInt_eq_toNat_of_lt (by omega), hrest]
  show min (b.length - BitVec.ofNat 32 a).toInt (m : Int) = _
  rw [hint]
  omega

theorem request_taken (hlen : b.length.toNat < 2147483648) (ha : a ≤ b.length.toNat) (m : Nat) :
    { b.request a with
      actual := (b.request a).actual + BitVec.ofInt 32 (packetLength (b.request a) m) } =
      b.request (a + min (b.length.toNat - a) m) := by
  rw [packetLength_request hlen ha, BitVec.ofInt_natCast]
  show (⟨_, _, _, _, _⟩ : Request) = ⟨_, _, _, _, _⟩
  rw [BitVec.ofNat_add]
  rfl

theorem isLast_request (hm : 0 < m) (hlen : b.length.toNat < 2147483648)
    (hk : m * k ≤ b.length.toNat) :
    isLast (b.request (m * k + min (b.length.toNat - m * k) m))
      (min (b.length.toNat - m * k) m : Nat) m =
      decide (¬ k + 1 < packetCount m b.zero b.length.toNat) := by
  have hall : b.length = BitVec.ofNat 32 (m * k + min (b.length.toNat - m * k) m) ↔
      b.length.toNat = m * k + min (b.length.toNat - m * k) m := by
    rw [← BitVec.toNat_inj, BitVec.toNat_ofNat, Nat.mod_eq_of_lt (by omega)]
  have hnext : m * (k + 1) = m * k + m := Nat.mul_succ m k
  rw [Bool.eq_iff_iff, decide_eq_true_eq, lt_packetCount hm, hnext]
  simp only [isLast, Submission.request, Bool.or_eq_true, decide_eq_true_eq, Bool.not_eq_true',
    Bool.or_eq_false_iff, decide_eq_false_iff_not, not_not, ne_eq, hall]
  cases b.zero with
  | false => simp only [Bool.false_eq_true, and_false, or_false, and_true]; omega
  | true => simp only [and_true, Bool.true_eq_false, and_false, or_false]; omega

end

/-- The state behind `write_packet`. -/
def Dev.fill (s : Dev) (e : EpId) (r : Nat) (max : Int) : Dev := (writePacket e r max s).2

theorem wire_fill (s : Dev) (e : EpId) (r : Nat) (max : Int) :
    (s.fill e r max).wire =
      s.wire ++ [.data e r (s.reqs r).actual (packetLength (s.reqs r) max)] := rfl

section
variable {s : Dev} {b : Submission} {m k : Nat}

theorem req_fill (e : EpId) (hreq : s.reqs b.req = b.request (m * k))
    (hlen : b.length.toNat < 2147483648) (hk : m * k ≤ b.length.toNat) :
    (s.fill e b.req m).reqs b.req =
      b.request (m * k + min (b.length.toNat - m * k) m) := by
  rw [← request_taken hlen hk, ← hreq]
  exact if_pos rfl

theorem bytes_packet (mem : BitVec 32 → BitVec 8) (e : EpId)
    (hlen : b.length.toNat < 2147483648) (hk : m * k ≤ b.length.toNat) :
    Wire.bytes mem b.buf (.data e b.req (b.request (m * k)).actual
      (packetLength (b.request (m * k)) m)) =
      ((bytesAt mem b.buf b.length.toNat).drop (m * k)).take m := by
  rw [take_drop_bytesAt, packetLength_request hlen hk]
  exact fifoBytes_of_nonneg _ (by omega)

theorem length_bytes_neg (mem : BitVec 32 → BitVec 8) (e : EpId)
    (hlen : ¬ b.length.toNat < 2147483648) (m : Nat) :
    2147483648 ≤ (Wire.bytes mem b.buf (.data e b.req (b.request 0).actual
      (packetLength (b.request 0) m))).length := by
  have hint : b.length.toInt = (b.length.toNat : Int) - 4294967296 := by
    rw [BitVec.toInt_eq_toNat_cond, if_neg (by omega)]
    rfl
  have hneg : packetLength (b.request 0) m = (b.length.toNat : Int) - 4294967296 := by
    show min (b.length - 0#32).toInt (m : Int) = _
    rw [BitVec.sub_zero, hint]
    omega
  rw [hneg]
  exact length_fifoBytes_of_neg _ (by omega) (by omega)

end

end Dingoo.Udc
