/-
The messages of a transfer.

`xfer_read` and `xfer_write` return the number of bytes, and the loop over the messages
takes a result other than zero for an error: it ends behind the first message that has a
buffer.  Both take the address of an EEPROM, made from the sub-address, in place of the
message's own.  So on a bus where everything is acknowledged all messages are carried
out as asked for exactly if there is none, or one of a single byte to that EEPROM.
-/
import Dingoo.Lib.Masks
import Dingoo.Proofs.I2cPages
import Mathlib.Algebra.GroupWithZero.Nat

namespace Dingoo.I2c

open Dingoo.Lib

variable {m : Msg}

/-! ### What a log shows -/

def Event.address? : Event → Option Byte
  | .put .address b _ => some b
  | _ => none

def Event.data? : Event → Option Byte
  | .put .data b _ => some b
  | .get b => some b
  | _ => none

/-- The address bytes put on the bus. -/
def addresses (log : List Event) : List Byte := log.filterMap Event.address?

/-- The data bytes, put or received. -/
def payload (log : List Event) : List Byte := log.filterMap Event.data?

/-- The address of a message with its read/write bit. -/
def Msg.addressByte (m : Msg) : Nat := 2 * m.addr.toNat + if m.rd then 1 else 0

/-- The events carry out the message. -/
structure Performs (m : Msg) (events : List Event) : Prop where
  addressed : addresses events ≠ []
  /-- every address byte is that of the message -/
  address : ∀ b ∈ addresses events, b.toNat = m.addressByte
  length : (payload events).length = m.buf.length
  written : m.rd = false → payload events = m.buf

/-- All messages are carried out, one after the other, and counted. -/
def RunsAll (devices : Devices) (msgs : List Msg) (s : Bus) : Prop :=
  (i2cJzXfer devices msgs s).1 = msgs.length ∧
  ∃ parts, List.Forall₂ Performs msgs parts ∧
    (i2cJzXfer devices msgs s).2.log = s.log ++ parts.flatten

theorem payload_append (as bs : List Event) : payload (as ++ bs) = payload as ++ payload bs :=
  List.filterMap_append

theorem addresses_append (as bs : List Event) :
    addresses (as ++ bs) = addresses as ++ addresses bs := List.filterMap_append

/-! ### The device -/

theorem selectDevice_toNat (s : Bus) :
    (selectDevice s).1.toNat = 0x50 + s.subAddr.toNat / 256 % 8 := by
  have hbits : ((s.subAddr &&& 0x0700) >>> 8).toNat = s.subAddr.toNat / 256 % 8 := by
    rw [BitVec.toNat_ushiftRight, BitVec.toNat_and, Nat.shiftRight_and_distrib,
      Nat.shiftRight_eq_div_pow]
    exact Nat.and_two_pow_sub_one_eq_mod _ 3
  have hlt : s.subAddr.toNat / 256 % 8 < 2 ^ 3 := Nat.mod_lt _ (by decide)
  have hshift : ((0xa : Byte) <<< 3).toNat = 0xa <<< 3 := rfl
  show (((0xa : Byte) <<< 3) ||| ((s.subAddr &&& 0x0700) >>> 8).setWidth 8).toNat = _
  rw [BitVec.toNat_or, BitVec.toNat_setWidth, hbits, hshift,
    Nat.mod_eq_of_lt (Nat.lt_trans hlt (by decide)), shiftLeft_or _ hlt]
  rfl

theorem addressBytes_toNat : ∀ device : Byte, device.toNat < 128 →
    ((device <<< 1) ||| I2C_WRITE).toNat = 2 * device.toNat ∧
    ((device <<< 1) ||| I2C_READ).toNat = 2 * device.toNat + 1 := by
  decide +kernel

section
variable {devices : Devices}

/-! ### Writing -/

theorem goodPages_all (hack : ∀ i, devices.ack i = true) (addrVal : Bool) :
    ∀ (count pos : Nat), goodPages devices.ack addrVal pos count = count := by
  intro count
  induction count with
  | zero => intro pos; rfl
  | succ count ih =>
    intro pos
    rw [goodPages, addressed, hack, hack, Bool.or_true, ih]
    rfl

theorem addresses_pageEvents (device : Byte) (addrVal : Bool) (subAddr : BitVec 16)
    (data : List Byte) :
    addresses (pageEvents device addrVal subAddr data) = [(device <<< 1) ||| I2C_WRITE] := by
  have hdata : addresses (data.map fun b => .put .data b true) = [] := by
    rw [addresses, List.filterMap_map, List.filterMap_eq_nil_iff]
    intro b _
    rfl
  unfold pageEvents
  rw [← List.cons_append, ← List.cons_append, addresses_append, hdata]
  cases addrVal with
  | false => rfl
  | true => rfl

theorem payload_pageEvents (device : Byte) (addrVal : Bool) (subAddr : BitVec 16)
    (data : List Byte) : payload (pageEvents device addrVal subAddr data) = data := by
  have hdata : payload (data.map fun b => .put .data b true) = data := by
    rw [payload, List.filterMap_map]
    exact List.filterMap_some
  unfold pageEvents
  rw [← List.cons_append, ← List.cons_append, payload_append, hdata]
  cases addrVal with
  | false => rfl
  | true => rfl

theorem addresses_pagesLog (device : Byte) (addrVal : Bool) : ∀ (j : Nat) (subAddr : BitVec 16)
    (buf : List Byte), addresses (pagesLog device addrVal subAddr buf j) =
      List.replicate j ((device <<< 1) ||| I2C_WRITE) := by
  intro j
  induction j with
  | zero => intro subAddr buf; rfl
  | succ j ih =>
    intro subAddr buf
    rw [pagesLog_succ, addresses_append, addresses_pageEvents, List.replicate_succ,
      ← ih (subAddr + 8) (buf.drop 8)]
    rfl

theorem payload_pagesLog (device : Byte) (addrVal : Bool) : ∀ (j : Nat) (subAddr : BitVec 16)
    (buf : List Byte), payload (pagesLog device addrVal subAddr buf j) = buf.take (8 * j) := by
  intro j
  induction j with
  | zero => intro subAddr buf; rfl
  | succ j ih =>
    intro subAddr buf
    rw [pagesLog_succ, payload_append, payload_pageEvents, Nat.mul_succ, Nat.add_comm,
      List.take_add, ← ih (subAddr + 8) (buf.drop 8)]
    rfl

theorem xferWrite_eq (hack : ∀ i, devices.ack i = true) (buf : List Byte) (s : Bus) :
    (xferWrite devices buf s).1 = buf.length ∧
    (xferWrite devices buf s).2.log = s.log ++
      pagesLog (selectDevice s).1 s.addrVal (s.subAddr &&& 0xff) buf (pages buf.length) := by
  have hselect : xferWrite devices buf s =
      writeTries devices (selectDevice s).1 buf 6 (selectDevice s).2 := rfl
  rw [hselect]
  rcases @writePages_cases devices (selectDevice s).1 (buf.length + 1) buf (selectDevice s).2
    (Nat.lt_succ_self _) with ⟨-, i, hi⟩ | ⟨-, events, hevents, hrun⟩ | ⟨j, hj, hcount, -⟩
  · rw [hack i] at hi
    cases hi
  · rw [writeTries, hrun]
    refine ⟨rfl, ?_⟩
    show s.log ++ events ++ [.stop] = _
    rw [List.append_assoc, hevents]
    rfl
  · rw [goodPages_all hack] at hcount
    omega

/-! ### Reading -/

/-- The events of the address bytes of a read. -/
def readEvents (device : Byte) (addrVal : Bool) (subAddr : BitVec 16) : List Event :=
  (if addrVal then [.start, .put .address ((device <<< 1) ||| I2C_WRITE) true,
    .put .word (subAddr.setWidth 8) true] else []) ++
    [.start, .put .address ((device <<< 1) ||| I2C_READ) true]

theorem readAddress_eq (hack : ∀ i, devices.ack i = true) (device : Byte) (s : Bus) :
    readAddress devices device s =
      (true, s.sendAll (readEvents device s.addrVal s.subAddr)) := by
  cases hval : s.addrVal with
  | false => simp [readAddress, readEvents, i2cPutData, Bus.send, Bus.sendAll, hack, hval]
  | true => simp [readAddress, readEvents, i2cPutData, Bus.send, Bus.sendAll, hack, hval]

theorem readBytes_eq (hbyte : ∀ i, (devices.byte i).isSome) : ∀ (cnt : Nat) (s : Bus),
    (readBytes devices cnt s).1 = 0 ∧
    ∃ events, (readBytes devices cnt s).2.2.log = s.log ++ events ∧ addresses events = [] ∧
      (payload events).length = cnt := by
  intro cnt
  induction cnt with
  | zero => intro s; exact ⟨rfl, [], (List.append_nil _).symm, rfl, rfl⟩
  | succ cnt ih =>
    intro s
    obtain ⟨data, hdata⟩ := Option.isSome_iff_exists.mp (hbyte s.log.length)
    have hget : i2cGetData devices (cnt ≠ 0) s =
        (some data, (if cnt ≠ 0 then s else s.send .stop).send (.get data)) := by
      simp [i2cGetData, hdata]
    obtain ⟨hcnt, events, hlog, haddresses, hpayload⟩ :=
      ih ((if cnt ≠ 0 then s else s.send .stop).send (.get data))
    rw [readBytes, hget]
    refine ⟨hcnt, (if cnt ≠ 0 then [] else [.stop]) ++ .get data :: events, ?_, ?_, ?_⟩
    · show (readBytes devices cnt _).2.2.log = _
      rw [hlog]
      by_cases hlast : cnt = 0
      · simp [hlast, Bus.send]
      · simp [hlast, Bus.send]
    · rw [addresses_append]
      by_cases hlast : cnt = 0
      · rw [if_neg (not_not.mpr hlast)]
        exact haddresses
      · rw [if_pos hlast]
        exact haddresses
    · rw [payload_append]
      by_cases hlast : cnt = 0
      · rw [if_neg (not_not.mpr hlast)]
        exact congrArg (· + 1) hpayload
      · rw [if_pos hlast]
        exact congrArg (· + 1) hpayload

theorem xferRead_eq (hack : ∀ i, devices.ack i = true) (hbyte : ∀ i, (devices.byte i).isSome)
    (length : Nat) (s : Bus) :
    (xferRead devices length s).1 = length ∧
    ∃ events, (xferRead devices length s).2.2.log = s.log ++ events ∧
      addresses events =
        addresses (readEvents (selectDevice s).1 s.addrVal (s.subAddr &&& 0xff)) ∧
      (payload events).length = length := by
  have hrun : xferRead devices length s =
      readTries devices (selectDevice s).1 length 6 (selectDevice s).2 := rfl
  obtain ⟨hcnt, events, hlog, haddresses, hpayload⟩ := readBytes_eq hbyte length
    (((selectDevice s).2.sendAll (readEvents (selectDevice s).1 s.addrVal
      (s.subAddr &&& 0xff))).send .start)
  rw [hrun, readTries, readAddress_eq hack]
  refine ⟨?_, readEvents (selectDevice s).1 s.addrVal (s.subAddr &&& 0xff) ++ .start :: events,
    ?_, ?_, ?_⟩
  · exact congrArg (fun cnt : Nat => ((length - cnt : Nat) : Int)) hcnt
  · refine Eq.trans hlog ?_
    simp [Bus.send, Bus.sendAll, selectDevice]
  · rw [addresses_append]
    show _ ++ addresses events = _
    rw [haddresses, List.append_nil]
  · rw [payload_append, ← hpayload]
    cases s.addrVal with
    | false => rfl
    | true => rfl

/-! ### One message -/

/-- The device that a message is sent to. -/
def Bus.eeprom (s : Bus) : Nat := 0x50 + s.subAddr.toNat / 256 % 8

theorem Bus.addressBytes (s : Bus) :
    (((selectDevice s).1 <<< 1) ||| I2C_WRITE).toNat = 2 * s.eeprom ∧
    (((selectDevice s).1 <<< 1) ||| I2C_READ).toNat = 2 * s.eeprom + 1 := by
  have hdevice : (selectDevice s).1.toNat = s.eeprom := selectDevice_toNat s
  have hlt : s.eeprom < 128 := by
    unfold Bus.eeprom
    omega
  rw [← hdevice] at hlt ⊢
  exact addressBytes_toNat _ hlt

theorem address_pagesLog_iff (hrd : m.rd = false) (s : Bus) (addrVal : Bool) (subAddr : BitVec 16)
    (buf : List Byte) (j : Nat) :
    (∀ b ∈ addresses (pagesLog (selectDevice s).1 addrVal subAddr buf (j + 1)),
      b.toNat = m.addressByte) ↔ m.addr.toNat = s.eeprom := by
  have hbyte : m.addressByte = 2 * m.addr.toNat := by
    rw [Msg.addressByte, hrd]
    rfl
  rw [addresses_pagesLog, hbyte]
  constructor
  · intro h
    have := h _ (List.mem_replicate.mpr ⟨Nat.succ_ne_zero j, rfl⟩)
    rw [s.addressBytes.1] at this
    omega
  · intro haddr b hb
    rw [(List.mem_replicate.mp hb).2, s.addressBytes.1, haddr]

theorem address_readEvents_iff (hrd : m.rd = true) (s : Bus) (addrVal : Bool)
    (subAddr : BitVec 16) :
    (∀ b ∈ addresses (readEvents (selectDevice s).1 addrVal subAddr),
      b.toNat = m.addressByte) ↔ m.addr.toNat = s.eeprom ∧ addrVal = false := by
  have hbyte : m.addressByte = 2 * m.addr.toNat + 1 := by
    rw [Msg.addressByte, hrd]
    rfl
  obtain ⟨hwrite, hread⟩ := s.addressBytes
  rw [hbyte]
  cases addrVal with
  | false =>
    have hone : addresses (readEvents (selectDevice s).1 false subAddr) =
      [((selectDevice s).1 <<< 1) ||| I2C_READ] := rfl
    rw [hone, List.forall_mem_singleton, hread]
    exact ⟨fun h => ⟨by omega, rfl⟩, fun h => by omega⟩
  | true =>
    have htwo : addresses (readEvents (selectDevice s).1 true subAddr) =
      [((selectDevice s).1 <<< 1) ||| I2C_WRITE,
        ((selectDevice s).1 <<< 1) ||| I2C_READ] := rfl
    constructor
    · intro h
      have := h _ (by rw [htwo]; exact List.mem_cons_self)
      rw [hwrite] at this
      omega
    · exact fun h => by cases h.2

/-- **A message** on a bus where everything is acknowledged: its length is returned, its
bytes are moved, and the address bytes are those of the EEPROM. -/
theorem xferMsg_eq (hack : ∀ i, devices.ack i = true) (hbyte : ∀ i, (devices.byte i).isSome)
    (hbuf : m.buf ≠ []) (s : Bus) :
    (xferMsg devices m s).1 = m.buf.length ∧
    ∃ events, (xferMsg devices m s).2.log = s.log ++ events ∧
      (payload events).length = m.buf.length ∧ (m.rd = false → payload events = m.buf) ∧
      addresses events ≠ [] ∧ ((∀ b ∈ addresses events, b.toNat = m.addressByte) ↔
        m.addr.toNat = s.eeprom ∧ (m.rd = true → s.addrVal = false)) := by
  cases hrd : m.rd with
  | false =>
    obtain ⟨hret, hlog⟩ := xferWrite_eq hack m.buf s
    have hmsg : xferMsg devices m s = xferWrite devices m.buf s := by
      rw [xferMsg, if_neg hbuf, hrd]
      rfl
    have hpayload : payload (pagesLog (selectDevice s).1 s.addrVal (s.subAddr &&& 0xff) m.buf
        (pages m.buf.length)) = m.buf := by
      rw [payload_pagesLog]
      refine List.take_of_length_le ?_
      unfold pages
      omega
    rw [hmsg]
    refine ⟨hret, _, hlog, congrArg _ hpayload, fun _ => hpayload, ?_, ?_⟩
    · rw [addresses_pagesLog]
      exact List.cons_ne_nil _ _
    · rw [pages, address_pagesLog_iff hrd]
      exact ⟨fun h => ⟨h, fun hread => by cases hread⟩, fun h => h.1⟩
  | true =>
    obtain ⟨hret, events, hlog, haddresses, hpayload⟩ := xferRead_eq hack hbyte m.buf.length s
    have hmsg : xferMsg devices m s = ((xferRead devices m.buf.length s).1,
        (xferRead devices m.buf.length s).2.2) := by
      rw [xferMsg, if_neg hbuf, hrd]
      rfl
    rw [hmsg]
    refine ⟨hret, events, hlog, hpayload, fun h => (by cases h), ?_, ?_⟩
    · rw [haddresses]
      cases s.addrVal with
      | false => exact List.cons_ne_nil _ _
      | true => exact List.cons_ne_nil _ _
    · rw [haddresses, address_readEvents_iff hrd]
      exact ⟨fun h => ⟨h.1, fun _ => h.2⟩, fun h => ⟨h.1, h.2 rfl⟩⟩

/-! ### All messages -/

theorem length_payload_flatten : ∀ {msgs : List Msg} {parts : List (List Event)},
    List.Forall₂ Performs msgs parts →
    (payload parts.flatten).length = (msgs.map fun m => m.buf.length).sum := by
  intro msgs parts h
  induction h with
  | nil => rfl
  | cons hm _ ih =>
    rw [List.flatten_cons, payload_append, List.length_append, hm.length, ih, List.map_cons,
      List.sum_cons]

theorem i2cJzXfer_cons (hack : ∀ i, devices.ack i = true) (hbyte : ∀ i, (devices.byte i).isSome)
    (hbuf : m.buf ≠ []) (msgs : List Msg) (s : Bus) :
    i2cJzXfer devices (m :: msgs) s = xferMsg devices m s := by
  have hret := (xferMsg_eq hack hbyte hbuf s).1
  have hlen : 0 < m.buf.length := List.length_pos_iff.mpr hbuf
  have hstep : i2cJzXfer devices (m :: msgs) s =
      if (xferMsg devices m s).1 ≠ 0 then xferMsg devices m s
      else xferMsgs devices 1 msgs (xferMsg devices m s).2 := rfl
  rw [hstep, if_pos (by rw [hret]; omega)]

/-- **Exactly the transfers of nothing, or of one byte to the EEPROM, run as asked for.** -/
theorem i2cJzXfer_runs_all_iff (hack : ∀ i, devices.ack i = true)
    (hbyte : ∀ i, (devices.byte i).isSome) (msgs : List Msg) (hbuf : ∀ m ∈ msgs, m.buf ≠ [])
    (s : Bus) :
    RunsAll devices msgs s ↔
      msgs = [] ∨ ∃ m, msgs = [m] ∧ m.buf.length = 1 ∧ m.addr.toNat = s.eeprom ∧
        (m.rd = true → s.addrVal = false) := by
  cases msgs with
  | nil =>
    exact ⟨fun _ => Or.inl rfl, fun _ => ⟨rfl, [], .nil, (List.append_nil _).symm⟩⟩
  | cons m rest =>
    have hm := hbuf m List.mem_cons_self
    obtain ⟨hret, events, hlog, hlength, hwritten, hsome, haddress⟩ := xferMsg_eq hack hbyte hm s
    rw [RunsAll, i2cJzXfer_cons hack hbyte hm]
    constructor
    · rintro ⟨hcount, parts, hparts, hparts_log⟩
      rw [hlog, List.append_cancel_left_eq] at hparts_log
      -- the first message moves its own bytes only, so there is no other one
      have hbytes := length_payload_flatten hparts
      rw [← hparts_log, hlength, List.map_cons, List.sum_cons] at hbytes
      have hrest : rest = [] := by
        cases rest with
        | nil => rfl
        | cons m' rest =>
          have hm' := List.length_pos_iff.mpr (hbuf m' (by simp))
          rw [List.map_cons, List.sum_cons] at hbytes
          omega
      subst hrest
      refine Or.inr ⟨m, rfl, ?_, haddress.mp ?_⟩
      · rw [hret] at hcount
        exact Int.ofNat.inj hcount
      · cases hparts with
        | cons hpart hnil =>
          cases hnil
          rw [hparts_log, List.flatten_singleton]
          exact hpart.address
    · rintro (h | ⟨m', h, hone, hself⟩)
      · cases h
      · obtain ⟨rfl, rfl⟩ := List.cons.inj h
        refine ⟨by rw [hret, hone]; rfl, [events], .cons ⟨hsome, haddress.mpr hself, hlength,
          hwritten⟩ .nil, by rw [hlog, List.flatten_singleton]⟩

end

/-- Devices that acknowledge every byte and send zeros. -/
def answering : Devices := ⟨fun _ => true, fun _ => some 0⟩

theorem i2cJzXfer_runs_all_byte :
    (∀ i, answering.ack i = true) ∧
    RunsAll answering [⟨0x52, false, [7]⟩] ⟨0x210, true, []⟩ :=
  ⟨fun _ => rfl, (i2cJzXfer_runs_all_iff (fun _ => rfl) (fun _ => rfl) _ (by decide) _).mpr
    (Or.inr ⟨_, rfl, rfl, by decide, by decide⟩)⟩

/-- A register is to be read from a device at 0x1b: its number is sent to the EEPROM at
0x50, nothing is read, and one message is counted. -/
theorem register_read_dropped :
    ¬ RunsAll answering [⟨0x1b, false, [9]⟩, ⟨0x1b, true, [0]⟩] ⟨0, false, []⟩ ∧
    i2cJzXfer answering [⟨0x1b, false, [9]⟩, ⟨0x1b, true, [0]⟩] ⟨0, false, []⟩ =
      (1, ⟨0, false, [.start, .put .address 0xa0 true, .put .data 9 true, .stop]⟩) := by
  refine ⟨fun h => ?_, by decide⟩
  exact absurd h.1 (by decide)

end Dingoo.I2c
