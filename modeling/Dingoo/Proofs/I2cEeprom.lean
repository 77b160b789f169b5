/-
Where the bytes of a write land in the EEPROM.

A device stores what it acknowledges: behind its address byte and a word address, bytes at
consecutive locations.  `xfer_write` takes the sub-address on by eight for every page, in
a variable of which eight bits are sent, and starts the buffer again, but not the
sub-address, when an address byte is not acknowledged.  So the pages of all attempts
stand one behind the other, modulo 256 (`writeTries_stored`), and the bytes land where
they should exactly if no page was sent in vain and the last one starts in the same 256
bytes as the first, or if the whole 256 bytes are written and the pages sent in vain
are a multiple of 32.
-/
import Dingoo.Lib.Stores
import Dingoo.Proofs.I2cXfer

namespace Dingoo.I2c

open Dingoo.Lib

variable {buf : List Byte} {subAddr : BitVec 16} {b : Byte} {x c j : Nat}

/-! ### The device -/

/-- What the EEPROM waits for. -/
inductive Mode where
  | idle
  | started
  /-- device `0x50 + h` is written to, and the word address comes next -/
  | chosen (h : Nat)
  | writing (loc : Nat)

/-- What the EEPROM stores on an event, and what it waits for then. -/
def Mode.step : Mode → Event → Mode × List (Nat × Byte)
  | _, .start => (.started, [])
  | .started, .put _ b true =>
    if b.toNat % 2 = 0 ∧ 0xa0 ≤ b.toNat ∧ b.toNat < 0xb0 then (.chosen ((b.toNat - 0xa0) / 2), [])
    else (.idle, [])
  | .chosen h, .put _ w true => (.writing (256 * h + w.toNat), [])
  | .writing loc, .put _ b true => (.writing (loc + 1), [(loc, b)])
  | _, _ => (.idle, [])

/-- All that is stored. -/
def storesFrom : Mode → List Event → List (Nat × Byte)
  | _, [] => []
  | m, e :: log => (m.step e).2 ++ storesFrom (m.step e).1 log

/-- What a call of `xfer_write` stores. -/
def written (devices : Devices) (buf : List Byte) (s : Bus) : List (Nat × Byte) :=
  storesFrom .idle ((xferWrite devices buf s).2.log.drop s.log.length)

/-- The buffer is stored from `a` on, and nothing else is. -/
def Lands (a : Nat) (buf : List Byte) (stores : List (Nat × Byte)) : Prop :=
  ∀ x, lastStore stores x = if a ≤ x then buf[x - a]? else none

/-- How many pages are sent in attempts that are not acknowledged. -/
def pagesInVain (ack : Nat → Bool) (count : Nat) : Nat → Nat → Nat
  | 0, _ => 0
  | tries + 1, pos =>
    let j := goodPages ack true pos count
    if j = count then 0
    else j + pagesInVain ack count tries
      (pos + 12 * j + if ack (pos + 12 * j + 1) then 4 else 3)

/-! ### The stores of a page -/

/-- Bytes at consecutive locations. -/
def storeAll : Nat → List Byte → List (Nat × Byte)
  | _, [] => []
  | loc, b :: data => (loc, b) :: storeAll (loc + 1) data

/-- The first `j` pages of a buffer, from word address `c` on. -/
def pagesStores (h : Nat) : Nat → List Byte → Nat → List (Nat × Byte)
  | _, _, 0 => []
  | c, buf, j + 1 =>
    storeAll (256 * h + c % 256) (buf.take 8) ++ pagesStores h (c + 8) (buf.drop 8) j

theorem mem_storeAll : ∀ {data : List Byte} {loc : Nat},
    (x, b) ∈ storeAll loc data ↔ ∃ i, x = loc + i ∧ data[i]? = some b := by
  intro data
  induction data with
  | nil => intro loc; simp [storeAll]
  | cons d data ih =>
    intro loc
    rw [storeAll, List.mem_cons, ih]
    constructor
    · rintro (h | ⟨i, hx, hb⟩)
      · cases h
        exact ⟨0, rfl, rfl⟩
      · exact ⟨i + 1, by omega, hb⟩
    · rintro ⟨i, hx, hb⟩
      cases i with
      | zero =>
        left
        cases hb
        rw [hx]
        rfl
      | succ i => exact Or.inr ⟨i, by omega, hb⟩

theorem mem_pagesStores {h : Nat} : ∀ {j c : Nat} {buf : List Byte},
    (x, b) ∈ pagesStores h c buf j ↔
      ∃ p < j, ∃ i < 8, x = 256 * h + (c + 8 * p) % 256 + i ∧ buf[8 * p + i]? = some b := by
  intro j
  induction j with
  | zero => intro c buf; simp [pagesStores]
  | succ j ih =>
    intro c buf
    rw [pagesStores, List.mem_append, mem_storeAll, ih]
    constructor
    · rintro (⟨i, hx, hb⟩ | ⟨p, hp, i, hi, hx, hb⟩)
      · rw [List.getElem?_take] at hb
        by_cases hi : i < 8
        · rw [if_pos hi] at hb
          exact ⟨0, Nat.succ_pos j, i, hi, hx, by rwa [Nat.mul_zero, Nat.zero_add]⟩
        · rw [if_neg hi] at hb
          cases hb
      · rw [List.getElem?_drop] at hb
        refine ⟨p + 1, Nat.succ_lt_succ hp, i, hi, ?_, ?_⟩
        · rw [hx, Nat.mul_succ, Nat.add_comm (8 * p), Nat.add_assoc c]
        · rw [← hb]
          congr 1
          omega
    · rintro ⟨p, hp, i, hi, hx, hb⟩
      cases p with
      | zero =>
        refine Or.inl ⟨i, hx, ?_⟩
        rw [List.getElem?_take, if_pos hi, ← hb, Nat.mul_zero, Nat.zero_add]
      | succ p =>
        refine Or.inr ⟨p, Nat.lt_of_succ_lt_succ hp, i, hi, ?_, ?_⟩
        · rw [hx, Nat.mul_succ, Nat.add_comm (8 * p), Nat.add_assoc c]
        · rw [List.getElem?_drop, ← hb]
          congr 1
          omega

/-! ### The stores of a log -/

theorem storesFrom_data (rest : List Event) : ∀ (data : List Byte) (loc : Nat),
    storesFrom (.writing loc) (data.map (fun b => .put .data b true) ++ .stop :: rest) =
      storeAll loc data ++ storesFrom .idle rest := by
  intro data
  induction data with
  | nil => intro loc; rfl
  | cons b data ih =>
    intro loc
    rw [storeAll, List.cons_append, ← ih]
    rfl

section
variable {device : Byte} {h : Nat}

theorem step_started (hdevice : device.toNat = 0x50 + h) (hh : h < 8) :
    Mode.step .started (.put .address ((device <<< 1) ||| I2C_WRITE) true) = (.chosen h, []) := by
  have hbyte := (addressBytes_toNat device (by omega)).1
  rw [hdevice] at hbyte
  rw [Mode.step, hbyte, if_pos (by omega)]
  congr 2
  omega

theorem storesFrom_page (hdevice : device.toNat = 0x50 + h) (hh : h < 8) (m : Mode)
    (subAddr : BitVec 16) (data : List Byte) (rest : List Event) :
    storesFrom m (pageEvents device true subAddr data ++ .stop :: rest) =
      storeAll (256 * h + subAddr.toNat % 256) data ++ storesFrom .idle rest := by
  have hstart : m.step .start = (.started, []) := by
    cases m <;> rfl
  have hword : (subAddr.setWidth 8).toNat = subAddr.toNat % 256 := BitVec.toNat_setWidth 8 subAddr
  rw [← storesFrom_data, ← hword]
  simp only [pageEvents, List.cons_append, storesFrom, hstart, step_started hdevice hh]
  rfl

theorem storesFrom_refused (hdevice : device.toNat = 0x50 + h) (hh : h < 8) (ack : Nat → Bool)
    (pos : Nat) (subAddr : BitVec 16) (rest : List Event) :
    storesFrom .idle (refusedEvents ack pos device subAddr ++ .stop :: rest) =
      storesFrom .idle rest := by
  unfold refusedEvents
  cases ack (pos + 1) with
  | false => rfl
  | true =>
    simp only [List.cons_append, storesFrom, Mode.step.eq_1, step_started hdevice hh]
    rfl

theorem wordAddress_add (hc : subAddr.toNat % 256 = c % 256) (n : Nat) :
    (subAddr + BitVec.ofNat 16 n).toNat % 256 = (c + n) % 256 := by
  rw [BitVec.toNat_add, BitVec.toNat_ofNat]
  show (subAddr.toNat + n % 65536) % 65536 % 256 = _
  omega

theorem storesFrom_pagesLog (hdevice : device.toNat = 0x50 + h) (hh : h < 8) (rest : List Event) :
    ∀ (j c : Nat) (subAddr : BitVec 16) (buf : List Byte), subAddr.toNat % 256 = c % 256 →
    storesFrom .idle (pagesLog device true subAddr buf j ++ rest) =
      pagesStores h c buf j ++ storesFrom .idle rest := by
  intro j
  induction j with
  | zero => intro c subAddr buf _; rfl
  | succ j ih =>
    intro c subAddr buf hc
    have hnext : (subAddr + 8).toNat % 256 = (c + 8) % 256 := wordAddress_add hc 8
    rw [pagesLog_succ, List.append_assoc, List.cons_append, storesFrom_page hdevice hh, hc,
      ih (c + 8) _ _ hnext, pagesStores, List.append_assoc]

/-! ### All attempts -/

/-- The last attempt stores the buffer behind the pages of the ones before it. -/
def Stored (h c vain : Nat) (buf : List Byte) (stores : List (Nat × Byte)) : Prop :=
  ∃ before, stores = before ++ pagesStores h (c + 8 * vain) buf (pages buf.length) ∧
    ∀ x, (∃ b, (x, b) ∈ before) ↔ ∃ q < vain, ∃ i < 8, x = 256 * h + (c + 8 * q) % 256 + i

theorem length_pagesLog (device : Byte) : ∀ (j : Nat) (subAddr : BitVec 16) (buf : List Byte),
    8 * j ≤ buf.length → (pagesLog device true subAddr buf j).length = 12 * j := by
  intro j
  induction j with
  | zero => intro subAddr buf _; rfl
  | succ j ih =>
    intro subAddr buf hlen
    have hfull : (buf.take 8).length = 8 := by
      rw [List.length_take]
      omega
    have hpage := @length_fullPage device true subAddr _ hfull
    rw [List.length_append, List.length_singleton] at hpage
    rw [pagesLog_succ, List.length_append, List.length_cons,
      ih (subAddr + 8) (buf.drop 8) (by rw [List.length_drop]; omega)]
    unfold pageLength at hpage
    rw [if_pos rfl] at hpage
    omega

/-- The events of an attempt that ends behind `j` pages. -/
def refusedAttempt (ack : Nat → Bool) (pos : Nat) (device : Byte) (subAddr : BitVec 16)
    (buf : List Byte) (j : Nat) : List Event :=
  pagesLog device true subAddr buf j ++
    (refusedEvents ack (pos + 12 * j) device (subAddr + BitVec.ofNat 16 (8 * j)) ++ [.stop])

theorem length_refusedAttempt (ack : Nat → Bool) (pos : Nat) (subAddr : BitVec 16)
    (hj : 8 * j ≤ buf.length) :
    (refusedAttempt ack pos device subAddr buf j).length =
      12 * j + if ack (pos + 12 * j + 1) then 4 else 3 := by
  rw [refusedAttempt, List.length_append, length_pagesLog device j subAddr buf hj]
  unfold refusedEvents
  cases ack (pos + 12 * j + 1) with
  | false => rfl
  | true => rfl

theorem storesFrom_refusedAttempt (hdevice : device.toNat = 0x50 + h) (hh : h < 8)
    (ack : Nat → Bool) (pos : Nat) (hc : subAddr.toNat % 256 = c % 256) (buf : List Byte) (j : Nat)
    (rest : List Event) :
    storesFrom .idle (refusedAttempt ack pos device subAddr buf j ++ rest) =
      pagesStores h c buf j ++ storesFrom .idle rest := by
  rw [refusedAttempt, List.append_assoc, List.append_assoc, List.singleton_append,
    storesFrom_pagesLog hdevice hh _ _ c _ _ hc, storesFrom_refused hdevice hh]

theorem Stored.again {vain : Nat} {stores : List (Nat × Byte)} (hj : 8 * j ≤ buf.length)
    (hstored : Stored h (c + 8 * j) vain buf stores) :
    Stored h c (j + vain) buf (pagesStores h c buf j ++ stores) := by
  obtain ⟨before, rfl, hbefore⟩ := hstored
  refine ⟨pagesStores h c buf j ++ before, ?_, fun x => ?_⟩
  · rw [List.append_assoc, Nat.mul_add, Nat.add_assoc]
  · constructor
    · rintro ⟨b, hb⟩
      rcases List.mem_append.mp hb with hb | hb
      · obtain ⟨p, hp, i, hi, hx, -⟩ := mem_pagesStores.mp hb
        exact ⟨p, by omega, i, hi, hx⟩
      · obtain ⟨q, hq, i, hi, hx⟩ := (hbefore x).mp ⟨b, hb⟩
        exact ⟨j + q, by omega, i, hi, by rw [hx, Nat.mul_add, Nat.add_assoc c]⟩
    · rintro ⟨q, hq, i, hi, hx⟩
      by_cases hqj : q < j
      · have hlt : 8 * q + i < buf.length := by omega
        exact ⟨buf[8 * q + i], List.mem_append_left _ (mem_pagesStores.mpr
          ⟨q, hqj, i, hi, hx, List.getElem?_eq_getElem hlt⟩)⟩
      · obtain ⟨b, hb⟩ := (hbefore x).mpr ⟨q - j, by omega, i, hi, by rw [hx]; omega⟩
        exact ⟨b, List.mem_append_right _ hb⟩

variable {devices : Devices}

section
variable {s : Bus} (tries : Nat)

theorem writeTries_ended {cnt : Nat}
    (hrun : (writePages devices device (buf.length + 1) buf s).1 = .ended cnt) :
    (writeTries devices device buf (tries + 1) s).1 = (buf.length - cnt : Nat) := by
  rw [writeTries]
  cases hwrite : writePages devices device (buf.length + 1) buf s with
  | mk e s₁ =>
    rw [hwrite] at hrun
    obtain rfl : e = .ended cnt := hrun
    rfl

theorem writeTries_again (hval : s.addrVal = true)
    (hrun : EndsAgain devices device (buf.length + 1) buf s j) :
    writeTries devices device buf (tries + 1) s =
      writeTries devices device buf tries ⟨s.subAddr + BitVec.ofNat 16 (8 * j), true,
        s.log ++ refusedAttempt devices.ack s.log.length device s.subAddr buf j⟩ := by
  unfold EndsAgain at hrun
  rw [writeTries, hrun, hval, refusedAttempt]
  simp only [Bus.send, List.append_assoc]
  rfl

end

theorem writeTries_stored (hdevice : device.toNat = 0x50 + h) (hh : h < 8) (buf : List Byte) :
    ∀ (tries : Nat) (s : Bus) (c : Nat), s.addrVal = true → s.subAddr.toNat % 256 = c % 256 →
    (writeTries devices device buf tries s).1 = buf.length →
    ∃ events, (writeTries devices device buf tries s).2.log = s.log ++ events ∧
      Stored h c (pagesInVain devices.ack (pages buf.length) tries s.log.length) buf
        (storesFrom .idle events) := by
  intro tries
  induction tries with
  | zero =>
    intro s c _ _ hret
    have hfail : (-ENODEV : Int) = buf.length := hret
    unfold ENODEV at hfail
    omega
  | succ tries ih =>
    intro s c hval hc hret
    rcases @writePages_cases devices device (buf.length + 1) buf s (Nat.lt_succ_self _) with
      ⟨⟨cnt, hpos, hle, hrun⟩, -⟩ | ⟨hgood, events, hevents, hrun⟩ | ⟨j, hj, hgood, hrun⟩
    · -- fewer bytes are written
      rw [writeTries_ended tries hrun] at hret
      omega
    · -- all pages are sent
      rw [hval] at hgood hevents
      have hstop : (writeTries devices device buf (tries + 1) s).2.log =
          s.log ++ events ++ [.stop] := by
        rw [writeTries, hrun]
        rfl
      rw [hstop, pagesInVain, if_pos hgood]
      refine ⟨events ++ [.stop], List.append_assoc .., [], ?_, fun x => by simp⟩
      rw [hevents, ← List.append_nil (pagesLog ..), storesFrom_pagesLog hdevice hh _ _ c _ _ hc]
      exact List.append_nil _
    · -- an address byte is not acknowledged
      rw [hval] at hgood
      have hbuf : 8 * j ≤ buf.length := by
        unfold pages at hj
        omega
      rw [writeTries_again tries hval hrun] at hret ⊢
      obtain ⟨events, hlog, hstored⟩ :=
        ih _ (c + 8 * j) rfl (wordAddress_add hc (8 * j)) hret
      rw [hlog, pagesInVain, hgood, if_neg (Nat.ne_of_lt hj)]
      refine ⟨refusedAttempt devices.ack s.log.length device s.subAddr buf j ++ events,
        List.append_assoc .., ?_⟩
      rw [storesFrom_refusedAttempt hdevice hh _ _ hc]
      refine Stored.again hbuf ?_
      rwa [List.length_append, length_refusedAttempt _ _ _ hbuf, ← Nat.add_assoc] at hstored

end

/-- **What a write stores**: the pages sent in vain, and the buffer behind them. -/
theorem xferWrite_stored {devices : Devices} {s : Bus} (hval : s.addrVal = true)
    (hret : (xferWrite devices buf s).1 = buf.length) :
    Stored (s.subAddr.toNat / 256 % 8) (s.subAddr.toNat % 256)
      (pagesInVain devices.ack (pages buf.length) 6 s.log.length) buf (written devices buf s) := by
  have hrun : xferWrite devices buf s =
      writeTries devices (selectDevice s).1 buf 6 (selectDevice s).2 := rfl
  have hsub : (selectDevice s).2.subAddr.toNat % 256 = s.subAddr.toNat % 256 % 256 := by
    show (s.subAddr &&& 0xff).toNat % 256 = _
    rw [BitVec.toNat_and]
    exact congrArg (· % 256) (Nat.and_two_pow_sub_one_eq_mod _ 8)
  rw [hrun] at hret
  obtain ⟨events, hlog, hstored⟩ := writeTries_stored (selectDevice_toNat s)
    (Nat.mod_lt _ (by decide)) buf 6 (selectDevice s).2 (s.subAddr.toNat % 256) hval hsub hret
  have hdrop : written devices buf s = storesFrom .idle events := by
    rw [written, hrun, hlog]
    exact congrArg _ List.drop_left
  rw [hdrop]
  exact hstored

/-! ### Where they land -/

section
variable {h a vain : Nat} {stores : List (Nat × Byte)}

section
variable (hstored : Stored h a vain buf stores)
include hstored

theorem Stored.location (hx : (x, b) ∈ stores) :
    ∃ q, ∃ i < 8, x = 256 * h + (a + 8 * q) % 256 + i := by
  obtain ⟨before, rfl, hbefore⟩ := hstored
  rcases List.mem_append.mp hx with hx | hx
  · obtain ⟨q, -, i, hi, hx⟩ := (hbefore x).mp ⟨b, hx⟩
    exact ⟨q, i, hi, hx⟩
  · obtain ⟨p, -, i, hi, hx, -⟩ := mem_pagesStores.mp hx
    exact ⟨vain + p, i, hi, by rw [hx, Nat.mul_add, Nat.add_assoc a]⟩

theorem Stored.last_page (ha : a < 256) (hlands : Lands (256 * h + a) buf stores) :
    a + 8 * (pages buf.length - 1) < 256 := by
  by_cases hempty : buf.length = 0
  · rw [hempty]
    exact ha
  · have hlast := hlands (256 * h + a + (buf.length - 1))
    have hlt : buf.length - 1 < buf.length := by omega
    rw [if_pos (Nat.le_add_right _ _), Nat.add_sub_cancel_left,
      List.getElem?_eq_getElem hlt] at hlast
    obtain ⟨q, i, hi, hx⟩ := hstored.location (mem_of_lastStore hlast)
    unfold pages
    omega

theorem Stored.first_byte (hpages : a + 8 * (pages buf.length - 1) < 256) (hbuf : buf ≠ []) :
    lastStore stores (256 * h + (a + 8 * vain) % 256) = buf[0]? := by
  obtain ⟨before, rfl, -⟩ := hstored
  have hlen : 0 < buf.length := List.length_pos_iff.mpr hbuf
  have hlast : lastStore (pagesStores h (a + 8 * vain) buf (pages buf.length))
      (256 * h + (a + 8 * vain) % 256) = buf[0]? := by
    refine lastStore_eq_of_mem_iff fun b => ?_
    rw [mem_pagesStores]
    constructor
    · rintro ⟨p, hp, i, hi, hx, hb⟩
      obtain ⟨rfl, rfl⟩ : p = 0 ∧ i = 0 := by omega
      exact hb
    · exact fun hb => ⟨0, Nat.succ_pos _, 0, by decide, rfl, hb⟩
  rw [lastStore_append, hlast, List.getElem?_eq_getElem hlen]
  rfl

theorem Stored.vain_page (hlands : Lands (256 * h + a) buf stores) {q i : Nat} (hq : q < vain)
    (hi : i < 8) : a ≤ (a + 8 * q) % 256 + i ∧ (a + 8 * q) % 256 + i < a + buf.length := by
  obtain ⟨before, rfl, hbefore⟩ := hstored
  obtain ⟨b, hb⟩ := (hbefore _).mpr ⟨q, hq, i, hi, rfl⟩
  have hsome : lastStore (before ++ pagesStores h (a + 8 * vain) buf (pages buf.length))
      (256 * h + (a + 8 * q) % 256 + i) ≠ none := fun hnone =>
    (lastStore_eq_none_iff _ _).mp hnone _ (List.mem_append_left _ hb) rfl
  rw [hlands _] at hsome
  by_cases hle : 256 * h + a ≤ 256 * h + (a + 8 * q) % 256 + i
  · rw [if_pos hle] at hsome
    have hlt : 256 * h + (a + 8 * q) % 256 + i - (256 * h + a) < buf.length :=
      Nat.lt_of_not_le fun hout => hsome (List.getElem?_eq_none hout)
    omega
  · rw [if_neg hle] at hsome
    exact absurd rfl hsome

theorem Stored.lands
    (hpages : a + 8 * (pages buf.length - 1) < 256) (hvain : 32 ∣ vain)
    (hinside : ∀ q < vain, ∀ i < 8, a ≤ (a + 8 * q) % 256 + i ∧
      (a + 8 * q) % 256 + i < a + buf.length) : Lands (256 * h + a) buf stores := by
  obtain ⟨before, rfl, hbefore⟩ := hstored
  intro x
  have hlast : lastStore (pagesStores h (a + 8 * vain) buf (pages buf.length)) x =
      if 256 * h + a ≤ x then buf[x - (256 * h + a)]? else none := by
    refine lastStore_eq_of_mem_iff fun b => ?_
    rw [mem_pagesStores]
    obtain ⟨k, rfl⟩ := hvain
    constructor
    · rintro ⟨p, hp, i, hi, hx, hb⟩
      have hplace : (a + 8 * (32 * k) + 8 * p) % 256 = a + 8 * p := by omega
      rw [hplace] at hx
      rw [if_pos (by omega), ← hb]
      congr 1
      omega
    · intro hb
      by_cases hle : 256 * h + a ≤ x
      · rw [if_pos hle] at hb
        have hlt : x - (256 * h + a) < buf.length := (List.getElem?_eq_some_iff.mp hb).1
        have hp : (x - (256 * h + a)) / 8 < pages buf.length := by
          unfold pages
          omega
        refine ⟨(x - (256 * h + a)) / 8, hp, (x - (256 * h + a)) % 8, by omega, by omega, ?_⟩
        rw [Nat.div_add_mod]
        exact hb
      · rw [if_neg hle] at hb
        cases hb
  rw [lastStore_append, hlast]
  by_cases hle : 256 * h + a ≤ x ∧ x - (256 * h + a) < buf.length
  · rw [if_pos hle.1, List.getElem?_eq_getElem hle.2]
    rfl
  · -- nothing was stored outside of the buffer before
    have hnone : lastStore before x = none := by
      refine (lastStore_eq_none_iff before x).mpr fun s hs hx => ?_
      obtain ⟨q, hq, i, hi, rfl⟩ := (hbefore x).mp ⟨s.2, by rw [← hx]; exact hs⟩
      have := hinside q hq i hi
      omega
    rw [hnone, Option.or_none]

end

theorem lands_all_iff {n : Nat} {stores : List Byte → List (Nat × Byte)} (ha : a < 256)
    (hstored : ∀ buf, buf.length = n → Stored h a vain buf (stores buf)) :
    (∀ buf, buf.length = n → Lands (256 * h + a) buf (stores buf)) ↔
      (vain = 0 ∧ a + 8 * (pages n - 1) < 256) ∨ (n = 256 ∧ a < 8 ∧ 32 ∣ vain) := by
  constructor
  · intro hlands
    cases n with
    | zero =>
      have hnone := (hstored [] rfl).vain_page (hlands [] rfl) (q := 0) (i := 0)
      refine Or.inl ⟨?_, ha⟩
      rw [List.length_nil] at hnone
      omega
    | succ n =>
      -- the first byte is told from the others
      have hlen : (1 :: List.replicate n (0 : Byte)).length = n + 1 := by
        rw [List.length_cons, List.length_replicate]
      have hland := hlands _ hlen
      have hpages := (hstored _ hlen).last_page ha hland
      have hfirst := (hstored _ hlen).first_byte hpages (List.cons_ne_nil _ _)
      have hinside := fun q i => (hstored _ hlen).vain_page hland (q := q) (i := i)
      rw [hlen] at hpages hinside
      have hvain : 32 ∣ vain := by
        rw [hland] at hfirst
        by_cases hle : 256 * h + a ≤ 256 * h + (a + 8 * vain) % 256
        · rw [if_pos hle, List.getElem?_cons_zero, List.getElem?_cons,
            List.getElem?_replicate] at hfirst
          split_ifs at hfirst
          · omega
          · cases hfirst
        · rw [if_neg hle] at hfirst
          cases hfirst
      by_cases hzero : vain = 0
      · exact Or.inl ⟨hzero, hpages⟩
      · -- 32 pages go once round the block
        have hlow := (hinside ((32 - a / 8) % 32) 0 (by omega) (by decide)).1
        have hhigh := (hinside 31 7 (by omega) (by decide)).2
        have hsmall : a < 8 := by omega
        unfold pages at hpages
        exact Or.inr ⟨by omega, hsmall, hvain⟩
  · rintro (⟨rfl, hpages⟩ | ⟨rfl, hsmall, hvain⟩) buf hlen
    · refine (hstored buf hlen).lands (by rwa [hlen]) (Nat.dvd_zero _) fun q hq => ?_
      exact absurd hq (Nat.not_lt_zero q)
    · have hpages : pages 256 = 32 := rfl
      refine (hstored buf hlen).lands (by rw [hlen, hpages]; omega) hvain fun q _ i hi => ?_
      rw [hlen]
      omega

end

/-- **Exactly the writes in one block of 256 bytes without a page in vain land**, or those
of a whole block where the pages in vain are whole blocks, too. -/
theorem xferWrite_lands_iff {devices : Devices} {s : Bus} (hval : s.addrVal = true)
    (haddr : s.subAddr.toNat < 2048) (n : Nat)
    (hret : ∀ buf, buf.length = n → (xferWrite devices buf s).1 = n) :
    (∀ buf, buf.length = n → Lands s.subAddr.toNat buf (written devices buf s)) ↔
      (pagesInVain devices.ack (pages n) 6 s.log.length = 0 ∧
        s.subAddr.toNat % 256 + 8 * (pages n - 1) < 256) ∨
      (n = 256 ∧ s.subAddr.toNat % 256 < 8 ∧
        32 ∣ pagesInVain devices.ack (pages n) 6 s.log.length) := by
  have hblock : s.subAddr.toNat = 256 * (s.subAddr.toNat / 256 % 8) + s.subAddr.toNat % 256 := by
    omega
  have ha : s.subAddr.toNat % 256 < 256 := Nat.mod_lt _ (by decide)
  have hstored : ∀ buf, buf.length = n → Stored (s.subAddr.toNat / 256 % 8)
      (s.subAddr.toNat % 256) (pagesInVain devices.ack (pages n) 6 s.log.length) buf
      (written devices buf s) := by
    rintro buf rfl
    exact xferWrite_stored hval (hret buf rfl)
  have hiff := lands_all_iff ha hstored
  rwa [← hblock] at hiff

theorem xferWrite_lands_inside :
    (∀ buf, buf.length = 20 → (xferWrite answering buf ⟨0x123, true, []⟩).1 = 20) ∧
    ∀ buf, buf.length = 20 → Lands 0x123 buf (written answering buf ⟨0x123, true, []⟩) := by
  have hret : ∀ buf, buf.length = 20 → (xferWrite answering buf ⟨0x123, true, []⟩).1 = 20 := by
    intro buf hlen
    rw [(xferWrite_eq (fun _ => rfl) buf _).1, hlen]
    rfl
  exact ⟨hret, (xferWrite_lands_iff rfl (by decide) 20 hret).mpr
    (Or.inl ⟨by decide, by decide⟩)⟩

/-- The second page is not acknowledged, once. -/
def busyOnce : Devices := ⟨fun i => i ≠ 13, fun _ => none⟩

/-- Behind a page in vain nine bytes land eight further on; and at the end of a block the
last of nine bytes lands at its start. -/
theorem second_page_misplaced :
    (xferWrite busyOnce [1, 2, 3, 4, 5, 6, 7, 8, 9] ⟨0, true, []⟩).1 = 9 ∧
    lastStore (written busyOnce [1, 2, 3, 4, 5, 6, 7, 8, 9] ⟨0, true, []⟩) 8 = some 1 ∧
    lastStore (written busyOnce [1, 2, 3, 4, 5, 6, 7, 8, 9] ⟨0, true, []⟩) 16 = some 9 ∧
    ¬ Lands 0 [1, 2, 3, 4, 5, 6, 7, 8, 9]
      (written busyOnce [1, 2, 3, 4, 5, 6, 7, 8, 9] ⟨0, true, []⟩) ∧
    (xferWrite answering [1, 2, 3, 4, 5, 6, 7, 8, 9] ⟨0xf8, true, []⟩).1 = 9 ∧
    lastStore (written answering [1, 2, 3, 4, 5, 6, 7, 8, 9] ⟨0xf8, true, []⟩) 0 = some 9 ∧
    ¬ Lands 0xf8 [1, 2, 3, 4, 5, 6, 7, 8, 9]
      (written answering [1, 2, 3, 4, 5, 6, 7, 8, 9] ⟨0xf8, true, []⟩) := by
  refine ⟨by decide +kernel, by decide +kernel, by decide +kernel, fun h => ?_, by decide +kernel,
    by decide +kernel, fun h => ?_⟩
  · exact absurd (h 8) (by decide +kernel)
  · exact absurd (h 0) (by decide +kernel)

end Dingoo.I2c
