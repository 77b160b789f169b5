/-
The pages of a write.

An attempt of `xfer_write` sends the buffer in pages of eight bytes, each with the address
of the device and a sub-address that grows by eight.  It ends in one of three ways
(`writePages_cases`): a byte of the data is not acknowledged and fewer bytes than asked
for are written; an address byte is not acknowledged, behind some full pages, and the
buffer is sent again from its start; or all pages are sent.  Which of the last two it
is follows from the answers to the address bytes alone (`goodPages`).
-/
import Dingoo.Linux.I2cJz47xx

namespace Dingoo.I2c

/-- Some more events. -/
def Bus.sendAll (s : Bus) (events : List Event) : Bus := { s with log := s.log ++ events }

theorem Bus.sendAll_sendAll (s : Bus) (as bs : List Event) :
    (s.sendAll as).sendAll bs = s.sendAll (as ++ bs) := by
  unfold Bus.sendAll
  rw [List.append_assoc]

theorem Bus.send_eq (s : Bus) (e : Event) : s.send e = s.sendAll [e] := rfl

/-- The number of pages of `n` bytes; there is one without data, too. -/
def pages (n : Nat) : Nat := (n - 1) / 8 + 1

/-- The events of the address bytes and the data of a page. -/
def pageEvents (device : Byte) (addrVal : Bool) (subAddr : BitVec 16) (data : List Byte) :
    List Event :=
  .start :: .put .address ((device <<< 1) ||| I2C_WRITE) true ::
    ((if addrVal then [.put .word (subAddr.setWidth 8) true] else []) ++
      data.map fun b => .put .data b true)

/-- The first `j` pages of a buffer, each with its stop. -/
def pagesLog (device : Byte) (addrVal : Bool) (subAddr : BitVec 16) (buf : List Byte) (j : Nat) :
    List Event :=
  (List.range j).flatMap fun p =>
    pageEvents device addrVal (subAddr + BitVec.ofNat 16 (8 * p)) ((buf.drop (8 * p)).take 8) ++
      [.stop]

/-- The address bytes of a page that starts at a position are acknowledged. -/
def addressed (ack : Nat → Bool) (addrVal : Bool) (pos : Nat) : Bool :=
  ack (pos + 1) && (!addrVal || ack (pos + 2))

/-- The events of a full page: its start, the address bytes, eight bytes and its stop. -/
def pageLength (addrVal : Bool) : Nat := if addrVal then 12 else 11

/-- How many of the next `count` pages come before one that is not acknowledged. -/
def goodPages (ack : Nat → Bool) (addrVal : Bool) : Nat → Nat → Nat
  | _, 0 => 0
  | pos, count + 1 =>
    if addressed ack addrVal pos then goodPages ack addrVal (pos + pageLength addrVal) count + 1
    else 0

/-- The events of the address bytes of a page that is not acknowledged. -/
def refusedEvents (ack : Nat → Bool) (pos : Nat) (device : Byte) (subAddr : BitVec 16) :
    List Event :=
  .start :: .put .address ((device <<< 1) ||| I2C_WRITE) (ack (pos + 1)) ::
    if ack (pos + 1) then [.put .word (subAddr.setWidth 8) false] else []

section
variable {devices : Devices} {device : Byte}

theorem subAddr_add (subAddr : BitVec 16) (p : Nat) :
    subAddr + 8 + BitVec.ofNat 16 (8 * p) = subAddr + BitVec.ofNat 16 (8 * (p + 1)) := by
  rw [BitVec.add_assoc, Nat.mul_succ, Nat.add_comm (8 * p), BitVec.ofNat_add]
  rfl

theorem pagesLog_succ (addrVal : Bool) (subAddr : BitVec 16) (buf : List Byte) (j : Nat) :
    pagesLog device addrVal subAddr buf (j + 1) =
      pageEvents device addrVal subAddr (buf.take 8) ++
        .stop :: pagesLog device addrVal (subAddr + 8) (buf.drop 8) j := by
  unfold pagesLog
  rw [List.range_succ_eq_map, List.flatMap_cons, List.flatMap_map]
  have hshift : ∀ p, pageEvents device addrVal (subAddr + BitVec.ofNat 16 (8 * (p + 1)))
      ((buf.drop (8 * (p + 1))).take 8) ++ [.stop] =
      pageEvents device addrVal (subAddr + 8 + BitVec.ofNat 16 (8 * p))
        (((buf.drop 8).drop (8 * p)).take 8) ++ [.stop] := by
    intro p
    rw [subAddr_add, List.drop_drop, Nat.mul_succ, Nat.add_comm 8]
  simp [hshift]

/-! ### One page -/

theorem writeData_cases : ∀ (room : Nat) (buf : List Byte) (s : Bus),
    ((∃ b rest, rest.length < buf.length ∧
        (writeData devices room buf s).1 = .refused (b :: rest)) ∧
      ∃ i, devices.ack i = false) ∨
    writeData devices room buf s =
      (if buf.length ≤ room then .sent else .full (buf.drop room),
        s.sendAll ((buf.take room).map fun b => .put .data b true)) := by
  intro room
  induction room with
  | zero =>
    intro buf s
    refine Or.inr ?_
    cases buf with
    | nil => simp [writeData, Bus.sendAll]
    | cons b rest => simp [writeData, Bus.sendAll]
  | succ room ih =>
    intro buf s
    cases buf with
    | nil => exact Or.inr (by simp [writeData, Bus.sendAll])
    | cons b rest =>
      cases hack : devices.ack s.log.length with
      | false =>
        refine Or.inl ⟨⟨b, rest, Nat.lt_succ_self _, ?_⟩, s.log.length, hack⟩
        simp [writeData, i2cPutData, hack]
      | true =>
        have hstep : writeData devices (room + 1) (b :: rest) s =
            writeData devices room rest (s.send (.put .data b true)) := by
          simp [writeData, i2cPutData, hack]
        rw [hstep]
        rcases ih rest (s.send (.put .data b true)) with ⟨⟨b', rest', hlt, h⟩, hack⟩ | h
        · exact Or.inl ⟨⟨b', rest', Nat.lt_succ_of_lt hlt, h⟩, hack⟩
        · refine Or.inr ?_
          rw [h, Bus.send_eq, Bus.sendAll_sendAll]
          simp

theorem pageAddress_eq (s : Bus) :
    pageAddress devices device s =
      if addressed devices.ack s.addrVal s.log.length then
        (true, s.sendAll (pageEvents device s.addrVal s.subAddr []))
      else (false, s.sendAll (refusedEvents devices.ack s.log.length device s.subAddr)) := by
  cases haddr : devices.ack (s.log.length + 1) with
  | false =>
    simp [pageAddress, i2cPutData, addressed, refusedEvents, Bus.send, Bus.sendAll, haddr]
  | true =>
    cases hval : s.addrVal with
    | false =>
      simp [pageAddress, i2cPutData, addressed, pageEvents, Bus.send, Bus.sendAll, haddr, hval]
    | true =>
      cases hword : devices.ack (s.log.length + 2) with
      | false =>
        simp [pageAddress, i2cPutData, addressed, refusedEvents, Bus.send, Bus.sendAll,
          haddr, hval, hword]
      | true =>
        simp [pageAddress, i2cPutData, addressed, pageEvents, Bus.send, Bus.sendAll, haddr,
          hval, hword]

/-! ### An attempt -/

theorem pages_of_le {n : Nat} (hn : n ≤ 8) : pages n = 1 := by
  unfold pages
  omega

theorem pages_of_lt {n : Nat} (hn : 8 < n) : pages n = pages (n - 8) + 1 := by
  unfold pages
  omega

theorem pageEvents_append (addrVal : Bool) (subAddr : BitVec 16) (data : List Byte) :
    pageEvents device addrVal subAddr [] ++ data.map (fun b => .put .data b true) =
      pageEvents device addrVal subAddr data := by
  simp [pageEvents]

theorem length_fullPage (addrVal : Bool) (subAddr : BitVec 16) {data : List Byte}
    (hdata : data.length = 8) :
    (pageEvents device addrVal subAddr data ++ [Event.stop]).length = pageLength addrVal := by
  cases addrVal with
  | false => simp [pageEvents, pageLength, hdata]
  | true => simp [pageEvents, pageLength, hdata]

/-- The attempt ends behind `j` pages because an address byte is not acknowledged. -/
def EndsAgain (devices : Devices) (device : Byte) (fuel : Nat) (buf : List Byte) (s : Bus)
    (j : Nat) : Prop :=
  writePages devices device fuel buf s = (.again,
    ⟨s.subAddr + BitVec.ofNat 16 (8 * j), s.addrVal, s.log ++
      (pagesLog device s.addrVal s.subAddr buf j ++
        refusedEvents devices.ack (s.log.length + pageLength s.addrVal * j) device
          (s.subAddr + BitVec.ofNat 16 (8 * j)))⟩)

/-- The attempt sends all pages; the stop of the last one comes behind it. -/
def EndsSent (devices : Devices) (device : Byte) (fuel : Nat) (buf : List Byte) (s : Bus) : Prop :=
  ∃ events, events ++ [.stop] = pagesLog device s.addrVal s.subAddr buf (pages buf.length) ∧
    writePages devices device fuel buf s = (.ended 0,
      ⟨s.subAddr + BitVec.ofNat 16 (8 * (pages buf.length - 1)), s.addrVal, s.log ++ events⟩)

section
variable {fuel : Nat} {buf rest : List Byte} {s s₁ s₂ : Bus}

theorem writePages_again (haddress : pageAddress devices device s = (false, s₁)) :
    writePages devices device (fuel + 1) buf s = (.again, s₁) := by
  rw [writePages, haddress]

section
variable (haddress : pageAddress devices device s = (true, s₁))
include haddress

theorem writePages_sent (hdata : writeData devices 8 buf s₁ = (.sent, s₂)) :
    writePages devices device (fuel + 1) buf s = (.ended 0, s₂) := by
  rw [writePages, haddress]
  simp only [hdata]

theorem writePages_full (hdata : writeData devices 8 buf s₁ = (.full rest, s₂)) :
    writePages devices device (fuel + 1) buf s =
      writePages devices device fuel rest
        ⟨s₂.subAddr + 8, s₂.addrVal, s₂.log ++ [.stop]⟩ := by
  rw [writePages, haddress]
  simp only [hdata]
  rfl

theorem writePages_refused {b : Byte}
    (hdata : (writeData devices 8 buf s₁).1 = .refused (b :: rest)) :
    (writePages devices device (fuel + 1) buf s).1 = .ended (rest.length + 1) := by
  rw [writePages, haddress]
  cases hwrite : writeData devices 8 buf s₁ with
  | mk e s₂ =>
    rw [hwrite] at hdata
    obtain rfl : e = .refused (b :: rest) := hdata
    simp only [hwrite]
    rfl

end

end

/-- The state behind a full page. -/
def Bus.afterPage (s : Bus) (device : Byte) (buf : List Byte) : Bus :=
  ⟨s.subAddr + 8, s.addrVal,
    s.log ++ (pageEvents device s.addrVal s.subAddr (buf.take 8) ++ [.stop])⟩

theorem Bus.length_afterPage (s : Bus) {buf : List Byte} (hfull : 8 < buf.length) :
    (s.afterPage device buf).log.length = s.log.length + pageLength s.addrVal := by
  have hlen : (buf.take 8).length = 8 := by
    rw [List.length_take]
    omega
  rw [Bus.afterPage, List.length_append, length_fullPage s.addrVal s.subAddr hlen]

section
variable {fuel : Nat} {buf : List Byte} {s : Bus}

theorem EndsAgain.page {j : Nat} (hfull : 8 < buf.length)
    (hstep : writePages devices device (fuel + 1) buf s =
      writePages devices device fuel (buf.drop 8) (s.afterPage device buf))
    (h : EndsAgain devices device fuel (buf.drop 8) (s.afterPage device buf) j) :
    EndsAgain devices device (fuel + 1) buf s (j + 1) := by
  have hpos : s.log.length + pageLength s.addrVal + pageLength s.addrVal * j =
      s.log.length + pageLength s.addrVal * (j + 1) := by
    rw [Nat.mul_succ]
    omega
  unfold EndsAgain at h ⊢
  rw [hstep, h, Bus.length_afterPage s hfull]
  simp only [Bus.afterPage, subAddr_add, pagesLog_succ, hpos, List.append_assoc,
    List.cons_append, List.nil_append]

theorem EndsSent.page (hfull : 8 < buf.length)
    (hstep : writePages devices device (fuel + 1) buf s =
      writePages devices device fuel (buf.drop 8) (s.afterPage device buf))
    (h : EndsSent devices device fuel (buf.drop 8) (s.afterPage device buf)) :
    EndsSent devices device (fuel + 1) buf s := by
  obtain ⟨events, hevents, hrun⟩ := h
  have hpages : pages buf.length = pages (buf.drop 8).length + 1 := by
    rw [List.length_drop]
    exact pages_of_lt hfull
  have hlast : pages (buf.drop 8).length - 1 + 1 = pages buf.length - 1 := by
    rw [hpages]
    unfold pages
    omega
  refine ⟨pageEvents device s.addrVal s.subAddr (buf.take 8) ++ .stop :: events, ?_, ?_⟩
  · rw [hpages, pagesLog_succ, List.append_assoc, List.cons_append, hevents]
    rfl
  · rw [hstep, hrun]
    simp only [Bus.afterPage, subAddr_add, hlast, List.append_assoc, List.cons_append,
      List.nil_append]

end

section
variable {buf : List Byte} {s : Bus}

theorem EndsSent.last (fuel : Nat) (hlast : buf.length ≤ 8)
    (haddress : pageAddress devices device s =
      (true, s.sendAll (pageEvents device s.addrVal s.subAddr [])))
    (hdata : writeData devices 8 buf (s.sendAll (pageEvents device s.addrVal s.subAddr [])) =
      (.sent, s.sendAll (pageEvents device s.addrVal s.subAddr (buf.take 8)))) :
    EndsSent devices device (fuel + 1) buf s := by
  have hone := pages_of_le hlast
  refine ⟨pageEvents device s.addrVal s.subAddr (buf.take 8), ?_, ?_⟩
  · rw [hone, pagesLog_succ]
    rfl
  · rw [writePages_sent haddress hdata, hone]
    simp [Bus.sendAll]

theorem goodPages_page (hfull : 8 < buf.length)
    (hgood : addressed devices.ack s.addrVal s.log.length = true) :
    goodPages devices.ack s.addrVal s.log.length (pages buf.length) =
      goodPages devices.ack s.addrVal (s.afterPage device buf).log.length
        (pages (buf.drop 8).length) + 1 := by
  rw [pages_of_lt hfull, goodPages, hgood, if_pos rfl, Bus.length_afterPage s hfull,
    List.length_drop]

end

/-- **How an attempt ends.** -/
theorem writePages_cases : ∀ (fuel : Nat) (buf : List Byte) (s : Bus), buf.length < fuel →
    ((∃ cnt, 0 < cnt ∧ cnt ≤ buf.length ∧
        (writePages devices device fuel buf s).1 = .ended cnt) ∧
      ∃ i, devices.ack i = false) ∨
    (goodPages devices.ack s.addrVal s.log.length (pages buf.length) = pages buf.length ∧
      EndsSent devices device fuel buf s) ∨
    ∃ j < pages buf.length,
      goodPages devices.ack s.addrVal s.log.length (pages buf.length) = j ∧
      EndsAgain devices device fuel buf s j := by
  intro fuel
  induction fuel with
  | zero => intro buf s hfuel; omega
  | succ fuel ih =>
    intro buf s hfuel
    have haddress := @pageAddress_eq devices device s
    cases hgood : addressed devices.ack s.addrVal s.log.length with
    | false =>
      rw [hgood, if_neg Bool.false_ne_true] at haddress
      refine Or.inr (Or.inr ⟨0, Nat.succ_pos _, ?_, ?_⟩)
      · rw [pages, goodPages, hgood]
        rfl
      · rw [EndsAgain, writePages_again haddress]
        simp [Bus.sendAll, pagesLog]
    | true =>
      rw [hgood, if_pos rfl] at haddress
      rcases @writeData_cases devices 8 buf _ with ⟨⟨b, rest, hlt, hrefused⟩, hack⟩ | hdata
      · exact Or.inl ⟨⟨_, Nat.succ_pos _, hlt, writePages_refused haddress hrefused⟩, hack⟩
      · rw [Bus.sendAll_sendAll, pageEvents_append] at hdata
        by_cases hlast : buf.length ≤ 8
        · rw [if_pos hlast] at hdata
          refine Or.inr (Or.inl ⟨?_, EndsSent.last fuel hlast haddress hdata⟩)
          rw [pages_of_le hlast, goodPages, hgood]
          rfl
        · -- a full page, and the rest of the buffer
          rw [if_neg hlast] at hdata
          have hfull : 8 < buf.length := Nat.lt_of_not_le hlast
          have hstep : writePages devices device (fuel + 1) buf s =
              writePages devices device fuel (buf.drop 8) (s.afterPage device buf) := by
            rw [writePages_full haddress hdata, Bus.afterPage, ← List.append_assoc]
            rfl
          have hpages : pages buf.length = pages (buf.drop 8).length + 1 := by
            rw [List.length_drop]
            exact pages_of_lt hfull
          rw [goodPages_page hfull hgood, hpages, hstep]
          rcases ih (buf.drop 8) (s.afterPage device buf)
            (by rw [List.length_drop]; omega) with
            ⟨⟨cnt, hpos, hle, h⟩, hack⟩ | ⟨hall, h⟩ | ⟨j, hj, hcountj, h⟩
          · rw [List.length_drop] at hle
            exact Or.inl ⟨⟨cnt, hpos, Nat.le_trans hle (Nat.sub_le _ _), h⟩, hack⟩
          · exact Or.inr (Or.inl ⟨congrArg (· + 1) hall, h.page hfull hstep⟩)
          · exact Or.inr (Or.inr ⟨j + 1, Nat.succ_lt_succ hj, congrArg (· + 1) hcountj,
              h.page hfull hstep⟩)

end

end Dingoo.I2c
