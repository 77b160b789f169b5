/-
The I2C bus driver, `drivers/i2c/busses/i2c-jz47xx.c`.

What happens on the bus is logged, event by event.  The devices on the bus are given by
their answers: whether the byte put at a position of the log is acknowledged, and what
byte is received there, if one is.  The two globals `sub_addr` and `addr_val` are part of
the state; how the master answers a received byte, the waits for a byte to leave the
controller, the pauses and the messages are left out.
-/
import Mathlib.Data.List.Basic

namespace Dingoo.I2c

abbrev Byte := BitVec 8

/-- What a byte is put on the bus for. -/
inductive Kind where
  | address
  | word
  | data
deriving DecidableEq, Repr

inductive Event where
  | start
  | stop
  | put (kind : Kind) (byte : Byte) (ack : Bool)
  | get (byte : Byte)
  /-- a wait for a byte that ran out -/
  | silence
deriving DecidableEq, Repr

/-- The devices on the bus, by position in the log. -/
structure Devices where
  ack : Nat → Bool
  byte : Nat → Option Byte

structure Bus where
  subAddr : BitVec 16
  addrVal : Bool
  log : List Event
deriving DecidableEq, Repr

def Bus.send (s : Bus) (e : Event) : Bus := { s with log := s.log ++ [e] }

def I2C_READ : Byte := 1
def I2C_WRITE : Byte := 0
def ENODEV : Int := 19

section
variable (devices : Devices)

/-- `i2c_put_data`; `true` if the byte is acknowledged. -/
def i2cPutData (kind : Kind) (data : Byte) (s : Bus) : Bool × Bus :=
  (devices.ack s.log.length, s.send (.put kind data (devices.ack s.log.length)))

/-- `i2c_get_data`; the last byte is not acknowledged, and the bus is stopped for it. -/
def i2cGetData (ack : Bool) (s : Bus) : Option Byte × Bus :=
  match devices.byte s.log.length with
  | some data => (some data, (if ack then s else s.send .stop).send (.get data))
  | none => (none, s.send .silence)

/-- The first statements of `xfer_read` and `xfer_write`: the device, whatever the caller
asked for. -/
def selectDevice (s : Bus) : Byte × Bus :=
  ((0xa <<< 3) ||| ((s.subAddr &&& 0x0700) >>> 8).setWidth 8,
    { s with subAddr := s.subAddr &&& 0xff })

/-! ### Reading -/

/-- The address bytes of a read; `true` if all of them are acknowledged. -/
def readAddress (device : Byte) (s : Bus) : Bool × Bus :=
  let (found, s) :=
    if s.addrVal then
      let (ok, s) := i2cPutData devices .address ((device <<< 1) ||| I2C_WRITE) (s.send .start)
      if ok then i2cPutData devices .word (s.subAddr.setWidth 8) s else (false, s)
    else (true, s)
  if found then i2cPutData devices .address ((device <<< 1) ||| I2C_READ) (s.send .start)
  else (false, s)

/-- `while (cnt)` of `xfer_read`: what is left of `cnt`, and the bytes stored. -/
def readBytes : Nat → Bus → Nat × List Byte × Bus
  | 0, s => (0, [], s)
  | cnt + 1, s =>
    match i2cGetData devices (cnt ≠ 0) s with
    | (none, s) => (cnt + 1, [], s)
    | (some data, s) =>
      let (cnt, bytes, s) := readBytes cnt s
      (cnt, data :: bytes, s)

/-- `L_try_again`, for `timeout + 1` further attempts. -/
def readTries (device : Byte) (length : Nat) : Nat → Bus → Int × List Byte × Bus
  | 0, s => (-ENODEV, [], s.send .stop)
  | tries + 1, s =>
    match readAddress devices device s with
    | (false, s) => readTries device length tries (s.send .stop)
    | (true, s) =>
      let (cnt, bytes, s) := readBytes devices length (s.send .start)
      ((length - cnt : Nat), bytes, { s with addrVal := false })

/-- `xfer_read`: the value returned and the bytes stored. -/
def xferRead (length : Nat) (s : Bus) : Int × List Byte × Bus :=
  let (device, s) := selectDevice s
  readTries devices device length 6 s

/-! ### Writing -/

/-- How the data of a page end: all are sent, one is not acknowledged, or there is no room;
with what is left of the buffer. -/
inductive PageEnd where
  | sent
  | refused (rest : List Byte)
  | full (rest : List Byte)
deriving DecidableEq, Repr

/-- `while (cnt)` of `xfer_write`, with `room` left in the page. -/
def writeData : Nat → List Byte → Bus → PageEnd × Bus
  | _, [], s => (.sent, s)
  | 0, b :: rest, s => (.full (b :: rest), s)
  | room + 1, b :: rest, s =>
    match i2cPutData devices .data b s with
    | (false, s) => (.refused (b :: rest), s)
    | (true, s) => writeData room rest s

/-- How an attempt ends: an address byte is not acknowledged, or `cnt` bytes are left. -/
inductive WriteEnd where
  | again
  | ended (cnt : Nat)
deriving DecidableEq, Repr

/-- The address bytes of a page. -/
def pageAddress (device : Byte) (s : Bus) : Bool × Bus :=
  let (ok, s) := i2cPutData devices .address ((device <<< 1) ||| I2C_WRITE) (s.send .start)
  if !ok then (false, s)
  else if s.addrVal then i2cPutData devices .word (s.subAddr.setWidth 8) s
  else (true, s)

/-- `start_write_page`, for at most `fuel` pages. -/
def writePages (device : Byte) : Nat → List Byte → Bus → WriteEnd × Bus
  | 0, rest, s => (.ended rest.length, s)
  | fuel + 1, buf, s =>
    match pageAddress devices device s with
    | (false, s) => (.again, s)
    | (true, s) =>
      match writeData devices 8 buf s with
      | (.sent, s) => (.ended 0, s)
      | (.refused rest, s) => (.ended rest.length, s)
      | (.full rest, s) =>
        let s := s.send .stop
        writePages device fuel rest { s with subAddr := s.subAddr + 8 }

/-- `W_try_again`, for `timeout + 1` further attempts. -/
def writeTries (device : Byte) (buf : List Byte) : Nat → Bus → Int × Bus
  | 0, s => (-ENODEV, s.send .stop)
  | tries + 1, s =>
    match writePages devices device (buf.length + 1) buf s with
    | (.again, s) => writeTries device buf tries (s.send .stop)
    | (.ended cnt, s) => ((buf.length - cnt : Nat), { s.send .stop with addrVal := false })

/-- `xfer_write` -/
def xferWrite (buf : List Byte) (s : Bus) : Int × Bus :=
  let (device, s) := selectDevice s
  writeTries devices device buf 6 s

/-! ### Messages -/

/-- `struct i2c_msg`; the length is that of the buffer. -/
structure Msg where
  addr : BitVec 16
  rd : Bool
  buf : List Byte
deriving DecidableEq, Repr

/-- One turn of the loop of `i2c_jz_xfer`; 0 for a message without a buffer. -/
def xferMsg (m : Msg) (s : Bus) : Int × Bus :=
  if m.buf = [] then (0, s)
  else if m.rd then
    let (ret, _, s) := xferRead devices m.buf.length s
    (ret, s)
  else xferWrite devices m.buf s

/-- The loop of `i2c_jz_xfer`, with `i` messages done. -/
def xferMsgs : Nat → List Msg → Bus → Int × Bus
  | i, [], s => (i, s)
  | i, m :: msgs, s =>
    match xferMsg devices m s with
    | (ret, s) => if ret ≠ 0 then (ret, s) else xferMsgs (i + 1) msgs s

/-- `i2c_jz_xfer` -/
def i2cJzXfer (pmsg : List Msg) (s : Bus) : Int × Bus := xferMsgs devices 0 pmsg s

end

end Dingoo.I2c
