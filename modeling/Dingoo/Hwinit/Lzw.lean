/-
The LZW decoder of the boot splash screen (`hwinit/lzw.c`, and the same file in
the SPL of `u-boot-1.1.6/nand_spl/board/a320`).

The dictionary is an array of nodes in caller memory.  A node holds a symbol and
the index of its parent, so an entry is spelled from its node up to a root; the
decoder turns the parent links round to print an entry front to back, and turns
them round again while it prints.  The symbol of the newest node is filled in one
code late, when the first symbol of the next entry is known.

Widths stay far below 32 bits, so `int` variables are `Int` and `Nat` here and only
the code word itself is a machine word.
-/
import Mathlib.Data.BitVec

namespace Dingoo.Lzw

/-- `struct lzw_node node[]`, one function a field; `son` is never used. -/
structure Nodes where
  symbol : Nat → UInt8
  parent : Nat → Int

/-- The local variables of `lzw_decode`; `d` holds the bytes written through it so
far, `ret` the value returned. -/
structure State where
  node : Nodes
  s : Nat
  d : List UInt8
  fix : Int
  count : Nat
  bits : Nat
  bitpos : Nat
  ret : Option Int

/-- `node[j].parent = i` -/
def Nodes.setParent (m : Nodes) (j : Nat) (i : Int) : Nodes :=
  { m with parent := Function.update m.parent j i }

/-- `node[j].symbol = c` -/
def Nodes.setSymbol (m : Nodes) (j : Nat) (c : UInt8) : Nodes :=
  { m with symbol := Function.update m.symbol j c }

/-- The loop that sets up the nodes of the single bytes and of the end marker. -/
def initNodes (count : Nat) (temp : Nodes) : Nodes :=
  (List.range count).foldl (fun m i => (m.setSymbol i (UInt8.ofNat i)).setParent i (-1)) temp

def initState (temp : Nodes) : State where
  node := initNodes 257 temp
  s := 0
  d := []
  fix := -1
  count := 257
  bits := 9
  bitpos := 0
  ret := none

/-- Reading one code: its bits may straddle two words. -/
def nextCode (src : Nat → BitVec 32) (s bits bitpos : Nat) : BitVec 32 × Nat × Nat :=
  let c := src s >>> bitpos
  let bitpos := bitpos + bits
  let (c, s, bitpos) :=
    if bitpos ≥ 32 then
      let bitpos := bitpos - 32
      (c ||| (src (s + 1) <<< (bits - bitpos)), s + 1, bitpos)
    else (c, s, bitpos)
  (c &&& ((1#32 <<< bits) - 1#32), s, bitpos)

/-- Walk the code chain backwards up to the head while forward linking it.
The loop has no bound of its own, hence the fuel. -/
def walkBack : Nat → Nodes → Int → Nat → Option (Nodes × Nat × Int)
  | 0, _, _, _ => none
  | fuel + 1, m, i, j =>
    let k := m.parent j
    let m := m.setParent j i
    if k < 0 then some (m, j, k) else walkBack fuel m j k.toNat

/-- Walk the code chain forward outputting symbols and relinking it. -/
def walkForward : Nat → Nodes → List UInt8 → Int → Nat → Option (Nodes × List UInt8)
  | 0, _, _, _, _ => none
  | fuel + 1, m, d, k, j =>
    let d := d ++ [m.symbol j]
    let i := m.parent j
    let m := m.setParent j k
    if i < 0 then some (m, d) else walkForward fuel m d j i.toNat

/-- Printing one code: both walks, with the fix-up between them. -/
def outputCode (fuel : Nat) (m : Nodes) (fix : Int) (d : List UInt8) (c : Nat) :
    Option (Nodes × List UInt8) := do
  let (m, j, k) ← walkBack fuel m (-1) c
  let m := if fix ≥ 0 then m.setSymbol fix.toNat (m.symbol j) else m
  walkForward fuel m d k j

/-- One iteration of the `for (;;)` loop. -/
def decodeOne (fuel : Nat) (src : Nat → BitVec 32) (st : State) : Option State :=
  let (c, s, bitpos) := nextCode src st.s st.bits st.bitpos
  let c := c.toNat
  let st := { st with s := s, bitpos := bitpos }
  if c ≥ st.count then some { st with ret := some (-1) }
  else if c = 256 then some { st with ret := some st.d.length }
  else do
    let (m, d) ← outputCode fuel st.node st.fix st.d c
    let count := st.count + 1
    some { st with
      node := m.setParent st.count c
      d := d
      fix := st.count
      count := count
      bits := if count > 1 <<< st.bits then st.bits + 1 else st.bits }

/-- The state after `n` iterations, or after the one that returned. -/
def decodeN (fuel : Nat) (src : Nat → BitVec 32) (st : State) : Nat → Option State
  | 0 => some st
  | n + 1 => do
      let st ← decodeN fuel src st n
      match st.ret with
      | some _ => some st
      | none => decodeOne fuel src st

/-- `lzw_decode`: the value returned and the bytes written to `dst`. -/
def lzwDecode (fuel : Nat) (temp : Nodes) (src : Nat → BitVec 32) : Option (Int × List UInt8) := do
  let st ← decodeN fuel src (initState temp) fuel
  let r ← st.ret
  return (r, st.d)

end Dingoo.Lzw
