/-
What LZW decoding means.

The decoder of the textbooks keeps the strings themselves: a dictionary of byte
strings that grows by one entry a code, the previous string followed by the first
byte of the current one.  A code may name the very entry its own string is about
to complete; that entry then has to be the previous string and its first byte.

Codes are packed least significant bit first, each in as many bits as the largest
code of that moment needs.
-/
import Mathlib.Data.BitVec

namespace Dingoo.Lzw

/-! ### The packing -/

/-- Bit `n` of a stream of words. -/
def streamBit (src : Nat → BitVec 32) (n : Nat) : Bool := (src (n / 32)).getLsbD (n % 32)

/-- How many bits code number `n` takes: after `n` codes the largest is `256 + n`. -/
def codeWidth (n : Nat) : Nat := Nat.log2 (256 + n) + 1

/-- Where code number `n` starts. -/
def codeOffset : Nat → Nat
  | 0 => 0
  | n + 1 => codeOffset n + codeWidth n

/-- The stream starts with these codes. -/
def Packed (src : Nat → BitVec 32) (codes : List Nat) : Prop :=
  ∀ n c, codes[n]? = some c → c < 2 ^ codeWidth n ∧
    ∀ b, b < codeWidth n → streamBit src (codeOffset n + b) = c.testBit b

/-! ### The decoder -/

namespace Textbook

inductive Status
  | running
  | stopped
  | missing
  deriving DecidableEq, Repr

structure State where
  /-- Entries 257, 258, ... -/
  dict : List (List UInt8)
  prev : Option (List UInt8)
  out : List UInt8
  status : Status
  deriving DecidableEq, Repr

def lookup (dict : List (List UInt8)) (c : Nat) : Option (List UInt8) :=
  if c < 256 then some [UInt8.ofNat c]
  else if c = 256 then none
  else dict[c - 257]?

/-- The string a code stands for, which may be the entry it completes itself. -/
def current (dict : List (List UInt8)) (prev : Option (List UInt8)) (c : Nat) :
    Option (List UInt8) :=
  match lookup dict c, prev with
  | some w, _ => some w
  | none, some p => if c = 257 + dict.length then some (p ++ p.take 1) else none
  | none, none => none

/-- The dictionary after the string `w`. -/
def extend (dict : List (List UInt8)) (prev : Option (List UInt8)) (w : List UInt8) :
    List (List UInt8) :=
  match prev with
  | some p => dict ++ [p ++ w.take 1]
  | none => dict

def step (t : State) (c : Nat) : State :=
  match t.status with
  | .running =>
    if c = 256 then { t with status := .stopped }
    else
      match current t.dict t.prev c with
      | none => { t with status := .missing }
      | some w =>
        { t with dict := extend t.dict t.prev w, prev := some w, out := t.out ++ w }
  | _ => t

def init : State := ⟨[], none, [], .running⟩

def decode (codes : List Nat) : State := codes.foldl step init

/-- What a decoder in this state returns. -/
def State.ret (t : State) : Option Int :=
  match t.status with
  | .running => none
  | .stopped => some t.out.length
  | .missing => some (-1)

end Textbook

end Dingoo.Lzw
