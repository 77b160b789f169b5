/-
Byte buffers as lists: bytes copied into a buffer, moved inside it, set to a value,
and the pieces of equal size a buffer is read in.

A copy into a buffer is stated by what can be read at each position afterwards; two
copies that touch different pieces do not see each other.
-/
import Mathlib.Data.List.Basic

namespace Dingoo.Lib

variable {α : Type} {l b : List α} {off size i j : Nat}

/-- `memcpy` of `b` to offset `off`. -/
def splice (l : List α) (off : Nat) (b : List α) : List α :=
  l.take off ++ b ++ l.drop (off + b.length)

/-- `memmove` of `n` elements inside a buffer, from a copy of the source. -/
def memmove (l : List α) (dst src n : Nat) : List α := splice l dst ((l.drop src).take n)

/-- `memset` of `n` elements. -/
def memset (l : List α) (off : Nat) (a : α) (n : Nat) : List α :=
  splice l off (List.replicate n a)

/-- The `i`-th piece of `size` elements. -/
def piece (l : List α) (size i : Nat) : List α := (l.drop (i * size)).take size

theorem length_splice (h : off + b.length ≤ l.length) : (splice l off b).length = l.length := by
  simp only [splice, List.length_append, List.length_take, List.length_drop]
  omega

theorem getElem?_splice (h : off + b.length ≤ l.length) (k : Nat) :
    (splice l off b)[k]? = if off ≤ k ∧ k < off + b.length then b[k - off]? else l[k]? := by
  have hoff : (l.take off).length = off := by
    rw [List.length_take]
    omega
  unfold splice
  by_cases hlow : k < off
  · rw [if_neg (by omega), List.append_assoc, List.getElem?_append_left (by omega),
      List.getElem?_take_of_lt hlow]
  · by_cases hmid : k < off + b.length
    · rw [if_pos ⟨by omega, hmid⟩, List.append_assoc, List.getElem?_append_right (by omega), hoff,
        List.getElem?_append_left (by omega)]
    · rw [if_neg (by omega), List.getElem?_append_right (by simp; omega), List.getElem?_drop]
      congr 1
      rw [List.length_append, hoff]
      omega

theorem getElem?_piece (k : Nat) :
    (piece l size i)[k]? = if k < size then l[i * size + k]? else none := by
  unfold piece
  rw [List.getElem?_take, List.getElem?_drop]

theorem length_piece (h : (i + 1) * size ≤ l.length) : (piece l size i).length = size := by
  have : (i + 1) * size = i * size + size := Nat.succ_mul i size
  simp only [piece, List.length_take, List.length_drop]
  omega

theorem piece_splice_same (h : (i + 1) * size ≤ l.length) (hb : off + b.length ≤ size) :
    piece (splice l (i * size + off) b) size i = splice (piece l size i) off b := by
  have hsucc : (i + 1) * size = i * size + size := Nat.succ_mul i size
  have hfits : off + b.length ≤ (piece l size i).length := by
    rw [length_piece h]
    exact hb
  refine List.ext_getElem? fun k => ?_
  rw [getElem?_piece, getElem?_splice (by omega), getElem?_splice hfits, getElem?_piece]
  by_cases hk : k < size
  · rw [if_pos hk, if_pos hk, Nat.add_sub_add_left]
    by_cases hin : off ≤ k ∧ k < off + b.length
    · rw [if_pos (by omega), if_pos hin]
    · rw [if_neg (by omega), if_neg hin]
  · rw [if_neg hk, if_neg hk, if_neg (by omega)]

theorem piece_splice_other (h : (i + 1) * size ≤ l.length) (hb : off + b.length ≤ size)
    (hij : i ≠ j) : piece (splice l (i * size + off) b) size j = piece l size j := by
  have hsucc : (i + 1) * size = i * size + size := Nat.succ_mul i size
  have hapart : (i + 1) * size ≤ j * size ∨ (j + 1) * size ≤ i * size := by
    rcases Nat.lt_or_gt_of_ne hij with hlt | hgt
    · exact Or.inl (Nat.mul_le_mul_right size hlt)
    · exact Or.inr (Nat.mul_le_mul_right size hgt)
  have hsucc' : (j + 1) * size = j * size + size := Nat.succ_mul j size
  refine List.ext_getElem? fun k => ?_
  rw [getElem?_piece, getElem?_piece, getElem?_splice (by omega)]
  by_cases hk : k < size
  · rw [if_pos hk, if_pos hk, if_neg (by omega)]
  · rw [if_neg hk, if_neg hk]

end Dingoo.Lib
