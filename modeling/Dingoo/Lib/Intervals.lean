/-
Sorted lists of disjoint intervals, and first fit in the gaps between them.

An interval `(lo, hi)` stands for `lo, ..., hi - 1`.  `Gapped b e l` says that the
intervals of `l` lie inside `[b, e)` in increasing order without touching one
another's inside; it is stated the way a walk over the list meets it, so the gap
before each interval is a plain subtraction.  What an allocator needs follows:
taking the first gap that is large enough and putting the new interval where the
order wants it keeps the list gapped, no lower place would have done, and some gap
is large enough exactly when the largest one is.
-/
import Mathlib.Data.List.Basic
import Mathlib.Order.Bounds.Defs
import Mathlib.Order.MinMax

namespace Dingoo.Lib

/-- The intervals of `l` are in increasing order and disjoint, inside `[b, e)`. -/
def Gapped (b e : Nat) : List (Nat × Nat) → Prop
  | [] => b ≤ e
  | r :: l => b ≤ r.1 ∧ r.1 < r.2 ∧ Gapped r.2 e l

/-- The start of the first gap of at least `size`. -/
def firstFit (size b e : Nat) : List (Nat × Nat) → Option Nat
  | [] => if size ≤ e - b then some b else none
  | r :: l => if size ≤ r.1 - b then some b else firstFit size r.2 e l

/-- The size of the largest gap. -/
def maxGap (b e : Nat) : List (Nat × Nat) → Nat
  | [] => e - b
  | r :: l => max (r.1 - b) (maxGap r.2 e l)

/-- Put `r` in front of the first interval that starts after it does. -/
def insertRange (r : Nat × Nat) : List (Nat × Nat) → List (Nat × Nat)
  | [] => [r]
  | x :: l => if r.1 < x.1 then r :: x :: l else x :: insertRange r l

variable {b e size a : Nat} {l : List (Nat × Nat)} {r : Nat × Nat}

namespace Gapped

theorem le : ∀ (l : List (Nat × Nat)) {b : Nat}, Gapped b e l → b ≤ e := by
  intro l
  induction l with
  | nil => intro b h; exact h
  | cons r l ih =>
    intro b h
    have := ih h.2.2
    have := h.1
    have := h.2.1
    omega

theorem mem : ∀ (l : List (Nat × Nat)) {b : Nat}, Gapped b e l → r ∈ l →
    b ≤ r.1 ∧ r.1 < r.2 ∧ r.2 ≤ e := by
  intro l
  induction l with
  | nil => intro b _ hr; simp at hr
  | cons x l ih =>
    intro b h hr
    obtain ⟨hb, hx, hl⟩ := h
    rcases List.mem_cons.mp hr with rfl | hr
    · exact ⟨hb, hx, hl.le⟩
    · obtain ⟨h1, h2, h3⟩ := ih hl hr
      exact ⟨by omega, h2, h3⟩

theorem pairwise : ∀ (l : List (Nat × Nat)) {b : Nat}, Gapped b e l →
    l.Pairwise fun x y => x.2 ≤ y.1 := by
  intro l
  induction l with
  | nil => intro b _; exact List.Pairwise.nil
  | cons x l ih =>
    intro b h
    exact List.Pairwise.cons (fun y hy => (mem l h.2.2 hy).1) (ih h.2.2)

theorem weaken {b' : Nat} (h : Gapped b e l) (hb : b' ≤ b) : Gapped b' e l := by
  cases l with
  | nil => exact Nat.le_trans hb h
  | cons r l => exact ⟨Nat.le_trans hb h.1, h.2⟩

theorem sublist : ∀ {l l' : List (Nat × Nat)}, l'.Sublist l → ∀ {b : Nat}, Gapped b e l →
    Gapped b e l' := by
  intro l l' hs
  induction hs with
  | slnil => intro b h; exact h
  | cons r hs ih =>
    intro b h
    exact (ih h.2.2).weaken (Nat.le_of_lt (Nat.lt_of_le_of_lt h.1 h.2.1))
  | cons_cons r hs ih =>
    intro b h
    exact ⟨h.1, h.2.1, ih h.2.2⟩

end Gapped

/-! ### First fit -/

theorem firstFit_ge : ∀ (l : List (Nat × Nat)) {b : Nat}, Gapped b e l →
    firstFit size b e l = some a → b ≤ a := by
  intro l
  induction l with
  | nil =>
    intro b _ h
    simp only [firstFit] at h
    split at h
    · exact Nat.le_of_eq (Option.some.inj h)
    · simp at h
  | cons r l ih =>
    intro b hg h
    simp only [firstFit] at h
    split at h
    · exact Nat.le_of_eq (Option.some.inj h)
    · have := ih hg.2.2 h
      have := hg.1
      have := hg.2.1
      omega

theorem firstFit_mem : ∀ (l : List (Nat × Nat)) {b : Nat}, firstFit size b e l = some a →
    a = b ∨ ∃ r ∈ l, a = r.2 := by
  intro l
  induction l with
  | nil =>
    intro b h
    simp only [firstFit] at h
    split at h
    · exact Or.inl (Option.some.inj h).symm
    · simp at h
  | cons r l ih =>
    intro b h
    simp only [firstFit] at h
    split at h
    · exact Or.inl (Option.some.inj h).symm
    · rcases ih h with rfl | ⟨x, hx, rfl⟩
      · exact Or.inr ⟨r, by simp, rfl⟩
      · exact Or.inr ⟨x, by simp [hx], rfl⟩

/-- **First fit succeeds exactly when the largest gap is large enough.** -/
theorem firstFit_isSome : ∀ (l : List (Nat × Nat)) (b : Nat),
    (firstFit size b e l).isSome = true ↔ size ≤ maxGap b e l := by
  intro l
  induction l with
  | nil =>
    intro b
    simp only [firstFit, maxGap]
    split <;> simp_all
  | cons r l ih =>
    intro b
    simp only [firstFit, maxGap]
    split
    · rename_i h
      simp only [Option.isSome_some, true_iff]
      omega
    · rename_i h
      rw [ih]
      omega

theorem maxGap_le : ∀ (l : List (Nat × Nat)) {b : Nat}, Gapped b e l → maxGap b e l ≤ e - b := by
  intro l
  induction l with
  | nil => intro b _; exact Nat.le_refl _
  | cons r l ih =>
    intro b h
    have hle := h.2.2.le
    have hrec := ih h.2.2
    have := h.1
    have := h.2.1
    simp only [maxGap]
    omega

theorem maxGap_dvd {p : Nat} : ∀ (l : List (Nat × Nat)) {b : Nat}, e % p = b % p →
    (∀ r ∈ l, r.1 % p = b % p ∧ r.2 % p = b % p) → p ∣ maxGap b e l := by
  intro l
  induction l with
  | nil =>
    intro b he _
    exact Nat.dvd_of_mod_eq_zero (Nat.sub_mod_eq_zero_of_mod_eq he)
  | cons r l ih =>
    intro b he hl
    obtain ⟨h1, h2⟩ := hl r (by simp)
    have hrest := ih (b := r.2) (by rw [he, h2]) (fun x hx => by
      rw [h2]
      exact hl x (by simp [hx]))
    simp only [maxGap]
    rcases max_choice (r.1 - b) (maxGap r.2 e l) with hm | hm
    · rw [hm]
      exact Nat.dvd_of_mod_eq_zero (Nat.sub_mod_eq_zero_of_mod_eq h1)
    · rw [hm]
      exact hrest

/-- **Filling the first gap that fits keeps the list gapped.** -/
theorem gapped_insertRange (hsize : 0 < size) : ∀ (l : List (Nat × Nat)) {b : Nat},
    Gapped b e l → firstFit size b e l = some a → Gapped b e (insertRange (a, a + size) l) := by
  intro l
  induction l with
  | nil =>
    intro b hg h
    simp only [firstFit] at h
    split at h
    · have hab : b = a := Option.some.inj h
      subst hab
      exact ⟨Nat.le_refl _, by simp only; omega, show b + size ≤ e by omega⟩
    · simp at h
  | cons r l ih =>
    intro b hg h
    obtain ⟨hb, hr, hl⟩ := hg
    simp only [firstFit] at h
    split at h
    · have hab : b = a := Option.some.inj h
      subst hab
      have hlt : b < r.1 := by omega
      simp only [insertRange, if_pos hlt]
      exact ⟨Nat.le_refl _, by simp only; omega, by simp only; omega, hr, hl⟩
    · have hge := firstFit_ge l hl h
      have hnlt : ¬ a < r.1 := by omega
      simp only [insertRange, if_neg hnlt]
      exact ⟨hb, hr, ih hl h⟩

/-- A range of `size` may start at `a`: at the bottom or where an interval ends, inside `[b, e)`
and clear of every interval. -/
def FitsAt (size b e : Nat) (l : List (Nat × Nat)) (a : Nat) : Prop :=
  (a = b ∨ ∃ r ∈ l, a = r.2) ∧ a + size ≤ e ∧ ∀ r ∈ l, a + size ≤ r.1 ∨ r.2 ≤ a

theorem firstFit_clear : ∀ (l : List (Nat × Nat)) {b : Nat}, Gapped b e l →
    firstFit size b e l = some a → a + size ≤ e ∧ ∀ r ∈ l, a + size ≤ r.1 ∨ r.2 ≤ a := by
  intro l
  induction l with
  | nil =>
    intro b hg h
    have hbe : b ≤ e := hg
    simp only [firstFit] at h
    split at h
    · have hab : b = a := Option.some.inj h
      exact ⟨by omega, by simp⟩
    · simp at h
  | cons r l ih =>
    intro b hg h
    obtain ⟨hb, hr, hl⟩ := hg
    simp only [firstFit] at h
    split at h
    · have hab : b = a := Option.some.inj h
      have hle := hl.le
      refine ⟨by omega, fun x hx => Or.inl ?_⟩
      rcases List.mem_cons.mp hx with rfl | hx
      · omega
      · have hlo := (Gapped.mem l hl hx).1
        omega
    · obtain ⟨hend, hclear⟩ := ih hl h
      refine ⟨hend, fun x hx => ?_⟩
      rcases List.mem_cons.mp hx with rfl | hx
      · exact Or.inr (firstFit_ge l hl h)
      · exact hclear x hx

theorem firstFit_lowest {c : Nat} : ∀ (l : List (Nat × Nat)) {b : Nat}, Gapped b e l →
    firstFit size b e l = some a → FitsAt size b e l c → a ≤ c := by
  intro l
  induction l with
  | nil =>
    intro b _ h hc
    rcases hc.1 with rfl | ⟨r, hr, -⟩
    · simp only [firstFit] at h
      split at h
      · exact Nat.le_of_eq (Option.some.inj h).symm
      · simp at h
    · exact absurd hr List.not_mem_nil
  | cons r l ih =>
    intro b hg h hc
    obtain ⟨hb, hr, hl⟩ := hg
    obtain ⟨hstart, hend, hclear⟩ := hc
    simp only [firstFit] at h
    split at h
    · have hab : b = a := Option.some.inj h
      rcases hstart with rfl | ⟨x, hx, rfl⟩
      · omega
      · rcases List.mem_cons.mp hx with rfl | hx
        · omega
        · have hlo := Gapped.mem l hl hx
          omega
    · -- the gap at the bottom is too small, so `c` lies behind the first interval
      refine ih hl h ⟨?_, hend, fun x hx => hclear x (List.mem_cons_of_mem r hx)⟩
      rcases hstart with rfl | ⟨x, hx, rfl⟩
      · rcases hclear r List.mem_cons_self with hfit | hbelow
        · omega
        · omega
      · rcases List.mem_cons.mp hx with rfl | hx
        · exact Or.inl rfl
        · exact Or.inr ⟨x, hx, rfl⟩

/-- **First fit finds the lowest place there is.** -/
theorem firstFit_isLeast (hg : Gapped b e l) (h : firstFit size b e l = some a) :
    IsLeast {c | FitsAt size b e l c} a :=
  ⟨⟨firstFit_mem l h, firstFit_clear l hg h⟩, fun _ hc => firstFit_lowest l hg h hc⟩

theorem mem_insertRange {x : Nat × Nat} : ∀ (l : List (Nat × Nat)),
    x ∈ insertRange r l ↔ x = r ∨ x ∈ l := by
  intro l
  induction l with
  | nil => simp [insertRange]
  | cons y l ih =>
    simp only [insertRange]
    split
    · simp
    · simp only [List.mem_cons, ih]
      tauto

/-! ### Intervals one behind the other -/

/-- Where interval `n` starts if interval `i` is `len i` long. -/
def blockStart (len : Nat → Nat) : Nat → Nat
  | 0 => 0
  | n + 1 => blockStart len n + len n

theorem blockStart_mono (len : Nat → Nat) {i j : Nat} (h : i ≤ j) :
    blockStart len i ≤ blockStart len j := by
  induction h with
  | refl => exact Nat.le_refl _
  | step _ ih => exact Nat.le_trans ih (Nat.le_add_right _ _)

theorem block_le {len : Nat → Nat} {i j x y : Nat} (hx : x < len i)
    (h : blockStart len i + x = blockStart len j + y) : j ≤ i := by
  by_contra hlt
  have hmono := blockStart_mono len (Nat.lt_of_not_le hlt)
  rw [blockStart] at hmono
  omega

theorem block_unique {len : Nat → Nat} {i j x y : Nat} (hx : x < len i) (hy : y < len j)
    (h : blockStart len i + x = blockStart len j + y) : i = j ∧ x = y := by
  obtain rfl : i = j := Nat.le_antisymm (block_le hy h.symm) (block_le hx h)
  exact ⟨rfl, by omega⟩

end Dingoo.Lib
