/-
Strings of C in a buffer: what is read at a pointer, the string a pointer denotes, and
the loops that move a pointer over the characters of a kind.

A pointer is an offset.  A loop `for (; p(*s); s++);` ends behind the longest run of
such characters, which is how every proof about it goes on: by the run it skipped.
-/
import Mathlib.Data.List.Basic

namespace Dingoo.Lib

/-- `'\0'`. -/
abbrev NUL : Char := '\x00'

/-- `*s`; what lies behind the buffer reads as `'\0'`. -/
def readAt (buf : List Char) (s : Nat) : Char := buf.getD s NUL

/-- The string that starts at `s`. -/
def cstr (buf : List Char) (s : Nat) : List Char := (buf.drop s).takeWhile (· ≠ NUL)

/-- `for (; p(*s); s++);`, at most `n` turns. -/
def scanLoop (p : Char → Bool) (buf : List Char) : Nat → Nat → Nat
  | 0, s => s
  | n + 1, s => if p (readAt buf s) then scanLoop p buf n (s + 1) else s

/-- `for (; p(*s); s++);` inside the buffer. -/
def scan (p : Char → Bool) (buf : List Char) (s : Nat) : Nat :=
  scanLoop p buf (buf.length - s) s

variable {p : Char → Bool} {buf a b : List Char} {s n : Nat}

theorem readAt_append_length (a : List Char) (c : Char) (b : List Char) :
    readAt (a ++ c :: b) a.length = c := by
  simp [readAt]

theorem readAt_append_add (a b : List Char) (i : Nat) :
    readAt (a ++ b) (a.length + i) = readAt b i := by
  simp [readAt, List.getD_eq_getElem?_getD, List.getElem?_append_right]

theorem cstr_append_add (a b : List Char) (i : Nat) :
    cstr (a ++ b) (a.length + i) = cstr b i := by
  rw [cstr, cstr, ← List.drop_drop, List.drop_left]

theorem scanLoop_eq : ∀ (n s : Nat), n = buf.length - s →
    scanLoop p buf n s = s + ((buf.drop s).takeWhile p).length := by
  intro n
  induction n with
  | zero =>
    intro s hn
    have hend : buf.drop s = [] := List.drop_eq_nil_of_le (by omega)
    simp [scanLoop, hend]
  | succ n ih =>
    intro s hn
    have hs : s < buf.length := by omega
    have hread : readAt buf s = buf[s] := by simp [readAt, hs]
    rw [scanLoop, hread, List.drop_eq_getElem_cons hs, List.takeWhile_cons]
    by_cases hp : p buf[s] = true
    · rw [if_pos hp, if_pos hp, ih (s + 1) (by omega), List.length_cons]
      omega
    · rw [if_neg hp, if_neg hp]
      rfl

theorem scan_eq : scan p buf s = s + ((buf.drop s).takeWhile p).length :=
  scanLoop_eq _ _ rfl

theorem scan_append {c : Char} (hrun : ∀ x ∈ b, p x = true) (hc : p c = false)
    (rest : List Char) :
    scan p (a ++ (b ++ c :: rest)) a.length = a.length + b.length := by
  rw [scan_eq, List.drop_left, List.takeWhile_append_of_pos hrun, List.takeWhile_cons, hc]
  simp

theorem run_cases (p : Char → Bool) : ∀ (l : List Char),
    (∀ x ∈ l, p x = true) ∨
    ∃ a c b, l = a ++ c :: b ∧ (∀ x ∈ a, p x = true) ∧ p c = false := by
  intro l
  induction l with
  | nil => exact Or.inl (by simp)
  | cons y l ih =>
    by_cases hy : p y = true
    · rcases ih with hall | ⟨a, c, b, rfl, ha, hc⟩
      · exact Or.inl (List.forall_mem_cons.mpr ⟨hy, hall⟩)
      · exact Or.inr ⟨y :: a, c, b, rfl, List.forall_mem_cons.mpr ⟨hy, ha⟩, hc⟩
    · exact Or.inr ⟨[], y, l, rfl, by simp, by simpa using hy⟩

theorem run_unique : ∀ {a b x y : List Char} {c d : Char}, (∀ e ∈ a, p e = true) →
    (∀ e ∈ b, p e = true) → p c = false → p d = false → a ++ c :: x = b ++ d :: y →
    a = b ∧ c = d ∧ x = y := by
  intro a
  induction a with
  | nil =>
    intro b x y c d _ hb hc _ heq
    cases b with
    | nil =>
      obtain ⟨hcd, hxy⟩ := List.cons.inj heq
      exact ⟨rfl, hcd, hxy⟩
    | cons e b =>
      rw [(List.cons.inj heq).1, hb e (by simp)] at hc
      cases hc
  | cons e a ih =>
    intro b x y c d ha hb hc hd heq
    cases b with
    | nil =>
      rw [← (List.cons.inj heq).1, ha e (by simp)] at hd
      cases hd
    | cons f b =>
      obtain ⟨hef, hrest⟩ := List.cons.inj heq
      obtain ⟨hab, hcd, hxy⟩ := ih (List.forall_mem_cons.mp ha).2
        (List.forall_mem_cons.mp hb).2 hc hd hrest
      exact ⟨by rw [hef, hab], hcd, hxy⟩

theorem cstr_add : ∀ (n s : Nat), n ≤ (cstr buf s).length →
    cstr buf (s + n) = (cstr buf s).drop n := by
  intro n
  induction n with
  | zero => intro s _; rfl
  | succ n ih =>
    intro s hn
    by_cases hs : s < buf.length
    · have hcons : cstr buf s = if buf[s] ≠ NUL then buf[s] :: cstr buf (s + 1) else [] := by
        simp only [cstr]
        rw [List.drop_eq_getElem_cons hs, List.takeWhile_cons]
        simp
      by_cases hnul : buf[s] ≠ NUL
      · rw [if_pos hnul] at hcons
        rw [hcons, List.length_cons] at hn
        have := ih (s + 1) (by omega)
        rw [hcons, List.drop_succ_cons, ← this]
        congr 1
        omega
      · rw [if_neg hnul] at hcons
        rw [hcons] at hn
        simp at hn
    · have hempty : cstr buf s = [] := by
        simp [cstr, List.drop_eq_nil_of_le (Nat.le_of_not_lt hs)]
      rw [hempty] at hn
      simp at hn

theorem cstr_append (hb : ∀ x ∈ b, x ≠ NUL) (rest : List Char) :
    cstr (a ++ (b ++ NUL :: rest)) a.length = b := by
  have hb' : ∀ x ∈ b, decide (x ≠ NUL) = true := fun x hx => decide_eq_true (hb x hx)
  rw [cstr, List.drop_left, List.takeWhile_append_of_pos hb', List.takeWhile_cons]
  simp

theorem set_restore (buf : List Char) (s : Nat) (c : Char) :
    (buf.set s c).set s (readAt buf s) = buf := by
  rw [List.set_set]
  by_cases hs : s < buf.length
  · have hread : readAt buf s = buf[s] := by simp [readAt, hs]
    rw [hread, List.set_getElem_self]
  · exact List.set_eq_of_length_le (Nat.le_of_not_lt hs)

end Dingoo.Lib
