/-
Loops along the links of cells on a heap.

A link field is a partial function: cells that are not live have no field, and the field
of a live one is null or another cell.  `Linked` says that a list of cells is in the order
of a field, the last one null; the loops over the field then do on the cells what the list
functions do on the list.  A loop that only ends at a null link takes the number of cells
it may visit.
-/
import Dingoo.Lib.Links

namespace Dingoo.Lib

variable {α : Type} {f g : α → Option (Option α)}

/-! ### Loops -/

/-- `for (i = 0; p != NULL && i < n; p = p->f, i++);` -/
def follow (f : α → Option (Option α)) : Nat → Option α → Option (Option α)
  | _, none => some none
  | 0, some a => some (some a)
  | n + 1, some a => (f a).bind (follow f n)

/-- `for (count = 0; p->f != NULL; p = p->f, count++);`, from a cell: where it ends and the
count. -/
def lastCell (f : α → Option (Option α)) : Nat → α → Option (α × Nat)
  | 0, _ => none
  | fuel + 1, a =>
    (f a).bind fun link =>
      match link with
      | none => some (a, 0)
      | some b => (lastCell f fuel b).map fun r => (r.1, r.2 + 1)

/-- `for (; p != NULL; p = p->f)`: the cells visited. -/
def cellsFrom (f : α → Option (Option α)) : Nat → Option α → Option (List α)
  | _, none => some []
  | 0, some _ => none
  | fuel + 1, some a => (f a).bind fun link => (cellsFrom f fuel link).map (a :: ·)

/-! ### Cells in the order of a list -/

/-- The cells of the list are linked in its order. -/
def Linked (f : α → Option (Option α)) (l : List α) : Prop :=
  Links (fun a => some (some a)) f (some none) l

theorem firstLink_some (l : List α) :
    firstLink (fun a => some (some a)) (some none) l = some l.head? := by
  cases l <;> rfl

theorem linked_cons {a : α} {l : List α} : Linked f (a :: l) ↔ f a = some l.head? ∧ Linked f l := by
  rw [← firstLink_some l]
  exact Iff.rfl

theorem linked_congr {l : List α} (h : ∀ a ∈ l, f a = g a) (hl : Linked f l) : Linked g l :=
  links_congr l h hl

theorem Linked.of_append : ∀ {l l' : List α}, Linked f (l ++ l') → Linked f l' := by
  intro l l'
  induction l with
  | nil => intro h; exact h
  | cons a l ih => intro h; exact ih (linked_cons.mp h).2

theorem linked_concat {a b : α} : ∀ {l : List α}, Linked f (l ++ [a]) →
    (∀ c ∈ l, g c = f c) → g a = some (some b) → g b = some none → Linked g (l ++ [a, b]) := by
  intro l
  induction l with
  | nil =>
    intro _ _ ha hb
    exact linked_cons.mpr ⟨ha, linked_cons.mpr ⟨hb, trivial⟩⟩
  | cons c l ih =>
    intro h hsame ha hb
    obtain ⟨hc, hl⟩ := linked_cons.mp h
    refine linked_cons.mpr ⟨?_, ih hl (fun x hx => hsame x (List.mem_cons_of_mem c hx)) ha hb⟩
    rw [hsame c (by simp), hc]
    cases l <;> rfl

theorem follow_linked {a : α} {l' : List α} : ∀ {l : List α}, Linked f (l ++ a :: l') →
    follow f l.length (l ++ a :: l').head? = some (some a) := by
  intro l
  induction l with
  | nil => intro _; rfl
  | cons c l ih =>
    intro h
    obtain ⟨hc, hl⟩ := linked_cons.mp h
    show (f c).bind (follow f l.length) = _
    rw [hc, Option.bind_some]
    exact ih hl

theorem lastCell_linked {a b : α} : ∀ {l : List α} {fuel : Nat}, Linked f (a :: l) →
    (a :: l).getLast? = some b → l.length < fuel → lastCell f fuel a = some (b, l.length) := by
  intro l
  induction l generalizing a with
  | nil =>
    intro fuel h hb hfuel
    obtain ⟨fuel, rfl⟩ : ∃ n, fuel = n + 1 := ⟨fuel - 1, by simp at hfuel; omega⟩
    obtain rfl : a = b := by simpa using hb
    rw [lastCell, (linked_cons.mp h).1]
    rfl
  | cons c l ih =>
    intro fuel h hb hfuel
    obtain ⟨fuel, rfl⟩ : ∃ n, fuel = n + 1 := ⟨fuel - 1, by simp at hfuel; omega⟩
    obtain ⟨ha, hl⟩ := linked_cons.mp h
    have hlast : (c :: l).getLast? = some b := by simpa using hb
    rw [lastCell, ha]
    show (lastCell f fuel c).map _ = _
    rw [ih hl hlast (by simp at hfuel; omega)]
    rfl

theorem cellsFrom_linked : ∀ {l : List α} {fuel : Nat}, Linked f l → l.length ≤ fuel →
    cellsFrom f fuel l.head? = some l := by
  intro l
  induction l with
  | nil => intro fuel _ _; cases fuel <;> rfl
  | cons a l ih =>
    intro fuel h hfuel
    obtain ⟨fuel, rfl⟩ : ∃ n, fuel = n + 1 := ⟨fuel - 1, by simp at hfuel; omega⟩
    obtain ⟨ha, hl⟩ := linked_cons.mp h
    show ((f a).bind fun link => (cellsFrom f fuel link).map (a :: ·)) = _
    rw [ha, Option.bind_some, ih hl (by simp at hfuel; omega)]
    rfl

end Dingoo.Lib
