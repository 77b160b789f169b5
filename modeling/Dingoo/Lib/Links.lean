/-
Reversing a chain of links in place, and reversing it back.

A singly linked chain can be read in the order opposite to its links without any
extra memory: walk it once while turning every link round, then walk it back and
turn every link round again.  The two passes are the same operation, `relink`,
run along the chain and along its reverse, and the only thing that has to be
proved is that running it twice gives back the links there were.

Cells have type `α` and links type `β`, with `ι` the link that names a cell, so an
end mark is any link at all.
-/
import Mathlib.Data.List.Nodup

namespace Dingoo.Lib

variable {α β : Type*} (ι : α → β)

/-- The link to the first cell of `l`, or `e` when there is none. -/
def firstLink (e : β) : List α → β
  | [] => e
  | j :: _ => ι j

/-- Following `p` from the first cell of `l` visits `l` and ends on the link `e`. -/
def Links (p : α → β) (e : β) : List α → Prop
  | [] => True
  | j :: l => p j = firstLink ι e l ∧ Links p e l

section

variable {ι} {p q : α → β} {e : β} {j : α}

theorem links_congr : ∀ (l : List α), (∀ x ∈ l, p x = q x) → Links ι p e l → Links ι q e l := by
  intro l
  induction l with
  | nil => intro _ _; trivial
  | cons j l ih =>
    intro hpq h
    refine ⟨by rw [← hpq j (by simp)]; exact h.1, ih ?_ h.2⟩
    intro x hx
    exact hpq x (List.mem_cons_of_mem j hx)

theorem links_agree : ∀ (l : List α), Links ι p e l → Links ι q e l → ∀ x ∈ l, p x = q x := by
  intro l
  induction l with
  | nil => intro _ _ x hx; simp at hx
  | cons j l ih =>
    intro hp hq x hx
    rcases List.mem_cons.mp hx with rfl | hx
    · rw [hp.1, hq.1]
    · exact ih hp.2 hq.2 x hx

theorem links_append_singleton : ∀ (l : List α),
    Links ι p (ι j) l → p j = e → Links ι p e (l ++ [j]) := by
  intro l
  induction l with
  | nil => intro _ hj; exact ⟨hj, trivial⟩
  | cons k l ih =>
    intro h hj
    refine ⟨?_, ih h.2 hj⟩
    cases l with
    | nil => exact h.1
    | cons k' l => exact h.1

end

/-! ### Turning the links round -/

section

variable [DecidableEq α]

/-- Turn the links of the cells of `l` round, the first of them to `i`. -/
def relink (p : α → β) (i : β) : List α → α → β
  | [] => p
  | j :: l => relink (Function.update p j i) (ι j) l

variable {ι} {p : α → β} {i : β} {l : List α} {j : α}

@[simp] theorem relink_cons :
    relink ι p i (j :: l) = relink ι (Function.update p j i) (ι j) l := rfl

theorem links_update {e : β} (h : Links ι p e l) (hj : j ∉ l) (v : β) :
    Links ι (Function.update p j v) e l := by
  refine links_congr l (fun x hx => ?_) h
  exact (Function.update_of_ne (fun hc => hj (by rw [← hc]; exact hx)) _ _).symm

theorem relink_frame : ∀ (l : List α) (p : α → β) (i : β) {x : α}, x ∉ l →
    relink ι p i l x = p x := by
  intro l
  induction l with
  | nil => intro p i x _; rfl
  | cons j l ih =>
    intro p i x hx
    rw [relink_cons, ih _ _ (fun h => hx (List.mem_cons_of_mem j h))]
    exact Function.update_of_ne (fun h => hx (by simp [h])) _ _

/-- After the turn the same cells form the reversed chain, and it ends on `i`. -/
theorem links_relink : ∀ (l : List α) (p : α → β) (i : β), l.Nodup →
    Links ι (relink ι p i l) i l.reverse := by
  intro l
  induction l with
  | nil => intro p i _; trivial
  | cons j l ih =>
    intro p i hnd
    obtain ⟨hj, hl⟩ := List.nodup_cons.mp hnd
    rw [List.reverse_cons, relink_cons]
    refine links_append_singleton _ (ih _ _ hl) ?_
    rw [relink_frame l _ _ hj]
    exact Function.update_self _ _ _

/-- **Turning a chain round twice restores every link.** -/
theorem relink_reverse (p : α → β) (i e : β) (l : List α) (h : Links ι p e l) (hnd : l.Nodup) :
    relink ι (relink ι p i l) e l.reverse = p := by
  funext x
  by_cases hx : x ∈ l
  · -- Both sides link the cells of `l` into the same chain.
    have hback := links_relink (ι := ι) l.reverse (relink ι p i l) e (List.nodup_reverse.mpr hnd)
    rw [List.reverse_reverse] at hback
    exact links_agree l hback h x hx
  · rw [relink_frame _ _ _ (by simpa using hx), relink_frame _ _ _ hx]

end

end Dingoo.Lib
