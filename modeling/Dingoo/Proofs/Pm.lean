/-
The board after sleep.

Saving and restoring are loops over the same cells, so what is restored is what was saved
(`foldl_restoreCell`), whatever was written in between.  Group 0 is not saved: nothing
writes it (`SameGroup0`).  The other registers are written back one by one.
-/
import Dingoo.Linux.Pm
import Mathlib.Tactic.Ring

namespace Dingoo.Pm

/-! ### Set and clear registers -/

theorem or_and_not_not (old v : BitVec 32) : (old ||| v) &&& ~~~(~~~v) = v := by
  refine BitVec.eq_of_getLsbD_eq fun i hi => ?_
  rw [BitVec.not_not, BitVec.getLsbD_and, BitVec.getLsbD_or]
  cases old.getLsbD i <;> cases v.getLsbD i <;> rfl

theorem restoreCell_gpio (buf : Nat → BitVec 32) (st : Board × Nat) (cell : Nat × PxReg)
    (p : Nat) (r : PxReg) :
    (restoreCell buf st cell).1.gpio p r = if (p, r) = cell then buf st.2 else st.1.gpio p r := by
  unfold restoreCell Board.pxClear Board.pxSet
  dsimp only
  by_cases hcell : p = cell.1 ∧ r = cell.2
  · rw [if_pos hcell, if_pos hcell, if_pos (Prod.ext hcell.1 hcell.2), or_and_not_not]
  · rw [if_neg hcell, if_neg hcell, if_neg]
    rintro rfl
    exact hcell ⟨rfl, rfl⟩

/-! ### The two loops -/

theorem foldl_saveCell (b : Board) : ∀ (cells : List (Nat × PxReg)) (st : Save),
    (∀ k < st.2, (cells.foldl (saveCell b) st).1 k = st.1 k) ∧
    ∀ k (hk : k < cells.length),
      (cells.foldl (saveCell b) st).1 (st.2 + k) = b.gpio cells[k].1 cells[k].2 := by
  intro cells
  induction cells with
  | nil => exact fun st => ⟨fun _ _ => rfl, fun k hk => absurd hk (Nat.not_lt_zero k)⟩
  | cons cell cells ih =>
    intro st
    obtain ⟨hold, hnew⟩ := ih (saveCell b st cell)
    constructor
    · intro k hk
      rw [List.foldl_cons, hold k (Nat.lt_succ_of_lt hk)]
      exact if_neg (Nat.ne_of_lt hk)
    · intro k hk
      cases k with
      | zero =>
        rw [List.foldl_cons, Nat.add_zero, hold _ (Nat.lt_succ_self _)]
        exact if_pos rfl
      | succ k =>
        have hcell := hnew k (Nat.lt_of_succ_lt_succ hk)
        rw [List.foldl_cons, ← Nat.add_assoc, Nat.add_right_comm]
        exact hcell

theorem foldl_restoreCell {g : Nat → PxReg → BitVec 32} {buf : Nat → BitVec 32} :
    ∀ (cells : List (Nat × PxReg)) (st : Board × Nat),
    (∀ k (hk : k < cells.length), buf (st.2 + k) = g cells[k].1 cells[k].2) →
    ∀ p r, (cells.foldl (restoreCell buf) st).1.gpio p r =
      if (p, r) ∈ cells then g p r else st.1.gpio p r := by
  intro cells
  induction cells with
  | nil => exact fun st _ p r => (if_neg List.not_mem_nil).symm
  | cons cell cells ih =>
    intro st hbuf p r
    have hrest : ∀ k (hk : k < cells.length),
        buf ((restoreCell buf st cell).2 + k) = g cells[k].1 cells[k].2 := by
      intro k hk
      have hcell := hbuf (k + 1) (Nat.succ_lt_succ hk)
      rw [show (restoreCell buf st cell).2 + k = st.2 + (k + 1) by unfold restoreCell; omega]
      exact hcell
    rw [List.foldl_cons, ih _ hrest, restoreCell_gpio]
    by_cases hmem : (p, r) ∈ cells
    · rw [if_pos hmem, if_pos (List.mem_cons_of_mem _ hmem)]
    · rw [if_neg hmem]
      by_cases hcell : (p, r) = cell
      · subst hcell
        have hfirst := hbuf 0 (Nat.succ_pos _)
        rw [if_pos rfl, if_pos List.mem_cons_self]
        exact hfirst
      · rw [if_neg hcell, if_neg]
        exact fun h => (List.mem_cons.mp h).elim hcell hmem

theorem resume_gpio (pavo : Bool) (b b' : Board) (stack : Nat → BitVec 32) (p : Nat) (r : PxReg) :
    (jzBoardDoResume b' (jzBoardDoSleep pavo b stack).2).gpio p r =
      if (p, r) ∈ savedCells then b.gpio p r else b'.gpio p r := by
  refine foldl_restoreCell savedCells (b', 0) (fun k hk => ?_) p r
  exact (foldl_saveCell b savedCells (stack, 0)).2 k hk

theorem mem_savedCells {p : Nat} (hp : 1 ≤ p ∧ p < 4) (r : PxReg) : (p, r) ∈ savedCells := by
  obtain rfl | rfl | rfl : p = 1 ∨ p = 2 ∨ p = 3 := by omega
  · cases r <;> decide
  · cases r <;> decide
  · cases r <;> decide

/-! ### What stays -/

/-- Group 0 has the same contents. -/
def SameGroup0 (b b' : Board) : Prop := ∀ r, b'.gpio 0 r = b.gpio 0 r

theorem SameGroup0.trans {a b c : Board} (hab : SameGroup0 a b) (hbc : SameGroup0 b c) :
    SameGroup0 a c := fun r => (hbc r).trans (hab r)

theorem sameGroup0_gpioAsSleep (b : Board) : SameGroup0 b b.gpioAsSleep := fun _ => rfl

theorem sameGroup0_pavoPins (b : Board) : SameGroup0 b (pavoPins b) := fun _ => rfl

theorem sameGroup0_enterSleep (b : Board) : SameGroup0 b (enterSleep b) := fun _ => rfl

theorem sameGroup0_sleep (pavo : Bool) (b : Board) (stack : Nat → BitVec 32) :
    SameGroup0 b (jzBoardDoSleep pavo b stack).1 := by
  cases pavo with
  | false => exact sameGroup0_gpioAsSleep b
  | true => exact (sameGroup0_gpioAsSleep b).trans (sameGroup0_pavoPins _)

theorem jzBoardDoSleep_eq (pavo : Bool) (b : Board) (stack : Nat → BitVec 32) :
    (jzBoardDoSleep pavo b stack).1 =
      { b with gpio := (jzBoardDoSleep pavo b stack).1.gpio } := by
  cases pavo <;> rfl

theorem foldl_restoreCell_eq (buf : Nat → BitVec 32) :
    ∀ (cells : List (Nat × PxReg)) (st : Board × Nat),
    (cells.foldl (restoreCell buf) st).1 =
      { st.1 with gpio := (cells.foldl (restoreCell buf) st).1.gpio } := by
  intro cells
  induction cells with
  | nil => exact fun st => rfl
  | cons cell cells ih =>
    intro st
    rw [List.foldl_cons, ih]
    rfl

theorem jzBoardDoResume_eq (b : Board) (ptr : Nat → BitVec 32) :
    jzBoardDoResume b ptr = { b with gpio := (jzBoardDoResume b ptr).gpio } :=
  foldl_restoreCell_eq ptr savedCells (b, 0)

/-! ### The whole of it -/

theorem sadc_stopped (ena : BitVec 8) : ena &&& ~~~0x7 &&& 0x7 = 0 := by
  rw [BitVec.and_assoc]
  exact BitVec.and_zero

/-- The board before it is put to sleep, as `jz_board_do_sleep` finds it. -/
def stopped (b : Board) : Board :=
  { b with
    nfcsr := ~~~0xff
    sadcEna := b.sadcEna &&& ~~~0x7
    scr := b.scr &&& ~~~(1#32 <<< 6 ||| 1#32 <<< 7) ||| (0#32 <<< 6 ||| 1#32 <<< 7) }

/-- The board after the sleep, before `jz_board_do_resume`. -/
def woken (pavo : Bool) (elapsed : Nat) (stack : Nat → BitVec 32) (b : Board) : Board :=
  let slept := enterSleep (jzBoardDoSleep pavo (stopped b) stack).1
  { slept with
    rsr := slept.rsr + BitVec.ofNat 32 elapsed
    lcr := slept.lcr &&& ~~~CPM_LCR_LPM_MASK ||| CPM_LCR_LPM_IDLE
    nfcsr := b.nfcsr
    imr := (slept.imr ||| b.imr) &&& ~~~(~~~b.imr)
    sadcEna := (b.sadcEna.setWidth 32).setWidth 8 }

theorem jzPmDoSleep_eq (pavo : Bool) (elapsed : Nat) (stack : Nat → BitVec 32) (b : Board) :
    jzPmDoSleep pavo elapsed stack b =
      some { woken pavo elapsed stack b with
        gpio := (jzBoardDoResume (woken pavo elapsed stack b)
          (jzBoardDoSleep pavo (stopped b) stack).2).gpio
        scr := b.scr
        xtimeSec := (woken pavo elapsed stack b).rsr + (b.xtimeSec - b.rsr) } := by
  unfold jzPmDoSleep
  dsimp only
  rw [if_neg (not_not_intro (sadc_stopped b.sadcEna)), jzBoardDoResume_eq]
  rfl

theorem woken_rsr (pavo : Bool) (elapsed : Nat) (stack : Nat → BitVec 32) (b : Board) :
    (woken pavo elapsed stack b).rsr = b.rsr + BitVec.ofNat 32 elapsed := by
  unfold woken
  rw [jzBoardDoSleep_eq]
  rfl

theorem sameGroup0_woken (pavo : Bool) (elapsed : Nat) (stack : Nat → BitVec 32) (b : Board) :
    SameGroup0 b (woken pavo elapsed stack b) :=
  (sameGroup0_sleep pavo (stopped b) stack).trans (sameGroup0_enterSleep _)

theorem toInt_add_elapsed {sec : BitVec 32} {elapsed : Nat}
    (h : sec.toInt + elapsed < 2 ^ 31) :
    (sec + BitVec.ofNat 32 elapsed).toInt = sec.toInt + elapsed := by
  have hlow := BitVec.le_toInt sec
  have helapsed : (0 : Int) ≤ elapsed := Int.natCast_nonneg elapsed
  rw [BitVec.toInt_add, ← BitVec.ofInt_natCast, BitVec.toInt_ofInt, Int.add_bmod_bmod]
  exact Int.bmod_eq_of_le (by omega) (by omega)

/-- **Sleep restores the board**: the function returns, all GPIO registers of the four groups and
the other registers have their values at entry, and the time has gone on by the seconds that
the RTC counted. -/
theorem jzPmDoSleep_restores (pavo : Bool) (elapsed : Nat) (stack : Nat → BitVec 32) (b : Board) :
    ∃ b', jzPmDoSleep pavo elapsed stack b = some b' ∧
      (∀ p < 4, ∀ r, b'.gpio p r = b.gpio p r) ∧
      b'.nfcsr = b.nfcsr ∧ b'.imr = b.imr ∧ b'.sadcEna = b.sadcEna ∧ b'.scr = b.scr ∧
      b'.rsr = b.rsr + BitVec.ofNat 32 elapsed ∧
      b'.xtimeSec = b.xtimeSec + BitVec.ofNat 32 elapsed ∧
      (b.xtimeSec.toInt + elapsed < 2 ^ 31 →
        b'.xtimeSec.toInt = b.xtimeSec.toInt + elapsed) := by
  have htime : (woken pavo elapsed stack b).rsr + (b.xtimeSec - b.rsr) =
      b.xtimeSec + BitVec.ofNat 32 elapsed := by
    rw [woken_rsr]
    ring
  refine ⟨_, jzPmDoSleep_eq pavo elapsed stack b, fun p hp r => ?_, rfl, or_and_not_not _ _, ?_,
    rfl, woken_rsr pavo elapsed stack b, htime, fun h => ?_⟩
  · dsimp only
    rw [resume_gpio]
    by_cases hzero : p = 0
    · subst hzero
      rw [if_neg (by cases r <;> decide)]
      exact sameGroup0_woken pavo elapsed stack b r
    · rw [if_pos (mem_savedCells ⟨Nat.one_le_iff_ne_zero.mpr hzero, hp⟩ r)]
      rfl
  · change (b.sadcEna.setWidth 32).setWidth 8 = b.sadcEna
    rw [BitVec.setWidth_setWidth_of_le b.sadcEna (by decide : 8 ≤ 32), BitVec.setWidth_eq]
  · dsimp only
    rw [htime]
    exact toInt_add_elapsed h

end Dingoo.Pm
