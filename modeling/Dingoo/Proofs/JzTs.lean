/-
The event queue of the touch screen driver.

What the queue should hold is said without its indices: all events added so far, in
order, without the ones that are gone because they were delivered, or dropped to make
room.  `Holds` ties the three numbers and the buffer to that list.  The index of the next
slot to write is kept by the driver in a variable of its own; in the invariant it is the
slot behind the newest event, which is the slot of the oldest one once the queue is full.
-/
import Dingoo.Linux.JzTs
import Dingoo.Lib.Ring

namespace Dingoo.Ts

open Dingoo.Lib

/-! ### What is held -/

inductive Op where
  | add (event : TsEvent)
  /-- the event is what the caller's buffer holds -/
  | pull (event : TsEvent)

/-- The events added so far, and how many of them are gone: delivered or dropped. -/
structure History where
  added : List TsEvent
  gone : Nat

/-- The events that are neither delivered nor dropped, oldest first. -/
def History.held (h : History) : List TsEvent := h.added.drop h.gone

def History.step (h : History) : Op → History
  | .add event =>
    ⟨h.added ++ [event], if h.held.length < EVENT_BUFSIZE then h.gone else h.gone + 1⟩
  | .pull _ => ⟨h.added, if h.held = [] then h.gone else h.gone + 1⟩

def history (ops : List Op) : History := ops.foldl History.step ⟨[], 0⟩

/-! ### What is done -/

def step (ts : JzTs) : Op → JzTs
  | .add event => eventAdd event ts
  | .pull event => (eventPull event ts).2.2

/-- The calls after an `open`. -/
def queueAfter (ts : JzTs) (ops : List Op) : JzTs := ops.foldl step (jzOpen ts)

/-- The queue holds the events of the history. -/
structure Holds (ts : JzTs) (h : History) : Prop where
  out_lt : ts.nextOut < EVENT_BUFSIZE
  count_le : ts.eventCount ≤ EVENT_BUFSIZE
  nextIn : ts.nextIn = (ts.nextOut + ts.eventCount) % EVENT_BUFSIZE
  gone_le : h.gone ≤ h.added.length
  held : ringList EVENT_BUFSIZE ts.eventBuf ts.nextOut ts.eventCount = h.held

theorem and_bufsize (n : Nat) : n &&& (EVENT_BUFSIZE - 1) = n % EVENT_BUFSIZE :=
  Nat.and_two_pow_sub_one_eq_mod n 6

theorem bufsize_pos : 0 < EVENT_BUFSIZE := by decide

theorem and_bufsize_lt (n : Nat) : n &&& (EVENT_BUFSIZE - 1) < EVENT_BUFSIZE := by
  rw [and_bufsize]
  exact Nat.mod_lt _ bufsize_pos

variable {ts : JzTs} {h : History}

theorem Holds.length_held (hq : Holds ts h) : h.held.length = ts.eventCount := by
  rw [← hq.held, length_ringList]

theorem Holds.gone_lt (hq : Holds ts h) (hsome : 0 < ts.eventCount) :
    h.gone < h.added.length := by
  have hlen := hq.length_held
  rw [History.held, List.length_drop] at hlen
  omega

theorem Holds.nextIn_full (hq : Holds ts h) (hfull : ts.eventCount = EVENT_BUFSIZE) :
    ts.nextIn = ts.nextOut % EVENT_BUFSIZE := by
  rw [hq.nextIn, hfull, Nat.add_mod_right]

theorem eventAdd_of_lt (event : TsEvent) (hroom : ts.eventCount < EVENT_BUFSIZE) :
    eventAdd event ts = { ts with
      eventBuf := Function.update ts.eventBuf ts.nextIn event
      nextIn := (ts.nextIn + 1) &&& (EVENT_BUFSIZE - 1), eventCount := ts.eventCount + 1 } :=
  if_pos hroom

theorem eventAdd_of_not_lt (event : TsEvent) (hroom : ¬ ts.eventCount < EVENT_BUFSIZE) :
    eventAdd event ts = { ts with
      eventBuf := Function.update ts.eventBuf ts.nextIn event
      nextIn := (ts.nextIn + 1) &&& (EVENT_BUFSIZE - 1)
      nextOut := (ts.nextOut + 1) &&& (EVENT_BUFSIZE - 1) } :=
  if_neg hroom

section
variable (hq : Holds ts h)
include hq

theorem Holds.add_room (event : TsEvent) (hroom : ts.eventCount < EVENT_BUFSIZE) :
    Holds (eventAdd event ts) (h.step (.add event)) := by
  have hgone := hq.gone_le
  rw [eventAdd_of_lt event hroom, History.step, hq.length_held, if_pos hroom]
  refine ⟨hq.out_lt, hroom, ?_, ?_, ?_⟩
  · rw [and_bufsize, hq.nextIn, Nat.mod_add_mod, Nat.add_assoc]
  · rw [List.length_append]
    exact Nat.le_trans hgone (Nat.le_add_right _ _)
  · show ringList _ (Function.update ts.eventBuf ts.nextIn event) _ _ = _
    rw [hq.nextIn, ringList_push event hroom, hq.held, History.held, History.held,
      List.drop_append_of_le_length hgone]

theorem Holds.add_full (event : TsEvent) (hroom : ¬ ts.eventCount < EVENT_BUFSIZE) :
    Holds (eventAdd event ts) (h.step (.add event)) := by
  have hfull : ts.eventCount = EVENT_BUFSIZE :=
    Nat.le_antisymm hq.count_le (Nat.le_of_not_lt hroom)
  have hless : h.gone < h.added.length := hq.gone_lt (hfull ▸ bufsize_pos)
  rw [eventAdd_of_not_lt event hroom, History.step, hq.length_held, if_neg hroom]
  refine ⟨and_bufsize_lt _, hq.count_le, ?_, ?_, ?_⟩
  · show (ts.nextIn + 1) &&& (EVENT_BUFSIZE - 1) =
      (((ts.nextOut + 1) &&& (EVENT_BUFSIZE - 1)) + ts.eventCount) % _
    rw [and_bufsize, and_bufsize, hq.nextIn_full hfull, Nat.mod_add_mod, hfull,
      Nat.add_mod_right, Nat.mod_mod]
  · rw [List.length_append]
    exact Nat.le_trans hless (Nat.le_add_right _ _)
  · show ringList _ (Function.update ts.eventBuf ts.nextIn event)
      ((ts.nextOut + 1) &&& (EVENT_BUFSIZE - 1)) ts.eventCount = _
    have hheld := hq.held
    rw [hfull] at hheld
    rw [and_bufsize, hq.nextIn_full hfull, hfull, ringList_replace event bufsize_pos, hheld,
      History.held, History.held, List.tail_drop, List.drop_append_of_le_length hless]

theorem Holds.add (event : TsEvent) : Holds (eventAdd event ts) (h.step (.add event)) := by
  by_cases hroom : ts.eventCount < EVENT_BUFSIZE
  · exact hq.add_room event hroom
  · exact hq.add_full event hroom

theorem Holds.drop_oldest (hsome : 0 < ts.eventCount)
    (htail : ringList EVENT_BUFSIZE ts.eventBuf ((ts.nextOut + 1) % EVENT_BUFSIZE)
      (ts.eventCount - 1) = h.held.tail) :
    Holds { ts with
      nextOut := (ts.nextOut + 1) &&& (EVENT_BUFSIZE - 1)
      eventCount := ts.eventCount - 1 } ⟨h.added, h.gone + 1⟩ := by
  have hle := hq.count_le
  refine ⟨and_bufsize_lt _, ?_, ?_, hq.gone_lt hsome, ?_⟩
  · show ts.eventCount - 1 ≤ _
    omega
  · show ts.nextIn = (((ts.nextOut + 1) &&& (EVENT_BUFSIZE - 1)) + (ts.eventCount - 1)) % _
    rw [hq.nextIn, and_bufsize, Nat.mod_add_mod]
    congr 1
    omega
  · show ringList _ ts.eventBuf ((ts.nextOut + 1) &&& (EVENT_BUFSIZE - 1))
      (ts.eventCount - 1) = h.added.drop (h.gone + 1)
    rw [and_bufsize, htail, History.held, List.tail_drop]

theorem Holds.pull (event : TsEvent) :
    (eventPull event ts).1 = h.held.length ∧
    (eventPull event ts).2.1 = h.held.headD event ∧
    Holds (eventPull event ts).2.2 (h.step (.pull event)) := by
  have hlen := hq.length_held
  by_cases hsome : ts.eventCount = 0
  · have hnone : h.held = [] := List.eq_nil_of_length_eq_zero (hlen.trans hsome)
    have hpull : eventPull event ts = (ts.eventCount, event, ts) := if_neg (not_not.mpr hsome)
    rw [hpull, History.step, if_pos hnone, hnone, hsome]
    exact ⟨rfl, rfl, hq⟩
  · obtain ⟨count, hcount⟩ := Nat.exists_eq_succ_of_ne_zero hsome
    have hpull : eventPull event ts = (ts.eventCount, ts.eventBuf ts.nextOut, { ts with
        nextOut := (ts.nextOut + 1) &&& (EVENT_BUFSIZE - 1)
        eventCount := ts.eventCount - 1 }) := if_pos hsome
    have hheld := hq.held
    rw [hcount, Nat.succ_eq_add_one, ringList_pop, Nat.mod_eq_of_lt hq.out_lt] at hheld
    have hne : h.held ≠ [] := by
      rw [← hheld]
      exact List.cons_ne_nil _ _
    rw [hpull, History.step, if_neg hne]
    refine ⟨hlen.symm, ?_, hq.drop_oldest (Nat.pos_of_ne_zero hsome) ?_⟩
    · rw [← hheld]
      rfl
    · rw [← hheld, hcount, Nat.succ_sub_one, List.tail_cons]

theorem Holds.step (op : Op) : Holds (step ts op) (h.step op) := by
  cases op with
  | add event => exact hq.add event
  | pull event => exact (hq.pull event).2.2

end

theorem Holds.run (ops : List Op) : ∀ {ts : JzTs} {h : History}, Holds ts h →
    Holds (ops.foldl Ts.step ts) (ops.foldl History.step h) := by
  induction ops with
  | nil =>
    intro ts h hq
    exact hq
  | cons op ops ih =>
    intro ts h hq
    exact ih (hq.step op)

theorem holds_open (ts : JzTs) : Holds (jzOpen ts) ⟨[], 0⟩ :=
  ⟨bufsize_pos, Nat.zero_le _, rfl, Nat.le_refl _, rfl⟩

/-- **The queue is a FIFO of 64 events that drops its oldest one when full.**  After any
calls `event_pull` returns how many events are held and delivers the first one that is
neither delivered nor dropped; it returns 0 exactly if there is none, and leaves the
caller's buffer alone then. -/
theorem event_queue_fifo (ts : JzTs) (ops : List Op) (event : TsEvent) :
    (eventPull event (queueAfter ts ops)).1 = (history ops).held.length ∧
    ((eventPull event (queueAfter ts ops)).1 ≠ 0 →
      (history ops).added[(history ops).gone]? =
        some (eventPull event (queueAfter ts ops)).2.1) ∧
    ((eventPull event (queueAfter ts ops)).1 = 0 ↔ (history ops).held = []) ∧
    ((history ops).held = [] → (eventPull event (queueAfter ts ops)).2.1 = event) ∧
    (history ops).held.length ≤ EVENT_BUFSIZE := by
  have hq : Holds (queueAfter ts ops) (history ops) := (holds_open ts).run ops
  obtain ⟨hret, hevent, -⟩ := hq.pull event
  rw [hret, hevent]
  refine ⟨rfl, fun hsome => ?_, List.length_eq_zero_iff, fun hnone => ?_, ?_⟩
  · cases hheld : (history ops).held with
    | nil =>
      rw [hheld] at hsome
      exact absurd rfl hsome
    | cons first others =>
      rw [List.headD_cons, ← List.head?_drop]
      exact congrArg List.head? hheld
  · rw [hnone]
    rfl
  · rw [hq.length_held]
    exact hq.count_le

end Dingoo.Ts
