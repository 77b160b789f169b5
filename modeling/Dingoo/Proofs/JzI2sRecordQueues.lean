/-
The recording queues as a protocol between the reader and the DMA interrupt.

The invariant of the recording side says where the ids are at every step.  What is added
here is the order: the ids of the completed transfers enter the full queue at its end and
the reader takes them from its front, so at every step the ids taken so far followed by
those in the queue are the ids completed so far (`trace_run`).  A transfer is started into
an id that has just been taken from the empty queue, and no id is in two queues.
-/
import Dingoo.Proofs.JzI2sGap

namespace Dingoo.JzI2sRecord

open Dingoo.JzI2s (Config Queue getBufferId putBufferId elementsInQueue getBufferId_nil
  getBufferId_cons toList_putBufferId fragmentIds)

variable {cfg : Config} {s : State}

/-! ### What an action does with the ids -/

/-- The fragment whose transfer completes. -/
def completes (s : State) : Act → List Int
  | .irq => s.target.toList
  | _ => []

/-- The fragment the reader takes from the full queue. -/
def takes (s : State) : Act → List Int
  | .reader _ =>
    match s.pc with
    | .getFull _ => if (getBufferId s.inFull).1 ≥ 0 then [(getBufferId s.inFull).1] else []
    | _ => []
  | _ => []

/-- The fragment a transfer is started into: by the reader, or by the interrupt. -/
def starts (cfg : Config) (mic : Nat → Nat → BitVec 32) (s : State) (a : Act) : List Int :=
  match a with
  | .read _ _ => []
  | .reader _ => s.pc.starting
  | .irq => if s.target.isSome then (step cfg mic s .irq).target.toList else []

/-- What the actions of a run do, one after the other. -/
def trace (cfg : Config) (mic : Nat → Nat → BitVec 32) (does : State → Act → List Int) :
    State → List Act → List Int
  | _, [] => []
  | s, a :: acts => does s a ++ trace cfg mic does (step cfg mic s a) acts

/-! ### The full queue is first in, first out -/

theorem takes_reader (h : Inv cfg s) (fault : Bool) :
    s.inFull.toList = takes s (.reader fault) ++ (readerStep cfg fault s).inFull.toList := by
  unfold takes readerStep
  cases hpc : s.pc with
  | getFull c =>
    cases hf : s.inFull.toList with
    | nil =>
      rw [getBufferId_nil hf, if_neg (by simp)]
      exact hf.symm
    | cons id l =>
      obtain ⟨hid, hl⟩ := getBufferId_cons hf
      have hpos : id ≥ 0 := h.nonneg_full (by simp [hf])
      rw [hid, if_pos hpos]
      exact congrArg (id :: ·) hl.symm
  | copyOut c => cases fault <;> rfl
  | _ => rfl

theorem queue_step (mic : Nat → Nat → BitVec 32) (h : Inv cfg s) (a : Act) :
    s.inFull.toList ++ completes s a = takes s a ++ (step cfg mic s a).inFull.toList := by
  cases a with
  | read count nonblock =>
    simp only [completes, takes, step, List.append_nil, List.nil_append]
    split <;> rfl
  | reader fault =>
    show s.inFull.toList ++ [] = _
    rw [List.append_nil]
    exact takes_reader h fault
  | irq =>
    simp only [completes, takes, step, List.nil_append]
    cases ht : s.target with
    | none => simp
    | some id => exact (finished_irq h (h.busy_of_target ht).1 _).inFull.symm

/-- **At every step the ids taken and the ids in the full queue are those completed.** -/
theorem trace_run (mic : Nat → Nat → BitVec 32) : ∀ (acts : List Act) {s : State}, Inv cfg s →
    s.inFull.toList ++ trace cfg mic completes s acts
      = trace cfg mic takes s acts ++ (run cfg mic s acts).inFull.toList := by
  intro acts
  induction acts with
  | nil => intro s _; simp [trace, run]
  | cons a acts ih =>
    intro s h
    have hrest := ih (inv_step mic h a)
    rw [trace, trace, ← List.append_assoc, queue_step mic h a, List.append_assoc, hrest,
      List.append_assoc]
    rfl

/-! ### The fragment a transfer is started into -/

theorem starts_notFull (mic : Nat → Nat → BitVec 32) (h : Inv cfg s) {a : Act} {id : Int}
    (hid : id ∈ starts cfg mic s a) : id ∉ (step cfg mic s a).inFull.toList := by
  have hnext := inv_step mic h a
  -- once started, the fragment is the one in the busy queue
  have hbusy : (step cfg mic s a).target = some id := by
    cases a with
    | read count nonblock => exact absurd hid List.not_mem_nil
    | reader fault =>
      cases hpc : s.pc with
      | firstStart c i =>
        simp only [starts, hpc, Pc.starting, List.mem_singleton] at hid
        simp [step, readerStep, hpc, audioStartDma, hid]
      | start c i =>
        simp only [starts, hpc, Pc.starting, List.mem_singleton] at hid
        simp [step, readerStep, hpc, audioStartDma, hid]
      | _ => simp [starts, hpc] at hid
    | irq =>
      unfold starts at hid
      dsimp only at hid
      split at hid
      · exact Option.mem_toList.mp hid
      · exact absurd hid List.not_mem_nil
  exact (hnext.busy_fresh (hnext.busy_of_target hbusy).1).1

/-! ### The protocol -/

/-- What holds of the recording queues at every step. -/
structure RecordSound (cfg : Config) (s : State) : Prop where
  /-- the queues and the reader's hands hold every fragment once -/
  partition : (s.inEmpty.toList ++ s.inFull.toList ++ s.inBusy.toList ++ s.pc.held).Perm
    (fragmentIds cfg.fragstotal)
  busy_le_one : s.inBusy.toList.length ≤ 1
  /-- between putting an id into the busy queue and starting it, it is not in flight yet -/
  inFlight : (∀ c id, s.pc ≠ .firstStart c id ∧ s.pc ≠ .start c id) →
    s.inBusy.toList = s.target.toList

theorem Inv.sound (h : Inv cfg s) : RecordSound cfg s := by
  refine ⟨h.ids, ?_, fun hpc => ?_⟩
  · cases ht : s.target with
    | some id => simp [(h.busy_of_target ht).1]
    | none =>
      rw [h.busy, ht]
      cases s.pc <;> simp
  · have hstarting : s.pc.starting = [] := by
      cases hp : s.pc with
      | firstStart c id => exact absurd hp (hpc c id).1
      | start c id => exact absurd hp (hpc c id).2
      | _ => rfl
    rw [h.busy, hstarting, List.append_nil]

/-- **The recording queue protocol.**  From an open for reading on an idle channel, under every
sequence of reads and every interleaving of their steps with the interrupts of the transfers
started. -/
theorem recording_protocol (cfg : Config) (mic : Nat → Nat → BitVec 32) (s : State)
    (hpc : s.pc = .idle) (ht : s.target = none) (acts : List Act) :
    RecordSound cfg (run cfg mic (jzAudioOpen cfg s) acts) ∧
    trace cfg mic completes (jzAudioOpen cfg s) acts
      = trace cfg mic takes (jzAudioOpen cfg s) acts
        ++ (run cfg mic (jzAudioOpen cfg s) acts).inFull.toList ∧
    ∀ pre a post, acts = pre ++ a :: post →
      ∀ id ∈ starts cfg mic (run cfg mic (jzAudioOpen cfg s) pre) a,
        id ∉ (step cfg mic (run cfg mic (jzAudioOpen cfg s) pre) a).inFull.toList := by
  have hopen := inv_open cfg hpc ht
  have hempty : (jzAudioOpen cfg s).inFull.toList = [] := by simp [jzAudioOpen]
  refine ⟨(inv_run mic acts hopen).sound, ?_, fun pre a post _ id hid => ?_⟩
  · have htrace := trace_run mic acts hopen
    rwa [hempty, List.nil_append] at htrace
  · exact starts_notFull mic (inv_run mic pre hopen) hid

/-- Two fragments of eight bytes: the first is recorded and taken while the second is being
recorded. -/
def firstRead : List Act :=
  .read 8 false :: List.replicate 4 (.reader false) ++ .irq :: List.replicate 3 (.reader false)

theorem recording_protocol_first :
    trace ⟨.s16le, .stereo, 8, 2⟩ (fun _ _ => 0) takes
      (jzAudioOpen ⟨.s16le, .stereo, 8, 2⟩ untouched) firstRead = [0] ∧
    (run ⟨.s16le, .stereo, 8, 2⟩ (fun _ _ => 0)
      (jzAudioOpen ⟨.s16le, .stereo, 8, 2⟩ untouched) firstRead).target = some 1 ∧
    RecordSound ⟨.s16le, .stereo, 8, 2⟩ (run ⟨.s16le, .stereo, 8, 2⟩ (fun _ _ => 0)
      (jzAudioOpen ⟨.s16le, .stereo, 8, 2⟩ untouched) firstRead) :=
  ⟨by decide, by decide, (recording_protocol _ _ untouched rfl rfl firstRead).1⟩

end Dingoo.JzI2sRecord
