/-
Who has the RTC lock.

Every function of the driver gives the lock back before it returns, but for `rtc_open` when the
device is open: it returns `-EBUSY` with the lock held and interrupts off (`rtcOpen_wp`).
By the library that decides it for whole runs: the lock is held from a finished call exactly
if an open was refused, and that is, if one found the status set.
-/
import Dingoo.Linux.RtcJz

namespace Dingoo.Rtc

open Dingoo.Lib Dingoo.Lib.LockProg

variable {Q : Unit → Bool → Prop} {tm altm : RtcTime} {v : BitVec 32} {w : RtcWkalrm}

/-- The replies with which a call keeps the lock. -/
def leaves (r : Reply) : Bool := r.code = -EBUSY

/-! ### One specification for each function -/

section

variable {has : Bool}

@[simp]
theorem wp_rtcWriteReady : wp has rtcWriteReady Q ↔ Q () has := Iff.rfl

@[simp]
theorem wp_changeRegs {f : Regs → Regs} :
    wp has (changeRegs f) Q ↔ Q () has := Iff.rfl

@[simp]
theorem wp_rcrSet : wp has (rcrSet v) Q ↔ Q () has :=
  Iff.rfl

@[simp]
theorem wp_rcrClear : wp has (rcrClear v) Q ↔ Q () has :=
  Iff.rfl

theorem wp_onlyIf_regs {c : Bool} {p : LockProg Dev Unit} (hp : wp has p Q ↔ Q () has)
    (h : Q () has) : wp has (onlyIf c p) Q :=
  wp_onlyIf (hp.mpr h) h

end

theorem wp_getRtcTime {ltm : RtcTime} {Q : RtcTime → Bool → Prop} (h : ∀ out, Q out false) :
    wp false (getRtcTime ltm tm) Q := by
  unfold getRtcTime
  simp only [wp_bind, wp_takeLock, wp_rtcWriteReady, wp_read, wp_dropLock, wp_pure, true_and]
  exact fun d => h _

theorem wp_setRtcTime {Q : Int → Bool → Prop} (h : Q 0 false) : wp false (setRtcTime tm) Q := by
  unfold setRtcTime
  simp only [wp_bind, wp_takeLock, wp_rtcWriteReady, wp_changeRegs, wp_dropLock, wp_pure, true_and]
  exact h

theorem wp_getRtcAlmTime {Q : RtcTime → Bool → Prop} (h : ∀ out, Q out false) :
    wp false (getRtcAlmTime altm tm) Q := by
  unfold getRtcAlmTime
  simp only [wp_bind, wp_takeLock, wp_rtcWriteReady, wp_read, wp_dropLock, wp_pure, true_and]
  exact fun d => h _

theorem wp_setRtcAlmTime {Q : Int → Bool → Prop} (h : Q 0 false) :
    wp false (setRtcAlmTime tm) Q := by
  unfold setRtcAlmTime
  simp only [wp_bind, wp_takeLock, wp_rtcWriteReady, wp_changeRegs, wp_read, wp_dropLock, wp_pure,
    true_and]
  intro d
  refine wp_onlyIf_regs (by simp) fun d => ?_
  exact wp_onlyIf_regs Iff.rfl ⟨rfl, h⟩

theorem wp_getRtcWakeupAlarm {Q : RtcWkalrm → Bool → Prop} (h : ∀ out, Q out false) :
    wp false (getRtcWakeupAlarm altm w) Q := by
  unfold getRtcWakeupAlarm
  rw [wp_bind]
  refine wp_getRtcAlmTime fun time => ?_
  simp only [wp_bind, wp_takeLock, wp_rtcWriteReady, wp_read, wp_dropLock, wp_pure, true_and]
  exact fun d => h _

theorem wp_setRtcWakeupAlarm {Q : Int → Bool → Prop} (h : Q 0 false) :
    wp false (setRtcWakeupAlarm w) Q := by
  unfold setRtcWakeupAlarm
  simp only [wp_bind, wp_rtcWriteReady, wp_read]
  intro d
  refine wp_onlyIf_regs (by simp) fun d => ?_
  refine wp_onlyIf_regs (by simp) ?_
  split
  · exact h
  · simp only [wp_bind, wp_rtcWriteReady, wp_read]
    exact fun d => wp_onlyIf_regs Iff.rfl (wp_setRtcAlmTime h)

theorem wp_changeIrqBit {change : LockProg Dev Unit}
    (hchange : ∀ {has : Bool} {Q : Unit → Bool → Prop}, wp has change Q ↔ Q () has)
    (h : Q () false) : wp false (changeIrqBit change) Q := by
  unfold changeIrqBit
  simp only [wp_bind, wp_takeLock, wp_rtcWriteReady, wp_dropLock, true_and, hchange]
  exact h

theorem wp_setRtcIrqBit {bit : Nat} (h : Q () false) :
    wp false (setRtcIrqBit bit) Q := wp_changeIrqBit wp_rcrSet h

theorem wp_maskRtcIrqBit {bit : Nat} (h : Q () false) :
    wp false (maskRtcIrqBit bit) Q := wp_changeIrqBit wp_rcrClear h

/-! ### The calls -/

/-- What holds at the end of a call. -/
abbrev Ends (r : Reply) (has : Bool) : Prop := has = leaves r

/-- What holds at the end of the calls other than `rtc_open`. -/
abbrev EndsFree (r : Reply) (has : Bool) : Prop := has = false ∧ leaves r = false

theorem ends_copyToUser (ok : Bool) (copied : Copied) : EndsFree (copyToUser ok copied) false := by
  cases ok <;> exact ⟨rfl, rfl⟩

theorem rtcIoctl_wp (stack : Stack) (cmd : Cmd) : wp false (rtcIoctl stack cmd) EndsFree := by
  cases cmd with
  | aieOff => exact (wp_bind _ _).mpr (wp_maskRtcIrqBit ⟨rfl, rfl⟩)
  | aieOn =>
    rw [rtcIoctl, wp_bind, wp_rcrClear, wp_bind]
    exact wp_setRtcIrqBit ⟨rfl, rfl⟩
  | hzOff => exact (wp_bind _ _).mpr (wp_maskRtcIrqBit ⟨rfl, rfl⟩)
  | hzOn =>
    rw [rtcIoctl, wp_bind, wp_rcrClear, wp_bind]
    exact wp_setRtcIrqBit ⟨rfl, rfl⟩
  | almOff => exact (wp_bind _ _).mpr (wp_maskRtcIrqBit ⟨rfl, rfl⟩)
  | almOn => exact (wp_bind _ _).mpr (wp_setRtcIrqBit ⟨rfl, rfl⟩)
  | disabled => exact (wp_bind _ _).mpr (wp_maskRtcIrqBit ⟨rfl, rfl⟩)
  | enabled => exact (wp_bind _ _).mpr (wp_setRtcIrqBit ⟨rfl, rfl⟩)
  | almRead ok => exact (wp_bind _ _).mpr (wp_getRtcAlmTime fun out => ends_copyToUser ok _)
  | almSet tm =>
    cases tm with
    | none => exact ⟨rfl, rfl⟩
    | some tm =>
      rw [rtcIoctl]
      split
      · exact (wp_bind _ _).mpr (wp_setRtcAlmTime ⟨rfl, rfl⟩)
      · exact ⟨rfl, rfl⟩
  | rdTime ok => exact (wp_bind _ _).mpr (wp_getRtcTime fun out => ends_copyToUser ok _)
  | setTime capable tm =>
    cases capable with
    | false => exact ⟨rfl, rfl⟩
    | true =>
      cases tm with
      | none => exact ⟨rfl, rfl⟩
      | some tm =>
        rw [rtcIoctl]
        split
        · exact (wp_bind _ _).mpr (wp_setRtcTime ⟨rfl, rfl⟩)
        · exact ⟨rfl, rfl⟩
  | epochRead ok => exact fun d => ends_copyToUser ok _
  | epochSet capable arg =>
    rw [rtcIoctl]
    split
    · exact ⟨rfl, rfl⟩
    · split <;> exact ⟨rfl, rfl⟩
  | wkalmSet w =>
    cases w with
    | none => exact ⟨rfl, rfl⟩
    | some w => exact (wp_bind _ _).mpr (wp_setRtcWakeupAlarm ⟨rfl, rfl⟩)
  | wkalmRd ok => exact (wp_bind _ _).mpr (wp_getRtcWakeupAlarm fun out => ends_copyToUser ok _)
  | powerDown => exact ⟨rfl, rfl⟩
  | other => exact ⟨rfl, rfl⟩

/-- The refused open ends with the lock, the other way gives it back. -/
theorem rtcOpen_wp : wp false rtcOpen Ends := by
  unfold rtcOpen rtcOpenLocked
  rw [wp_bind, wp_takeLock, wp_bind, wp_read]
  refine ⟨rfl, fun d => ?_⟩
  split
  · exact rfl
  · exact ⟨rfl, rfl⟩

theorem rtcRelease_wp : wp false rtcRelease EndsFree := ⟨rfl, rfl⟩

theorem jzRtcInterrupt_wp : wp false jzRtcInterrupt EndsFree := by
  unfold jzRtcInterrupt
  simp only [wp_bind, wp_takeLock, wp_changeRegs, wp_read, wp_dropLock, wp_pure, true_and]
  intro d
  refine wp_onlyIf_regs (by simp) fun d => ?_
  exact wp_onlyIf_regs (by simp) ⟨rfl, rfl, rfl⟩

theorem Call.prog_free {c : Call} (h : c ≠ .rtcOpen) : wp false c.prog EndsFree := by
  cases c with
  | rtcOpen => exact absurd rfl h
  | rtcIoctl stack cmd => exact rtcIoctl_wp stack cmd
  | rtcRelease => exact rtcRelease_wp
  | interrupt => exact jzRtcInterrupt_wp

theorem Call.prog_wp (c : Call) : wp false c.prog Ends := by
  by_cases h : c = .rtcOpen
  · subst h
    exact rtcOpen_wp
  · exact wp_mono (fun r has hend => hend.1.trans hend.2.symm) (Call.prog_free h)

theorem Event.action_proper (e : Event) : LockMachine.Proper leaves e.action := by
  intro p hp
  cases e with
  | call c =>
    obtain rfl := LockAction.begin.inj hp
    exact c.prog_wp
  | step i => cases hp
  | hardware regs => cases hp

theorem actions_proper (events : List Event) :
    ∀ a ∈ events.map Event.action, LockMachine.Proper leaves a := by
  intro a ha
  obtain ⟨e, -, rfl⟩ := List.mem_map.mp ha
  exact e.action_proper

theorem start_sound (regs : Regs) : (start regs).Sound leaves where
  calls := fun i p h => by cases h
  fresh := fun i _ => rfl
  holder := fun i h => by cases h
  irqs := rfl
  left := ⟨fun ⟨i, h, _⟩ => (by cases h), fun ⟨a, h, _⟩ => (by cases h)⟩

/-! ### Whole runs -/

/-- The driver after a sequence of events. -/
def run (regs : Regs) (events : List Event) : LockMachine Dev Reply :=
  (events.map Event.action).foldl LockMachine.act (start regs)

/-- No call returned `-EBUSY`. -/
def NoneRefused (m : LockMachine Dev Reply) : Prop := ∀ r ∈ m.results, leaves r = false

/-- An `rtc_open` that looks at the status finds the device closed. -/
def FindsClosed (m : LockMachine Dev Reply) (a : LockAction Dev Reply) : Prop :=
  ∀ i, a = .step i → m.calls i = some rtcOpenLocked → m.data.status = 0

/-- What is left of a call: an open before its look at the status, or something that does not
return `-EBUSY`. -/
def Welcome (p : LockProg Dev Reply) : Prop :=
  p = rtcOpen ∨ p = rtcOpenLocked ∨ p.Returns (leaves · = false)

/-- No call was refused, and none will be but at its look at the status. -/
structure Open (m : LockMachine Dev Reply) : Prop where
  results : NoneRefused m
  calls : ∀ i p, m.calls i = some p → Welcome p

theorem Open.setCall {m : LockMachine Dev Reply} (h : Open m) {i : Nat} {q : LockProg Dev Reply}
    (hq : Welcome q) : Open (m.setCall i (some q)) where
  results := h.results
  calls := fun j p hj => by
    rcases LockMachine.setCall_cases hj with ⟨-, hp⟩ | ⟨-, hp⟩
    · exact Option.some.inj hp ▸ hq
    · exact h.calls j p hp

theorem Open.stepCall {m : LockMachine Dev Reply} (h : Open m) {i : Nat} {p : LockProg Dev Reply}
    (hp : m.calls i = some p) (hclosed : p = rtcOpenLocked → m.data.status = 0) :
    Open (m.stepCall i p) := by
  rcases h.calls i p hp with rfl | rfl | hreturns
  · show Open (if m.holder = none then _ else _)
    split
    · exact ⟨h.results, (h.setCall (Or.inr (Or.inl rfl))).calls⟩
    · exact h
  · refine h.setCall (Or.inr (Or.inr ?_))
    show LockProg.Returns _ (if m.data.status ≠ 0 then _ else _)
    rw [if_neg (not_not.mpr (hclosed rfl))]
    exact rfl
  · cases p with
    | ret a =>
      refine ⟨fun r hr => ?_, fun j q hj => ?_⟩
      · rcases List.mem_cons.mp hr with rfl | hold
        · exact hreturns
        · exact h.results r hold
      · rcases LockMachine.setCall_cases hj with ⟨-, hq⟩ | ⟨-, hq⟩
        · cases hq
        · exact h.calls j q hq
    | lock k | await q k =>
      rw [LockMachine.stepCall]
      split
      · exact ⟨h.results, (h.setCall (q := k) (Or.inr (Or.inr hreturns))).calls⟩
      · exact h
    | unlock k | put f k =>
      exact ⟨h.results, (h.setCall (q := k) (Or.inr (Or.inr hreturns))).calls⟩
    | get k => exact h.setCall (Or.inr (Or.inr (hreturns m.data)))

theorem Open.act {m : LockMachine Dev Reply} (h : Open m) (e : Event)
    (hclosed : FindsClosed m e.action) : Open (m.act e.action) := by
  cases e with
  | call c =>
    refine ⟨h.results, (h.setCall ?_).calls⟩
    by_cases hc : c = .rtcOpen
    · subst hc
      exact Or.inl rfl
    · exact Or.inr (Or.inr (Returns.of_wp (fun r has hend => hend.2) (Call.prog_free hc)))
  | step i =>
    show Open ((m.calls i).elim m (m.stepCall i))
    cases hp : m.calls i with
    | none => exact h
    | some p => exact h.stepCall hp fun heq => hclosed i rfl (heq ▸ hp)
  | hardware regs => exact ⟨h.results, h.calls⟩

theorem noneRefused_of_closed (regs : Regs) (events : List Event)
    (h : EachStep LockMachine.act FindsClosed (start regs) (events.map Event.action)) :
    NoneRefused (run regs events) := by
  have hstart : Open (start regs) := ⟨fun r hr => (by cases hr), fun i p hp => (by cases hp)⟩
  suffices hopen : ∀ (events : List Event) {m : LockMachine Dev Reply}, Open m →
      EachStep LockMachine.act FindsClosed m (events.map Event.action) →
      Open ((events.map Event.action).foldl LockMachine.act m) from (hopen events hstart h).results
  intro events
  induction events with
  | nil => exact fun hm _ => hm
  | cons e events ih =>
    intro m hm h
    rw [List.map_cons, eachStep_cons] at h
    exact ih (hm.act e h.1) h.2

theorem closed_of_noneRefused (regs : Regs) (events : List Event)
    (hquiet : (run regs events).Quiet) (hnone : NoneRefused (run regs events)) :
    EachStep LockMachine.act FindsClosed (start regs) (events.map Event.action) := by
  rintro pre a post hsplit i rfl hi
  by_contra hstatus
  have hproper := actions_proper events
  rw [hsplit] at hproper
  have hsound : (pre.foldl LockMachine.act (start regs)).Sound leaves :=
    (start_sound regs).run fun b hb => hproper b (by simp [hb])
  have hstep : ((pre.foldl LockMachine.act (start regs)).act (.step i)).calls i
      = some (.ret (reply (-EBUSY))) := by
    rw [LockMachine.act, hi]
    refine (LockMachine.setCall_self _ i _).trans (congrArg some ?_)
    exact if_pos hstatus
  have hrun : run regs events
      = post.foldl LockMachine.act ((pre.foldl LockMachine.act (start regs)).act (.step i)) := by
    unfold run
    rw [hsplit, List.foldl_append]
    rfl
  rw [hrun] at hquiet hnone
  have hbusy := (hsound.act (hproper (.step i) (by simp))).returned_of_quiet post
    (fun b hb => hproper b (by simp [hb])) hstep hquiet
  exact absurd (hnone _ hbusy) (by decide)

/-- **The lock discipline holds if every open finds the device closed**, for every sequence of
calls, interrupts and their steps, **and of the sequences after which no call is running, for no
others**. -/
theorem rtc_lock_discipline (regs : Regs) (events : List Event) :
    (EachStep LockMachine.act FindsClosed (start regs) (events.map Event.action) →
      LockMachine.Discipline (start regs) (events.map Event.action)) ∧
    ((run regs events).Quiet →
      (LockMachine.Discipline (start regs) (events.map Event.action) ↔
        EachStep LockMachine.act FindsClosed (start regs) (events.map Event.action))) := by
  have hproper := actions_proper events
  have hkeeps : EachStep LockMachine.act FindsClosed (start regs) (events.map Event.action) →
      LockMachine.Discipline (start regs) (events.map Event.action) := fun hclosed =>
    (start_sound regs).discipline hproper (noneRefused_of_closed regs events hclosed)
  refine ⟨hkeeps, fun hquiet => ⟨fun hdiscipline => ?_, hkeeps⟩⟩
  refine closed_of_noneRefused regs events hquiet fun r hr => ?_
  by_contra hleaves
  exact (start_sound regs).not_discipline hproper hquiet hr (by simpa using hleaves) hdiscipline

/-- The device is opened, and opened again. -/
def openTwice : List Event :=
  [.call .rtcOpen, .step 0, .step 0, .step 0, .step 0, .step 0,
   .call .rtcOpen, .step 1, .step 1, .step 1]

/-- The second open is refused with the lock held and interrupts off, and no call is running.  An
interrupt that comes then tries to take the lock. -/
theorem openTwice_locked :
    (run ⟨0, 0, 0, 0, 0⟩ openTwice).Quiet ∧
    (run ⟨0, 0, 0, 0, 0⟩ openTwice).holder = some 1 ∧
    (run ⟨0, 0, 0, 0, 0⟩ openTwice).irqs = false ∧
    (run ⟨0, 0, 0, 0, 0⟩ openTwice).results = [reply (-16), reply 0] ∧
    (run ⟨0, 0, 0, 0, 0⟩ (openTwice ++ [.call .interrupt, .step 2])).HeldByFinished ∧
    (run ⟨0, 0, 0, 0, 0⟩ (openTwice ++ [.call .interrupt, .step 2])).TriesLock (.step 2) ∧
    ¬ LockMachine.Discipline (start ⟨0, 0, 0, 0, 0⟩) (openTwice.map Event.action) := by
  have hquiet : (run ⟨0, 0, 0, 0, 0⟩ openTwice).Quiet := by
    intro i
    by_cases h0 : i = 0
    · rw [h0]
      rfl
    by_cases h1 : i = 1
    · rw [h1]
      rfl
    have hsound : (run ⟨0, 0, 0, 0, 0⟩ openTwice).Sound leaves :=
      (start_sound _).run (actions_proper openTwice)
    have hnext : (run ⟨0, 0, 0, 0, 0⟩ openTwice).next = 2 := rfl
    exact hsound.fresh i (by omega)
  refine ⟨hquiet, rfl, rfl, rfl, ⟨1, rfl, rfl⟩, ⟨2, _, rfl, rfl⟩, fun hdiscipline => ?_⟩
  have hfree := (hdiscipline.1 _ (List.prefix_refl _) hquiet).1
  change (run ⟨0, 0, 0, 0, 0⟩ openTwice).holder = none at hfree
  cases hfree

end Dingoo.Rtc
