/-
The wake-up that a blocking write may miss.

The writer looks at the empty queue and then calls `sleep_on`; the interrupt wakes
who sleeps when it comes.  A writer that sleeps is safe as long as a transfer is in
flight, for its interrupt is still to come.  Between the look and the sleep the
interrupts go on, each of them gives one fragment back and starts the next, and none
of them finds anyone asleep.  If they give back all the fragments there are, then
nothing is in flight any more, and the writer goes to sleep for good beside a full
house of empty fragments.
-/
import Dingoo.Proofs.JzI2s
import Dingoo.Lib.Runs

namespace Dingoo.JzI2s

open Dingoo.Lib

variable {cfg : Config} {s : State}

/-- Asleep, and no interrupt will come. -/
def Stuck (s : State) : Prop := (∃ c, s.pc = .sleeping c) ∧ s.outBusy.toList = []

/-- Between the look at the empty queue and the sleep. -/
def Pc.aboutToSleep : Pc → Bool
  | .sleepOn _ => true
  | _ => false

theorem Pc.aboutToSleep_iff {p : Pc} : p.aboutToSleep = true ↔ ∃ c, p = .sleepOn c := by
  cases p <;> simp [Pc.aboutToSleep]

/-- When the writer goes to sleep, not all fragments have become empty since it looked. -/
def SleepsInTime (cfg : Config) (s : State) (a : Act) : Prop :=
  a = .writer → s.pc.aboutToSleep = true → elementsInQueue s.outEmpty < cfg.fragstotal

instance (cfg : Config) (s : State) (a : Act) : Decidable (SleepsInTime cfg s a) := by
  unfold SleepsInTime
  infer_instance

/-- Before the sleep nothing is busy exactly if every fragment is empty again. -/
theorem Inv.busy_nil_iff (h : Inv cfg s) {c : Call} (hpc : s.pc = .sleepOn c) :
    s.outBusy.toList = [] ↔ ¬ elementsInQueue s.outEmpty < cfg.fragstotal := by
  have hlen : s.outEmpty.count + s.outFull.toList.length + s.outBusy.toList.length
      = cfg.fragstotal := by
    have hperm := h.ids.length_eq
    simpa [hpc, fragmentIds, Nat.add_assoc] using hperm
  have hfull : s.outBusy.toList = [] → s.outFull.toList = [] := by
    intro hbusy
    by_contra hne
    have hf := h.noStall (by simp [hpc]) hne
    exact (h.inFlight_iff_busy (by simp [hpc])).mp hf hbusy
  unfold elementsInQueue
  constructor
  · intro hbusy
    rw [hfull hbusy, hbusy] at hlen
    simp at hlen
    omega
  · intro hall
    exact List.length_eq_zero_iff.mp (by omega)

theorem writerStep_sleeping {c : Call} (h : (writerStep cfg s).pc = .sleeping c) :
    s.pc = .sleepOn c ∨ s.pc = .sleeping c ∧ writerStep cfg s = s := by
  cases hpc : s.pc with
  | sleepOn c' =>
    simp only [writerStep, hpc, Pc.sleeping.injEq] at h
    exact Or.inl (by rw [h])
  | sleeping c' =>
    have hsame : writerStep cfg s = s := by simp only [writerStep, hpc]
    rw [hsame, hpc] at h
    exact Or.inr ⟨h, hsame⟩
  | _ =>
    simp only [writerStep, hpc] at h
    repeat' split at h
    all_goals simp_all

theorem Pc.woken_ne_sleeping (p : Pc) (c : Call) : p.woken ≠ .sleeping c := by
  cases p <;> simp [Pc.woken]

theorem not_stuck_step (h : Inv cfg s) (hs : ¬ Stuck s) {a : Act}
    (ha : SleepsInTime cfg s a) : ¬ Stuck (step cfg s a) := by
  cases a with
  | write count nonblock fault =>
    simp only [step]
    split
    · rename_i hidle
      obtain ⟨n, pc, heq, hnext⟩ := jzAudioWrite_eq cfg hidle count nonblock fault
      rw [heq]
      rintro ⟨⟨c, rfl⟩, -⟩
      rcases hnext with hnext | ⟨c', hnext⟩
      · cases hnext
      · cases hnext
    · exact hs
  | irq =>
    simp only [step]
    split
    · rename_i hf
      rintro ⟨⟨c, hpc⟩, -⟩
      obtain ⟨id, hb⟩ := h.busy_of_inFlight hf
      rw [(finished_irq h hb).pc] at hpc
      exact Pc.woken_ne_sleeping _ c hpc
    · exact hs
  | writer =>
    rintro ⟨⟨c, hpc⟩, hbusy⟩
    rcases writerStep_sleeping hpc with hon | ⟨hasleep, hsame⟩
    · have hkept : (step cfg s .writer).outBusy = s.outBusy := by simp [step, writerStep, hon]
      rw [hkept] at hbusy
      exact (h.busy_nil_iff hon).mp hbusy (ha rfl (Pc.aboutToSleep_iff.mpr ⟨c, hon⟩))
    · refine hs ⟨⟨c, hasleep⟩, ?_⟩
      rwa [step, hsame] at hbusy

/-- **A blocking write never sleeps without a transfer in flight exactly in the runs where it
always goes to sleep before all the fragments have come back.** -/
theorem never_stuck_iff (cfg : Config) (s : State) (hpc : s.pc = .idle) (hf : s.inFlight = false)
    (acts : List Act) :
    (∀ pre post, acts = pre ++ post → ¬ Stuck (run cfg (jzAudioOpen cfg s) pre)) ↔
      EachStep (step cfg) (SleepsInTime cfg) (jzAudioOpen cfg s) acts := by
  constructor
  · rintro h pre a post rfl rfl habout
    obtain ⟨c, hon⟩ := Pc.aboutToSleep_iff.mp habout
    have hinv := inv_run pre (inv_open cfg hpc hf)
    by_contra hlate
    refine h (pre ++ [.writer]) post (by simp) ?_
    have hstep : run cfg (jzAudioOpen cfg s) (pre ++ [.writer])
        = { run cfg (jzAudioOpen cfg s) pre with pc := .sleeping c } := by
      unfold run
      rw [List.foldl_append, List.foldl_cons, List.foldl_nil, step, writerStep, hon]
    rw [hstep]
    exact ⟨⟨c, rfl⟩, (hinv.busy_nil_iff hon).mpr hlate⟩
  · rintro h pre post rfl
    have hpre := ((eachStep_append _).mp h).1
    have hawake : ¬ Stuck (jzAudioOpen cfg s) := by
      rintro ⟨⟨c, hasleep⟩, -⟩
      rw [jzAudioOpen, hpc] at hasleep
      cases hasleep
    refine (hpre.invariant (fun t => Inv cfg t ∧ ¬ Stuck t) ?_ pre
      ⟨inv_open cfg hpc hf, hawake⟩).2
    rintro t a ⟨hinv, hnot⟩ ha
    exact ⟨inv_step hinv a, not_stuck_step hinv hnot ha⟩

/-- Two writes of one frame each take both fragments. -/
def bothTaken : List Act :=
  .write 2 false false :: List.replicate 12 .writer ++
    .write 2 false false :: List.replicate 8 .writer

/-- The writer of a third frame sleeps until the first fragment has been played. -/
def sleptInTime : List Act :=
  bothTaken ++ .write 2 false false :: List.replicate 3 .writer ++ [.irq]

/-- Both transfers end after it has looked and before it sleeps. -/
def sleptTooLate : List Act :=
  bothTaken ++ .write 2 false false :: List.replicate 2 .writer ++ [.irq, .irq, .writer]

theorem never_stuck_inTime :
    (run twoFragments (jzAudioOpen twoFragments untouched) sleptInTime).pc
        = .getEmpty ⟨2, false, 0, 2, 2⟩ ∧
      ∀ pre post, sleptInTime = pre ++ post →
        ¬ Stuck (run twoFragments (jzAudioOpen twoFragments untouched) pre) :=
  ⟨by decide, (never_stuck_iff twoFragments untouched rfl rfl sleptInTime).mpr (by decide)⟩

theorem stuck_sleptTooLate :
    Stuck (run twoFragments (jzAudioOpen twoFragments untouched) sleptTooLate) := by
  refine ⟨⟨⟨2, false, 0, 2, 8192⟩, ?_⟩, ?_⟩
  · decide
  · decide

end Dingoo.JzI2s
