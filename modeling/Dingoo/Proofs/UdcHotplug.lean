/-
Which device the cable monitor has registered.

The thread decides what to register and deregister from the four status words, and the
long timer changes one of them behind its back.  What ties them together is `Waiting`,
which holds whenever the thread is in its outer wait or samples the pin: without a cable
nothing is registered, with one it is `cable_dev` or `power_dev` as `old_protl_stat` says.
The timer can only clear `protl_stat`, and only while `old_protl_stat` is set; having done
so it is no longer armed.  So an expiry keeps `Waiting`, and the thread finds the new and
the old protocol different exactly when a registered `cable_dev` is to be replaced.
-/
import Dingoo.Lib.Runs
import Dingoo.Linux.UdcHotplug

namespace Dingoo.UdcHotplug

open Dingoo.Lib

variable {s : State}

/-! ### The misc layer -/

/-- No call registers a registered device or deregisters another. -/
def Orderly (calls : List MiscCall) : Prop :=
  EachStep miscStep MiscLegal (fun _ => false) calls

theorem registeredBy_concat (calls : List MiscCall) (c : MiscCall) :
    registeredBy (calls ++ [c]) = miscStep (registeredBy calls) c := by
  simp [registeredBy]

theorem orderly_concat {calls : List MiscCall} {c : MiscCall} :
    Orderly (calls ++ [c]) ↔ Orderly calls ∧ MiscLegal (registeredBy calls) c :=
  eachStep_concat calls

/-! ### The thread between two detections -/

/-- The device that stands for a cable of this protocol. -/
def devOf (protl : Bool) : Dev := if protl then .cable else .power

/-- What holds while the thread waits or samples the pin. -/
structure Waiting (s : State) : Prop where
  orderly : Orderly s.calls
  /-- what is registered -/
  devices : ∀ d, s.registered d = (s.cableStat && decide (d = devOf s.oldProtlStat))
  /-- without a cable the protocol is clear -/
  unplugged : s.cableStat = false → s.protlStat = false ∧ s.oldProtlStat = false
  /-- the timer watches a registered `cable_dev` -/
  watched : s.armed = true → s.protlStat = true ∧ s.oldProtlStat = true
  /-- only the timer makes the new and the old protocol differ -/
  suspended : s.protlStat = true → s.oldProtlStat = true

theorem waiting_init : Waiting {} := by
  refine ⟨eachStep_nil _, fun d => rfl, fun _ => ⟨rfl, rfl⟩, fun h => ?_, fun h => ?_⟩
  · exact absurd h (by decide)
  · exact absurd h (by decide)

theorem longTimer_cases (s : State) (active : Bool) :
    udcLongTimerRoutine s active = s ∨
    (s.armed = true ∧ (udcLongTimerRoutine s active
        = { s with udcOldState := false, protlStat := false, armed := false } ∨
      ∃ old, udcLongTimerRoutine s active = { s with udcOldState := old, armed := true })) := by
  unfold udcLongTimerRoutine
  by_cases harmed : s.armed = true
  · rw [if_pos harmed]
    by_cases hquiet : (!active && (if active then true else s.udcOldState)) = true
    · exact .inr ⟨harmed, .inl (if_pos hquiet)⟩
    · exact .inr ⟨harmed, .inr ⟨if active then true else s.udcOldState, if_neg hquiet⟩⟩
  · exact .inl (if_neg harmed)

/-- **An expiry of the long timer keeps what holds in a wait, and the cable's state.** -/
theorem waiting_longTimer (h : Waiting s) (active : Bool) :
    Waiting (udcLongTimerRoutine s active) ∧
      (udcLongTimerRoutine s active).cableStat = s.cableStat := by
  rcases longTimer_cases s active with heq | ⟨harmed, heq | ⟨old, heq⟩⟩
  · rw [heq]
    exact ⟨h, rfl⟩
  · obtain ⟨-, hold⟩ := h.watched harmed
    rw [heq]
    refine ⟨⟨h.orderly, h.devices, fun hc => ?_, fun ha => ?_, fun hp => ?_⟩, rfl⟩
    · -- an armed timer belongs to a plugged cable
      rw [(h.unplugged hc).2] at hold
      exact absurd hold (by decide)
    · exact absurd ha Bool.false_ne_true
    · exact absurd hp Bool.false_ne_true
  · rw [heq]
    exact ⟨⟨h.orderly, h.devices, h.unplugged, fun _ => h.watched harmed, h.suspended⟩, rfl⟩

theorem waiting_longTimers : ∀ (l : List Bool) {s : State}, Waiting s →
    Waiting (l.foldl udcLongTimerRoutine s) ∧
      (l.foldl udcLongTimerRoutine s).cableStat = s.cableStat := by
  intro l
  induction l with
  | nil => intro s h; exact ⟨h, rfl⟩
  | cons active l ih =>
    intro s h
    obtain ⟨hnext, hsame⟩ := waiting_longTimer h active
    obtain ⟨hrest, hcable⟩ := ih hnext
    exact ⟨hrest, hcable.trans hsame⟩

/-- **So does the sampling of the pin.** -/
theorem waiting_debounce : ∀ (sleeps : List Sleep) {time : Nat} {level : Bool} {s s' : State},
    Waiting s → debounce time level sleeps s = some s' →
    Waiting s' ∧ s'.cableStat = s.cableStat := by
  intro sleeps
  induction sleeps with
  | nil => intro time level s s' _ h; exact absurd h (by simp [debounce])
  | cons x sleeps ih =>
    intro time level s s' hs h
    obtain ⟨hwait, hcable⟩ := waiting_longTimers x.expiries hs
    rw [debounce] at h
    by_cases htime : (if (x.pin != level) = true then 1 else time) + 1 > maxGpioTime
    · rw [if_pos htime] at h
      cases h
      exact ⟨hwait, hcable⟩
    · rw [if_neg htime] at h
      obtain ⟨hrest, hsame⟩ := ih hwait h
      exact ⟨hrest, hsame.trans hcable⟩

/-! ### The detection -/

/-- What holds when the thread returns to its outer wait: no change is left to be seen. -/
structure Returned (s : State) : Prop extends Waiting s where
  settled : s.protlStat = s.oldProtlStat

theorem registered_register (s : State) (d e : Dev) :
    (miscRegister d s).registered e = if e = d then true else s.registered e := by
  rw [State.registered, miscRegister, registeredBy_concat]
  rfl

theorem registered_deregister (s : State) (d e : Dev) :
    (miscDeregister d s).registered e = if e = d then false else s.registered e := by
  rw [State.registered, miscDeregister, registeredBy_concat]
  rfl

theorem orderly_register {d : Dev} (h : Orderly s.calls) (hd : s.registered d = false) :
    Orderly (miscRegister d s).calls :=
  orderly_concat.mpr ⟨h, hd⟩

theorem orderly_deregister {d : Dev} (h : Orderly s.calls) (hd : s.registered d = true) :
    Orderly (miscDeregister d s).calls :=
  orderly_concat.mpr ⟨h, hd⟩

theorem Waiting.idle (h : Waiting s) (hold : s.oldProtlStat = false) : s.armed = false := by
  cases ha : s.armed with
  | false => rfl
  | true => exact absurd ((h.watched ha).2.symm.trans hold) (by decide)

theorem returned_out (h : Waiting s) (hcable : s.cableStat = true) :
    Returned (copyStat (sendEventUdev (if s.oldProtlStat then .usbRemove else .powerRemove)
      { s with cableStat := false, protlStat := false })) := by
  have hdev : ∀ d, s.registered d = decide (d = devOf s.oldProtlStat) := by
    intro d
    rw [h.devices d, hcable, Bool.true_and]
  have hgone : ∀ d, (miscDeregister (devOf s.oldProtlStat) s).registered d = false := by
    intro d
    rw [registered_deregister, hdev d]
    split <;> simp_all
  have horderly := orderly_deregister (d := devOf s.oldProtlStat) h.orderly (by simp [hdev])
  cases hold : s.oldProtlStat with
  | true =>
    rw [hold] at hgone horderly
    exact ⟨⟨horderly, hgone, fun _ => ⟨rfl, rfl⟩, fun ha => absurd ha Bool.false_ne_true,
      fun hp => absurd hp Bool.false_ne_true⟩, rfl⟩
  | false =>
    rw [hold] at hgone horderly
    exact ⟨⟨horderly, hgone, fun _ => ⟨rfl, rfl⟩,
      fun ha => absurd ((h.idle hold).symm.trans ha) Bool.false_ne_true,
      fun hp => absurd hp Bool.false_ne_true⟩, rfl⟩

theorem returned_suspend (h : Waiting s) (hcable : s.cableStat = true)
    (hdiff : s.oldProtlStat ≠ s.protlStat) :
    Returned (copyStat (sendEventUdev .usbSuspendPower s)) := by
  -- the timer cleared the new protocol, the old one is still USB
  have hprotl : s.protlStat = false := by
    cases hp : s.protlStat with
    | false => rfl
    | true => exact absurd ((h.suspended hp).trans hp.symm) hdiff
  have hold : s.oldProtlStat = true := by
    cases ho : s.oldProtlStat with
    | true => rfl
    | false => exact absurd (ho.trans hprotl.symm) hdiff
  have hdev : ∀ d, s.registered d = decide (d = Dev.cable) := by
    intro d
    rw [h.devices d, hcable, hold]
    rfl
  have hfree : (miscDeregister .cable s).registered .power = false := by
    rw [registered_deregister, hdev]
    rfl
  refine ⟨⟨orderly_register (orderly_deregister h.orderly (hdev .cable)) hfree, fun d => ?_,
    fun hc => absurd (hcable.symm.trans hc) (by decide), fun ha => ?_, fun hp => hp⟩, rfl⟩
  · show (miscRegister .power (miscDeregister .cable s)).registered d
      = (s.cableStat && decide (d = devOf s.protlStat))
    rw [registered_register, registered_deregister, hdev d, hcable, hprotl]
    cases d <;> rfl
  · exact absurd ((h.watched ha).1.symm.trans hprotl) (by decide)

theorem returned_in (h : Waiting s) (hcable : s.cableStat = false) (usb : Bool) :
    Returned (copyStat (sendEventUdev (if usb then .usbAdd else .powerAdd)
      (udcGetCable usb { s with cableStat := true }))) := by
  have hdev : ∀ d, s.registered d = false := by
    intro d
    rw [h.devices d, hcable, Bool.false_and]
  have hnew : ∀ d, (miscRegister (devOf usb) s).registered d = decide (d = devOf usb) := by
    intro d
    rw [registered_register, hdev d]
    split <;> simp_all
  have hidle := h.idle (h.unplugged hcable).2
  cases usb with
  | true =>
    exact ⟨⟨orderly_register h.orderly (hdev .cable), hnew,
      fun hc => absurd hc.symm Bool.false_ne_true, fun _ => ⟨rfl, rfl⟩, fun hp => hp⟩, rfl⟩
  | false =>
    exact ⟨⟨orderly_register h.orderly (hdev .power), hnew,
      fun hc => absurd hc.symm Bool.false_ne_true,
      fun ha => absurd (hidle.symm.trans ha) Bool.false_ne_true, fun hp => hp⟩, rfl⟩

/-- **One turn of the thread: whatever the timer and the pin do, the devices agree with the
status words when it waits again.** -/
theorem returned_thread {s' : State} {w : Wake} (h : Returned s)
    (hrun : udcPnpThread s w = some s') : Returned s' := by
  obtain ⟨hidle, -⟩ := waiting_longTimers w.idle h.toWaiting
  unfold udcPnpThread udcPnpDetect udcGetPnpStat detected at hrun
  generalize w.idle.foldl udcLongTimerRoutine s = t at hidle hrun
  cases hloop : debounce 1 w.first w.sleeps t with
  | none => simp [hloop] at hrun
  | some u =>
    obtain ⟨hwait, hsame⟩ := waiting_debounce w.sleeps hidle hloop
    rw [hloop, Option.map_some, Option.map_some, Option.some.injEq] at hrun
    dsimp only at hrun
    cases hcable : t.cableStat with
    | true =>
      rw [if_pos hcable] at hrun
      rw [hcable] at hsame
      by_cases hlevel : w.last = false
      · rw [if_pos hlevel] at hrun
        rw [← hrun]
        exact returned_out hwait hsame
      · rw [if_neg hlevel] at hrun
        by_cases hdiff : u.oldProtlStat ≠ u.protlStat
        · rw [if_pos hdiff] at hrun
          rw [← hrun]
          exact returned_suspend hwait hsame hdiff
        · rw [if_neg hdiff] at hrun
          rw [← hrun]
          exact ⟨hwait, (not_not.mp hdiff).symm⟩
    | false =>
      rw [if_neg (by rw [hcable]; decide)] at hrun
      rw [hcable] at hsame
      by_cases hlevel : w.last = true
      · rw [if_pos hlevel] at hrun
        rw [← hrun]
        exact returned_in hwait hsame w.usb
      · rw [if_neg hlevel] at hrun
        obtain ⟨hprotl, hold⟩ := hwait.unplugged hsame
        rw [← hrun]
        exact ⟨hwait, hprotl.trans hold.symm⟩

theorem returned_wakeUps : ∀ (wakes : List Wake) {s s' : State}, Returned s →
    wakes.foldlM udcPnpThread s = some s' → Returned s' := by
  intro wakes
  induction wakes with
  | nil =>
    intro s s' h hrun
    cases hrun
    exact h
  | cons w wakes ih =>
    intro s s' h hrun
    rw [List.foldlM_cons] at hrun
    obtain ⟨t, hfirst, hrest⟩ := Option.bind_eq_some_iff.mp hrun
    exact ih (returned_thread h hfirst) hrest

/-- **Whenever the thread waits again, exactly the device that stands for the plugged cable is
registered, and no call to the misc layer was ever out of order.** -/
theorem wakeUps_registered (wakes : List Wake) (s : State) (h : wakeUps wakes = some s) :
    (s.cableStat = true →
      (s.registered .cable = true ∧ s.registered .power = false) ∨
      (s.registered .cable = false ∧ s.registered .power = true)) ∧
    (s.cableStat = false → s.registered .cable = false ∧ s.registered .power = false) ∧
    (s.registered .cable = true ↔ s.oldProtlStat = true) ∧
    ∀ pre call post, s.calls = pre ++ call :: post → MiscLegal (registeredBy pre) call := by
  have hret : Returned s := returned_wakeUps wakes ⟨waiting_init, rfl⟩ h
  refine ⟨fun hcable => ?_, fun hcable => ?_, ?_, hret.orderly⟩
  · rw [hret.devices, hret.devices, hcable]
    cases s.oldProtlStat <;> decide
  · rw [hret.devices, hret.devices, hcable]
    exact ⟨rfl, rfl⟩
  · rw [hret.devices]
    cases hc : s.cableStat with
    | false =>
      rw [(hret.unplugged hc).2]
      decide
    | true => cases s.oldProtlStat <;> decide

/-- A sleep in which nothing happens, with the pin at one level. -/
def steady (pin : Bool) : Sleep := ⟨[], pin, pin⟩

/-- A USB cable is plugged in, the device controller goes quiet in the outer wait after
having been busy, and the cable is pulled out. -/
def visit : List Wake :=
  [⟨[], true, List.replicate 50 (steady true), true, true⟩,
   ⟨[true, false], true, List.replicate 50 (steady true), true, false⟩,
   ⟨[], false, List.replicate 50 (steady false), false, false⟩]

/-- What is left of it. -/
def visitEnd : State :=
  { calls := [.register .cable, .deregister .cable, .register .power, .deregister .power] }

theorem wakeUps_registered_visit :
    wakeUps visit = some visitEnd ∧ visitEnd.registered .power = false :=
  ⟨by decide, ((wakeUps_registered visit visitEnd (by decide)).2.1 rfl).2⟩

end Dingoo.UdcHotplug
