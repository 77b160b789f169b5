/-
When the timer declares a USB connection inactive.

`udc_old_state` remembers that `jz_udc_active` was set at an expiry.  It is cleared when the
connection is declared inactive, but not when the cable is removed, so the next connection
may begin with it set.  If then the first expiry finds `jz_udc_active` clear, the connection
is declared inactive without ever having been active.  In every other case the routine is
right (`goodExpiry_iff`).

The steps of the monitor are those of the wake-ups of the monitor's model (`step_refines`).
-/
import Dingoo.Lib.Runs
import Dingoo.Linux.UdcActivity

namespace Dingoo.UdcActivity

open Dingoo.Lib Dingoo.UdcHotplug

variable {w : Watched} {m : Monitor} {time : Nat} {level pin connected : Bool} {s cur : State}

/-! ### The history of a connection -/

/-- What happened since the current USB connection was announced. -/
structure History where
  /-- `jz_udc_active` was set at an expiry -/
  seen : Bool := false
  /-- it was set since the last expiry, or since the announcement -/
  setInPeriod : Bool := false
  /-- no expiry yet -/
  firstPeriod : Bool := false
  /-- `udc_old_state` was set at the announcement -/
  stale : Bool := false
deriving DecidableEq, Repr

/-- The step announces a USB connection. -/
def announces (m : Monitor) : Input → Bool
  | .sample pin _ last usb =>
    match m.phase with
    | .outer => false
    | .sampling connected time level =>
      nextTime time level pin > maxGpioTime && !connected && last && usb
  | _ => false

def record (m : Monitor) (h : History) (i : Input) : History :=
  if announces m i then
    { seen := false, setInPeriod := false, firstPeriod := true, stale := m.cur.udcOldState }
  else
    match i with
    | .setActive => { h with setInPeriod := true }
    | .expiry =>
      if m.cur.armed then
        { h with seen := h.seen || m.active, setInPeriod := false, firstPeriod := false }
      else h
    | _ => h

/-- The monitor and the history of its connection. -/
structure Watched where
  monitor : Monitor := {}
  history : History := {}
deriving DecidableEq, Repr

def Watched.step (w : Watched) (i : Input) : Watched :=
  { monitor := UdcActivity.step w.monitor i, history := record w.monitor w.history i }

/-- An expiry that declares the connection inactive does so after activity at an earlier expiry of
the connection, and after a whole period without. -/
def GoodExpiry (w : Watched) (i : Input) : Prop :=
  i = .expiry → declares w.monitor = true →
    w.history.seen = true ∧ w.history.setInPeriod = false

/-- The expiry does not find `jz_udc_active` clear in the first period of a connection that was
announced with `udc_old_state` set. -/
def NotStale (w : Watched) (i : Input) : Prop :=
  i = .expiry → w.monitor.cur.armed = true → w.monitor.active = false →
    w.history.firstPeriod = true → w.history.stale = false

/-! ### The invariant -/

structure Tracked (w : Watched) : Prop where
  active : w.history.setInPeriod = true → w.monitor.active = true
  first : w.history.seen = true → w.history.firstPeriod = false
  old : w.monitor.cur.armed = true → w.monitor.cur.udcOldState = true →
    w.history.seen = true ∨ (w.history.firstPeriod = true ∧ w.history.stale = true)
  stale : w.monitor.cur.armed = true → w.history.firstPeriod = true → w.history.stale = true →
    w.monitor.cur.udcOldState = true

/-- What detection does to the timer and to `udc_old_state`: a USB cable that is announced starts
the timer, otherwise it runs on or is stopped. -/
theorem detected_timer (connected level usb : Bool) (s : State) :
    (detected connected level usb s).udcOldState = s.udcOldState ∧
    ((!connected && level && usb) = false →
      (detected connected level usb s).armed = true → s.armed = true) := by
  unfold detected
  cases connected with
  | true =>
    cases level with
    | true =>
      by_cases hprotl : s.oldProtlStat ≠ s.protlStat
      · rw [if_pos rfl, if_neg (by decide), if_pos hprotl]
        exact ⟨rfl, fun _ h => h⟩
      · rw [if_pos rfl, if_neg (by decide), if_neg hprotl]
        exact ⟨rfl, fun _ h => h⟩
    | false =>
      rw [if_pos rfl, if_pos rfl]
      dsimp only
      cases s.oldProtlStat with
      | true => exact ⟨rfl, fun _ h => (by cases h)⟩
      | false => exact ⟨rfl, fun _ h => h⟩
  | false =>
    rw [if_neg Bool.false_ne_true]
    cases level with
    | true =>
      rw [if_pos rfl]
      cases usb with
      | true => exact ⟨rfl, fun h => (by cases h)⟩
      | false => exact ⟨rfl, fun _ h => h⟩
    | false => exact ⟨rfl, fun _ h => h⟩

theorem Tracked.keep (h : Tracked w) (hactive : m.active = w.monitor.active)
    (hold : m.cur.udcOldState = w.monitor.cur.udcOldState)
    (harmed : m.cur.armed = true → w.monitor.cur.armed = true) :
    Tracked { w with monitor := m } where
  active := fun hset => hactive.trans (h.active hset)
  first := h.first
  old := fun ha ho => h.old (harmed ha) (hold.symm.trans ho)
  stale := fun ha hf hs => hold.trans (h.stale (harmed ha) hf hs)

theorem Tracked.setActive (h : Tracked w) : Tracked (w.step .setActive) :=
  ⟨fun _ => rfl, h.first, h.old, h.stale⟩

theorem udcLongTimerRoutine_armed (harmed : s.armed = true) (active : Bool) :
    udcLongTimerRoutine s active =
      if !active && s.udcOldState then
        { s with udcOldState := false, protlStat := false, armed := false }
      else { s with udcOldState := active || s.udcOldState } := by
  obtain ⟨cable, oldCable, protl, oldProtl, old, armed, calls⟩ := s
  obtain rfl : armed = true := harmed
  cases active <;> cases old <;> rfl

theorem Watched.step_expiry (harmed : w.monitor.cur.armed = true) :
    w.step .expiry =
      { monitor := expire w.monitor
        history := { w.history with
          seen := w.history.seen || w.monitor.active, setInPeriod := false
          firstPeriod := false } } := by
  unfold Watched.step record
  rw [if_neg (show ¬ announces w.monitor .expiry = true from Bool.false_ne_true), if_pos harmed]
  rfl

theorem Watched.step_expiry_stopped (harmed : ¬ w.monitor.cur.armed = true) :
    w.step .expiry = w := by
  unfold Watched.step record UdcActivity.step expire
  rw [if_neg (show ¬ announces w.monitor .expiry = true from Bool.false_ne_true)]
  dsimp only
  rw [if_neg harmed, if_neg harmed]

theorem Tracked.expiry (h : Tracked w) : Tracked (w.step .expiry) := by
  by_cases harmed : w.monitor.cur.armed = true
  · have hcur : (expire w.monitor).cur = udcLongTimerRoutine w.monitor.cur w.monitor.active := by
      unfold expire
      rw [if_pos harmed]
    rw [Watched.step_expiry harmed]
    refine ⟨fun hset => (by cases hset), fun _ => rfl, fun ha ho => ?_, fun _ hf => (by cases hf)⟩
    rw [hcur, udcLongTimerRoutine_armed harmed] at ha ho
    -- a timer that still runs was not stopped, so the old state was clear or activity is seen now
    cases hactive : w.monitor.active with
    | true => exact Or.inl (Bool.or_true _)
    | false =>
      cases hold : w.monitor.cur.udcOldState with
      | true =>
        rw [hactive, hold] at ha
        cases ha
      | false =>
        rw [hactive, hold] at ho
        cases ho
  · rw [Watched.step_expiry_stopped harmed]
    exact h

section

theorem announces_sample (hphase : m.phase = .sampling connected time level)
    (pin again last usb : Bool) :
    announces m (.sample pin again last usb) =
      (decide (nextTime time level pin > maxGpioTime) && !connected && last && usb) := by
  unfold announces
  rw [hphase]

theorem step_sample (hphase : m.phase = .sampling connected time level)
    (pin again last usb : Bool) :
    step m (.sample pin again last usb) =
      if nextTime time level pin > maxGpioTime then
        { m with cur := detected connected last usb m.cur, phase := .outer }
      else
        { m with
          phase := .sampling connected (nextTime time level pin) (nextLevel level pin again) } := by
  unfold step
  rw [hphase]

theorem Tracked.sample (h : Tracked w) (hphase : w.monitor.phase = .sampling connected time level)
    {again last usb : Bool} : Tracked (w.step (.sample pin again last usb)) := by
  have hannounces := announces_sample hphase pin again last usb
  unfold Watched.step record
  rw [step_sample hphase]
  by_cases htime : nextTime time level pin > maxGpioTime
  · rw [decide_eq_true htime, Bool.true_and] at hannounces
    obtain ⟨hold, harmed⟩ := detected_timer connected last usb w.monitor.cur
    rw [if_pos htime]
    by_cases hann : announces w.monitor (.sample pin again last usb) = true
    · rw [if_pos hann]
      exact ⟨fun hset => (by cases hset), fun hs => (by cases hs),
        fun _ ho => Or.inr ⟨rfl, hold.symm.trans ho⟩, fun _ _ hs => hold.trans hs⟩
    · rw [if_neg hann]
      rw [Bool.not_eq_true, hannounces] at hann
      exact h.keep rfl hold (harmed hann)
  · rw [decide_eq_false htime, Bool.false_and, Bool.false_and, Bool.false_and] at hannounces
    rw [if_neg htime, hannounces, if_neg Bool.false_ne_true]
    exact h.keep rfl rfl id

end

theorem Tracked.step (h : Tracked w) (i : Input) : Tracked (w.step i) := by
  cases i with
  | setActive => exact h.setActive
  | expiry => exact h.expiry
  | wake first =>
    unfold Watched.step UdcActivity.step
    cases w.monitor.phase with
    | outer => exact h.keep rfl rfl id
    | sampling connected time level => exact h.keep rfl rfl id
  | sample pin again last usb =>
    cases hphase : w.monitor.phase with
    | outer =>
      unfold Watched.step UdcActivity.step record announces
      rw [hphase]
      exact h.keep rfl rfl id
    | sampling connected time level => exact h.sample hphase

theorem tracked_init : Tracked {} :=
  ⟨fun h => (by cases h), fun h => (by cases h), fun h => (by cases h), fun h => (by cases h)⟩

/-- **An expiry is right exactly if it is not a quiet first one with a stale `udc_old_state`.** -/
theorem goodExpiry_iff (h : Tracked w) (i : Input) : GoodExpiry w i ↔ NotStale w i := by
  constructor
  · intro hgood hi harmed hquiet hfirst
    cases hstale : w.history.stale with
    | false => rfl
    | true =>
      have hold := h.stale harmed hfirst hstale
      have hdeclares : declares w.monitor = true := by
        unfold declares
        rw [harmed, hquiet, hold]
        rfl
      have hlater := h.first (hgood hi hdeclares).1
      rw [hfirst] at hlater
      cases hlater
  · intro hfresh hi hdeclares
    unfold declares at hdeclares
    rw [Bool.and_eq_true, Bool.and_eq_true] at hdeclares
    obtain ⟨⟨harmed, hquiet⟩, hold⟩ := hdeclares
    rw [Bool.not_eq_true'] at hquiet
    constructor
    · rcases h.old harmed hold with hseen | ⟨hfirst, hstale⟩
      · exact hseen
      · rw [hfresh hi harmed hquiet hfirst] at hstale
        cases hstale
    · cases hset : w.history.setInPeriod with
      | false => rfl
      | true =>
        rw [h.active hset] at hquiet
        cases hquiet

/-- **USB connections are declared inactive only after activity and a quiet period, exactly if no
connection that is announced with `udc_old_state` set has a quiet first period**, over every
sequence of insertions, removals, settings and expiries. -/
theorem declared_inactive_iff (inputs : List Input) :
    EachStep Watched.step GoodExpiry {} inputs ↔ EachStep Watched.step NotStale {} inputs :=
  @eachStep_iff _ _ Watched.step GoodExpiry NotStale Tracked (fun _ => True)
    (fun _ i h _ => goodExpiry_iff h i) (fun _ i h _ _ => h.step i) inputs {} tracked_init
    fun _ _ => trivial

/-- A cable is inserted and announced; then the controller is active and the timer expires; the
cable is removed and inserted again.  The first expiry of the new connection finds no activity
and declares it inactive. -/
def staleRun : List Input :=
  let sampled (last : Bool) : List Input := List.replicate 50 (.sample last last last true)
  [.wake true] ++ sampled true ++ [.setActive, .expiry] ++
    [.wake false] ++ sampled false ++ [.wake true] ++ sampled true

theorem stale_declared_inactive :
    (staleRun.foldl Watched.step {}).history =
      { seen := false, setInPeriod := false, firstPeriod := true, stale := true } ∧
    declares (staleRun.foldl Watched.step {}).monitor = true ∧
    ¬ EachStep Watched.step GoodExpiry {} (staleRun ++ [.expiry]) := by
  have hhistory : (staleRun.foldl Watched.step {}).history =
      { seen := false, setInPeriod := false, firstPeriod := true, stale := true } := by
    decide +kernel
  have hdeclares : declares (staleRun.foldl Watched.step {}).monitor = true := by decide +kernel
  refine ⟨hhistory, hdeclares, fun h => ?_⟩
  have hseen := (h staleRun .expiry [] rfl rfl hdeclares).1
  rw [hhistory] at hseen
  cases hseen

/-! ### The steps are those of the wake-ups -/

/-- The turns of the sampling so far: what the loop makes of further sleeps is what it makes of
them after these turns, and the expiries since the last turn. -/
def Sampled (from_ : State) (time : Nat) (level : Bool) (cur : State) : Prop :=
  ∃ first sleeps pending, ∀ x rest,
    debounce 1 first (sleeps ++ { x with expiries := pending ++ x.expiries } :: rest) from_ =
      debounce time level (x :: rest) cur

/-- The thread has come to where it is from the outer wait in state `s`. -/
def ComesFrom (s : State) (m : Monitor) : Prop :=
  match m.phase with
  | .outer => m.cur = s
  | .sampling connected time level => connected = s.cableStat ∧ Sampled s time level m.cur

/-- The monitor's state comes from whole wake-ups, expiries in the outer wait, and the turns of the
sampling under way. -/
def Refines (m : Monitor) : Prop :=
  ∃ (wakes : List Wake) (s : State) (idle : List Bool), wakeUps wakes = some s ∧
    ComesFrom (idle.foldl udcLongTimerRoutine s) m

theorem comesFrom_outer (h : m.phase = .outer) : ComesFrom s m ↔ m.cur = s := by
  unfold ComesFrom
  rw [h]

theorem comesFrom_sampling (h : m.phase = .sampling connected time level) :
    ComesFrom s m ↔ connected = s.cableStat ∧ Sampled s time level m.cur := by
  unfold ComesFrom
  rw [h]

theorem debounce_cons (time : Nat) (level : Bool) (x : Sleep) (rest : List Sleep) (s : State) :
    debounce time level (x :: rest) s =
      if nextTime time level x.pin > maxGpioTime then
        some (x.expiries.foldl udcLongTimerRoutine s)
      else
        debounce (nextTime time level x.pin) (nextLevel level x.pin x.again) rest
          (x.expiries.foldl udcLongTimerRoutine s) := rfl

theorem sampled_start (s : State) (first : Bool) : Sampled s 1 first s :=
  ⟨first, [], [], fun _ _ => rfl⟩

theorem Sampled.expiry (h : Sampled s time level cur) (active : Bool) :
    Sampled s time level (udcLongTimerRoutine cur active) := by
  obtain ⟨first, sleeps, pending, hloop⟩ := h
  refine ⟨first, sleeps, pending ++ [active], fun x rest => ?_⟩
  have hnext := hloop { x with expiries := active :: x.expiries } rest
  rw [List.append_assoc]
  exact hnext

theorem Sampled.turn (h : Sampled s time level cur) {again : Bool}
    (htime : ¬ nextTime time level pin > maxGpioTime) :
    Sampled s (nextTime time level pin) (nextLevel level pin again) cur := by
  obtain ⟨first, sleeps, pending, hloop⟩ := h
  refine ⟨first, sleeps ++ [⟨pending, pin, again⟩], [], fun x rest => ?_⟩
  have hnext := hloop ⟨[], pin, again⟩ (x :: rest)
  rw [debounce_cons, if_neg htime, List.append_nil] at hnext
  rw [List.append_assoc]
  exact hnext

theorem Sampled.done (h : Sampled s time level cur) (again : Bool)
    (htime : nextTime time level pin > maxGpioTime) :
    ∃ first sleeps, debounce 1 first sleeps s = some cur := by
  obtain ⟨first, sleeps, pending, hloop⟩ := h
  have hend := hloop ⟨[], pin, again⟩ []
  rw [debounce_cons, if_pos htime] at hend
  exact ⟨first, _, hend⟩

theorem refines_init : Refines {} := ⟨[], {}, [], rfl, rfl⟩

theorem expire_cur (m : Monitor) : (expire m).cur = udcLongTimerRoutine m.cur m.active := by
  unfold expire
  by_cases harmed : m.cur.armed = true
  · rw [if_pos harmed]
  · rw [if_neg harmed]
    unfold udcLongTimerRoutine
    rw [if_neg harmed]

theorem expire_phase (m : Monitor) : (expire m).phase = m.phase := by
  unfold expire
  split <;> rfl

theorem udcPnpDetect_eq {w : Wake} (h : debounce 1 w.first w.sleeps s = some cur) :
    udcPnpDetect w s = some (detected s.cableStat w.last w.usb cur) := by
  unfold udcPnpDetect udcGetPnpStat
  rw [h]
  rfl

theorem wakeUps_concat {wakes : List Wake} (h : wakeUps wakes = some s) (w : Wake) :
    wakeUps (wakes ++ [w]) = udcPnpThread s w := by
  unfold wakeUps at h ⊢
  rw [List.foldlM_append, h]
  exact bind_pure (udcPnpThread s w)

theorem expiry_refines (h : Refines m) : Refines (expire m) := by
  obtain ⟨wakes, s, idle, hwakes, hcomes⟩ := h
  cases hphase : m.phase with
  | outer =>
    refine ⟨wakes, s, idle ++ [m.active], hwakes, ?_⟩
    rw [comesFrom_outer hphase] at hcomes
    rw [comesFrom_outer ((expire_phase m).trans hphase), expire_cur, hcomes, List.foldl_append]
    rfl
  | sampling connected time level =>
    refine ⟨wakes, s, idle, hwakes, ?_⟩
    rw [comesFrom_sampling hphase] at hcomes
    rw [comesFrom_sampling ((expire_phase m).trans hphase), expire_cur]
    exact ⟨hcomes.1, hcomes.2.expiry m.active⟩

theorem sample_refines (h : Refines m) (hphase : m.phase = .sampling connected time level)
    (pin again last usb : Bool) : Refines (step m (.sample pin again last usb)) := by
  obtain ⟨wakes, s, idle, hwakes, hcomes⟩ := h
  obtain ⟨hconnected, hsampled⟩ := (comesFrom_sampling hphase).mp hcomes
  rw [step_sample hphase]
  by_cases htime : nextTime time level pin > maxGpioTime
  · rw [if_pos htime]
    obtain ⟨first, sleeps, hloop⟩ := hsampled.done again htime
    -- the wake-up is complete
    refine ⟨wakes ++ [⟨idle, first, sleeps, last, usb⟩], _, [], ?_, rfl⟩
    rw [wakeUps_concat hwakes, hconnected]
    exact udcPnpDetect_eq hloop
  · rw [if_neg htime]
    exact ⟨wakes, s, idle, hwakes, hconnected, hsampled.turn htime⟩

/-- **The steps of the monitor are steps of its wake-ups**, with the expiries where they come. -/
theorem step_refines (h : Refines m) (i : Input) : Refines (step m i) := by
  cases i with
  | setActive => exact h
  | expiry => exact expiry_refines h
  | wake first =>
    obtain ⟨wakes, s, idle, hwakes, hcomes⟩ := h
    unfold step
    cases hphase : m.phase with
    | outer =>
      rw [comesFrom_outer hphase] at hcomes
      refine ⟨wakes, s, idle, hwakes, congrArg State.cableStat hcomes, ?_⟩
      rw [← hcomes]
      exact sampled_start m.cur first
    | sampling connected time level => exact ⟨wakes, s, idle, hwakes, hcomes⟩
  | sample pin again last usb =>
    cases hphase : m.phase with
    | outer =>
      unfold step
      rw [hphase]
      exact h
    | sampling connected time level => exact sample_refines h hphase pin again last usb

/-- In its outer wait the monitor is where whole wake-ups and expiries lead. -/
theorem run_refines (inputs : List Input)
    (houter : (inputs.foldl step {}).phase = .outer) :
    ∃ (wakes : List Wake) (s : State) (idle : List Bool), wakeUps wakes = some s ∧
      (inputs.foldl step {}).cur = idle.foldl udcLongTimerRoutine s := by
  have hrun : ∀ (inputs : List Input) (m : Monitor), Refines m → Refines (inputs.foldl step m) := by
    intro inputs
    induction inputs with
    | nil => exact fun m h => h
    | cons i inputs ih => exact fun m h => ih (step m i) (step_refines h i)
  obtain ⟨wakes, s, idle, hwakes, hcomes⟩ := hrun inputs {} refines_init
  exact ⟨wakes, s, idle, hwakes, (comesFrom_outer houter).mp hcomes⟩

theorem run_refines_stale :
    (staleRun.foldl step {}).phase = .outer ∧
    ∃ (wakes : List Wake) (s : State) (idle : List Bool), wakeUps wakes = some s ∧
      (staleRun.foldl step {}).cur = idle.foldl udcLongTimerRoutine s :=
  ⟨by decide +kernel, run_refines staleRun (by decide +kernel)⟩

end Dingoo.UdcActivity
