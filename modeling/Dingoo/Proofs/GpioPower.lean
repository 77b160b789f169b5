/-
The power slider and the system request keys over whole runs.

The slider counter is started by a poll that sees the slider without START while
`power_state` is clear, and is kept only by polls that see no button at all.  So before
a poll the counter is `c` exactly when the last `c` polls saw the slider alone and
`power_state` was clear before the first of them (`powerCount_iff`).  KEY_POWER and the
reboot sequence are the polls at which it has reached 100 and 250.

`power_state` itself is not the slider of the poll before: the branch for slider and
START leaves it alone.  It is clear as long as the slider has only been seen together
with START since it was moved (`powerState_iff`), and then the counter starts late.

The reference word of the system requests is written in that same branch only, so it
holds the buttons of the last poll that saw slider and START (`polls_sysrqState`),
which need not be the poll before.
-/
import Dingoo.Proofs.GpioKeys

namespace Dingoo.GpioKeys

open Dingoo.Lib

variable {pin : Nat → Bool} {b : Button} {c k n : Nat}

/-- The calls a poll makes after the polls of `pre`. -/
def reports (pre : List (Nat → Bool)) (pin : Nat → Bool) : List Event :=
  (jzKbdPoll (polls pre).1 pin).2

/-- The polls that issue system requests: slider and START pressed. -/
def sysrqPoll (pin : Nat → Bool) : Bool := sliderPressed pin && startPressed pin

/-- No button of the table is pressed. -/
def noButton (pin : Nat → Bool) : Bool := jzButton.all fun b => !pressed pin b

/-! ### The word a poll scans -/

theorem polls_scan_any (pre : List (Nat → Bool)) (pin : Nat → Bool) (k : Nat) :
    (setBits (fun b => pin b.gpio) 0 1 jzButton ^^^ (polls pre).1.actlow).getLsbD k
      = jzButton[k]?.any (pressed pin) := by
  cases hb : jzButton[k]? with
  | some b => exact polls_scan hb pre pin
  | none =>
    have hbit : ∀ test : Button → Bool, (setBits test 0 1 jzButton).getLsbD k = false := by
      intro test
      rw [show (1 : BitVec 32) = 1#32 <<< 0 from rfl,
        setBits_getLsbD test jzButton 0 0 (by decide)]
      simp [hb]
    rw [polls_actlow, BitVec.getLsbD_xor, hbit]
    simp only [jzKbdInit, hbit]
    rfl

theorem polls_scan_zero (pre : List (Nat → Bool)) (pin : Nat → Bool) :
    (setBits (fun b => pin b.gpio) 0 1 jzButton ^^^ (polls pre).1.actlow = 0)
      ↔ noButton pin = true := by
  unfold noButton
  rw [List.all_eq_true]
  constructor
  · intro hz b hb
    obtain ⟨k, hk⟩ := List.getElem?_of_mem hb
    have hbit := polls_scan hk pre pin
    rw [hz, BitVec.ofNat_eq_ofNat, BitVec.getLsbD_zero] at hbit
    rw [← hbit]
    rfl
  · intro hall
    refine BitVec.eq_of_getLsbD_eq fun k _ => ?_
    rw [polls_scan_any pre pin k, BitVec.ofNat_eq_ofNat, BitVec.getLsbD_zero]
    cases hb : jzButton[k]? with
    | none => rfl
    | some b =>
      have hoff := hall b (List.mem_of_getElem? hb)
      simp only [Bool.not_eq_eq_eq_not, Bool.not_true] at hoff
      exact hoff

theorem reports_cases (pre : List (Nat → Bool)) (pin : Nat → Bool) :
    ∃ s, s = setBits (fun b => pin b.gpio) 0 1 jzButton ^^^ (polls pre).1.actlow ∧
      ((sysrqPoll pin = true ∧ specialPoll pin = false ∧
          jzKbdPoll (polls pre).1 pin = pollSysrq (polls pre).1 s) ∨
       (sysrqPoll pin = false ∧ specialPoll pin = true ∧
          jzKbdPoll (polls pre).1 pin = pollSpecial (polls pre).1 s) ∨
       (sliderPressed pin = false ∧ sysrqPoll pin = false ∧ specialPoll pin = false ∧
          jzKbdPoll (polls pre).1 pin = pollNormal (polls pre).1 s)) := by
  obtain ⟨s, hs, hcases⟩ := jzKbdPoll_cases (polls pre).1 pin
  have hstart : startPressed pin = s.getLsbD sysrqAlt := by
    rw [hs]
    exact (polls_scan rfl pre pin).symm
  refine ⟨s, hs, ?_⟩
  unfold sysrqPoll specialPoll
  rw [hstart]
  rcases hcases with ⟨hon, halt, h⟩ | ⟨hon, halt, h⟩ | ⟨hoff, h⟩
  · exact .inl ⟨by simp [hon, halt], by simp [halt], h⟩
  · exact .inr (.inl ⟨by simp [halt], by simp [hon, halt], h⟩)
  · exact .inr (.inr ⟨hoff, by simp [hoff], by simp [hoff], h⟩)

/-! ### The slider counter -/

section Power

/-- The polls before poll `n` of a sequence of samples. -/
def history (σ : Nat → Nat → Bool) (n : Nat) : List (Nat → Bool) := (List.range n).map σ

theorem history_succ (σ : Nat → Nat → Bool) (n : Nat) :
    history σ (n + 1) = history σ n ++ [σ n] := by
  simp [history, List.range_succ]

variable {σ : Nat → Nat → Bool}

theorem power_step (σ : Nat → Nat → Bool) (n : Nat) :
    (sysrqPoll (σ n) = true ∧ specialPoll (σ n) = false ∧
      (polls (history σ (n + 1))).1.powerState = (polls (history σ n)).1.powerState ∧
      (polls (history σ (n + 1))).1.powerCount = 0) ∨
    (specialPoll (σ n) = true ∧ (polls (history σ (n + 1))).1.powerState = true ∧
      (polls (history σ (n + 1))).1.powerCount
        = if noButton (σ n) then (pollPower (polls (history σ n)).1).2.2 else 0) ∨
    (sliderPressed (σ n) = false ∧ specialPoll (σ n) = false ∧
      (polls (history σ (n + 1))).1.powerState = false ∧
      (polls (history σ (n + 1))).1.powerCount = 0) := by
  rw [history_succ, polls_append]
  obtain ⟨s, hs, ⟨hsys, hsp, h⟩ | ⟨-, hsp, h⟩ | ⟨hoff, -, hsp, h⟩⟩ :=
    reports_cases (history σ n) (σ n)
  · rw [h]
    exact .inl ⟨hsys, hsp, rfl, rfl⟩
  · rw [h]
    refine .inr (.inl ⟨hsp, rfl, ?_⟩)
    have hz := polls_scan_zero (history σ n) (σ n)
    rw [← hs] at hz
    show (if s ≠ 0 then 0 else (pollPower (polls (history σ n)).1).2.2) = _
    by_cases hno : noButton (σ n) = true
    · rw [if_pos hno, if_neg (not_not_intro (hz.mpr hno))]
    · rw [if_neg hno, if_pos (fun h0 => hno (hz.mp h0))]
  · rw [h]
    exact .inr (.inr ⟨hoff, hsp, rfl, rfl⟩)

/-- Since it was moved the slider has only been seen together with START. -/
def OnlyWithStart (σ : Nat → Nat → Bool) (n : Nat) : Prop :=
  ∃ j ≤ n, (∀ m, j ≤ m → m < n → sysrqPoll (σ m) = true) ∧
    (j = 0 ∨ sliderPressed (σ (j - 1)) = false)

theorem onlyWithStart_succ (σ : Nat → Nat → Bool) (n : Nat) :
    OnlyWithStart σ (n + 1) ↔
      sliderPressed (σ n) = false ∨ (sysrqPoll (σ n) = true ∧ OnlyWithStart σ n) := by
  constructor
  · rintro ⟨j, hj, hall, hstart⟩
    by_cases hjn : j = n + 1
    · subst hjn
      exact .inl (hstart.resolve_left (by omega))
    · exact .inr ⟨hall n (by omega) (by omega), j, by omega,
        fun m h1 h2 => hall m h1 (by omega), hstart⟩
  · rintro (hoff | ⟨hsys, j, hj, hall, hstart⟩)
    · exact ⟨n + 1, Nat.le_refl _, fun m h1 h2 => absurd h2 (by omega), .inr hoff⟩
    · refine ⟨j, by omega, fun m h1 h2 => ?_, hstart⟩
      by_cases hm : m = n
      · exact hm ▸ hsys
      · exact hall m h1 (by omega)

/-- **The slider's saved state is clear as long as the slider has only been seen together
with START since it was moved.** -/
theorem powerState_iff (σ : Nat → Nat → Bool) (n : Nat) :
    (polls (history σ n)).1.powerState = false ↔ OnlyWithStart σ n := by
  induction n with
  | zero =>
    refine ⟨fun _ => ⟨0, Nat.le_refl 0, fun m _ hm => absurd hm (by omega), .inl rfl⟩,
      fun _ => rfl⟩
  | succ n ih =>
    rw [onlyWithStart_succ]
    rcases power_step σ n with ⟨hsys, -, hst, -⟩ | ⟨hsp, hst, -⟩ | ⟨hoff, -, hst, -⟩
    · -- slider and START: what was true before poll n is true after it
      have hon : sliderPressed (σ n) = true := by
        simp only [sysrqPoll, Bool.and_eq_true] at hsys
        exact hsys.1
      rw [hst, ih, hon]
      simp [hsys]
    · have hon : sliderPressed (σ n) = true ∧ startPressed (σ n) = false := by
        simpa [specialPoll] using hsp
      rw [hst, sysrqPoll, hon.1, hon.2]
      simp
    · rw [hst]
      exact ⟨fun _ => .inl hoff, fun _ => rfl⟩

/-- A poll that sees the slider alone. -/
def quietPoll (pin : Nat → Bool) : Bool := specialPoll pin && noButton pin

/-- The last `c` polls before poll `n` saw the slider alone, and its saved state was clear
before them. -/
def Counted (σ : Nat → Nat → Bool) (n c : Nat) : Prop :=
  c ≤ n ∧ (polls (history σ (n - c))).1.powerState = false ∧
    ∀ m, n - c ≤ m → m < n → quietPoll (σ m) = true

theorem counted_zero (n : Nat) :
    Counted σ n 0 ↔ (polls (history σ n)).1.powerState = false := by
  refine ⟨fun h => h.2.1, fun h => ⟨Nat.zero_le n, h, fun m h1 h2 => absurd h2 (by omega)⟩⟩

theorem counted_succ (n c : Nat) :
    Counted σ (n + 1) (c + 1) ↔ quietPoll (σ n) = true ∧ Counted σ n c := by
  unfold Counted
  rw [Nat.add_sub_add_right, Nat.add_le_add_iff_right]
  constructor
  · rintro ⟨hle, hst, hall⟩
    exact ⟨hall n (Nat.sub_le n c) (Nat.lt_succ_self n), hle, hst,
      fun m h1 h2 => hall m h1 (Nat.lt_succ_of_lt h2)⟩
  · rintro ⟨hq, hle, hst, hall⟩
    refine ⟨hle, hst, fun m h1 h2 => ?_⟩
    by_cases hm : m = n
    · exact hm ▸ hq
    · exact hall m h1 (by omega)

theorem counted_powerState (h : Counted σ n (c + 1)) :
    (polls (history σ n)).1.powerState = true := by
  obtain ⟨n, rfl⟩ : ∃ k, n = k + 1 := ⟨n - 1, by have := h.1; omega⟩
  have hq := ((counted_succ n c).mp h).1
  have hsp : specialPoll (σ n) = true := by
    simp only [quietPoll, Bool.and_eq_true] at hq
    exact hq.1
  rcases power_step σ n with ⟨-, hno, -⟩ | ⟨-, hst, -⟩ | ⟨-, hno, -⟩
  · rw [hsp] at hno
    exact absurd hno (by decide)
  · exact hst
  · rw [hsp] at hno
    exact absurd hno (by decide)

theorem pollPower_count (kbd : Kbd) :
    (pollPower kbd).2.2 = if kbd.powerState = false then 1
      else if kbd.powerCount > 0 then (kbd.powerCount + 1) % 4294967296 else 0 := by
  unfold pollPower
  split
  · rfl
  · split
    · rfl
    · exact Nat.le_zero.mp (Nat.le_of_not_lt (by assumption))

theorem pollPower_counted (hlt : (polls (history σ n)).1.powerCount < 4294967296)
    (ih : ∀ c, 0 < c → c < 4294967296 →
      ((polls (history σ n)).1.powerCount = c ↔ Counted σ n c)) :
    (pollPower (polls (history σ n)).1).2.2 < 4294967296 ∧
    ∀ c, c + 1 < 4294967296 →
      ((pollPower (polls (history σ n)).1).2.2 = c + 1 ↔ Counted σ n c) := by
  -- an earlier quiet poll would have set the saved state
  have hfirst : (polls (history σ n)).1.powerState = false → ∀ c, 0 < c → ¬ Counted σ n c := by
    intro hst c hc h
    obtain ⟨d, rfl⟩ : ∃ d, c = d + 1 := ⟨c - 1, by omega⟩
    rw [counted_powerState h] at hst
    exact absurd hst (by decide)
  rw [pollPower_count]
  by_cases hst : (polls (history σ n)).1.powerState = false
  · rw [if_pos hst]
    refine ⟨by decide, fun c _ => ?_⟩
    by_cases hc : c = 0
    · subst hc
      exact ⟨fun _ => (counted_zero n).mpr hst, fun _ => rfl⟩
    · exact ⟨fun h => absurd h (by omega), fun h => absurd h (hfirst hst c (by omega))⟩
  · have hzero : ¬ Counted σ n 0 := fun h => hst ((counted_zero n).mp h)
    rw [if_neg hst]
    by_cases hpos : (polls (history σ n)).1.powerCount > 0
    · rw [if_pos hpos]
      refine ⟨Nat.mod_lt _ (by decide), fun c hlim => ?_⟩
      by_cases hc : c = 0
      · subst hc
        exact ⟨fun h => absurd h (by omega), fun h => absurd h hzero⟩
      · rw [← ih c (by omega) (by omega)]
        omega
    · rw [if_neg hpos]
      refine ⟨by decide, fun c hlim => ⟨fun h => absurd h (by omega), fun h => ?_⟩⟩
      by_cases hc : c = 0
      · exact absurd (hc ▸ h) hzero
      · exact absurd ((ih c (by omega) (by omega)).mpr h) (by omega)

/-- **The counter is `c` when the last `c` polls saw the slider alone and its saved state
was clear before them.** -/
theorem powerCount_iff (σ : Nat → Nat → Bool) (n : Nat) :
    (polls (history σ n)).1.powerCount < 4294967296 ∧
    ∀ c, 0 < c → c < 4294967296 →
      ((polls (history σ n)).1.powerCount = c ↔ Counted σ n c) := by
  induction n with
  | zero =>
    have h0 : (polls (history σ 0)).1.powerCount = 0 := rfl
    refine ⟨by omega, fun c hc _ => ⟨fun h => by omega, fun h => absurd h.1 (by omega)⟩⟩
  | succ n ih =>
    -- a poll that is not quiet clears the counter
    have hclear : quietPoll (σ n) = false → (polls (history σ (n + 1))).1.powerCount = 0 →
        (polls (history σ (n + 1))).1.powerCount < 4294967296 ∧
        ∀ c, 0 < c → c < 4294967296 →
          ((polls (history σ (n + 1))).1.powerCount = c ↔ Counted σ (n + 1) c) := by
      intro hq h0
      refine ⟨by omega, fun c hc _ => ⟨fun h => by omega, fun h => ?_⟩⟩
      have hn := h.2.2 n (by omega) (by omega)
      rw [hq] at hn
      exact absurd hn (by decide)
    rcases power_step σ n with ⟨-, hsp, -, h0⟩ | ⟨hsp, hst, hcount⟩ | ⟨-, hsp, -, h0⟩
    · exact hclear (by simp [quietPoll, hsp]) h0
    · by_cases hno : noButton (σ n) = true
      · have hq : quietPoll (σ n) = true := by simp [quietPoll, hsp, hno]
        obtain ⟨hlt, hnext⟩ := pollPower_counted ih.1 ih.2
        rw [hcount, if_pos hno]
        refine ⟨hlt, fun c hc hlim => ?_⟩
        obtain ⟨d, rfl⟩ : ∃ d, c = d + 1 := ⟨c - 1, by omega⟩
        rw [hnext d hlim, counted_succ]
        exact ⟨fun h => ⟨hq, h⟩, fun h => h.2⟩
      · rw [if_neg hno] at hcount
        exact hclear (by simpa [quietPoll, hsp] using hno) hcount
    · exact hclear (by simp [quietPoll, hsp]) h0

/-! ### What the counter makes a poll report -/

/-- `handle_sysrq('s')`, `handle_sysrq('u')`, `handle_sysrq('b')`: the emergency sync,
remount and reboot. -/
def emergency : List Event := [.sysrq 's'.toNat, .sysrq 'u'.toNat, .sysrq 'b'.toNat]

theorem pollPower_calls (kbd : Kbd) :
    (pollPower kbd).1 = if kbd.powerState = true ∧ kbd.powerCount = powerCount
        then [.key keyPower true, .key keyPower false]
      else if kbd.powerState = true ∧ kbd.powerCount = rebootCount then emergency else [] := by
  unfold pollPower
  by_cases hst : kbd.powerState = false
  · simp [hst]
  · rw [Bool.not_eq_false] at hst
    by_cases h1 : kbd.powerCount = powerCount
    · simp [hst, h1, powerCount, rebootCount]
    · by_cases h2 : kbd.powerCount = rebootCount
      · simp [hst, h2, powerCount, rebootCount, emergency]
      · by_cases hpos : kbd.powerCount > 0 <;> simp [hst, h1, h2, hpos]

theorem powerState_of_count (hc : 0 < c) (hlim : c < 4294967296)
    (h : (polls (history σ n)).1.powerCount = c) : (polls (history σ n)).1.powerState = true := by
  obtain ⟨d, rfl⟩ : ∃ d, c = d + 1 := ⟨c - 1, by omega⟩
  exact counted_powerState (((powerCount_iff σ n).2 (d + 1) hc hlim).mp h)

theorem counting_iff (hc : 0 < c) (hlim : c < 4294967296) :
    ((polls (history σ n)).1.powerState = true ∧ (polls (history σ n)).1.powerCount = c)
      ↔ Counted σ n c := by
  rw [← (powerCount_iff σ n).2 c hc hlim]
  exact ⟨fun h => h.2, fun h => ⟨powerState_of_count hc hlim h, h⟩⟩

theorem reports_power (n : Nat) :
    values keyPower (reports (history σ n) (σ n)) ≠ [] ↔
      specialPoll (σ n) = true ∧ Counted σ n powerCount := by
  have hn : ∀ b ∈ jzButton, b.ncode ≠ keyPower := by decide
  have hs : ∀ b ∈ jzButton, b.scode ≠ keyPower := by decide
  unfold reports
  obtain ⟨s, -, ⟨-, hsp, h⟩ | ⟨-, hsp, h⟩ | ⟨-, -, hsp, h⟩⟩ := reports_cases (history σ n) (σ n)
  · rw [h, values_pollSysrq, hsp]
    simp
  · rw [h, hsp, ← counting_iff (by decide) (by decide)]
    simp only [pollSpecial, values_append, values_inputSync, values_reportKeys_of_ne hs,
      List.nil_append, List.append_nil, true_and]
    rw [pollPower_calls]
    split
    · rename_i hcount
      exact ⟨fun _ => hcount, fun _ => by simp [values]⟩
    · rename_i hcount
      refine ⟨fun h => absurd ?_ h, fun h => absurd h hcount⟩
      split <;> rfl
  · rw [h, hsp]
    simp [pollNormal, values_append, values_reportKeys_of_ne hn]

theorem sysrq_notMem_reportKeys {code : Button → Nat} {x s : BitVec 32} :
    Event.sysrq c ∉ reportKeys code x s := by
  unfold reportKeys
  generalize (1 : BitVec 32) = m
  induction jzButton generalizing m with
  | nil => exact List.not_mem_nil
  | cons b l ih =>
    rw [forButtons, List.mem_append]
    rintro (h | h)
    · split at h <;> simp at h
    · exact ih _ h

theorem sysrq_notMem_inputSync {sync : Nat} : Event.sysrq c ∉ inputSync sync := by
  unfold inputSync
  split <;> simp

theorem reports_emergency (n : Nat) :
    (specialPoll (σ n) = true ∧ emergency <:+: reports (history σ n) (σ n)) ↔
      specialPoll (σ n) = true ∧ Counted σ n rebootCount := by
  refine and_congr_right fun hsp => ?_
  unfold reports
  obtain ⟨s, -, ⟨-, hno, -⟩ | ⟨-, -, h⟩ | ⟨-, -, hno, -⟩⟩ := reports_cases (history σ n) (σ n)
  · rw [hsp] at hno
    exact absurd hno (by decide)
  · rw [h, ← counting_iff (by decide) (by decide)]
    simp only [pollSpecial]
    constructor
    · intro hin
      have hmem := hin.subset (show Event.sysrq 'b'.toNat ∈ emergency by decide)
      rw [List.mem_append, List.mem_append] at hmem
      rcases hmem with (hkeys | hcalls) | hsync
      · exact absurd hkeys sysrq_notMem_reportKeys
      · rw [pollPower_calls] at hcalls
        split at hcalls
        · simp at hcalls
        · split at hcalls
          · assumption
          · simp at hcalls
      · exact absurd hsync sysrq_notMem_inputSync
    · intro hcount
      have hother : ¬ ((polls (history σ n)).1.powerState = true ∧
          (polls (history σ n)).1.powerCount = powerCount) := by
        rintro ⟨-, h100⟩
        rw [hcount.2] at h100
        exact absurd h100 (by decide)
      rw [pollPower_calls, if_neg hother, if_pos hcount]
      exact ⟨_, _, rfl⟩
  · rw [hsp] at hno
    exact absurd hno (by decide)

/-! ### The counter against the samples -/

/-- The slider is pressed at the `c` polls before poll `n` and at poll `n`, no button at the
former and START not at the latter. -/
def SlidAlone (c : Nat) (σ : Nat → Nat → Bool) (n : Nat) : Prop :=
  c ≤ n ∧ (∀ m, n - c ≤ m → m ≤ n → sliderPressed (σ m) = true) ∧
    (∀ m, n - c ≤ m → m < n → ∀ b ∈ jzButton, pressed (σ m) b = false) ∧
    startPressed (σ n) = false

/-- The slider was moved exactly `c` polls before poll `n`. -/
def SlidFor (c : Nat) (σ : Nat → Nat → Bool) (n : Nat) : Prop :=
  SlidAlone c σ n ∧ (n = c ∨ sliderPressed (σ (n - c - 1)) = false)

/-- The slider was moved earlier, and was only seen together with START up to then. -/
def LateStart (c : Nat) (σ : Nat → Nat → Bool) (n : Nat) : Prop :=
  SlidAlone c σ n ∧ ∃ j < n - c, (∀ m, j ≤ m → m < n - c → sysrqPoll (σ m) = true) ∧
    (j = 0 ∨ sliderPressed (σ (j - 1)) = false)

theorem noButton_iff (pin : Nat → Bool) :
    noButton pin = true ↔ ∀ b ∈ jzButton, pressed pin b = false := by
  simp [noButton, List.all_eq_true]

theorem startPressed_of_noButton (h : noButton pin = true) : startPressed pin = false :=
  (noButton_iff pin).mp h _ (List.getElem_mem (by decide : sysrqAlt < jzButton.length))

theorem quietPoll_iff (pin : Nat → Bool) :
    quietPoll pin = true ↔
      sliderPressed pin = true ∧ ∀ b ∈ jzButton, pressed pin b = false := by
  rw [← noButton_iff, quietPoll, specialPoll]
  constructor
  · intro h
    simp only [Bool.and_eq_true] at h
    exact ⟨h.1.1, h.2⟩
  · rintro ⟨hon, hno⟩
    simp [hon, hno, startPressed_of_noButton hno]

theorem counted_iff_slidAlone (c n : Nat) :
    (specialPoll (σ n) = true ∧ Counted σ n c) ↔
      SlidAlone c σ n ∧ (polls (history σ (n - c))).1.powerState = false := by
  have hspecial : specialPoll (σ n) = true ↔
      sliderPressed (σ n) = true ∧ startPressed (σ n) = false := by simp [specialPoll]
  rw [hspecial]
  constructor
  · rintro ⟨⟨hon, hstart⟩, hle, hst, hq⟩
    refine ⟨⟨hle, fun m h1 h2 => ?_, fun m h1 h2 => ((quietPoll_iff _).mp (hq m h1 h2)).2,
      hstart⟩, hst⟩
    by_cases hm : m = n
    · exact hm ▸ hon
    · exact ((quietPoll_iff _).mp (hq m h1 (by omega))).1
  · rintro ⟨⟨hle, hon, hno, hstart⟩, hst⟩
    exact ⟨⟨hon n (Nat.sub_le n c) (Nat.le_refl n), hstart⟩, hle, hst,
      fun m h1 h2 => (quietPoll_iff _).mpr ⟨hon m h1 (Nat.le_of_lt h2), hno m h1 h2⟩⟩

/-- The counter reaches `c` when the slider was moved `c` polls ago, and when it starts late. -/
theorem counted_iff (c n : Nat) :
    (specialPoll (σ n) = true ∧ Counted σ n c) ↔ SlidFor c σ n ∨ LateStart c σ n := by
  rw [counted_iff_slidAlone, powerState_iff]
  unfold SlidFor LateStart
  rw [← and_or_left]
  refine and_congr_right fun ⟨hle, _⟩ => ?_
  constructor
  · rintro ⟨j, hj, hall, hstart⟩
    by_cases hjn : j = n - c
    · refine .inl ?_
      rcases hstart with h0 | hoff
      · exact .inl (by omega)
      · exact .inr (hjn ▸ hoff)
    · exact .inr ⟨j, by omega, hall, hstart⟩
  · rintro ((hn | hoff) | ⟨j, hj, hall, hstart⟩)
    · exact ⟨0, Nat.zero_le _, fun m _ h2 => absurd h2 (by omega), .inl rfl⟩
    · exact ⟨n - c, Nat.le_refl _, fun m h1 h2 => absurd h2 (by omega), .inr hoff⟩
    · exact ⟨j, Nat.le_of_lt hj, hall, hstart⟩

theorem LateStart.not_slidFor (h : LateStart c σ n) : ¬ SlidFor c σ n := by
  rintro ⟨⟨hle, -⟩, hmoved⟩
  obtain ⟨-, j, hj, hall, -⟩ := h
  rcases hmoved with hn | hoff
  · omega
  · have hsys := hall (n - c - 1) (by omega) (by omega)
    simp [sysrqPoll, hoff] at hsys

theorem LateStart.shorter {d : Nat} (hcd : c < d) (h : LateStart d σ n) :
    LateStart c σ (n - (d - c)) := by
  obtain ⟨⟨hle, hon, hno, -⟩, j, hj, hall, hstart⟩ := h
  have hback : n - (d - c) - c = n - d := by omega
  refine ⟨⟨by omega, fun m h1 h2 => hon m (by omega) (by omega),
    fun m h1 h2 => hno m (by omega) (by omega), ?_⟩, j, by omega, ?_, hstart⟩
  · exact startPressed_of_noButton ((noButton_iff _).mpr (hno _ (by omega) (by omega)))
  · rw [hback]
    exact hall

/-- **KEY_POWER and the emergency sequence come exactly 100 and 250 polls after the slider was
moved, in the runs where it is never moved together with START and held after START is
released.** -/
theorem polls_power_timing (σ : Nat → Nat → Bool) :
    (∀ n, (values keyPower (reports (history σ n) (σ n)) ≠ [] ↔ SlidFor powerCount σ n) ∧
      ((specialPoll (σ n) = true ∧ emergency <:+: reports (history σ n) (σ n)) ↔
        SlidFor rebootCount σ n)) ↔
    ∀ n, ¬ LateStart powerCount σ n := by
  constructor
  · intro h n hlate
    have hrep := (reports_power n).mpr ((counted_iff powerCount n).mpr (.inr hlate))
    exact hlate.not_slidFor ((h n).1.mp hrep)
  · intro h n
    have hreboot : ¬ LateStart rebootCount σ n := fun hlate =>
      h _ (hlate.shorter (by decide : powerCount < rebootCount))
    rw [reports_power, reports_emergency, counted_iff, counted_iff]
    exact ⟨or_iff_left (h n), or_iff_left hreboot⟩

/-- Slider and START at the first poll, the slider alone afterwards. -/
def lateSlide (n : Nat) : Nat → Bool := fun g => g ≠ 125 && (n ≠ 0 || g ≠ 81)

/-- KEY_POWER is reported at poll 101, though the slider is already pressed at poll 0. -/
theorem polls_power_late :
    ¬ SlidFor powerCount lateSlide 101 ∧
    values keyPower (reports (history lateSlide 101) (lateSlide 101)) ≠ [] := by
  have hearly : ¬ SlidFor powerCount lateSlide 101 := by
    rintro ⟨-, h | h⟩
    · exact absurd h (by decide)
    · exact absurd h (by decide)
  refine ⟨hearly, (reports_power 101).mpr ⟨by decide, by decide, by decide, fun m h1 _ => ?_⟩⟩
  have hm : lateSlide m = lateSlide 1 := by
    funext g
    have hpos : m ≠ 0 := by
      intro h0
      rw [h0] at h1
      exact absurd h1 (by decide)
    simp [lateSlide, hpos]
  rw [hm]
  decide

end Power

/-! ### The system requests -/

theorem mem_forButtons {e : Event} {body : BitVec 32 → Button → List Event} :
    ∀ (l : List Button) (i : Nat), e ∈ forButtons body (1#32 <<< i) l ↔
      ∃ k b, l[k]? = some b ∧ e ∈ body (1#32 <<< (i + k)) b := by
  intro l
  induction l with
  | nil => intro i; simp [forButtons]
  | cons b l ih =>
    intro i
    rw [forButtons, List.mem_append, ← BitVec.shiftLeft_add, ih (i + 1)]
    constructor
    · rintro (h | ⟨k, b', hb, h⟩)
      · exact ⟨0, b, rfl, h⟩
      · exact ⟨k + 1, b', hb, by rwa [Nat.add_right_comm, Nat.add_assoc] at h⟩
    · rintro ⟨k, b', hb, h⟩
      cases k with
      | zero =>
        cases hb
        exact .inl h
      | succ k => exact .inr ⟨k, b', hb, by rwa [Nat.add_right_comm, Nat.add_assoc]⟩

theorem jzButton_sysrq {k' : Nat} {b' : Button} (hb : jzButton[k]? = some b)
    (hb' : jzButton[k']? = some b') (hcode : b.sysrq ≠ 0) (heq : b'.sysrq = b.sysrq) : k' = k := by
  obtain ⟨hk, rfl⟩ := List.getElem?_eq_some_iff.mp hb
  obtain ⟨hk', rfl⟩ := List.getElem?_eq_some_iff.mp hb'
  have htable : ∀ i j : Fin jzButton.length, (jzButton.get i).sysrq ≠ 0 →
      (jzButton.get j).sysrq = (jzButton.get i).sysrq → j = i := by decide
  exact congrArg Fin.val (htable ⟨k, hk⟩ ⟨k', hk'⟩ hcode heq)

theorem mem_pollSysrq (hb : jzButton[k]? = some b) (hcode : b.sysrq ≠ 0)
    (kbd : Kbd) (s : BitVec 32) :
    Event.sysrq b.sysrq ∈ (pollSysrq kbd s).2 ↔
      s.getLsbD k = true ∧ kbd.sysrqState.getLsbD k = false := by
  unfold pollSysrq
  rw [List.mem_append, or_iff_left sysrq_notMem_inputSync,
    show (1 : BitVec 32) = 1#32 <<< 0 from rfl, mem_forButtons]
  have hlt : ∀ {k b}, jzButton[k]? = some b → k < 32 := fun h =>
    Nat.lt_trans (List.getElem?_eq_some_iff.mp h).1 (by decide)
  have hbit : ∀ {k b}, jzButton[k]? = some b →
      (((s ^^^ kbd.sysrqState) &&& s &&& (1#32 <<< k) ≠ 0) ↔
        s.getLsbD k = true ∧ kbd.sysrqState.getLsbD k = false) := by
    intro k b h
    rw [and_shifted_one (hlt h), BitVec.getLsbD_and, BitVec.getLsbD_xor]
    cases s.getLsbD k <;> cases kbd.sysrqState.getLsbD k <;> decide
  constructor
  · rintro ⟨k', b', hb', h⟩
    rw [Nat.zero_add] at h
    split at h
    · rename_i hcond
      have heq : b.sysrq = b'.sysrq := Event.sysrq.inj (List.mem_singleton.mp h)
      have hk := jzButton_sysrq hb hb' hcode heq.symm
      subst hk
      exact (hbit hb').mp hcond.1
    · exact absurd h List.not_mem_nil
  · intro h
    refine ⟨k, b, hb, ?_⟩
    rw [Nat.zero_add, if_pos ⟨(hbit hb).mpr h, hcode⟩]
    exact List.mem_singleton.mpr rfl

theorem polls_sysrqState (hb : jzButton[k]? = some b) (samples : List (Nat → Bool)) :
    (polls samples).1.sysrqState.getLsbD k
      = (samples.filter sysrqPoll).getLast?.any (pressed · b) := by
  induction samples using List.reverseRecOn with
  | nil => simp [polls, jzKbdInit]
  | append_singleton samples pin ih =>
    have hskip : sysrqPoll pin = false →
        (samples ++ [pin]).filter sysrqPoll = samples.filter sysrqPoll := by
      intro h
      simp [h]
    rw [polls_append]
    obtain ⟨s, hs, ⟨hsys, -, h⟩ | ⟨hsys, -, h⟩ | ⟨-, hsys, -, h⟩⟩ := reports_cases samples pin
    · have hbit : s.getLsbD k = pressed pin b := hs ▸ polls_scan hb samples pin
      rw [h, List.filter_append, List.filter_cons_of_pos hsys, List.filter_nil,
        List.getLast?_append]
      exact hbit
    · rw [hskip hsys, h]
      exact ih
    · rw [hskip hsys, h]
      exact ih

theorem reports_sysrq (hb : b ∈ jzButton) (hcode : b.sysrq ≠ 0) (pre : List (Nat → Bool))
    (hsys : sysrqPoll pin = true) :
    Event.sysrq b.sysrq ∈ reports pre pin ↔
      pressed pin b = true ∧ (pre.filter sysrqPoll).getLast?.any (pressed · b) = false := by
  obtain ⟨k, hk⟩ := List.getElem?_of_mem hb
  unfold reports
  obtain ⟨s, hs, ⟨-, -, h⟩ | ⟨hno, -⟩ | ⟨-, hno, -⟩⟩ := reports_cases pre pin
  · have hbit : s.getLsbD k = pressed pin b := hs ▸ polls_scan hk pre pin
    rw [h, mem_pollSysrq hk hcode, hbit, polls_sysrqState hk]
  · rw [hsys] at hno
    exact absurd hno (by decide)
  · rw [hsys] at hno
    exact absurd hno (by decide)

/-- Slider, START and D-pad up pressed. -/
def upRequested : Nat → Bool := fun g => g ≠ 125 && g ≠ 81 && g ≠ 102

/-- D-pad up is pressed with slider and START, everything is released, and the same is
pressed again: the second press issues nothing.  D-pad up pressed before them does. -/
theorem polls_sysrq_missed :
    sysrqPoll upRequested = true ∧
    (∃ b ∈ jzButton, pressed upRequested b = true ∧ pressed (fun _ => true) b = false ∧
      b.sysrq ≠ 0 ∧ Event.sysrq b.sysrq ∉ reports [upRequested, fun _ => true] upRequested) ∧
    ∃ b ∈ jzButton, pressed (fun g => g ≠ 102) b = true ∧
      b.sysrq ≠ 0 ∧ Event.sysrq b.sysrq ∈ reports [fun g => g ≠ 102] upRequested := by
  decide

/-- **The system request of a button is issued on its presses and only then, in the runs where
every poll with slider and START finds the buttons it sees as the last such poll saw them.** -/
theorem polls_sysrq_edges (samples : List (Nat → Bool)) :
    (∀ pre pin, pre ++ [pin] <+: samples → sysrqPoll pin = true →
      ∀ b ∈ jzButton, b.sysrq ≠ 0 →
        (Event.sysrq b.sysrq ∈ reports pre pin ↔
          pressed pin b = true ∧ pre.getLast?.any (pressed · b) = false)) ↔
    (∀ pre pin, pre ++ [pin] <+: samples → sysrqPoll pin = true →
      ∀ b ∈ jzButton, b.sysrq ≠ 0 → pressed pin b = true →
        (pre.filter sysrqPoll).getLast?.any (pressed · b) = pre.getLast?.any (pressed · b)) := by
  constructor
  · intro h pre pin hpre hsys b hb hcode hon
    have hiff := h pre pin hpre hsys b hb hcode
    rw [reports_sysrq hb hcode pre hsys, hon] at hiff
    simpa using hiff
  · intro h pre pin hpre hsys b hb hcode
    rw [reports_sysrq hb hcode pre hsys]
    refine and_congr_right fun hon => ?_
    rw [h pre pin hpre hsys b hb hcode hon]

end Dingoo.GpioKeys
