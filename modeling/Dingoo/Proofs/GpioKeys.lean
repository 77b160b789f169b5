/-
The key events of the button driver over whole runs.

Every keycode of the table is fed from one bit of one state word: bit `k` of
`normal_state` for the normal code of button `k`, bit `k` of `special_state` for its
special code.  A poll reports the code exactly when it changes that bit, with the new
value (`normal_edge`, `special_edge`).  So along a run the values reported for a code
are the successive values of its bit, without repetitions: they alternate, and the
last one is the bit itself (`edges_run`).

What the bit is depends on the branch taken.  The normal word follows every poll with
the slider released; the special word is only touched with the slider pressed and
START released, so it keeps what the last such poll saw.
-/
import Mathlib.Data.List.Chain
import Dingoo.Lib.Masks
import Dingoo.Linux.GpioKeys

namespace Dingoo.GpioKeys

open Dingoo.Lib

variable {b : Button} {k c : Nat} {code : Button → Nat} {pin : Nat → Bool}

/-! ### Bits of the loops -/

theorem setBits_getLsbD (test : Button → Bool) : ∀ (l : List Button) (i : Nat)
    (s : BitVec 32), i + l.length ≤ 32 →
    (setBits test s (1#32 <<< i) l).getLsbD k
      = (s.getLsbD k || (decide (i ≤ k) && l[k - i]?.any test)) := by
  intro l
  induction l with
  | nil => intro i s _; simp [setBits]
  | cons b l ih =>
    intro i s hlen
    rw [List.length_cons] at hlen
    rw [setBits, ← BitVec.shiftLeft_add, ih (i + 1) _ (by omega)]
    -- the bit is this button's, an earlier one, or one the rest of the loop sets
    rcases Nat.lt_trichotomy k i with hk | rfl | hk
    · have h1 : ¬ i ≤ k := by omega
      have h2 : ¬ i + 1 ≤ k := by omega
      cases test b <;> simp [h1, h2, hk]
    · have hk32 : k < 32 := by omega
      have hpast : ¬ k + 1 ≤ k := by omega
      cases ht : test b <;> simp [hk32, hpast, ht]
    · have h1 : i ≤ k := by omega
      have h2 : i + 1 ≤ k := by omega
      have h3 : k - i = (k - (i + 1)) + 1 := by omega
      have h4 : (1#32 <<< i).getLsbD k = false := by
        rw [← BitVec.twoPow_eq, BitVec.getLsbD_twoPow]
        simp
        omega
      cases test b <;> simp [h1, h2, h3, h4]

/-- The scanned word holds the sampled states, with the active low mask of the driver. -/
theorem scan_getLsbD (hb : jzButton[k]? = some b) (pin : Nat → Bool) :
    (setBits (fun b => pin b.gpio) 0 1 jzButton ^^^ jzKbdInit.actlow).getLsbD k
      = pressed pin b := by
  have hbit : ∀ test : Button → Bool, (setBits test 0 1 jzButton).getLsbD k = test b := by
    intro test
    rw [show (1 : BitVec 32) = 1#32 <<< 0 from rfl, setBits_getLsbD test jzButton 0 0 (by decide)]
    simp [hb]
  rw [BitVec.getLsbD_xor, hbit]
  simp only [jzKbdInit, hbit, pressed]

/-! ### The values a loop reports -/

theorem values_append (code : Nat) (l₁ l₂ : List Event) :
    values code (l₁ ++ l₂) = values code l₁ ++ values code l₂ :=
  List.filterMap_append

@[simp] theorem values_inputSync (code sync : Nat) : values code (inputSync sync) = [] := by
  unfold inputSync
  split <;> rfl

/-- The body of the two reporting loops. -/
def reportKey (code : Button → Nat) (x s : BitVec 32) (m : BitVec 32) (b : Button) :
    List Event :=
  if x &&& m ≠ 0 ∧ code b ≠ 0 then [.key (code b) (s &&& m ≠ 0)] else []

theorem forButtons_append (body : BitVec 32 → Button → List Event) :
    ∀ (l₁ l₂ : List Button) (i : Nat),
    forButtons body (1#32 <<< i) (l₁ ++ l₂)
      = forButtons body (1#32 <<< i) l₁ ++ forButtons body (1#32 <<< (i + l₁.length)) l₂ := by
  intro l₁
  induction l₁ with
  | nil => intro l₂ i; rfl
  | cons b l₁ ih =>
    intro l₂ i
    rw [List.cons_append, forButtons, forButtons, ← BitVec.shiftLeft_add, ih l₂ (i + 1),
      List.append_assoc, List.length_cons, Nat.add_right_comm i 1, Nat.add_assoc i]

theorem values_forButtons_of_ne {body : BitVec 32 → Button → List Event} :
    ∀ (l : List Button) (m : BitVec 32), (∀ b ∈ l, ∀ m, values c (body m b) = []) →
    values c (forButtons body m l) = [] := by
  intro l
  induction l with
  | nil => intro m _; rfl
  | cons b l ih =>
    intro m hl
    rw [forButtons, values_append, hl b (by simp), ih _ (fun b hb => hl b (by simp [hb])),
      List.append_nil]

theorem values_reportKey_of_ne {x s m : BitVec 32} (h : code b ≠ c) :
    values c (reportKey code x s m b) = [] := by
  unfold reportKey
  split
  · simp [values, h]
  · rfl

theorem values_reportKeys {x s : BitVec 32} (hb : jzButton[k]? = some b) (hcode : code b ≠ 0)
    (hbefore : ∀ b' ∈ jzButton.take k, code b' ≠ code b)
    (hafter : ∀ b' ∈ jzButton.drop (k + 1), code b' ≠ code b) :
    values (code b) (reportKeys code x s)
      = if x.getLsbD k = true then [s.getLsbD k] else [] := by
  obtain ⟨hlt, hget⟩ := List.getElem?_eq_some_iff.mp hb
  have hk : k < 32 := Nat.lt_trans hlt (by decide)
  have hsplit : jzButton = jzButton.take k ++ b :: jzButton.drop (k + 1) := by
    rw [← hget, List.getElem_cons_drop, List.take_append_drop]
  have hlen : (jzButton.take k).length = k := List.length_take_of_le (Nat.le_of_lt hlt)
  have hloop : reportKeys code x s = forButtons (reportKey code x s) (1#32 <<< 0) jzButton := rfl
  rw [hloop, hsplit, forButtons_append, forButtons, hlen, values_append, values_append,
    values_forButtons_of_ne _ _ (fun b' hb' _ => values_reportKey_of_ne (hbefore b' hb')),
    values_forButtons_of_ne _ _ (fun b' hb' _ => values_reportKey_of_ne (hafter b' hb')),
    List.nil_append, List.append_nil, Nat.zero_add]
  simp only [reportKey, and_shifted_one hk, hcode, ne_eq, not_false_eq_true, and_true]
  split
  · by_cases hs : s.getLsbD k = true <;> simp [values, hs]
  · rfl

theorem values_reportKeys_of_ne {x s : BitVec 32} (h : ∀ b ∈ jzButton, code b ≠ c) :
    values c (reportKeys code x s) = [] :=
  values_forButtons_of_ne _ _ fun b hb _ => values_reportKey_of_ne (h b hb)

/-! ### A poll reports the changes of its word -/

/-- What a poll reports for a code fed from a bit that goes from `old` to `new`. -/
def edge (old new : Bool) : List Bool := if new = old then [] else [new]

theorem values_pollPower (h : keyPower ≠ c) (kbd : Kbd) : values c (pollPower kbd).1 = [] := by
  unfold pollPower
  split
  · rfl
  · split
    · simp only [values_append]
      split <;> split <;> simp [values, h]
    · rfl

theorem jzKbdPoll_cases (kbd : Kbd) (pin : Nat → Bool) :
    ∃ s, s = setBits (fun b => pin b.gpio) 0 1 jzButton ^^^ kbd.actlow ∧
      ((sliderPressed pin = true ∧ s.getLsbD sysrqAlt = true ∧
          jzKbdPoll kbd pin = pollSysrq kbd s) ∨
       (sliderPressed pin = true ∧ s.getLsbD sysrqAlt = false ∧
          jzKbdPoll kbd pin = pollSpecial kbd s) ∨
       (sliderPressed pin = false ∧ jzKbdPoll kbd pin = pollNormal kbd s)) := by
  refine ⟨_, rfl, ?_⟩
  unfold jzKbdPoll sliderPressed
  have hbit := @and_shifted_one 32 (setBits (fun b => pin b.gpio) 0 1 jzButton ^^^ kbd.actlow)
    sysrqAlt (by decide)
  cases hp : pin gpioPower with
  | true => exact .inr (.inr ⟨rfl, rfl⟩)
  | false =>
    by_cases hs : (setBits (fun b => pin b.gpio) 0 1 jzButton ^^^ kbd.actlow).getLsbD sysrqAlt
        = true
    · exact .inl ⟨rfl, hs, if_pos (hbit.mpr hs)⟩
    · exact .inr (.inl ⟨rfl, by simpa using hs, if_neg (fun h => hs (hbit.mp h))⟩)

@[simp] theorem edge_self (v : Bool) : edge v v = [] := if_pos rfl

theorem values_pollSysrq (c : Nat) (kbd : Kbd) (s : BitVec 32) :
    values c (pollSysrq kbd s).2 = [] := by
  unfold pollSysrq
  rw [values_append, values_inputSync, List.append_nil]
  refine values_forButtons_of_ne _ _ fun b _ m => ?_
  split <;> rfl

/-- `code` gives button `k` a code of its own. -/
def OwnCode (code : Button → Nat) (k : Nat) (b : Button) : Prop :=
  code b ≠ 0 ∧ keyPower ≠ code b ∧
    (∀ b' ∈ jzButton.take k, code b' ≠ code b) ∧ ∀ b' ∈ jzButton.drop (k + 1), code b' ≠ code b

instance (code : Button → Nat) (k : Nat) (b : Button) : Decidable (OwnCode code k b) :=
  inferInstanceAs (Decidable (_ ∧ _ ∧ _ ∧ _))

section
variable (hb : jzButton[k]? = some b)
include hb

theorem jzButton_codes :
    OwnCode (·.ncode) k b ∧ (∀ b' ∈ jzButton, b'.scode ≠ b.ncode) ∧
    (b.scode ≠ 0 → OwnCode (·.scode) k b) ∧ ∀ b' ∈ jzButton, b'.ncode ≠ b.scode := by
  obtain ⟨hlt, rfl⟩ := List.getElem?_eq_some_iff.mp hb
  have htable : ∀ j : Fin jzButton.length, OwnCode (·.ncode) j (jzButton.get j) ∧
      (∀ b' ∈ jzButton, b'.scode ≠ (jzButton.get j).ncode) ∧
      ((jzButton.get j).scode ≠ 0 → OwnCode (·.scode) j (jzButton.get j)) ∧
      ∀ b' ∈ jzButton, b'.ncode ≠ (jzButton.get j).scode := by decide
  exact htable ⟨k, hlt⟩

theorem values_word (hown : OwnCode code k b) (s w : BitVec 32) :
    values (code b) (reportKeys code (s ^^^ w) s) = edge (w.getLsbD k) (s.getLsbD k) := by
  obtain ⟨hcode, -, hbefore, hafter⟩ := hown
  rw [values_reportKeys hb hcode hbefore hafter, BitVec.getLsbD_xor]
  cases s.getLsbD k <;> cases w.getLsbD k <;> rfl

theorem normal_edge (kbd : Kbd) (pin : Nat → Bool) :
    values b.ncode (jzKbdPoll kbd pin).2
      = edge (kbd.normalState.getLsbD k) ((jzKbdPoll kbd pin).1.normalState.getLsbD k) := by
  obtain ⟨hown, hscode, -⟩ := jzButton_codes hb
  obtain ⟨s, -, ⟨-, -, h⟩ | ⟨-, -, h⟩ | ⟨-, h⟩⟩ := jzKbdPoll_cases kbd pin
  · rw [h, values_pollSysrq]
    exact (edge_self _).symm
  · rw [h]
    simp only [pollSpecial, values_append, values_inputSync, values_reportKeys_of_ne hscode,
      values_pollPower hown.2.1, List.append_nil, edge_self]
  · rw [h]
    simp only [pollNormal, values_append, values_inputSync, List.append_nil]
    exact values_word hb hown s kbd.normalState

theorem special_edge (hcode : b.scode ≠ 0) (kbd : Kbd) (pin : Nat → Bool) :
    values b.scode (jzKbdPoll kbd pin).2
      = edge (kbd.specialState.getLsbD k) ((jzKbdPoll kbd pin).1.specialState.getLsbD k) := by
  obtain ⟨-, -, hown, hncode⟩ := jzButton_codes hb
  obtain ⟨s, -, ⟨-, -, h⟩ | ⟨-, -, h⟩ | ⟨-, h⟩⟩ := jzKbdPoll_cases kbd pin
  · rw [h, values_pollSysrq]
    exact (edge_self _).symm
  · rw [h]
    simp only [pollSpecial, values_append, values_inputSync, values_pollPower (hown hcode).2.1,
      List.append_nil]
    exact values_word hb (hown hcode) s kbd.specialState
  · rw [h]
    simp only [pollNormal, values_append, values_inputSync, values_reportKeys_of_ne hncode,
      List.append_nil, edge_self]

end

/-! ### Runs -/

theorem polls_append (samples : List (Nat → Bool)) (pin : Nat → Bool) :
    polls (samples ++ [pin])
      = ((jzKbdPoll (polls samples).1 pin).1,
         (polls samples).2 ++ (jzKbdPoll (polls samples).1 pin).2) := by
  simp only [polls, List.foldl_append, List.foldl_cons, List.foldl_nil]

theorem alternates_edge {l : List Bool} (h : Alternates l) (new : Bool) :
    Alternates (l ++ edge (l.getLastD false) new) ∧
    (l ++ edge (l.getLastD false) new).getLastD false = new := by
  unfold edge
  split
  · rename_i hnew
    rw [List.append_nil]
    exact ⟨h, hnew.symm⟩
  · rename_i hnew
    refine ⟨?_, by simp⟩
    unfold Alternates at h ⊢
    rw [← List.cons_append, List.isChain_append]
    refine ⟨h, List.isChain_singleton _, ?_⟩
    intro x hx y hy
    rw [List.getLast?_cons] at hx
    simp only [List.head?_cons, Option.mem_def, Option.some.injEq] at hx hy
    rw [← hx, ← hy]
    simpa [List.getLastD_eq_getLast?] using Ne.symm hnew

/-- A code fed from a bit of the state: its reports alternate and end at that bit. -/
theorem edges_run {bit : Kbd → Bool} (hinit : bit jzKbdInit = false)
    (hstep : ∀ kbd pin, values c (jzKbdPoll kbd pin).2
      = edge (bit kbd) (bit (jzKbdPoll kbd pin).1)) (samples : List (Nat → Bool)) :
    Alternates (values c (polls samples).2) ∧
    lastValue c (polls samples).2 = bit (polls samples).1 := by
  induction samples using List.reverseRecOn with
  | nil => exact ⟨List.isChain_singleton _, hinit.symm⟩
  | append_singleton samples pin ih =>
    obtain ⟨halt, hlast⟩ := ih
    have hnext := alternates_edge halt (bit (jzKbdPoll (polls samples).1 pin).1)
    rw [show (values c (polls samples).2).getLastD false = bit (polls samples).1 from hlast,
      ← hstep, ← values_append] at hnext
    rw [polls_append]
    exact hnext

theorem polls_actlow (samples : List (Nat → Bool)) :
    (polls samples).1.actlow = jzKbdInit.actlow := by
  induction samples using List.reverseRecOn with
  | nil => rfl
  | append_singleton samples pin ih =>
    rw [polls_append, ← ih]
    obtain ⟨s, -, ⟨-, -, h⟩ | ⟨-, -, h⟩ | ⟨-, h⟩⟩ := jzKbdPoll_cases (polls samples).1 pin <;>
      rw [h] <;> rfl

theorem polls_scan (hb : jzButton[k]? = some b) (samples : List (Nat → Bool)) (pin : Nat → Bool) :
    (setBits (fun b => pin b.gpio) 0 1 jzButton ^^^ (polls samples).1.actlow).getLsbD k
      = pressed pin b := by
  rw [polls_actlow]
  exact scan_getLsbD hb pin

theorem polls_normalState (hb : jzButton[k]? = some b) (samples : List (Nat → Bool))
    (hoff : sliderPressed pin = false) :
    (polls (samples ++ [pin])).1.normalState.getLsbD k = pressed pin b := by
  rw [polls_append]
  obtain ⟨s, hs, ⟨hon, -⟩ | ⟨hon, -⟩ | ⟨-, h⟩⟩ := jzKbdPoll_cases (polls samples).1 pin
  · exact absurd (hon.symm.trans hoff) (by decide)
  · exact absurd (hon.symm.trans hoff) (by decide)
  · rw [h, ← polls_scan hb samples pin, ← hs]
    rfl

/-- **Every keycode is reported as press, release, press, …, and with the slider released
the reports agree with the buttons.** -/
theorem polls_events (samples : List (Nat → Bool)) :
    (∀ b ∈ jzButton, Alternates (values b.ncode (polls samples).2) ∧
      (b.scode ≠ 0 → Alternates (values b.scode (polls samples).2))) ∧
    ∀ pin, sliderPressed pin = false → ∀ b ∈ jzButton,
      lastValue b.ncode (polls (samples ++ [pin])).2 = pressed pin b := by
  refine ⟨fun b hb => ?_, fun pin hoff b hb => ?_⟩
  · obtain ⟨k, hk⟩ := List.getElem?_of_mem hb
    refine ⟨(edges_run ?_ (normal_edge hk) samples).1, fun hcode =>
      (edges_run ?_ (special_edge hk hcode) samples).1⟩
    · simp [jzKbdInit]
    · simp [jzKbdInit]
  · obtain ⟨k, hk⟩ := List.getElem?_of_mem hb
    rw [(edges_run (by simp [jzKbdInit]) (normal_edge hk) (samples ++ [pin])).2]
    exact polls_normalState hk samples hoff

/-! ### The special keycodes -/

/-- The polls that update the special word: slider pressed, START released. -/
def specialPoll (pin : Nat → Bool) : Bool := sliderPressed pin && !startPressed pin

theorem filter_append_skip {samples : List (Nat → Bool)} (h : specialPoll pin = false) :
    (samples ++ [pin]).filter specialPoll = samples.filter specialPoll := by
  simp [h]

theorem polls_specialState (hb : jzButton[k]? = some b) (samples : List (Nat → Bool)) :
    (polls samples).1.specialState.getLsbD k
      = (samples.filter specialPoll).getLast?.any (pressed · b) := by
  induction samples using List.reverseRecOn with
  | nil => simp [polls, jzKbdInit]
  | append_singleton samples pin ih =>
    obtain ⟨s, hs, hcases⟩ := jzKbdPoll_cases (polls samples).1 pin
    have hstart : startPressed pin = s.getLsbD sysrqAlt := by
      rw [hs]
      exact (polls_scan rfl samples pin).symm
    rw [polls_append]
    rcases hcases with ⟨hon, halt, h⟩ | ⟨hon, halt, h⟩ | ⟨hoff, h⟩
    · have hskip : specialPoll pin = false := by rw [specialPoll, hstart, halt, hon]; rfl
      rw [filter_append_skip hskip, h]
      exact ih
    · have htake : specialPoll pin = true := by rw [specialPoll, hstart, halt, hon]; rfl
      have hbit : s.getLsbD k = pressed pin b := hs ▸ polls_scan hb samples pin
      rw [h, List.filter_append, List.filter_cons_of_pos htake, List.filter_nil,
        List.getLast?_append]
      exact hbit
    · have hskip : specialPoll pin = false := by rw [specialPoll, hoff]; rfl
      rw [filter_append_skip hskip, h]
      exact ih

/-- Slider and D-pad up pressed, then the slider released first. -/
theorem polls_volume_stuck :
    sliderPressed (fun g => g ≠ 102) = false ∧
    lastValue 115 (polls [fun g => g ≠ 125 && g ≠ 102, fun g => g ≠ 102]).2 = true := by
  decide

/-- **A special key is left pressed exactly when the slider is released over it**: in every
run, no poll with the slider released leaves a special keycode pressed if and only if at
each of them the last poll that reported special keycodes saw none of their buttons. -/
theorem polls_special_released (samples : List (Nat → Bool)) :
    (∀ pre pin, pre ++ [pin] <+: samples → sliderPressed pin = false →
      ∀ b ∈ jzButton, b.scode ≠ 0 → lastValue b.scode (polls (pre ++ [pin])).2 = false) ↔
    (∀ pre pin, pre ++ [pin] <+: samples → sliderPressed pin = false →
      ∀ seen ∈ (pre.filter specialPoll).getLast?,
        ∀ b ∈ jzButton, b.scode ≠ 0 → pressed seen b = false) := by
  have hpoint : ∀ pre pin, sliderPressed pin = false → ∀ b ∈ jzButton, b.scode ≠ 0 →
      lastValue b.scode (polls (pre ++ [pin])).2
        = (pre.filter specialPoll).getLast?.any (pressed · b) := by
    intro pre pin hoff b hb hcode
    obtain ⟨k, hk⟩ := List.getElem?_of_mem hb
    have hskip : specialPoll pin = false := by simp [specialPoll, hoff]
    rw [(edges_run (by simp [jzKbdInit]) (special_edge hk hcode) (pre ++ [pin])).2,
      polls_specialState hk, filter_append_skip hskip]
  constructor
  · intro h pre pin hpre hoff seen hseen b hb hcode
    have hlast := h pre pin hpre hoff b hb hcode
    rw [hpoint pre pin hoff b hb hcode, Option.mem_def.mp hseen] at hlast
    exact hlast
  · intro h pre pin hpre hoff b hb hcode
    rw [hpoint pre pin hoff b hb hcode]
    cases hseen : (pre.filter specialPoll).getLast? with
    | none => rfl
    | some seen => exact h pre pin hpre hoff seen (Option.mem_def.mpr hseen) b hb hcode

end Dingoo.GpioKeys
