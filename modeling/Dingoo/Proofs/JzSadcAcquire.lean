/-
Divisions of the touch screen acquisition.

Only the validity tests can divide by zero: they divide by the smaller one of two
consecutive samples.  The divisors of the averages are constant, and those of the screen
coordinates are differences of the calibration, which are not zero whatever their sign.
The tests stop at the first one that fails, so a sample of zero does no harm if an
earlier test has failed.  `checkDeltas_isSome_iff` says that of a list of comparisons.
-/
import Dingoo.Proofs.JzSadcScreen

namespace Dingoo.Ts

variable {ts : JzTs}

/-! ### Calls -/

/-- A call of `AcquireEvent`: the device, what the converter delivers, and the event. -/
structure Acquisition where
  ts : JzTs
  words : Nat → BitVec 32 × BitVec 32
  event : TsEvent

/-- The samples of a call. -/
def Acquisition.raw (c : Acquisition) : List Raw :=
  (List.range samples).map fun i => adcRead (c.words i)

/-- Calls one after the other; `none` if one divides by zero. -/
def acquireAll : Sadc → List Acquisition → Option Sadc
  | s, [] => some s
  | s, c :: calls => (acquireEvent c.ts s c.words c.event).bind fun r => acquireAll r.2.2.2 calls

/-- The test passes: the samples differ by less than 21 parts in 100 of the smaller one. -/
def Steady (p : BitVec 32 × BitVec 32) : Prop :=
  100 * (max p.1.toNat p.2.toNat - min p.1.toNat p.2.toNat) < 21 * min p.1.toNat p.2.toNat

/-- No test that is reached divides by zero. -/
def SafeDeltas (l : List (BitVec 32 × BitVec 32)) : Prop :=
  ∀ pre a b post, l = pre ++ (a, b) :: post → (∀ p ∈ pre, Steady p) → a ≠ 0 ∧ b ≠ 0

/-! ### The validity tests -/

theorem quot_isSome {a b : BitVec 32} : (quot a b).isSome ↔ b ≠ 0 := by
  unfold quot
  by_cases hb : b = 0
  · rw [if_pos hb]
    exact ⟨fun h => (by cases h), fun h => absurd hb h⟩
  · rw [if_neg hb]
    exact ⟨fun _ => hb, fun _ => rfl⟩

theorem MIN_toNat (a b : BitVec 32) : (MIN a b).toNat = min a.toNat b.toNat := by
  unfold MIN
  by_cases hlt : a < b
  · rw [if_pos hlt]
    exact (Nat.min_eq_left (Nat.le_of_lt (BitVec.lt_def.mp hlt))).symm
  · rw [if_neg hlt]
    exact (Nat.min_eq_right (BitVec.le_def.mp (BitVec.not_lt.mp hlt))).symm

theorem DIFF_toNat (a b : BitVec 32) :
    (DIFF a b).toNat = max a.toNat b.toNat - min a.toNat b.toNat := by
  unfold DIFF
  by_cases hgt : a > b
  · have hlt : b.toNat < a.toNat := BitVec.lt_def.mp hgt
    rw [if_pos hgt, BitVec.toNat_sub_of_le (BitVec.le_def.mpr (Nat.le_of_lt hlt)),
      Nat.max_eq_left (Nat.le_of_lt hlt), Nat.min_eq_right (Nat.le_of_lt hlt)]
  · have hle : a.toNat ≤ b.toNat := BitVec.le_def.mp (BitVec.not_lt.mp hgt)
    rw [if_neg hgt, BitVec.toNat_sub_of_le (BitVec.le_def.mpr hle), Nat.max_eq_right hle,
      Nat.min_eq_left hle]

theorem MIN_eq_zero_iff (a b : BitVec 32) : MIN a b = 0 ↔ a = 0 ∨ b = 0 := by
  rw [← BitVec.toNat_inj, ← BitVec.toNat_inj, ← BitVec.toNat_inj, MIN_toNat]
  show min a.toNat b.toNat = 0 ↔ a.toNat = 0 ∨ b.toNat = 0
  omega

theorem quot_delta {a b : BitVec 32} (ha : a.toNat ≤ 4095) (hb : b.toNat ≤ 4095)
    (hne : ¬ (a = 0 ∨ b = 0)) :
    ∃ q, quot (100 * DIFF a b) (MIN a b) = some q ∧ (q > MAX_DELTA ↔ ¬ Steady (a, b)) := by
  have hmin : MIN a b ≠ 0 := fun h => hne ((MIN_eq_zero_iff a b).mp h)
  refine ⟨_, if_neg hmin, ?_⟩
  have hpos : 0 < min a.toNat b.toNat := by
    rw [← MIN_toNat]
    exact Nat.pos_of_ne_zero fun h => hmin (BitVec.toNat_inj.mp h)
  have hmul : (100 * DIFF a b).toNat = 100 * (max a.toNat b.toNat - min a.toNat b.toNat) := by
    rw [BitVec.toNat_mul, DIFF_toNat]
    exact Nat.mod_eq_of_lt (by
      show 100 * (max a.toNat b.toNat - min a.toNat b.toNat) < 4294967296
      omega)
  have hlimit : MAX_DELTA.toNat = 20 := rfl
  rw [gt_iff_lt, BitVec.lt_def, BitVec.toNat_udiv, hmul, MIN_toNat, hlimit, Steady, not_lt,
    Nat.lt_iff_add_one_le, Nat.le_div_iff_mul_le hpos]

theorem safeDeltas_cons {a b : BitVec 32} {rest : List (BitVec 32 × BitVec 32)} :
    SafeDeltas ((a, b) :: rest) ↔ (a ≠ 0 ∧ b ≠ 0) ∧ (Steady (a, b) → SafeDeltas rest) := by
  constructor
  · intro h
    refine ⟨h [] a b rest rfl (by simp), fun hsteady pre c d post heq hpre => ?_⟩
    exact h ((a, b) :: pre) c d post (by rw [heq]; rfl) (List.forall_mem_cons.mpr ⟨hsteady, hpre⟩)
  · rintro ⟨hfirst, hrest⟩ pre c d post heq hpre
    cases pre with
    | nil =>
      obtain ⟨hab, -⟩ := List.cons.inj heq
      cases hab
      exact hfirst
    | cons p pre =>
      obtain ⟨rfl, htail⟩ := List.cons.inj heq
      obtain ⟨hsteady, hpre⟩ := List.forall_mem_cons.mp hpre
      exact hrest hsteady pre c d post htail hpre

/-- **The tests come to a result** if none that is reached divides by zero. -/
theorem checkDeltas_isSome_iff : ∀ (l : List (BitVec 32 × BitVec 32)),
    (∀ p ∈ l, p.1.toNat ≤ 4095 ∧ p.2.toNat ≤ 4095) →
    ((checkDeltas l).isSome ↔ SafeDeltas l) := by
  intro l
  induction l with
  | nil =>
    intro _
    refine ⟨fun _ pre a b post heq _ => ?_, fun _ => rfl⟩
    simp at heq
  | cons p rest ih =>
    intro hsmall
    obtain ⟨a, b⟩ := p
    obtain ⟨⟨ha, hb⟩, hrest⟩ := List.forall_mem_cons.mp hsmall
    rw [safeDeltas_cons, checkDeltas]
    by_cases hzero : a = 0 ∨ b = 0
    · have hnone : quot (100 * DIFF a b) (MIN a b) = none :=
        if_pos ((MIN_eq_zero_iff a b).mpr hzero)
      rw [hnone]
      refine ⟨fun h => (by cases h), fun h => ?_⟩
      exact absurd hzero (not_or.mpr h.1)
    · obtain ⟨q, hq, hsteady⟩ := quot_delta ha hb hzero
      rw [hq, Option.bind_some]
      by_cases hlarge : q > MAX_DELTA
      · rw [if_pos hlarge]
        exact ⟨fun _ => ⟨not_or.mp hzero, fun h => absurd h (hsteady.mp hlarge)⟩, fun _ => rfl⟩
      · rw [if_neg hlarge, ih hrest]
        have hpass : Steady (a, b) := not_not.mp fun h => hlarge (hsteady.mpr h)
        exact ⟨fun h => ⟨not_or.mp hzero, fun _ => h⟩, fun h => h.2 hpass⟩

/-! ### The other divisions -/

/-- The differences of the calibration. -/
structure Ordered (ts : JzTs) : Prop where
  minx_lt : ts.minx.toInt < ts.maxx.toInt
  miny_lt : ts.miny.toInt < ts.maxy.toInt

theorem sub_ne_zero_of_lt {a b : BitVec 32} (h : a.toInt < b.toInt) : b - a ≠ 0 := by
  intro hzero
  have hsame : b = a := (BitVec.sub_eq_iff_eq_add.mp hzero).trans (BitVec.zero_add a)
  rw [hsame] at h
  exact Int.lt_irrefl _ h

theorem isSome_bind {α β : Type} {o : Option α} {f : α → Option β} (ho : o.isSome)
    (hf : ∀ a, (f a).isSome) : (o.bind f).isSome := by
  obtain ⟨a, rfl⟩ := Option.isSome_iff_exists.mp ho
  exact hf a

theorem toScreen_isSome {lo hi min max size v : BitVec 32} (h : max - min ≠ 0) :
    (toScreen lo hi min max size v).isSome := quot_isSome.mpr h

theorem screenPoint_isSome (hts : Ordered ts) (point : Raw) : (screenPoint ts point).isSome := by
  have hx : (transformToScreenX ts point.x).isSome := by
    unfold transformToScreenX
    split
    · exact toScreen_isSome (sub_ne_zero_of_lt hts.minx_lt)
    · exact toScreen_isSome (by decide)
  have hy : (transformToScreenY ts point.y).isSome := by
    unfold transformToScreenY
    split
    · exact toScreen_isSome (sub_ne_zero_of_lt hts.miny_lt)
    · exact toScreen_isSome (by decide)
  unfold screenPoint
  split
  · exact isSome_bind hx fun _ => isSome_bind hy fun _ => rfl
  · rfl

theorem samples_ne_zero : BitVec.ofNat 32 samples ≠ 0 := by decide

theorem acquireValid_isSome (hts : Ordered ts) (s : Sadc) (raw : List Raw) (event : TsEvent) :
    (acquireValid ts s raw event).isSome := by
  have hdiv : ∀ a, (quot a (BitVec.ofNat 32 samples)).isSome := fun _ =>
    quot_isSome.mpr samples_ne_zero
  have hcal : (calibrateSamples raw (BitVec.ofNat 32 samples) s).isSome :=
    isSome_bind (hdiv _) fun _ => isSome_bind (hdiv _) fun _ => isSome_bind (hdiv _) fun _ => rfl
  refine isSome_bind hcal fun r => ?_
  split
  · refine isSome_bind ?_ fun _ => rfl
    exact isSome_bind (screenPoint_isSome hts r.2.1) fun _ => rfl
  · rfl

theorem checkOld_ordered (hts : Ordered ts) (avlX avlY : BitVec 32) (s : Sadc) :
    Ordered (checkOld avlX avlY ts s).2.1 := by
  have hkeep : (checkOld avlX avlY ts s).2.1 = { ts with firstRead := false } := by
    unfold checkOld
    dsimp only
    rw [apply_ite (fun r : Bool × JzTs × Sadc => r.2.1)]
    exact ite_self _
  rw [hkeep]
  exact ⟨hts.minx_lt, hts.miny_lt⟩

theorem acquireEvent_isSome_iff {c : Acquisition} (hts : Ordered c.ts) (s : Sadc) :
    (acquireEvent c.ts s c.words c.event).isSome ↔ (checkDeltas (deltas c.raw)).isSome := by
  obtain ⟨avlX, hx⟩ := Option.isSome_iff_exists.mp
    (quot_isSome (a := total Raw.x c.raw).mpr samples_ne_zero)
  obtain ⟨avlY, hy⟩ := Option.isSome_iff_exists.mp
    (quot_isSome (a := total Raw.y c.raw).mpr samples_ne_zero)
  unfold acquireEvent
  dsimp only
  rw [← Acquisition.raw, hx, Option.bind_some, hy, Option.bind_some]
  cases hcheck : checkDeltas (deltas c.raw) with
  | none => exact Iff.rfl
  | some valid =>
    refine ⟨fun _ => rfl, fun _ => ?_⟩
    rw [Option.bind_some]
    split
    · split
      · have hread : Ordered { c.ts with sleeping := false } := ⟨hts.1, hts.2⟩
        exact acquireValid_isSome (checkOld_ordered hread avlX avlY s) _ c.raw c.event
      · rfl
    · rfl

/-! ### All calls -/

theorem adcRead_small (w : BitVec 32 × BitVec 32) :
    (adcRead w).x.toNat ≤ 4095 ∧ (adcRead w).y.toNat ≤ 4095 ∧ (adcRead w).p.toNat ≤ 4095 := by
  have hmask : ∀ v : BitVec 32, (v &&& 0x0fff).toNat ≤ 4095 := by
    intro v
    rw [BitVec.toNat_and]
    exact Nat.and_le_right
  exact ⟨hmask _, hmask _, hmask _⟩

theorem deltas_small : ∀ (raw : List Raw),
    (∀ r ∈ raw, r.x.toNat ≤ 4095 ∧ r.y.toNat ≤ 4095 ∧ r.p.toNat ≤ 4095) →
    ∀ p ∈ deltas raw, p.1.toNat ≤ 4095 ∧ p.2.toNat ≤ 4095 := by
  intro raw
  induction raw with
  | nil => intro _ p hp; cases hp
  | cons a raw ih =>
    intro hraw p hp
    obtain ⟨⟨hax, hay, hap⟩, hrest⟩ := List.forall_mem_cons.mp hraw
    cases raw with
    | nil => cases hp
    | cons b raw =>
      obtain ⟨hbx, hby, hbp⟩ := hrest b List.mem_cons_self
      rw [deltas] at hp
      rcases List.mem_cons.mp hp with rfl | hp
      · exact ⟨hbx, hax⟩
      rcases List.mem_cons.mp hp with rfl | hp
      · exact ⟨hby, hay⟩
      rcases List.mem_cons.mp hp with rfl | hp
      · exact ⟨hbp, hap⟩
      exact ih hrest p hp

theorem Acquisition.deltas_small (c : Acquisition) :
    ∀ p ∈ deltas c.raw, p.1.toNat ≤ 4095 ∧ p.2.toNat ≤ 4095 := by
  refine Ts.deltas_small c.raw fun r hr => ?_
  obtain ⟨i, -, rfl⟩ := List.mem_map.mp hr
  exact adcRead_small (c.words i)

/-- **No division by zero exactly if no test that is reached compares with a sample of
zero**, in any sequence of calls. -/
theorem acquireAll_isSome_iff : ∀ (calls : List Acquisition) (s : Sadc),
    (∀ c ∈ calls, Ordered c.ts) →
    ((acquireAll s calls).isSome ↔ ∀ c ∈ calls, SafeDeltas (deltas c.raw)) := by
  intro calls
  induction calls with
  | nil =>
    intro s _
    exact ⟨fun _ c hc => (by cases hc), fun _ => rfl⟩
  | cons c calls ih =>
    intro s hts
    obtain ⟨hfirst, hrest⟩ := List.forall_mem_cons.mp hts
    have hone := acquireEvent_isSome_iff hfirst s
    rw [checkDeltas_isSome_iff _ c.deltas_small] at hone
    rw [List.forall_mem_cons, acquireAll]
    cases hrun : acquireEvent c.ts s c.words c.event with
    | none =>
      rw [hrun] at hone
      refine ⟨fun h => (by cases h), fun h => ?_⟩
      have := hone.mpr h.1
      cases this
    | some r =>
      rw [hrun] at hone
      rw [Option.bind_some, ih r.2.2.2 hrest]
      exact ⟨fun h => ⟨hone.mp rfl, h⟩, fun h => h.2⟩

/-- The same reading over and over. -/
def steadyCall (xy z : BitVec 32) : Acquisition :=
  ⟨calibrated 200 200 3900 3900, fun _ => (xy, z), ⟨0, 0, 0, 0, 0⟩⟩

theorem acquireAll_isSome_steady :
    Ordered (steadyCall 0x08000700 0x100).ts ∧
    (acquireAll ⟨true, 0, 0, 0, 0, 0⟩ [steadyCall 0x08000700 0x100]).isSome := by
  have hts : Ordered (steadyCall 0x08000700 0x100).ts := ⟨by decide, by decide⟩
  refine ⟨hts, (acquireAll_isSome_iff _ _ (by simpa using hts)).mpr ?_⟩
  intro c hc pre a b post heq _
  rw [List.mem_singleton.mp hc] at heq
  have hall : (deltas (steadyCall 0x08000700 0x100).raw).all
      (fun p => p.1 ≠ 0 ∧ p.2 ≠ 0) = true := by decide
  exact of_decide_eq_true (List.all_eq_true.mp hall (a, b) (by rw [heq]; simp))

/-- A pen at the edge: the converter delivers zero for one axis, three times. -/
theorem acquireEvent_divides_by_zero :
    (steadyCall 0x08000000 0x100).raw.map Raw.x = [0, 0, 0] ∧
    acquireAll ⟨true, 0, 0, 0, 0, 0⟩ [steadyCall 0x08000000 0x100] = none := by
  decide

end Dingoo.Ts
