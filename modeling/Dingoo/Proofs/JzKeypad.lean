/-
Keys that stay pressed.

Each scan reports at most one release and then at most one press, and which ones depends only
on the scan before (`Three.Remembers`, `Five.Remembers`).  So the last value reported for a
keycode is a latch over the sequence of scans (`lastValue_eq_true_iff`), and no key is
stuck exactly if each key found is released by some later pair of scans, up to every scan
without a key.

The pairs that release a key are not all that should.  The three by three driver forgets the
key when more than one is pressed.  The five by five driver releases, when another key is
found, the key in the row of the old and the column of the new one.
-/
import Dingoo.Linux.JzKeypad
import Dingoo.Lib.Latch

namespace Dingoo.JzKeypad

open Dingoo.Lib

variable {kbd : Kbd} {x : Pins} {κ : Type}

/-- No line is low for any of the `n` driven lines. -/
def NoKey (n : Nat) (pins : Pins) : Prop := ∀ i < n, ∀ j < n, pins i j = true

/-- The state of a driver and what it reported, after a sequence of scans. -/
def runScans {κ : Type} (scan : κ → Pins → κ × List Report) (kbd : κ) (scans : List Pins) :
    κ × List Report :=
  scans.foldl (fun st pins => ((scan st.1 pins).1, st.2 ++ (scan st.1 pins).2)) (kbd, [])

theorem runScans_concat (scan : κ → Pins → κ × List Report) (kbd : κ) (scans : List Pins)
    (pins : Pins) :
    runScans scan kbd (scans ++ [pins]) =
      ((scan (runScans scan kbd scans).1 pins).1,
        (runScans scan kbd scans).2 ++ (scan (runScans scan kbd scans).1 pins).2) := by
  unfold runScans
  rw [List.foldl_append]
  rfl

/-- After every scan without a key, the last value reported for every keycode is that it is
released. -/
def NoneStuck (n : Nat) (log : List Pins → List Report) (scans : List Pins) : Prop :=
  ∀ pre pins post, scans = pre ++ pins :: post → NoKey n pins →
    ∀ code value, lastValue (log (pre ++ [pins])) code = some value → value = false

/-- From each scan that finds a key to each later one without a key, some pair of scans releases
the key. -/
def EachReleased (n : Nat) (presses : Pins → Option Nat) (releases : Pins → Pins → Option Nat)
    (scans : List Pins) : Prop :=
  ∀ before pins mid idle after code, scans = before ++ pins :: (mid ++ idle :: after) →
    presses pins = some code → NoKey n idle →
      ∃ x y, Adjacent x y (pins :: (mid ++ [idle])) ∧ releases x y = some code

/-! ### Logs of one release and one press for each scan -/

/-- The report of a key, if there is one. -/
def reportOf (pressed : Bool) (code : Option Nat) : List Report :=
  code.toList.map fun code => ⟨code, pressed⟩

theorem lastValue_append_reportOf (log : List Report) (pressed : Bool) (key : Option Nat)
    (code : Nat) :
    lastValue (log ++ reportOf pressed key) code =
      if key = some code then some pressed else lastValue log code := by
  unfold lastValue
  rw [List.foldl_append]
  cases key with
  | none => rfl
  | some k =>
    by_cases hk : k = code
    · rw [if_pos (congrArg some hk)]
      exact if_pos hk
    · rw [if_neg fun h => hk (Option.some.inj h)]
      exact if_neg hk

/-- The reports of a scan are those that the scan before and the scan itself give. -/
structure Logs (n : Nat) (presses : Pins → Option Nat) (releases : Pins → Pins → Option Nat)
    (log : List Pins → List Report) : Prop where
  idle : ∀ pins, NoKey n pins → presses pins = none
  nil : log [] = []
  first : ∀ pins, ∃ released,
    log [pins] = reportOf false released ++ reportOf true (presses pins)
  next : ∀ scans x y, log (scans ++ [x, y]) =
    log (scans ++ [x]) ++ reportOf false (releases x y) ++ reportOf true (presses y)

section

variable {n : Nat} {presses : Pins → Option Nat} {releases : Pins → Pins → Option Nat}
  {log : List Pins → List Report}

/-- A driver that is awake and, after each scan, remembers enough of it to report the next one. -/
theorem logs_of_remembers {scan : κ → Pins → κ × List Report} {start : κ}
    (suspended : κ → Bool) {remembers : Pins → κ → Prop}
    (hidle : ∀ pins, NoKey n pins → presses pins = none)
    (hfirst : ∀ pins, ∃ released,
      (scan start pins).2 = reportOf false released ++ reportOf true (presses pins))
    (hstart : suspended start = false)
    (hscanned : ∀ pins kbd, suspended kbd = false → remembers pins (scan kbd pins).1)
    (hawake : ∀ {pins kbd}, remembers pins kbd → suspended kbd = false)
    (hreports : ∀ {x kbd}, remembers x kbd → ∀ y,
      (scan kbd y).2 = reportOf false (releases x y) ++ reportOf true (presses y)) :
    Logs n presses releases fun scans => (runScans scan start scans).2 := by
  have hrun : ∀ scans, suspended (runScans scan start scans).1 = false := by
    intro scans
    induction scans using List.reverseRecOn with
    | nil => exact hstart
    | append_singleton scans y ih =>
      rw [runScans_concat]
      exact hawake (hscanned y _ ih)
  refine ⟨hidle, rfl, hfirst, fun scans x y => ?_⟩
  have hx : remembers x (runScans scan start (scans ++ [x])).1 := by
    rw [runScans_concat]
    exact hscanned x _ (hrun scans)
  rw [show scans ++ [x, y] = (scans ++ [x]) ++ [y] by simp, runScans_concat _ _ (scans ++ [x]) y,
    hreports hx y, List.append_assoc]

/-- **The last value is a latch**, set by the scans that find the key and cleared by the pairs
that release it. -/
theorem lastValue_eq_true_iff (h : Logs n presses releases log) (code : Nat) :
    ∀ scans, lastValue (log scans) code = some true ↔
      Latched (fun x => presses x = some code) (fun x y => releases x y = some code) scans := by
  intro scans
  induction scans using List.reverseRecOn with
  | nil =>
    rw [h.nil]
    exact ⟨fun hnone => (by cases hnone), fun hset => absurd hset not_latched_nil⟩
  | append_singleton scans y ih =>
    cases scans using List.reverseRecOn with
    | nil =>
      obtain ⟨released, hlog⟩ := h.first y
      have hone : lastValue (reportOf false released) code ≠ some true := by
        have hvalue := lastValue_append_reportOf [] false released code
        rw [List.nil_append] at hvalue
        rw [hvalue]
        split
        · decide
        · exact fun hnone => by cases hnone
      rw [List.nil_append, latched_singleton, hlog, lastValue_append_reportOf]
      split
      next hpress => exact ⟨fun _ => hpress, fun _ => rfl⟩
      next hpress => exact ⟨fun htrue => absurd htrue hone, fun hset => absurd hset hpress⟩
    | append_singleton scans x =>
      rw [List.append_assoc, List.singleton_append, latched_concat, ← ih, h.next,
        lastValue_append_reportOf, lastValue_append_reportOf]
      split
      next hpress => exact ⟨fun _ => Or.inl hpress, fun _ => rfl⟩
      next hpress =>
        rw [or_iff_right hpress]
        split
        next hrelease =>
          exact ⟨fun hfalse => (by cases hfalse), fun hset => absurd hrelease hset.2⟩
        next hrelease => exact ⟨fun htrue => ⟨htrue, hrelease⟩, fun hset => hset.1⟩

theorem noneStuck_iff (h : Logs n presses releases log) (scans : List Pins) :
    NoneStuck n log scans ↔ EachReleased n presses releases scans := by
  constructor
  · intro hnone before pins mid idle after code hscans hpress hidle
    by_contra hkeep
    have hlatched : Latched (fun x => presses x = some code)
        (fun x y => releases x y = some code) ((before ++ pins :: mid) ++ [idle]) :=
      ⟨before, pins, mid ++ [idle], by simp, hpress, fun x y hadj hrel => hkeep ⟨x, y, hadj, hrel⟩⟩
    have hvalue := (lastValue_eq_true_iff h code _).mpr hlatched
    have hfalse := hnone (before ++ pins :: mid) idle after (by rw [hscans]; simp) hidle code true
      hvalue
    cases hfalse
  · intro heach pre idle post hscans hidle code value hvalue
    cases value with
    | false => rfl
    | true =>
      obtain ⟨before, pins, rest, hsplit, hpress, hclear⟩ :=
        (lastValue_eq_true_iff h code _).mp hvalue
      cases rest using List.reverseRecOn with
      | nil =>
        -- the scan without a key would have found one
        have hlast := (List.cons.inj (List.append_inj' hsplit rfl).2).1
        rw [← hlast, h.idle idle hidle] at hpress
        cases hpress
      | append_singleton mid z =>
        have hsplit' : pre ++ [idle] = (before ++ pins :: mid) ++ [z] := by simpa using hsplit
        obtain ⟨hpre, hz⟩ := List.append_inj' hsplit' rfl
        obtain rfl := (List.cons.inj hz).1
        obtain ⟨x, y, hadj, hrel⟩ := heach before pins mid idle post code
          (by rw [hscans, hpre]; simp) hpress hidle
        exact absurd hrel (hclear x y hadj)

end

/-! ### Three by three -/

namespace Three

variable (past : Nat → Nat)

/-- The keycode that a scan finds. -/
def presses (pins : Pins) : Option Nat :=
  (findRowCol (jzScanKbd pins)).map fun key => keyAt past key.1 key.2

/-- The keycode that is released when scan `y` follows scan `x`: the one found in `x`, if `y` finds
no key or one other key.  If `y` shows two or more keys pressed, nothing is. -/
def releases (x y : Pins) : Option Nat :=
  if allHigh (jzScanKbd y) then presses past x
  else if sameScan (jzScanKbd y) (jzScanKbd x) then none
  else if (findRowCol (jzScanKbd y)).isSome then presses past x
  else none

def log (scans : List Pins) : List Report := (runScans (jzKbdScankeyboard past) start scans).2

theorem jzScanKbd_eq_seven (pins : Pins) (i : Nat) :
    jzScanKbd pins i = 7 ↔ ∀ j < 3, pins i j = true := by
  have hword : ∀ a b c : Bool, (gpioGetPin a <<< 0) ||| (gpioGetPin b <<< 1) |||
      (gpioGetPin c <<< 2) = 7 ↔ a = true ∧ b = true ∧ c = true := by decide
  refine (hword _ _ _).trans ⟨fun ⟨h0, h1, h2⟩ j hj => ?_, fun h => ?_⟩
  · obtain rfl | rfl | rfl : j = 0 ∨ j = 1 ∨ j = 2 := by omega
    · exact h0
    · exact h1
    · exact h2
  · exact ⟨h 0 (by decide), h 1 (by decide), h 2 (by decide)⟩

theorem allHigh_iff (pins : Pins) : allHigh (jzScanKbd pins) = true ↔ NoKey 3 pins := by
  unfold allHigh
  rw [Bool.and_eq_true, Bool.and_eq_true, decide_eq_true_eq, decide_eq_true_eq, decide_eq_true_eq,
    jzScanKbd_eq_seven, jzScanKbd_eq_seven, jzScanKbd_eq_seven]
  refine ⟨fun ⟨⟨h0, h1⟩, h2⟩ i hi => ?_, fun h => ?_⟩
  · obtain rfl | rfl | rfl : i = 0 ∨ i = 1 ∨ i = 2 := by omega
    · exact h0
    · exact h1
    · exact h2
  · exact ⟨⟨h 0 (by decide), h 1 (by decide)⟩, h 2 (by decide)⟩

theorem findRowCol_of_allHigh {s : Nat → BitVec 16} (h : allHigh s = true) :
    findRowCol s = none := by
  unfold allHigh at h
  rw [Bool.and_eq_true, Bool.and_eq_true, decide_eq_true_eq, decide_eq_true_eq,
    decide_eq_true_eq] at h
  obtain ⟨⟨h0, h1⟩, h2⟩ := h
  unfold findRowCol
  rw [h0, h1, h2]
  rfl

/-- What the driver knows of the last scan: the key it found, or nothing. -/
structure Remembers (pins : Pins) (kbd : Kbd) : Prop where
  awake : kbd.suspended = false
  found : ∀ key, findRowCol (jzScanKbd pins) = some key →
    kbd.s1 = jzScanKbd pins ∧ kbd.prerow = key.1 ∧ kbd.precol = key.2
  nothing : findRowCol (jzScanKbd pins) = none → allHigh kbd.s1 = true

theorem Remembers.scanned (h : kbd.suspended = false) (pins : Pins) :
    Remembers pins (jzKbdScankeyboard past kbd pins).1 := by
  unfold jzKbdScankeyboard
  rw [h, if_neg Bool.false_ne_true]
  dsimp only
  by_cases hhigh : allHigh (jzScanKbd pins) = true
  · rw [if_pos hhigh]
    refine ⟨rfl, fun key hkey => ?_, fun _ => rfl⟩
    rw [findRowCol_of_allHigh hhigh] at hkey
    cases hkey
  · rw [if_neg hhigh]
    cases hfind : findRowCol (jzScanKbd pins) with
    | none => exact ⟨rfl, fun key hkey => (by rw [hfind] at hkey; cases hkey), fun _ => rfl⟩
    | some found =>
      refine ⟨rfl, fun key hkey => ?_, fun hnone => ?_⟩
      · rw [hfind] at hkey
        cases hkey
        exact ⟨rfl, rfl, rfl⟩
      · rw [hfind] at hnone
        cases hnone

theorem reports_of_nothing (hawake : kbd.suspended = false) (hs1 : allHigh kbd.s1 = true)
    (pins : Pins) : (jzKbdScankeyboard past kbd pins).2 = reportOf true (presses past pins) := by
  unfold jzKbdScankeyboard presses
  rw [hawake, if_neg Bool.false_ne_true, hs1]
  dsimp only
  by_cases hhigh : allHigh (jzScanKbd pins) = true
  · rw [if_pos hhigh, findRowCol_of_allHigh hhigh]
    rfl
  · rw [if_neg hhigh]
    cases findRowCol (jzScanKbd pins) with
    | none => rfl
    | some key => rfl

theorem releases_of_nothing (h : findRowCol (jzScanKbd x) = none) (y : Pins) :
    releases past x y = none := by
  have hx : presses past x = none := by
    unfold presses
    rw [h]
    rfl
  unfold releases
  rw [hx, ite_self, ite_self, ite_self]

theorem Remembers.reports (h : Remembers x kbd) (y : Pins) :
    (jzKbdScankeyboard past kbd y).2 =
      reportOf false (releases past x y) ++ reportOf true (presses past y) := by
  cases hx : findRowCol (jzScanKbd x) with
  | none =>
    rw [reports_of_nothing past h.awake (h.nothing hx), releases_of_nothing past hx]
    rfl
  | some key =>
    obtain ⟨hs1, hrow, hcol⟩ := h.found key hx
    have hlow : allHigh (jzScanKbd x) = false := by
      cases hhigh : allHigh (jzScanKbd x) with
      | false => rfl
      | true =>
        rw [findRowCol_of_allHigh hhigh] at hx
        cases hx
    unfold jzKbdScankeyboard releases presses
    rw [h.awake, if_neg Bool.false_ne_true, hs1, hlow, hrow, hcol, hx]
    dsimp only
    by_cases hhigh : allHigh (jzScanKbd y) = true
    · rw [if_pos hhigh, if_pos hhigh, findRowCol_of_allHigh hhigh]
      rfl
    · rw [if_neg hhigh, if_neg hhigh]
      cases hy : findRowCol (jzScanKbd y) with
      | none =>
        rw [Option.isSome_none, if_neg Bool.false_ne_true, ite_self]
        rfl
      | some new =>
        by_cases hsame : sameScan (jzScanKbd y) (jzScanKbd x) = true
        · rw [if_pos hsame]
          dsimp only
          rw [if_neg Bool.false_ne_true, if_pos hsame]
          rfl
        · rw [if_neg hsame]
          dsimp only
          rw [if_neg Bool.false_ne_true, if_neg hsame]
          rfl

theorem log_logs : Logs 3 (presses past) (releases past) (log past) :=
  logs_of_remembers Kbd.suspended
    (fun pins h => by
      unfold presses
      rw [findRowCol_of_allHigh ((allHigh_iff pins).mpr h)]
      rfl)
    (fun pins => ⟨none, reports_of_nothing past rfl rfl pins⟩)
    rfl
    (fun pins _ hawake => Remembers.scanned past hawake pins)
    (fun h => h.awake)
    (fun h y => h.reports past y)

end Three

/-! ### Five by five -/

namespace Five

variable (past : Nat → Nat)

/-- The keycode that a scan finds. -/
def presses (pins : Pins) : Option Nat :=
  if checkIfKeyPressed (jzDoScan pins) then
    some (keyAt past (findKey (jzDoScan pins)).1 (findKey (jzDoScan pins)).2)
  else none

/-- The keycode that is released when scan `y` follows scan `x`: the one found in `x` if `y` finds
no key, and if `y` finds another key, the one in the row of the old and the column of the new
key. -/
def releases (x y : Pins) : Option Nat :=
  if ¬ checkIfKeyPressed (jzDoScan x) then none
  else if ¬ checkIfKeyPressed (jzDoScan y) then presses past x
  else if findKey (jzDoScan y) = findKey (jzDoScan x) then none
  else some (keyAt past (findKey (jzDoScan x)).1 (findKey (jzDoScan y)).2)

def log (scans : List Pins) : List Report := (runScans (jzKbdScan past) start scans).2

theorem jzDoScan_eq_high (pins : Pins) (i : Nat) :
    jzDoScan pins i = 0x1F ↔ ∀ j < 5, pins i j = true := by
  have hword : ∀ a b c d e : Bool, ((((((0 : BitVec 16) ||| (gpioGetPin a <<< 0)) |||
      (gpioGetPin b <<< 1)) ||| (gpioGetPin c <<< 2)) ||| (gpioGetPin d <<< 3)) |||
      (gpioGetPin e <<< 4)) = 0x1F ↔
        a = true ∧ b = true ∧ c = true ∧ d = true ∧ e = true := by decide
  refine (hword _ _ _ _ _).trans ⟨fun ⟨h0, h1, h2, h3, h4⟩ j hj => ?_, fun h => ?_⟩
  · obtain rfl | rfl | rfl | rfl | rfl : j = 0 ∨ j = 1 ∨ j = 2 ∨ j = 3 ∨ j = 4 := by omega
    · exact h0
    · exact h1
    · exact h2
    · exact h3
    · exact h4
  · exact ⟨h 0 (by decide), h 1 (by decide), h 2 (by decide), h 3 (by decide), h 4 (by decide)⟩

theorem skipHigh_eq_iff (s : Nat → BitVec 16) : ∀ n i,
    skipHigh s n i = i + n ↔ ∀ k < n, s (i + k) = 0x1F := by
  intro n
  induction n with
  | zero => exact fun i => ⟨fun _ k hk => absurd hk (Nat.not_lt_zero k), fun _ => rfl⟩
  | succ n ih =>
    intro i
    rw [skipHigh]
    by_cases hi : s i = 0x1F
    · rw [if_pos hi, show i + (n + 1) = i + 1 + n by omega, ih]
      constructor
      · intro h k hk
        cases k with
        | zero => exact hi
        | succ k =>
          rw [show i + (k + 1) = i + 1 + k by omega]
          exact h k (by omega)
      · intro h k hk
        rw [show i + 1 + k = i + (k + 1) by omega]
        exact h (k + 1) (by omega)
    · rw [if_neg hi]
      exact ⟨fun h => by omega, fun h => absurd (h 0 (by omega)) hi⟩

theorem checkIfKeyPressed_eq_false_iff (pins : Pins) :
    ¬ checkIfKeyPressed (jzDoScan pins) = true ↔ NoKey 5 pins := by
  have hloop := skipHigh_eq_iff (jzDoScan pins) 5 0
  unfold checkIfKeyPressed NoKey
  rw [decide_eq_true_eq, Decidable.not_not, show KB_ROWS = 0 + 5 from rfl]
  refine hloop.trans ⟨fun h i hi => ?_, fun h k hk => ?_⟩
  · have hrow := h i hi
    rw [Nat.zero_add] at hrow
    exact (jzDoScan_eq_high pins i).mp hrow
  · rw [Nat.zero_add]
    exact (jzDoScan_eq_high pins k).mpr (h k hk)

theorem findCol_le : ∀ n i col, findCol n i col ≤ col + n := by
  intro n
  induction n with
  | zero => exact fun i col => Nat.le_refl col
  | succ n ih =>
    intro i col
    rw [findCol]
    split
    · omega
    · have hrest := ih (i >>> 1) (col + 1)
      omega

theorem findRow_col_le (s : Nat → BitVec 16) : ∀ n row, (findRow s n row).2 ≤ 5 := by
  intro n
  induction n with
  | zero => exact fun row => Nat.le_refl 5
  | succ n ih =>
    intro row
    rw [findRow]
    split
    · exact findCol_le 5 (s row) 0
    · exact ih (row + 1)

theorem findKey_col_ne (s : Nat → BitVec 16) : (findKey s).2 ≠ 0xFFFF := by
  intro h
  have hval := congrArg BitVec.toNat h
  have hle := findRow_col_le s KB_ROWS 0
  change (BitVec.ofNat 16 (findRow s KB_ROWS 0).2).toNat = 65535 at hval
  rw [BitVec.toNat_ofNat] at hval
  omega

/-- What the driver knows of the last scan: the key it found, or that there was none. -/
structure Remembers (pins : Pins) (kbd : Kbd) : Prop where
  awake : kbd.suspended = false
  pressed : checkIfKeyPressed kbd.preScanResult = checkIfKeyPressed (jzDoScan pins)
  key : (kbd.preRow, kbd.preCol) =
    if checkIfKeyPressed (jzDoScan pins) then findKey (jzDoScan pins) else (0xFFFF, 0xFFFF)

theorem Remembers.scanned (h : kbd.suspended = false) (pins : Pins) :
    Remembers pins (jzKbdScan past kbd pins).1 := by
  unfold jzKbdScan
  rw [h, if_neg Bool.false_ne_true]
  dsimp only
  by_cases hkey : checkIfKeyPressed (jzDoScan pins) = true
  · rw [if_neg (not_not_intro hkey)]
    refine ⟨rfl, rfl, ?_⟩
    rw [if_pos hkey]
  · rw [if_pos hkey]
    refine ⟨rfl, ?_, ?_⟩
    · rw [Bool.not_eq_true] at hkey
      rw [hkey]
      rfl
    · rw [if_neg hkey]

theorem Remembers.reports (h : Remembers x kbd) (y : Pins) :
    (jzKbdScan past kbd y).2 =
      reportOf false (releases past x y) ++ reportOf true (presses past y) := by
  have hpre := h.key
  unfold jzKbdScan releases presses
  rw [h.awake, if_neg Bool.false_ne_true, h.pressed]
  dsimp only
  by_cases hx : checkIfKeyPressed (jzDoScan x) = true
  · rw [if_pos hx] at hpre
    have hrow : kbd.preRow = (findKey (jzDoScan x)).1 := congrArg Prod.fst hpre
    have hcol : kbd.preCol = (findKey (jzDoScan x)).2 := congrArg Prod.snd hpre
    rw [if_neg (not_not_intro hx), hrow, hcol]
    by_cases hy : checkIfKeyPressed (jzDoScan y) = true
    · rw [if_neg (not_not_intro hy), if_neg (not_not_intro hy), if_pos hy]
      by_cases hsame : findKey (jzDoScan y) = findKey (jzDoScan x)
      · rw [if_pos hsame, hsame, if_pos (Or.inl ⟨rfl, rfl⟩)]
        rfl
      · rw [if_neg hsame, if_neg]
        · rfl
        · rintro (⟨hc, hr⟩ | ⟨hmark, -⟩)
          · exact hsame (Prod.ext hr hc)
          · exact findKey_col_ne _ hmark
    · rw [if_pos hy, if_pos hy, if_pos hx, if_pos hx, if_neg hy]
      rfl
  · rw [if_neg hx] at hpre
    have hrow : kbd.preRow = 0xFFFF := congrArg Prod.fst hpre
    have hcol : kbd.preCol = 0xFFFF := congrArg Prod.snd hpre
    rw [if_pos hx]
    by_cases hy : checkIfKeyPressed (jzDoScan y) = true
    · rw [if_neg (not_not_intro hy), if_pos (Or.inr ⟨hcol, hrow⟩), if_pos hy]
      rfl
    · rw [if_pos hy, if_neg hx, if_neg hy]
      rfl

/-- The first scan compares with row and column zero, which no scan found. -/
theorem reports_start (pins : Pins) : ∃ released,
    (jzKbdScan past start pins).2 =
      reportOf false released ++ reportOf true (presses past pins) := by
  unfold jzKbdScan presses
  rw [show start.suspended = false from rfl, if_neg Bool.false_ne_true]
  dsimp only
  by_cases hkey : checkIfKeyPressed (jzDoScan pins) = true
  · rw [if_neg (not_not_intro hkey), if_pos hkey]
    dsimp only
    split
    · exact ⟨none, rfl⟩
    · exact ⟨some _, rfl⟩
  · rw [if_pos hkey, if_neg hkey]
    exact ⟨none, rfl⟩

theorem log_logs : Logs 5 (presses past) (releases past) (log past) :=
  logs_of_remembers Kbd.suspended
    (fun pins h => if_neg ((checkIfKeyPressed_eq_false_iff pins).mpr h))
    (reports_start past)
    rfl
    (fun pins _ hawake => Remembers.scanned past hawake pins)
    (fun h => h.awake)
    (fun h y => h.reports past y)

end Five

/-- **No key is stuck exactly if each key found is released by a pair of scans**, for both
keypads and over every sequence of scans. -/
theorem keypads_noneStuck_iff (past : Nat → Nat) (scans : List Pins) :
    (NoneStuck 3 (Three.log past) scans ↔
      EachReleased 3 (Three.presses past) (Three.releases past) scans) ∧
    (NoneStuck 5 (Five.log past) scans ↔
      EachReleased 5 (Five.presses past) (Five.releases past) scans) :=
  ⟨noneStuck_iff (Three.log_logs past) scans, noneStuck_iff (Five.log_logs past) scans⟩

/-- The scan with the given keys pressed, by driven and crossing line. -/
def pressing (keys : List (Nat × Nat)) : Pins := fun i j => (i, j) ∉ keys

/-- Three by three: `KEY_1`, then a second key with it, then none.  Five by five: `KEY_A`, then
the key in the next row and column, then none.  The first key stays pressed. -/
theorem keypads_key_stuck :
    lastValue (Three.log (fun _ => 0) [pressing [(2, 0)], pressing [(2, 0), (2, 1)], pressing []])
      2 = some true ∧
    lastValue (Five.log (fun _ => 0) [pressing [(0, 0)], pressing [(1, 1)], pressing []])
      30 = some true ∧
    ¬ NoneStuck 3 (Three.log fun _ => 0)
      [pressing [(2, 0)], pressing [(2, 0), (2, 1)], pressing []] ∧
    ¬ NoneStuck 5 (Five.log fun _ => 0)
      [pressing [(0, 0)], pressing [(1, 1)], pressing []] := by
  have hthree : lastValue (Three.log (fun _ => 0)
      [pressing [(2, 0)], pressing [(2, 0), (2, 1)], pressing []]) 2 = some true := by decide
  have hfive : lastValue (Five.log (fun _ => 0)
      [pressing [(0, 0)], pressing [(1, 1)], pressing []]) 30 = some true := by decide
  have hidle : ∀ n, NoKey n (pressing []) := fun n i _ j _ => rfl
  refine ⟨hthree, hfive, fun h => ?_, fun h => ?_⟩
  · have hfalse := h [pressing [(2, 0)], pressing [(2, 0), (2, 1)]] (pressing []) [] rfl (hidle 3)
      2 true hthree
    cases hfalse
  · have hfalse := h [pressing [(0, 0)], pressing [(1, 1)]] (pressing []) [] rfl (hidle 5)
      30 true hfive
    cases hfalse

end Dingoo.JzKeypad
