/-
Who owns a DMA channel, and which interrupts are registered for it.

`Effect` says what a call can do: refuse, fail, allocate, free or set a channel,
and what it adds to the two logs.  Everything below is read off it.

A channel is owned while its `dev_id` is not negative.  Requests only take channels
that are free, so no channel has two owners.  `jz_set_dma_mode` takes `dev_id > 0`
for "owned" where it should take `dev_id >= 0`, so it overwrites a channel of device
0; and every function lets through channel number 6, one behind the table.  These
are all the ways ownership fails: `ownership_iff` puts them in one condition on each call.
-/
import Dingoo.Lib.StateRun
import Dingoo.Linux.Dma

namespace Dingoo.Dma

open Dingoo.Lib

variable {s s' : State} {c : Call} {d i : Nat} {calls : List Call} {l : List Nat}

/-! ### What a call does -/

/-- The cell of a channel that has been requested. -/
def requested (chan : Chan) (i : Nat) (devId : Int) (devStr : Nat) (handler : Bool)
    (irqDevId : Nat) : Chan :=
  { chan with
    irq := if handler then irqDma0 + i else -1
    irqDev := if handler then irqDevId else 0
    io := i
    devId := devId
    devStr := devStr
    fifoAddr := (dmaDevTable.getD devId.toNat (0, 0, 0)).1
    mode := (dmaDevTable.getD devId.toNat (0, 0, 0)).2.1
    source := (dmaDevTable.getD devId.toNat (0, 0, 0)).2.2 }

/-- Some channel is free. -/
def HasFree (s : State) : Prop := ∃ i < maxDmaNum, (s.table i).devId < 0

/-- Every way a call can go, with the state it leaves and the value it returns. -/
inductive Effect (s : State) : Call → State → Option Int → Prop
  /-- a request that finds its device id wrong or no free channel -/
  | requestNone {devId devStr handler irqDevId errno} (r : Int) (l : List Nat) (hr : r < 0)
      (hl : ∀ j ∈ l, j < maxDmaNum) :
      Effect s (.request devId devStr handler irqDevId errno)
        { s with accesses := s.accesses ++ l } (some r)
  /-- a request whose `request_irq` fails -/
  | requestFail {devId devStr irqDevId errno} (i : Nat) (l : List Nat) (herr : errno ≠ 0)
      (hi : i < maxDmaNum) (hfree : (s.table i).devId < 0) (hl : ∀ j ∈ l, j < maxDmaNum) :
      Effect s (.request devId devStr true irqDevId errno)
        { table := Function.update s.table i { s.table i with irq := -1, irqDev := 0 }
          accesses := s.accesses ++ l
          irqCalls := s.irqCalls ++ [.requestIrq (irqDma0 + i) irqDevId errno] } (some (-errno))
  /-- a request that takes channel `i` -/
  | requestOk {devId devStr handler irqDevId errno} (i : Nat) (l : List Nat) (hdev : 0 ≤ devId)
      (hi : i < maxDmaNum) (hfree : (s.table i).devId < 0) (herr : handler = true → errno = 0)
      (hl : ∀ j ∈ l, j < maxDmaNum) :
      Effect s (.request devId devStr handler irqDevId errno)
        { table := Function.update s.table i
            (requested (s.table i) i devId devStr handler irqDevId)
          accesses := s.accesses ++ l
          irqCalls := s.irqCalls ++
            if handler then [.requestIrq (irqDma0 + i) irqDevId 0] else [] } (some i)
  /-- a free of a channel that is not allocated -/
  | freeNone {d : Nat} (l : List Nat) (hl : if d ≤ maxDmaNum then l = [d] else l = [])
      (hd : d ≤ maxDmaNum → (s.table d).devId < 0) :
      Effect s (.free d) { s with accesses := s.accesses ++ l } none
  /-- a free of an allocated channel -/
  | freeOk {d : Nat} (hd : d ≤ maxDmaNum) (hown : 0 ≤ (s.table d).devId) :
      Effect s (.free d)
        { table := Function.update s.table d { s.table d with irq := -1, irqDev := 0, devId := -1 }
          accesses := s.accesses ++ [d, d, d, d]
          irqCalls := s.irqCalls ++
            if (s.table d).irq ≠ 0 then [.freeIrq (s.table d).irq (s.table d).irqDev] else [] }
        none
  /-- a raw setting that is refused before the channel is looked at -/
  | setNone {d dmaMode dmaSource fifoAddr} (l : List Nat) (hl : ∀ j ∈ l, j < maxDmaNum)
      (hno : maxDmaNum < d ∨ ¬ HasFree s) :
      Effect s (.setMode d dmaMode dmaSource fifoAddr) { s with accesses := s.accesses ++ l }
        (some (-ENODEV))
  /-- a raw setting that is refused because the channel is allocated -/
  | setRefused {d dmaMode dmaSource fifoAddr} (l : List Nat) (hl : ∀ j ∈ l, j < maxDmaNum)
      (hd : d ≤ maxDmaNum) (hfree : HasFree s) (hown : 0 < (s.table d).devId) :
      Effect s (.setMode d dmaMode dmaSource fifoAddr)
        { s with accesses := s.accesses ++ (l ++ [d]) } (some (-ENODEV))
  /-- a raw setting of channel `d`, with the interrupt fields of the free channel `i` -/
  | setOk {d dmaMode dmaSource fifoAddr} (i : Nat) (table : Nat → Chan) (l l' : List Nat)
      (hl : ∀ j ∈ l ++ l', j < maxDmaNum ∨ j = d) (hd : d ≤ maxDmaNum) (hi : i < maxDmaNum)
      (hfree : (s.table i).devId < 0) (hown : (s.table d).devId ≤ 0)
      (hdev : (table d).devId = dmaIdRawSet)
      (hirq : (table d).irq = (s.table i).irq ∧ (table d).irqDev = (s.table i).irqDev)
      (hother : i ≠ d →
        table i = { s.table i with irq := 0, irqDev := 0, devId := -1 })
      (hrest : ∀ j, j ≠ d → j ≠ i → table j = s.table j) :
      Effect s (.setMode d dmaMode dmaSource fifoAddr)
        { s with table := table, accesses := s.accesses ++ (l ++ d :: l') } (some d)

/-! ### Running the code -/

@[simp] theorem run_readChan (i : Nat) (s : State) :
    readChan i s = (s.table i, { s with accesses := s.accesses ++ [i] }) := rfl

@[simp] theorem run_modifyChan (i : Nat) (f : Chan → Chan) (s : State) :
    modifyChan i f s = ((), { s with
      table := Function.update s.table i (f (s.table i))
      accesses := s.accesses ++ [i] }) := rfl

@[simp] theorem run_logIrq (e : IrqCall) (s : State) :
    logIrq e s = ((), { s with irqCalls := s.irqCalls ++ [e] }) := rfl

theorem getDmaChan_behind (hd : maxDmaNum < d) (s : State) : getDmaChan d s = (none, s) := by
  simp [getDmaChan, hd]

theorem getDmaChan_free (hd : d ≤ maxDmaNum) (hfree : (s.table d).devId < 0) :
    getDmaChan d s = (none, { s with accesses := s.accesses ++ [d] }) := by
  simp [getDmaChan, Nat.not_lt.mpr hd, hfree]

theorem getDmaChan_owned (hd : d ≤ maxDmaNum) (hown : 0 ≤ (s.table d).devId) :
    getDmaChan d s = (some d, { s with accesses := s.accesses ++ [d] }) := by
  simp [getDmaChan, Nat.not_lt.mpr hd, Int.not_lt.mpr hown]

theorem findFree_eq :
    ∀ (n i : Nat) (s : State), ∃ k l, findFree n i s = (k, { s with accesses := s.accesses ++ l }) ∧
      (∀ j ∈ l, j < i + n) ∧ k ≤ i + n ∧ (∀ j, i ≤ j → j < k → 0 ≤ (s.table j).devId) ∧
      (k < i + n → (s.table k).devId < 0) := by
  intro n
  induction n with
  | zero =>
    intro i s
    refine ⟨i, [], ?_, by simp, by omega, by omega, by omega⟩
    rw [List.append_nil]
    rfl
  | succ n ih =>
    intro i s
    by_cases h : (s.table i).devId < 0
    · refine ⟨i, [i], ?_, by simp, by omega, by omega, fun _ => h⟩
      show (if (s.table i).devId < 0 then pure i else findFree n (i + 1)) _ = _
      rw [if_pos h]
      rfl
    · obtain ⟨k, l, hfind, hl, hk, howned, hfree⟩ :=
        ih (i + 1) { s with accesses := s.accesses ++ [i] }
      refine ⟨k, i :: l, ?_, ?_, by omega, ?_, fun hlt => hfree (by omega)⟩
      · show (if (s.table i).devId < 0 then pure i else findFree n (i + 1)) _ = _
        rw [if_neg h, hfind]
        simp
      · intro j hj
        rcases List.mem_cons.mp hj with rfl | hj
        · omega
        · have := hl j hj
          omega
      · intro j hij hjk
        by_cases hj : j = i
        · rw [hj]
          exact Int.not_lt.mp h
        · exact howned j (by omega) hjk

theorem findFree_table (s : State) :
    ∃ k l, findFree maxDmaNum 0 s = (k, { s with accesses := s.accesses ++ l }) ∧
      (∀ j ∈ l, j < maxDmaNum) ∧
      (k = maxDmaNum ∧ ¬ HasFree s ∨ k < maxDmaNum ∧ (s.table k).devId < 0) := by
  obtain ⟨k, l, hfind, hl, hk, howned, hfree⟩ := findFree_eq maxDmaNum 0 s
  rw [Nat.zero_add] at hl hk hfree
  refine ⟨k, l, hfind, hl, ?_⟩
  by_cases hlt : k < maxDmaNum
  · exact Or.inr ⟨hlt, hfree hlt⟩
  · refine Or.inl ⟨by omega, ?_⟩
    rintro ⟨i, hi, hneg⟩
    have := howned i (Nat.zero_le i) (by omega)
    omega

theorem jzRequestDma_effect (s : State) (devId : Int) (devStr : Nat) (handler : Bool)
    (irqDevId errno : Nat) :
    Effect s (.request devId devStr handler irqDevId errno)
      (jzRequestDma devId devStr handler irqDevId errno s).2
      (some (jzRequestDma devId devStr handler irqDevId errno s).1) := by
  obtain ⟨k, l, hfind, hl, hk⟩ := findFree_table s
  by_cases hdev : devId < 0 ∨ devId ≥ dmaIdMax
  · have hnone := @Effect.requestNone s devId devStr handler irqDevId errno (-EINVAL) []
      (by decide) (by simp)
    rw [List.append_nil] at hnone
    simpa [jzRequestDma, if_pos hdev] using hnone
  · rcases hk with ⟨rfl, -⟩ | ⟨hlt, hfree⟩
    · have hnone := @Effect.requestNone s devId devStr handler irqDevId errno (-ENODEV) l
        (by decide) hl
      simpa [jzRequestDma, if_neg hdev, hfind] using hnone
    · have hne : k ≠ maxDmaNum := Nat.ne_of_lt hlt
      have hl' : ∀ j ∈ l ++ [k, k], j < maxDmaNum := by
        intro j hj
        simp only [List.mem_append, List.mem_cons, List.not_mem_nil, or_false, or_self] at hj
        rcases hj with hj | rfl
        · exact hl j hj
        · exact hlt
      cases handler with
      | false =>
        have hok := @Effect.requestOk s devId devStr false irqDevId errno k _ (by omega) hlt hfree
          (by simp) hl'
        simpa [jzRequestDma, if_neg hdev, hfind, hne, requested] using hok
      | true =>
        by_cases herr : errno = 0
        · have hok := @Effect.requestOk s devId devStr true irqDevId errno k _ (by omega) hlt
            hfree (fun _ => herr) hl'
          simpa [jzRequestDma, if_neg hdev, hfind, hne, herr, requested] using hok
        · have hfail := @Effect.requestFail s devId devStr irqDevId errno k _ herr hlt hfree hl'
          simpa [jzRequestDma, if_neg hdev, hfind, hne, herr] using hfail

theorem jzFreeDma_effect (s : State) (d : Nat) :
    Effect s (.free d) (jzFreeDma d s).2 none := by
  by_cases hd : d ≤ maxDmaNum
  · by_cases hown : 0 ≤ (s.table d).devId
    · have hok := Effect.freeOk hd hown
      by_cases hirq : (s.table d).irq = 0
      · simpa [jzFreeDma, disableDma, getDmaChan_owned, hd, hown, hirq] using hok
      · simpa [jzFreeDma, disableDma, getDmaChan_owned, hd, hown, hirq] using hok
    · have hfree : (s.table d).devId < 0 := by omega
      have hnone := @Effect.freeNone s d [d] (by rw [if_pos hd]) (fun _ => hfree)
      simpa [jzFreeDma, getDmaChan_free hd hfree] using hnone
  · have hnone := @Effect.freeNone s d [] (by rw [if_neg hd]) (fun h => absurd h hd)
    rw [List.append_nil] at hnone
    simpa [jzFreeDma, getDmaChan_behind (Nat.lt_of_not_le hd)] using hnone

/-- The cell of a channel that has been set raw. -/
def rawSet (chan : Chan) (d : Nat) (mode source fifoAddr : BitVec 32) : Chan :=
  { chan with
    devId := dmaIdRawSet, io := d, fifoAddr := fifoAddr, mode := mode, source := source }

theorem setDmaMode_rawSet (hd : d ≤ maxDmaNum) (table : Nat → Chan) (chan : Chan)
    (acc : List Nat) (irqs : List IrqCall) (mode source fifoAddr : BitVec 32) :
    ∃ m l, setDmaMode d mode
        ⟨Function.update table d (rawSet chan d mode source fifoAddr), acc, irqs⟩ =
      ((), ⟨Function.update table d (rawSet chan d m source fifoAddr), acc ++ l, irqs⟩) ∧
      ∀ j ∈ l, j = d := by
  have hget := getDmaChan_owned (s := ⟨Function.update table d
    (rawSet chan d mode source fifoAddr), acc, irqs⟩) hd (by simp [rawSet, dmaIdRawSet])
  unfold setDmaMode
  simp only [run_bind, hget, run_modifyChan]
  split
  · exact ⟨_, [d, d, d], by simp [rawSet]; rfl, by simp⟩
  · split
    · exact ⟨_, [d, d, d], by simp [rawSet]; rfl, by simp⟩
    · exact ⟨_, [d, d], by simp [rawSet]; rfl, by simp⟩

theorem jzSetDmaMode_effect (s : State) (d : Nat) (dmaMode dmaSource fifoAddr : BitVec 32) :
    Effect s (.setMode d dmaMode dmaSource fifoAddr)
      (jzSetDmaMode d dmaMode dmaSource fifoAddr s).2
      (some (jzSetDmaMode d dmaMode dmaSource fifoAddr s).1) := by
  by_cases hd : maxDmaNum < d
  · have hnone := @Effect.setNone s d dmaMode dmaSource fifoAddr [] (by simp) (Or.inl hd)
    rw [List.append_nil] at hnone
    simpa [jzSetDmaMode, hd] using hnone
  have hle : d ≤ maxDmaNum := Nat.le_of_not_lt hd
  obtain ⟨k, l, hfind, hl, ⟨rfl, hno⟩ | ⟨hlt, hfree⟩⟩ := findFree_table s
  · have hnone := @Effect.setNone s d dmaMode dmaSource fifoAddr l hl (Or.inr hno)
    simpa [jzSetDmaMode, hd, hfind] using hnone
  have hne : k ≠ maxDmaNum := Nat.ne_of_lt hlt
  by_cases hown : 0 < (s.table d).devId
  · have hrefused := @Effect.setRefused s d dmaMode dmaSource fifoAddr l hl hle ⟨k, hlt, hfree⟩ hown
    simpa [jzSetDmaMode, hd, hfind, hne, hown] using hrefused
  have hmem : ∀ l' : List Nat, (∀ j ∈ l', j = k ∨ j = d) →
      ∀ j ∈ l ++ l', j < maxDmaNum ∨ j = d := by
    intro l' hl' j hj
    rcases List.mem_append.mp hj with hj | hj
    · exact Or.inl (hl j hj)
    · rcases hl' j hj with rfl | rfl
      · exact Or.inl hlt
      · exact Or.inr rfl
  by_cases hsame : k = d
  · subst hsame
    obtain ⟨m, l', hmode, hl'⟩ := setDmaMode_rawSet hle s.table (s.table k)
      (s.accesses ++ (l ++ [k, k])) s.irqCalls dmaMode dmaSource fifoAddr
    have hok := @Effect.setOk s k dmaMode dmaSource fifoAddr k
      (Function.update s.table k (rawSet (s.table k) k m dmaSource fifoAddr)) l (k :: l')
      (hmem _ (by simpa using hl')) hle hlt hfree (by omega) (by simp [rawSet])
      (by simp [rawSet]) (by simp) (fun j hj _ => by simp [hj])
    simp only [rawSet] at hmode hok
    simpa [jzSetDmaMode, hd, hfind, hne, hown, hmode] using hok
  · generalize hfreed : { s.table k with irq := 0, irqDev := 0, devId := -1 } = freed
    generalize hchan : { s.table d with
      irq := (s.table k).irq, irqDev := (s.table k).irqDev, devStr := (s.table k).devStr } = chan
    obtain ⟨m, l', hmode, hl'⟩ := setDmaMode_rawSet hle (Function.update s.table k freed) chan
      (s.accesses ++ (l ++ [d, k, d, k, d])) s.irqCalls dmaMode dmaSource fifoAddr
    have hl'' : ∀ j ∈ k :: d :: k :: d :: l', j = k ∨ j = d := by
      simp only [List.mem_cons]
      rintro j (rfl | rfl | rfl | rfl | hj)
      · exact Or.inl rfl
      · exact Or.inr rfl
      · exact Or.inl rfl
      · exact Or.inr rfl
      · exact Or.inr (hl' j hj)
    have hok := @Effect.setOk s d dmaMode dmaSource fifoAddr k
      (Function.update (Function.update s.table k freed) d (rawSet chan d m dmaSource fifoAddr)) l
      (k :: d :: k :: d :: l') (hmem _ hl'') hle hlt hfree (by omega) (by simp [rawSet])
      (by simp [rawSet, ← hchan]) (by simp [hsame, ← hfreed]) (fun j hj hjk => by simp [hj, hjk])
    simp only [rawSet, ← hchan, ← hfreed] at hmode hok
    simpa [jzSetDmaMode, hd, hfind, hne, hown, hsame, Function.update_comm (Ne.symm hsame), hmode]
      using hok

/-- **Every call is one of these.** -/
theorem effect (s : State) (c : Call) : Effect s c (step s c) (result s c) := by
  cases c with
  | request devId devStr handler irqDevId errno =>
    exact jzRequestDma_effect s devId devStr handler irqDevId errno
  | free d => exact jzFreeDma_effect s d
  | setMode d dmaMode dmaSource fifoAddr => exact jzSetDmaMode_effect s d dmaMode dmaSource fifoAddr

/-! ### Ownership -/

def Call.isRequest : Call → Bool
  | .request _ _ _ _ _ => true
  | _ => false

/-- Channel `i` was returned by a request of this history and not freed since. -/
def Held (s : State) (calls : List Call) (i : Nat) : Prop :=
  ∃ pre req post, calls = pre ++ req :: post ∧ req.isRequest = true ∧
    result (run s pre) req = some (i : Int) ∧ Call.free i ∉ post

theorem run_concat (s : State) (calls : List Call) (c : Call) :
    run s (calls ++ [c]) = step (run s calls) c := by
  simp [run]

theorem held_concat (h : Held s (calls ++ [c]) i) :
    c.isRequest = true ∧ result (run s calls) c = some (i : Int) ∨
      Held s calls i ∧ c ≠ .free i := by
  obtain ⟨pre, req, post, heq, hreq, hres, hnot⟩ := h
  rcases List.eq_nil_or_concat post with rfl | ⟨post', last, rfl⟩
  · obtain ⟨rfl, hlast⟩ := List.append_inj' heq rfl
    obtain rfl : c = req := by simpa using hlast
    exact Or.inl ⟨hreq, hres⟩
  · rw [List.concat_eq_append, ← List.cons_append, ← List.append_assoc] at heq
    obtain ⟨rfl, hlast⟩ := List.append_inj' heq rfl
    obtain rfl : c = last := by simpa using hlast
    simp only [List.concat_eq_append, List.mem_append, List.mem_singleton, not_or] at hnot
    exact Or.inr ⟨⟨pre, req, post', rfl, hreq, hres, hnot.1⟩, fun h => hnot.2 h.symm⟩

/-- An owned channel that is not freed stays as it is, unless it is one of device 0 that is
set raw. -/
theorem step_owned (hown : 0 ≤ (s.table i).devId) (hc : c ≠ .free i) :
    (step s c).table i = s.table i ∨
      (∃ dmaMode dmaSource fifoAddr, c = .setMode i dmaMode dmaSource fifoAddr) ∧ HasFree s ∧
        (s.table i).devId = 0 ∧ ((step s c).table i).devId = dmaIdRawSet := by
  have heff := effect s c
  generalize step s c = t at heff ⊢
  generalize result s c = r at heff
  cases heff with
  | requestNone r l hr hl => exact Or.inl rfl
  | requestFail k l herr hk hfree hl =>
    have hne : i ≠ k := by rintro rfl; omega
    exact Or.inl (Function.update_of_ne hne _ _)
  | requestOk k l hdev hk hfree herr hl =>
    have hne : i ≠ k := by rintro rfl; omega
    exact Or.inl (Function.update_of_ne hne _ _)
  | freeNone l hl hd => exact Or.inl rfl
  | @freeOk d hd hown' =>
    have hne : i ≠ d := by rintro rfl; exact hc rfl
    exact Or.inl (Function.update_of_ne hne _ _)
  | setNone l hl hno => exact Or.inl rfl
  | setRefused l hl hd hfree hown' => exact Or.inl rfl
  | @setOk d _ _ _ k table l l' hl hd hk hfree hown' hdev hirq hother hrest =>
    by_cases hid : i = d
    · subst hid
      exact Or.inr ⟨⟨_, _, _, rfl⟩, ⟨k, hk, hfree⟩, by omega, hdev⟩
    · have hne : i ≠ k := by rintro rfl; omega
      exact Or.inl (hrest i hid hne)

theorem step_devId (hown : 0 ≤ (s.table i).devId) (hc : c ≠ .free i) :
    0 ≤ ((step s c).table i).devId := by
  rcases step_owned hown hc with hsame | ⟨-, -, -, hraw⟩
  · rwa [hsame]
  · rw [hraw]
    decide

theorem request_takes (hreq : c.isRequest = true) (hres : result s c = some (i : Int)) :
    i < maxDmaNum ∧ (s.table i).devId < 0 ∧ 0 ≤ ((step s c).table i).devId := by
  have heff := effect s c
  rw [hres] at heff
  generalize step s c = t at heff ⊢
  generalize hr : some (i : Int) = r at heff
  cases heff with
  | requestNone r l hr' hl =>
    simp only [Option.some.injEq] at hr
    omega
  | requestFail k l herr hk hfree hl =>
    simp only [Option.some.injEq] at hr
    omega
  | requestOk k l hdev hk hfree herr hl =>
    obtain rfl : i = k := by simpa using hr
    exact ⟨hk, hfree, by simpa [requested] using hdev⟩
  | freeNone l hl hd => simp [Call.isRequest] at hreq
  | freeOk hd hown => simp [Call.isRequest] at hreq
  | setNone l hl hno => simp [Call.isRequest] at hreq
  | setRefused l hl hd hfree hown => simp [Call.isRequest] at hreq
  | setOk k table l l' hl hd hk hfree hown hdev hirq hother hrest =>
    simp [Call.isRequest] at hreq

theorem held_owned (h : Held s calls i) : 0 ≤ ((run s calls).table i).devId := by
  induction calls using List.reverseRecOn with
  | nil =>
    obtain ⟨pre, req, post, heq, -⟩ := h
    simp at heq
  | append_singleton calls c ih =>
    rw [run_concat]
    rcases held_concat h with ⟨hreq, hres⟩ | ⟨hheld, hne⟩
    · exact (request_takes hreq hres).2.2
    · exact step_devId (ih hheld) hne

/-- What ownership asks of a call `c` made after the calls `pre`. -/
structure StepSound (s : State) (pre : List Call) (c : Call) : Prop where
  /-- a channel that is returned belongs to no request that is still held -/
  exclusive : ∀ i : Nat, c.isRequest = true → result (run s pre) c = some (i : Int) →
    ¬ Held s pre i
  /-- an owned channel only changes when it is freed -/
  untouched : ∀ d < maxDmaNum, 0 ≤ ((run s pre).table d).devId → c ≠ .free d →
    ((step (run s pre) c).table d).devId = ((run s pre).table d).devId ∧
    ((step (run s pre) c).table d).fifoAddr = ((run s pre).table d).fifoAddr ∧
    ((step (run s pre) c).table d).mode = ((run s pre).table d).mode ∧
    ((step (run s pre) c).table d).source = ((run s pre).table d).source
  /-- the table is only used inside its bounds -/
  inside : ∀ l, (step (run s pre) c).accesses = (run s pre).accesses ++ l →
    ∀ j ∈ l, j < maxDmaNum

/-- The call touches no cell behind the table. -/
def Inside (s : State) (c : Call) : Prop :=
  ∀ l, (step s c).accesses = s.accesses ++ l → ∀ j ∈ l, j < maxDmaNum

/-- The call does not name channel 6, one behind the table; without a free channel
`jz_set_dma_mode` refuses before it looks at its channel. -/
def Call.InTable (s : State) : Call → Prop
  | .request _ _ _ _ _ => True
  | .free d => d ≠ maxDmaNum
  | .setMode d _ _ _ => HasFree s → d ≠ maxDmaNum

/-- No call names channel 6, one behind the table, and none sets an owned channel of device 0
raw; without a free channel `jz_set_dma_mode` refuses before it looks at its channel. -/
def Call.Safe (s : State) : Call → Prop
  | .request _ _ _ _ _ => True
  | .free d => d ≠ maxDmaNum
  | .setMode d _ _ _ => HasFree s → d ≠ maxDmaNum ∧ (d < maxDmaNum → (s.table d).devId ≠ 0)

theorem not_held_of_result (s : State) (pre : List Call) (hreq : c.isRequest = true)
    (hres : result (run s pre) c = some (i : Int)) : ¬ Held s pre i := by
  intro hheld
  have hown := held_owned hheld
  have hfree := (request_takes hreq hres).2.1
  omega

theorem table_of_safe (hsafe : c.Safe s) (hd : d < maxDmaNum) (hown : 0 ≤ (s.table d).devId)
    (hne : c ≠ .free d) : (step s c).table d = s.table d := by
  rcases step_owned hown hne with hsame | ⟨⟨m, src, fifo, rfl⟩, hfree, hzero, -⟩
  · exact hsame
  · exact absurd hzero ((hsafe hfree).2 hd)

theorem inside_congr (hacc : (step s c).accesses = s.accesses ++ l) :
    Inside s c ↔ ∀ j ∈ l, j < maxDmaNum := by
  refine ⟨fun h => h l hacc, fun h l' hl' => ?_⟩
  obtain rfl := List.append_cancel_left (hacc.symm.trans hl')
  exact h

theorem inside_iff (s : State) (c : Call) : Inside s c ↔ c.InTable s := by
  have heff := effect s c
  generalize ht : step s c = t at heff
  generalize result s c = r at heff
  have hacc := congrArg State.accesses ht
  cases heff with
  | requestNone r l hr hl => exact (inside_congr hacc).trans (iff_of_true hl trivial)
  | requestFail k l herr hk hfree hl => exact (inside_congr hacc).trans (iff_of_true hl trivial)
  | requestOk k l hdev hk hfree herr hl =>
    exact (inside_congr hacc).trans (iff_of_true hl trivial)
  | @freeNone d l hl hd =>
    rw [inside_congr hacc]
    show _ ↔ d ≠ maxDmaNum
    split at hl
    · simp only [hl, List.mem_singleton, forall_eq]
      omega
    · simp only [hl, List.not_mem_nil, false_imp_iff, implies_true, true_iff]
      omega
  | @freeOk d hd hown =>
    rw [inside_congr hacc]
    show _ ↔ d ≠ maxDmaNum
    simp only [List.mem_cons, List.not_mem_nil, or_false, or_self, forall_eq]
    omega
  | @setNone d _ _ _ l hl hno =>
    refine (inside_congr hacc).trans (iff_of_true hl fun hfree => ?_)
    rcases hno with hno | hno
    · omega
    · exact absurd hfree hno
  | @setRefused d _ _ _ l hl hd hfree hown =>
    rw [inside_congr hacc]
    refine ⟨fun h _ => Nat.ne_of_lt (h d (by simp)), fun h j hj => ?_⟩
    rcases List.mem_append.mp hj with hj | hj
    · exact hl j hj
    · rw [List.mem_singleton.mp hj]
      exact Nat.lt_of_le_of_ne hd (h hfree)
  | @setOk d _ _ _ k table l l' hl hd hk hfree hown hdev hirq hother hrest =>
    rw [inside_congr hacc]
    refine ⟨fun h _ => Nat.ne_of_lt (h d (by simp)), fun h j hj => ?_⟩
    have hlt := Nat.lt_of_le_of_ne hd (h ⟨k, hk, hfree⟩)
    simp only [List.mem_append, List.mem_cons] at hj hl
    rcases hj with hj | rfl | hj
    · rcases hl j (Or.inl hj) with h | rfl <;> omega
    · exact hlt
    · rcases hl j (Or.inr hj) with h | rfl <;> omega

theorem inTable_of_safe (hsafe : c.Safe s) : c.InTable s := by
  cases c with
  | request devId devStr handler irqDevId errno => trivial
  | free d => exact hsafe
  | setMode d dmaMode dmaSource fifoAddr => exact fun hfree => (hsafe hfree).1

/-- A call that is not safe leaves the table or overwrites a channel of device 0. -/
theorem safe_of_sound
    (huntouched : ∀ d < maxDmaNum, 0 ≤ (s.table d).devId → c ≠ .free d →
      ((step s c).table d).devId = (s.table d).devId)
    (hinside : Inside s c) : c.Safe s := by
  have hin := (inside_iff s c).mp hinside
  have heff := effect s c
  generalize step s c = t at *
  generalize result s c = r at heff
  cases heff with
  | requestNone r l hr hl => trivial
  | requestFail k l herr hk hfree hl => trivial
  | requestOk k l hdev hk hfree herr hl => trivial
  | freeNone l hl hd => exact hin
  | freeOk hd hown => exact hin
  | setNone l hl hno =>
    intro hfree
    rcases hno with hno | hno
    · omega
    · exact absurd hfree hno
  | setRefused l hl hd hfree hown => exact fun _ => ⟨hin hfree, fun _ => by omega⟩
  | @setOk d _ _ _ k table l l' hl hd hk hfree hown hdev hirq hother hrest =>
    refine fun hfree => ⟨hin hfree, fun hd' hzero => ?_⟩
    have hsame : (table d).devId = (s.table d).devId :=
      huntouched d hd' (by omega) (by simp)
    rw [hzero, hdev] at hsame
    exact absurd hsame (by decide)

theorem stepSound_iff (s : State) (pre : List Call) (c : Call) :
    StepSound s pre c ↔ c.Safe (run s pre) := by
  constructor
  · rintro ⟨-, huntouched, hinside⟩
    exact safe_of_sound (fun d hd hown hne => (huntouched d hd hown hne).1) hinside
  · intro hsafe
    refine ⟨fun i hreq hres => not_held_of_result s pre hreq hres, ?_, ?_⟩
    · intro d hd hown hne
      rw [table_of_safe hsafe hd hown hne]
      exact ⟨rfl, rfl, rfl, rfl⟩
    · exact (inside_iff _ c).mpr (inTable_of_safe hsafe)

/-- Channel 0 belongs to device 0 and is set raw; then channel 6 is, behind the table. -/
theorem ownership_uart0 :
    result (initState fun _ => ⟨0, 0, 0, 0, 0, 0, 0, 0⟩) (.request 0 0 false 0 0) = some 0 ∧
    ((run (initState fun _ => ⟨0, 0, 0, 0, 0, 0, 0, 0⟩)
      [.request 0 0 false 0 0]).table 0).devId = 0 ∧
    ((run (initState fun _ => ⟨0, 0, 0, 0, 0, 0, 0, 0⟩)
      [.request 0 0 false 0 0, .setMode 0 1 8 0x1000]).table 0).devId = dmaIdRawSet ∧
    6 ∈ (run (initState fun _ => ⟨0, 0, 0, 0, 0, 0, 0, 0⟩)
      [.request 0 0 false 0 0, .setMode 0 1 8 0x1000, .setMode 6 1 8 0x1000]).accesses := by
  decide

/-- **When ownership holds**: for every sequence of calls, at every call if and only if no call
of the sequence names channel 6 or sets an owned channel of device 0 raw. -/
theorem ownership_iff (behind : Nat → Chan) (calls : List Call) :
    (∀ pre c post, calls = pre ++ c :: post → StepSound (initState behind) pre c) ↔
      ∀ pre c post, calls = pre ++ c :: post → c.Safe (run (initState behind) pre) := by
  simp only [stepSound_iff]

end Dingoo.Dma
