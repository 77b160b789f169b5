/-
The interrupts registered for the DMA channels.

The `irq` field of a channel says three things: the number registered for it, 0 for
a channel never used, -1 for a channel without an interrupt.  `jz_free_dma` takes
every value but 0 for a registered number, so freeing a channel that was requested
without a handler frees the interrupt -1; and `jz_set_dma_mode` on a channel of
device 0 forgets the number that was registered for it.

`IrqInv` is what the fields mean along a run in which every free was clean: the
number of a channel is registered for it, once, and a free channel has none.
-/
import Dingoo.Lib.Runs
import Dingoo.Proofs.Dma

namespace Dingoo.Dma

open Dingoo.Lib

variable {s s' : State} {c : Call} {d k : Nat} {cell : Chan}

/-! ### Registrations -/

/-- What one call into the interrupt layer does to the registrations. -/
def register (regs : List (Int × Nat)) : IrqCall → List (Int × Nat)
  | .requestIrq irq dev errno => if errno = 0 then regs ++ [(irq, dev)] else regs
  | .freeIrq irq dev => regs.erase (irq, dev)

/-- The registrations made and not freed, in order. -/
def registered (s : State) : List (Int × Nat) := s.irqCalls.foldl register []

/-- The registrations for the interrupt of channel `d`. -/
def registeredFor (s : State) (d : Nat) : List (Int × Nat) :=
  (registered s).filter fun e => e.1 == irqDma0 + d

theorem registered_of_irqCalls {e : IrqCall} (h : s'.irqCalls = s.irqCalls ++ [e]) :
    registered s' = register (registered s) e := by
  simp [registered, h]

theorem registeredFor_of_eq (h : registered s' = registered s) (d : Nat) :
    registeredFor s' d = registeredFor s d := by
  rw [registeredFor, h, registeredFor]

theorem registeredFor_append {i d dev : Nat}
    (h : s'.irqCalls = s.irqCalls ++ [.requestIrq (irqDma0 + i) dev 0]) :
    registeredFor s' d =
      registeredFor s d ++ if i = d then [((irqDma0 : Int) + d, dev)] else [] := by
  unfold registeredFor
  rw [registered_of_irqCalls h, register, if_pos rfl, List.filter_append]
  congr 1
  by_cases hid : i = d
  · simp [hid]
  · have : ¬ (i : Int) = d := by omega
    simp [hid, this]

theorem registeredFor_erase {i d dev : Nat}
    (h : s'.irqCalls = s.irqCalls ++ [.freeIrq (irqDma0 + i) dev]) :
    registeredFor s' d =
      if i = d then (registeredFor s d).erase ((irqDma0 : Int) + d, dev)
      else registeredFor s d := by
  unfold registeredFor
  rw [registered_of_irqCalls h, register, ← List.erase_filter]
  split
  · rename_i hid
    rw [hid]
  · rename_i hid
    refine List.erase_of_not_mem fun hmem => ?_
    have := (List.mem_filter.mp hmem).2
    simp only [beq_iff_eq] at this
    omega

/-! ### The invariant -/

/-- What the interrupt fields mean while every free was clean. -/
structure IrqInv (s : State) : Prop where
  /-- only interrupts of channels are registered -/
  range : ∀ e ∈ registered s, ∃ d < maxDmaNum, e.1 = (irqDma0 : Int) + d
  /-- a channel's number is registered for it, once -/
  fields : ∀ d < maxDmaNum, (s.table d).irq = 0 ∨ (s.table d).irq = -1 ∨
    (s.table d).irq = irqDma0 + d ∧ 0 ≤ (s.table d).devId ∧
      registeredFor s d = [((irqDma0 : Int) + d, (s.table d).irqDev)]
  /-- nothing is registered for a free channel -/
  free : ∀ d < maxDmaNum, (s.table d).devId < 0 → registeredFor s d = []

/-- What the balance of registrations asks of a call. -/
structure Balanced (s : State) (c : Call) : Prop where
  /-- what is freed was registered -/
  freed : ∀ l, (step s c).irqCalls = s.irqCalls ++ l →
    ∀ irq dev, IrqCall.freeIrq irq dev ∈ l → (irq, dev) ∈ registered s
  /-- a channel that is freed keeps no interrupt -/
  released : ∀ d, c = .free d → d < maxDmaNum → 0 ≤ (s.table d).devId →
    registeredFor (step s c) d = []

/-- A call is clean unless it frees an allocated channel whose field holds neither its own
number nor, with nothing registered, 0. -/
def Call.Clean (s : State) : Call → Prop
  | .free d => d < maxDmaNum → 0 ≤ (s.table d).devId →
      (s.table d).irq = irqDma0 + d ∨ (s.table d).irq = 0 ∧ registeredFor s d = []
  | _ => True

theorem IrqInv.registered_mem (h : IrqInv s) (hd : d < maxDmaNum)
    (hirq : (s.table d).irq = irqDma0 + d) :
    registeredFor s d = [((irqDma0 : Int) + d, (s.table d).irqDev)] ∧
      ((irqDma0 : Int) + d, (s.table d).irqDev) ∈ registered s := by
  rcases h.fields d hd with hz | hz | ⟨-, -, hreg⟩
  · rw [hz, irqDma0] at hirq
    omega
  · rw [hz, irqDma0] at hirq
    omega
  · refine ⟨hreg, ?_⟩
    have hmem : ((irqDma0 : Int) + d, (s.table d).irqDev) ∈ registeredFor s d := by simp [hreg]
    exact (List.mem_filter.mp hmem).1

theorem freed_of_none {l : List IrqCall} (hcalls : (step s c).irqCalls = s.irqCalls ++ l)
    (hnone : ∀ irq dev, IrqCall.freeIrq irq dev ∉ l) :
    ∀ l', (step s c).irqCalls = s.irqCalls ++ l' →
      ∀ irq dev, IrqCall.freeIrq irq dev ∈ l' → (irq, dev) ∈ registered s := by
  intro l' hl' irq dev hmem
  obtain rfl := List.append_cancel_left (hcalls.symm.trans hl')
  exact absurd hmem (hnone irq dev)

theorem freed_of_silent (hcalls : (step s c).irqCalls = s.irqCalls) :
    ∀ l', (step s c).irqCalls = s.irqCalls ++ l' →
      ∀ irq dev, IrqCall.freeIrq irq dev ∈ l' → (irq, dev) ∈ registered s :=
  freed_of_none (l := []) (by rw [hcalls, List.append_nil]) (by simp)

/-- An allocated channel with 0 in its field: nothing is freed, so nothing may be
registered. -/
theorem balanced_free_zero (hd : d < maxDmaNum) (hown : 0 ≤ (s.table d).devId)
    (hz : (s.table d).irq = 0) (hcalls : (Dma.step s (.free d)).irqCalls = s.irqCalls) :
    Balanced s (.free d) ↔ (Call.free d).Clean s := by
  have hsame := registeredFor_of_eq (congrArg (List.foldl register []) hcalls) d
  constructor
  · intro hbal _ _
    exact Or.inr ⟨hz, hsame ▸ hbal.released d rfl hd hown⟩
  · intro hclean
    rcases hclean hd hown with hirq | ⟨-, hnone⟩
    · rw [hz, irqDma0] at hirq
      omega
    · refine ⟨freed_of_silent hcalls, ?_⟩
      rintro e hde - -
      cases hde
      rw [hsame, hnone]

/-- An allocated channel with another number in its field: it is freed, so it has to be the
one that was registered. -/
theorem IrqInv.balanced_free_number (h : IrqInv s) (hd : d < maxDmaNum)
    (hown : 0 ≤ (s.table d).devId) (hz : (s.table d).irq ≠ 0)
    (hcalls : (Dma.step s (.free d)).irqCalls =
      s.irqCalls ++ [.freeIrq (s.table d).irq (s.table d).irqDev]) :
    Balanced s (.free d) ↔ (Call.free d).Clean s := by
  constructor
  · intro hbal _ _
    have hmem := hbal.freed _ hcalls _ _ (List.mem_singleton.mpr rfl)
    rcases h.fields d hd with h0 | h1 | ⟨hirq, -⟩
    · exact absurd h0 hz
    · -- the interrupt -1 is never registered
      obtain ⟨e, -, he⟩ := h.range _ hmem
      simp only [h1, irqDma0] at he
      omega
    · exact Or.inl hirq
  · intro hclean
    have hirq : (s.table d).irq = irqDma0 + d := by
      rcases hclean hd hown with hirq | ⟨h0, -⟩
      · exact hirq
      · exact absurd h0 hz
    obtain ⟨hreg, hmem⟩ := h.registered_mem hd hirq
    refine ⟨?_, ?_⟩
    · intro l' hl' irq dev hin
      obtain rfl := List.append_cancel_left (hcalls.symm.trans hl')
      simp only [List.mem_singleton, IrqCall.freeIrq.injEq] at hin
      rw [hin.1, hin.2, hirq]
      exact hmem
    · rintro e hde - -
      cases hde
      rw [hirq] at hcalls
      rw [registeredFor_erase hcalls, if_pos rfl, hreg]
      simp

theorem IrqInv.balanced_free (h : IrqInv s) (hd : d < maxDmaNum) :
    Balanced s (.free d) ↔ (Call.free d).Clean s := by
  have heff := effect s (.free d)
  generalize ht : Dma.step s (.free d) = t at heff
  generalize result s (.free d) = r at heff
  cases heff with
  | freeNone l hl hneg =>
    refine ⟨fun _ _ hown => by omega, fun _ => ⟨freed_of_silent (by rw [ht]), ?_⟩⟩
    rintro e hde - hown
    cases hde
    omega
  | freeOk _ hown =>
    by_cases hz : (s.table d).irq = 0
    · exact balanced_free_zero hd hown hz (by rw [ht]; simp [hz])
    · exact h.balanced_free_number hd hown hz (by rw [ht]; simp [hz])

theorem irqCalls_of_not_free (hc : ∀ d, c ≠ .free d) :
    ∃ l, (step s c).irqCalls = s.irqCalls ++ l ∧
      ∀ irq dev, IrqCall.freeIrq irq dev ∉ l := by
  have heff := effect s c
  generalize step s c = t at heff ⊢
  generalize result s c = r at heff
  cases heff with
  | requestNone r l hr hl => exact ⟨[], (List.append_nil _).symm, by simp⟩
  | requestFail k l herr hk hfree hl => exact ⟨_, rfl, by simp⟩
  | @requestOk _ _ handler _ _ k l hdev hk hfree herr hl =>
    refine ⟨_, rfl, ?_⟩
    cases handler <;> simp
  | freeNone l hl hd => exact absurd rfl (hc _)
  | freeOk hd hown => exact absurd rfl (hc _)
  | setNone l hl hno => exact ⟨[], (List.append_nil _).symm, by simp⟩
  | setRefused l hl hd hfree hown => exact ⟨[], (List.append_nil _).symm, by simp⟩
  | setOk k table l l' hl hd hk hfree hown hdev hirq hother hrest =>
    exact ⟨[], (List.append_nil _).symm, by simp⟩

theorem balanced_of_not_free (hc : ∀ d, c ≠ .free d) : Balanced s c := by
  obtain ⟨l, hl, hnone⟩ := @irqCalls_of_not_free s c hc
  exact ⟨freed_of_none hl hnone, fun d hd => absurd hd (hc d)⟩

section
variable (h : IrqInv s)
include h

theorem IrqInv.balanced_iff (c : Call) (hin : c.InTable s) : Balanced s c ↔ c.Clean s := by
  cases c with
  | request devId devStr handler irqDevId errno =>
    exact ⟨fun _ => trivial, fun _ => balanced_of_not_free (by simp)⟩
  | setMode d dmaMode dmaSource fifoAddr =>
    exact ⟨fun _ => trivial, fun _ => balanced_of_not_free (by simp)⟩
  | free d =>
    by_cases hd : d < maxDmaNum
    · exact h.balanced_free hd
    · -- a number behind the table is refused
      have hbehind : maxDmaNum < d := by
        have : d ≠ maxDmaNum := hin
        omega
      have heff : step s (.free d) = s := by
        simp [step, Call.exec, jzFreeDma, getDmaChan_behind hbehind]
      refine ⟨fun _ hlt => absurd hlt hd, fun _ => ⟨freed_of_silent (by rw [heff]), ?_⟩⟩
      rintro e hde hlt
      cases hde
      exact absurd hlt hd

theorem IrqInv.irq_of_free (hd : d < maxDmaNum) (hfree : (s.table d).devId < 0) :
    (s.table d).irq = 0 ∨ (s.table d).irq = -1 := by
  rcases h.fields d hd with h0 | h1 | ⟨-, hown, -⟩
  · exact Or.inl h0
  · exact Or.inr h1
  · omega

/-- A step after which each channel is as it was, has no number, or has its own and is
registered once. -/
theorem IrqInv.of_cells
    (hrange : ∀ e ∈ registered s', e ∈ registered s ∨ ∃ d < maxDmaNum, e.1 = (irqDma0 : Int) + d)
    (hcell : ∀ d < maxDmaNum, s'.table d = s.table d ∧ registeredFor s' d = registeredFor s d ∨
      ((s'.table d).irq = 0 ∨ (s'.table d).irq = -1) ∧
        ((s'.table d).devId < 0 → registeredFor s' d = []) ∨
      (s'.table d).irq = irqDma0 + d ∧ 0 ≤ (s'.table d).devId ∧
        registeredFor s' d = [((irqDma0 : Int) + d, (s'.table d).irqDev)]) : IrqInv s' := by
  refine ⟨fun e he => (hrange e he).elim (h.range e) id, fun d hd => ?_, fun d hd hneg => ?_⟩
  · rcases hcell d hd with ⟨htable, hreg⟩ | ⟨h0 | h1, -⟩ | hnumber
    · rw [htable, hreg]
      exact h.fields d hd
    · exact Or.inl h0
    · exact Or.inr (Or.inl h1)
    · exact Or.inr (Or.inr hnumber)
  · rcases hcell d hd with ⟨htable, hreg⟩ | ⟨-, hnone⟩ | ⟨-, hown, -⟩
    · rw [hreg]
      exact h.free d hd (htable ▸ hneg)
    · exact hnone hneg
    · omega

theorem IrqInv.of_update (hreg : registered s' = registered s)
    (htable : s'.table = Function.update s.table k cell) (hirq : cell.irq = 0 ∨ cell.irq = -1)
    (hfree : cell.devId < 0 → registeredFor s k = []) : IrqInv s' := by
  refine h.of_cells (fun e he => Or.inl (hreg ▸ he)) fun d _ => ?_
  rw [htable, registeredFor_of_eq hreg]
  by_cases hdk : d = k
  · rw [hdk, Function.update_self]
    exact Or.inr (Or.inl ⟨hirq, hfree⟩)
  · exact Or.inl ⟨Function.update_of_ne hdk _ _, rfl⟩

theorem IrqInv.of_request (hk : k < maxDmaNum) (hfree : (s.table k).devId < 0)
    (htable : s'.table = Function.update s.table k cell) (hirq : cell.irq = irqDma0 + k)
    (hown : 0 ≤ cell.devId)
    (hcalls : s'.irqCalls = s.irqCalls ++ [.requestIrq (irqDma0 + k) cell.irqDev 0]) :
    IrqInv s' := by
  refine h.of_cells (fun e he => ?_) fun d hd => ?_
  · rw [registered_of_irqCalls hcalls, register, if_pos rfl, List.mem_append,
      List.mem_singleton] at he
    exact he.imp_right fun he => ⟨k, hk, by rw [he]⟩
  · rw [registeredFor_append hcalls, htable]
    by_cases hdk : d = k
    · subst hdk
      rw [Function.update_self, if_pos rfl, h.free d hd hfree]
      exact Or.inr (Or.inr ⟨hirq, hown, rfl⟩)
    · rw [if_neg (Ne.symm hdk), List.append_nil]
      exact Or.inl ⟨Function.update_of_ne hdk _ _, rfl⟩

theorem IrqInv.of_free (hk : k < maxDmaNum) (hirq : (s.table k).irq = irqDma0 + k)
    (htable : s'.table = Function.update s.table k cell) (hnone : cell.irq = -1)
    (hcalls : s'.irqCalls = s.irqCalls ++ [.freeIrq (irqDma0 + k) (s.table k).irqDev]) :
    IrqInv s' := by
  refine h.of_cells (fun e he => ?_) fun d hd => ?_
  · rw [registered_of_irqCalls hcalls, register] at he
    exact Or.inl (List.mem_of_mem_erase he)
  · rw [registeredFor_erase hcalls, htable]
    by_cases hdk : d = k
    · subst hdk
      rw [Function.update_self, if_pos rfl, (h.registered_mem hk hirq).1]
      exact Or.inr (Or.inl ⟨Or.inr hnone, by simp⟩)
    · rw [if_neg (Ne.symm hdk)]
      exact Or.inl ⟨Function.update_of_ne hdk _ _, rfl⟩

theorem IrqInv.step (c : Call) (hin : c.InTable s) (hclean : c.Clean s) : IrqInv (step s c) := by
  have heff := effect s c
  generalize Dma.step s c = t at heff ⊢
  generalize result s c = r at heff
  cases heff with
  | requestNone r l hr hl => exact ⟨h.range, h.fields, h.free⟩
  | requestFail k l herr hk hfree hl =>
    refine h.of_update ?_ rfl (Or.inr rfl) fun _ => h.free k hk hfree
    rw [registered_of_irqCalls rfl, register, if_neg herr]
  | @requestOk _ _ handler _ _ k l hdev hk hfree herr hl =>
    cases handler with
    | true => exact h.of_request hk hfree rfl (by simp [requested]) (by simpa [requested]) rfl
    | false =>
      refine h.of_update (by simp [registered]) rfl (Or.inr rfl) fun hneg => ?_
      simp only [requested] at hneg
      omega
  | freeNone l hl hd => exact ⟨h.range, h.fields, h.free⟩
  | @freeOk d hd hown =>
    have hlt : d < maxDmaNum := by
      have : d ≠ maxDmaNum := hin
      omega
    rcases hclean hlt hown with hirq | ⟨h0, hnone⟩
    · have hne : (s.table d).irq ≠ 0 := by
        rw [hirq, irqDma0]
        omega
      refine h.of_free hlt hirq rfl rfl ?_
      rw [if_pos hne, hirq]
    · exact h.of_update (by simp [registered, h0]) rfl (Or.inr rfl) fun _ => hnone
  | setNone l hl hno => exact ⟨h.range, h.fields, h.free⟩
  | setRefused l hl hd hfree hown => exact ⟨h.range, h.fields, h.free⟩
  | @setOk d _ _ _ k table l l' hl hd hk hfree hown hdev hirq hother hrest =>
    refine h.of_cells (fun e he => Or.inl he) fun e he => ?_
    by_cases hed : e = d
    · subst hed
      refine Or.inr (Or.inl ⟨?_, fun hneg => ?_⟩)
      · rw [hirq.1]
        exact h.irq_of_free hk hfree
      · rw [hdev] at hneg
        exact absurd hneg (by decide)
    · by_cases hek : e = k
      · subst hek
        exact Or.inr (Or.inl ⟨Or.inl (congrArg Chan.irq (hother hed)), fun _ => h.free e he hfree⟩)
      · exact Or.inl ⟨hrest e hed hek, rfl⟩

end

theorem irqInv_init (behind : Nat → Chan) : IrqInv (initState behind) := by
  refine ⟨by simp [registered, initState], ?_, fun d _ _ => rfl⟩
  intro d hd
  exact Or.inl (by simp [initState, hd])

/-- A channel requested without a handler and freed: the interrupt -1 is freed. -/
theorem freeIrq_without_handler :
    (run (initState fun _ => ⟨0, 0, 0, 0, 0, 0, 0, 0⟩)
      [.request 1 0 false 0 0, .free 0]).irqCalls = [.freeIrq (-1) 0] := by
  decide

/-- **When registrations are balanced**: for every sequence of calls, every call stays inside
the table and is balanced if and only if none of them names channel 6, unless to
`jz_set_dma_mode` without a free channel, and every channel that is freed holds its own
interrupt number, or 0 with nothing registered. -/
theorem balanced_iff_clean (behind : Nat → Chan) (calls : List Call) :
    EachStep step (fun s c => Inside s c ∧ Balanced s c) (initState behind) calls ↔
      EachStep step (fun s c => c.InTable s ∧ c.Clean s) (initState behind) calls := by
  refine eachStep_iff (fun s c h (_ : True) => ?_)
    (fun _ c h _ hc => h.step c hc.1 hc.2) calls (irqInv_init behind) (fun _ _ => trivial)
  rw [inside_iff]
  exact and_congr_right fun hin => h.balanced_iff c hin

/-- A channel requested with a handler and freed: both calls are balanced. -/
theorem balanced_with_handler :
    EachStep step (fun s c => Inside s c ∧ Balanced s c)
      (initState fun _ => ⟨0, 0, 0, 0, 0, 0, 0, 0⟩) [.request 1 0 true 7 0, .free 0] := by
  rw [balanced_iff_clean, eachStep_cons, eachStep_cons]
  refine ⟨⟨trivial, trivial⟩, ⟨?_, fun _ _ => Or.inl (by decide)⟩, eachStep_nil _⟩
  show 0 ≠ maxDmaNum
  decide

end Dingoo.Dma
