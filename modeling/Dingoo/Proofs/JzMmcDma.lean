/-
Invariants of the driver with its buffers.

What a property of the trace has to be kept by is said once (`Kept`): by the parts of the request
machine, which do not touch the argument register, by mapping and unmapping a list, and by
the start of a command.  From the moment the register is written to the start no interrupt
comes in, as all are masked.
-/
import Dingoo.Linux.JzMmcDma
import Dingoo.Lib.Ensures
import Dingoo.Proofs.JzMmcHost

namespace Dingoo.MmcDma

open Dingoo.Lib Dingoo.MmcHost

variable {sgLen : Nat → Nat} {window : Nat → T Unit} {t : Traced}

/-! ### What the request machine does not touch -/

theorem leaves_regArg_selectResponse (flags cmdat : BitVec 32) :
    Leaves State.regArg (selectResponse flags cmdat) := by
  intro s
  rw [selectResponse_eq]

theorem leaves_regArg_finishRequest (mrq : Option Nat) :
    Leaves State.regArg (jzMmcFinishRequest mrq) := fun _ => rfl

theorem leaves_regArg_failCmd (p : CmdPtr) : Leaves State.regArg (failCmd p) :=
  Leaves.bind (fun _ => rfl) fun _ => Leaves.bind Leaves.get fun _ => leaves_regArg_finishRequest _

theorem leaves_regArg_cmdDone (env : CmdEnv) : Leaves State.regArg (jzMmcCmdDone env) := by
  refine Leaves.bind Leaves.get fun s => ?_
  cases s.cmd with
  | none => exact Leaves.pure ()
  | some p =>
    refine Leaves.bind (fun _ => rfl) fun _ => Leaves.bind Leaves.get fun s => ?_
    cases s.command p with
    | none => exact Leaves.pure ()
    | some c =>
      refine Leaves.bind Leaves.get fun s => Leaves.bind (fun _ => rfl) fun _ =>
        Leaves.bind Leaves.get fun s => ?_
      refine Leaves.ite _ (fun _ => rfl) ?_
      exact Leaves.bind Leaves.get fun s => leaves_regArg_finishRequest _

/-! ### Properties that are kept -/

/-- `REG_MSC_ARG` is written and the command started. -/
def started (t : Traced) (p : CmdPtr) (c : Command) : Traced :=
  { t with
    host := { t.host with regArg := busArg c t.host.regArg }
    trace := t.trace ++ [.start p c.opcode c.arg (busArg c t.host.regArg)] }

/-- The list of request `i` is unmapped. -/
def unmapped (t : Traced) (i : Nat) : Traced :=
  { t with trace := t.trace ++ [.unmap i t.hostDmaLen t.hostDmaDir] }

structure Kept (sgLen : Nat → Nat) (I : Traced → Prop) : Prop where
  part : ∀ {α : Type} {x : M α}, Leaves State.regArg x → Ensures I (lift x) fun _ => I
  map : ∀ i flags, Ensures I (setupData sgLen i flags) fun _ => I
  unmap : ∀ t i, I t → I (unmapped t i)
  start : ∀ t p c, I t → I (started t p c)

/-- An interrupt that finds all masked does nothing. -/
def IgnoresMasked (window : Nat → T Unit) : Prop :=
  ∀ n t, t.host.regImask = 0xff → window n t = ((), t)

theorem lift_modify_of_log {f : State → State} (h : (f t.host).log = t.host.log) :
    lift (modify f) t = ((), { t with host := f t.host }) := by
  unfold lift
  rw [run_modify]
  dsimp only
  rw [h, List.drop_length, List.map_nil, List.append_nil]

theorem run_start (hmasked : IgnoresMasked window) (ht : t.host.regImask = 0xff) (p : CmdPtr)
    (c : Command) (k : T Unit) :
    (do
      (ops sgLen).lift (modify fun s => { s with regArg := busArg c s.regArg })
      window 4
      (ops sgLen).starts p c
      k : T Unit) t = k (started t p c) := by
  have hwindow := hmasked 4 { t with host := { t.host with regArg := busArg c t.host.regArg } } ht
  rw [run_bind]
  show (window 4 >>= fun _ => (ops sgLen).starts p c >>= fun _ => k) (lift _ t).2 = _
  rw [lift_modify_of_log rfl, run_bind]
  dsimp only
  rw [hwindow]
  rfl

section

variable {I : Traced → Prop}

theorem ensures_hostState_bind {β : Type} {P : Traced → Prop} {f : State → T β}
    {R : β → Traced → Prop} (h : ∀ s, Ensures P (f s) R) : Ensures P (hostState >>= f) R :=
  Ensures.bind (Q := fun _ => P) (fun _ ht => ht) h

theorem Kept.txSetup (hI : Kept sgLen I) : Ensures I (jzMmcTxSetupData sgLen) fun _ => I := by
  refine Ensures.bind (hI.part fun _ => rfl) fun _ => ?_
  refine ensures_hostState_bind fun s => ?_
  cases hostData s with
  | none => exact fun _ ht => ht
  | some found => exact hI.map found.1 found.2.flags

section
variable (hI : Kept sgLen I)
include hI

theorem Kept.startCmd (hwindow : ∀ n, Ensures I (window n) fun _ => I)
    (hmasked : IgnoresMasked window) (env : CmdEnv) (p : CmdPtr) (cmdat : BitVec 32) :
    Ensures I ((ops sgLen).jzMmcStartCmd window env p cmdat) fun _ => I := by
  refine Ensures.bind (hI.part fun _ => rfl) fun _ => Ensures.bind (hwindow 2) fun _ => ?_
  -- from here on all interrupts are masked
  have hmask : Ensures I (lift (modify fun s => { s with regImask := 0xff })) fun _ t =>
      I t ∧ t.host.regImask = 0xff := fun t ht => ⟨hI.part (fun _ => rfl) t ht, rfl⟩
  refine Ensures.bind hmask fun _ => ?_
  refine Ensures.bind (Q := fun _ t => I t ∧ t.host.regImask = 0xff) ?_ fun _ => ?_
  · intro t ht
    rw [hmasked 3 t ht.2]
    exact ht
  refine ensures_hostState_bind fun s => ?_
  cases s.command p with
  | none => exact fun t ht => ht.1
  | some c =>
    refine Ensures.bind (Q := fun _ t => I t ∧ t.host.regImask = 0xff) ?_ fun cmdat => ?_
    · intro t ht
      refine ⟨hI.part (leaves_regArg_selectResponse _ _) t ht.1, ?_⟩
      exact (congrArg (fun r => r.2.regImask) (selectResponse_eq _ _ t.host)).trans ht.2
    · intro t ht
      rw [run_start hmasked ht.2]
      -- the command is started
      refine (?_ : Ensures I _ fun _ => I) _ (hI.start t p c ht.1)
      refine Ensures.bind (hI.part fun _ => rfl) fun _ => Ensures.bind (hwindow 5) fun _ => ?_
      refine Ensures.ite _ (fun _ => hI.part (leaves_regArg_failCmd p)) fun _ => ?_
      refine Ensures.ite _ (fun _ => hI.part (leaves_regArg_failCmd p)) fun _ => ?_
      refine Ensures.bind (hI.part (leaves_regArg_cmdDone env)) fun _ =>
        Ensures.bind (hwindow 6) fun _ => ?_
      refine ensures_hostState_bind fun s => ?_
      exact Ensures.ite _ (fun _ => Ensures.bind (hwindow 7) fun _ => hI.txSetup) fun _ _ ht => ht

theorem Kept.dataDone (e : IrqEnv) : Ensures I ((ops sgLen).jzMmcDataDone e) fun _ => I := by
  refine ensures_hostState_bind fun s => ?_
  cases s.data with
  | none => exact fun _ ht => ht
  | some i =>
    refine Ensures.bind (Q := fun _ => I) (fun t ht => hI.unmap t i ht) fun _ => ?_
    refine Ensures.bind (hI.part fun _ => rfl) fun _ =>
      Ensures.bind (hI.part fun _ => rfl) fun _ => Ensures.bind (hI.part fun _ => rfl) fun _ => ?_
    refine ensures_hostState_bind fun s => ?_
    cases s.mrq.bind fun m => s.command (.stop m) with
    | none => exact hI.part (leaves_regArg_finishRequest _)
    | some c => exact hI.startCmd (fun _ _ ht => ht) (fun _ _ _ => rfl) e.stop _ 0

theorem Kept.raise (e : IrqEnv) : Ensures I ((ops sgLen).raise e) fun _ => I := by
  refine ensures_hostState_bind fun s => ?_
  refine Ensures.ite _ (fun _ => ?_) fun _ _ ht => ht
  exact Ensures.ite _ (fun _ => hI.dataDone e) fun _ _ ht => ht

theorem Kept.irqWindow (irqs : Nat → Option IrqEnv) (n : Nat) :
    Ensures I ((ops sgLen).irqWindow irqs n) fun _ => I := by
  unfold Ops.irqWindow
  cases irqs n with
  | none => exact fun _ ht => ht
  | some e => exact hI.raise e

end

theorem ignoresMasked_irqWindow (irqs : Nat → Option IrqEnv) :
    IgnoresMasked ((ops sgLen).irqWindow irqs) := by
  intro n t ht
  unfold Ops.irqWindow
  cases irqs n with
  | none => rfl
  | some e =>
    have hzero : ¬ e.ireg &&& ~~~t.host.regImask ≠ 0 := by simp [ht]
    exact congrFun (if_neg hzero) t

theorem Kept.request (hI : Kept sgLen I) (r : Request) (env : CmdEnv)
    (irqs : Nat → Option IrqEnv) : Ensures I ((ops sgLen).jzMmcRequest r env irqs) fun _ => I := by
  have hstart : ∀ p cmdat,
      Ensures I ((ops sgLen).jzMmcStartCmd ((ops sgLen).irqWindow irqs) env p cmdat) fun _ => I :=
    hI.startCmd (hI.irqWindow irqs) (ignoresMasked_irqWindow irqs) env
  refine ensures_hostState_bind fun s => ?_
  refine Ensures.bind (hI.part fun _ => rfl) fun _ => Ensures.bind (hI.irqWindow irqs 0) fun _ =>
    Ensures.bind (hI.part fun _ => rfl) fun _ => Ensures.bind (hI.irqWindow irqs 1) fun _ => ?_
  refine ensures_hostState_bind fun s' => ?_
  refine Ensures.bind (hI.part fun _ => rfl) fun _ => ?_
  cases r.data with
  | none => exact hstart _ _
  | some d =>
    refine Ensures.ite _ (fun _ => Ensures.bind ?_ fun _ => hstart _ _) fun _ => hstart _ _
    exact Ensures.bind (hI.part fun _ => rfl) fun _ => hI.map _ d.flags

/-- **What every part keeps holds after a run.** -/
theorem Kept.run (hI : Kept sgLen I) (acts : List Act) (ht : I t) : I (run sgLen t acts) := by
  induction acts generalizing t with
  | nil => exact ht
  | cons a acts ih =>
    refine ih ?_
    cases a with
    | request r env irqs => exact hI.request r env irqs t ht
    | irq e => exact hI.raise e t ht

end

end Dingoo.MmcDma
