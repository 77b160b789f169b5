/-
No request of the MMC host driver is lost or completed twice.

Between calls the driver is in one of two states.  `Idle`: no request, and every
request issued has been completed, once, in order.  `Open`: the last request waits
for its data, everything before it is completed, and the interrupt that will end it
is not masked.  While a command runs the driver is `Busy`; then the interrupt is
masked, so the handler cannot come in between.

An interrupt that comes inside `jz_mmc_request` can only come after the command is
done, when the state is already `Idle` or `Open`; that is why the rest of
`jz_mmc_start_cmd` does not need to know whether one came.
-/
import Dingoo.Lib.Runs
import Dingoo.Lib.StateRun
import Dingoo.Linux.JzMmc

namespace Dingoo.MmcHost

open Dingoo.Lib

variable {s s' : State} {i : Nat} {p : CmdPtr} {c : Command} {window : Nat → M Unit}

/-! ### The two states between calls, and the one inside -/

/-- No request, and all requests issued are completed. -/
structure Idle (s : State) : Prop where
  mrq : s.mrq = none
  cmd : s.cmd = none
  data : s.data = none
  imask : s.imask = 0xff
  regImask : s.regImask = 0xff
  done : doneLog s = (List.range s.reqs.length).map some

/-- The last request waits for its data. -/
structure Open (s : State) (i : Nat) : Prop where
  mrq : s.mrq = some i
  cmd : s.cmd = none
  data : s.data = some i
  imask : s.imask = 0xfe
  regImask : s.regImask = 0xfe
  last : s.reqs.length = i + 1
  done : doneLog s = (List.range i).map some

/-- A command of the last request is being sent. -/
structure Busy (s : State) (i : Nat) : Prop where
  mrq : s.mrq = some i
  data : s.data = none ∨ s.data = some i
  imask : s.imask = 0xff
  regImask : s.regImask = 0xff
  last : s.reqs.length = i + 1
  done : doneLog s = (List.range i).map some

/-- What holds whenever no function of the driver runs. -/
def Quiescent (s : State) : Prop := Idle s ∨ ∃ i, Open s i

/-! ### Small facts about the state -/

theorem command_of_reqs (h : s'.reqs = s.reqs) (p : CmdPtr) : s'.command p = s.command p := by
  cases p with
  | cmd i => rw [State.command, h, State.command]
  | stop i => rw [State.command, h, State.command]

@[simp] theorem length_modifyCommand (s : State) (p : CmdPtr) (f : Command → Command) :
    (s.modifyCommand p f).reqs.length = s.reqs.length := by
  cases p with
  | cmd i => simp [State.modifyCommand]
  | stop i => simp [State.modifyCommand]

theorem doneLog_of_log (h : s'.log = s.log) : doneLog s' = doneLog s := by
  rw [doneLog, h, doneLog]

theorem doneLog_record_done (s : State) (mrq : Option Nat) :
    doneLog (s.record (.done mrq)) = doneLog s ++ [mrq] := by
  simp [doneLog, State.record]

theorem doneLog_record_other {e : Event} (h : ∀ mrq, e ≠ .done mrq) :
    doneLog (s.record e) = doneLog s := by
  cases e with
  | done mrq => exact absurd rfl (h mrq)
  | send | response | rxSetup | txSetup => simp [doneLog, State.record]

/-! ### Masked interrupts -/

theorem raise_masked (e : IrqEnv) (h : s.regImask = 0xff) : raise e s = ((), s) := by
  simp [Ops.raise, h]

theorem irqWindow_masked (irqs : Nat → Option IrqEnv) (n : Nat) (h : s.regImask = 0xff) :
    irqWindow irqs n s = ((), s) := by
  unfold irqWindow Ops.irqWindow
  cases irqs n with
  | none => rfl
  | some e => exact raise_masked e h

/-! ### Sending a command -/

/-- The format in which a response is read: that of the command's type, or what `r_type` was. -/
def formatAfter (rType : Nat) (flags : BitVec 32) : Nat :=
  if rspType flags = rspR1 then 1
  else if rspType flags = rspR3 then 1
  else if rspType flags = rspR2 then 2
  else rType

/-- The `CMDAT` bits of a response type. -/
def responseBits (flags : BitVec 32) : BitVec 32 :=
  if rspType flags = rspR1 then 1
  else if rspType flags = rspR3 then 3
  else if rspType flags = rspR2 then 2
  else 0

theorem selectResponse_eq (flags cmdat : BitVec 32) (s : State) :
    selectResponse flags cmdat s =
      (cmdat ||| responseBits flags, { s with rType := formatAfter s.rType flags }) := by
  unfold selectResponse responseBits formatAfter
  split
  · rfl
  · split
    · rfl
    · split
      · rfl
      · simp

/-- The state in which a command has been sent. -/
def sent (s : State) (p : CmdPtr) (c : Command) (cmdat : BitVec 32) : State :=
  { s with
    cmd := some p
    regImask := 0xff
    rType := formatAfter s.rType c.flags
    regArg := busArg c s.regArg }.record
      (.send c.flags c.opcode (busArg c s.regArg)
        ((if c.flags &&& mmcRspBusy ≠ 0 then cmdat ||| cmdatBusy else cmdat) |||
          responseBits c.flags))

/-- The rest of `jz_mmc_start_cmd`. -/
def afterSend (window : Nat → M Unit) (env : CmdEnv) (p : CmdPtr) (c : Command) : M Unit := do
  if !env.slotEnable then failCmd p
  else if c.opcode = sdIoSendOpCond then failCmd p
  else
    jzMmcCmdDone env
    window 6
    if (← get).data.isSome ∧ isWrite c.opcode then
      window 7
      modify fun s => s.record (.txSetup s.data)

/-- No interrupt comes in before the command is sent, since it is masked. -/
theorem jzMmcStartCmd_eq (hwin : ∀ n (t : State), t.regImask = 0xff → window n t = ((), t))
    (env : CmdEnv) (cmdat : BitVec 32) (hmask : s.regImask = 0xff) (hc : s.command p = some c) :
    jzMmcStartCmd window env p cmdat s = afterSend window env p c (sent s p c cmdat) := by
  have hc' : State.command { s with cmd := some p, regImask := 0xff } p = some c :=
    (command_of_reqs rfl p).trans hc
  simp only [Ops.jzMmcStartCmd, plain_lift, plain_state, plain_starts, run_bind, run_pure,
    run_modify, run_get, hwin, hmask, hc', selectResponse_eq, State.record]
  rfl

/-! ### The end of a command -/

/-- The command as `jz_mmc_cmd_done` leaves it. -/
def answer (env : CmdEnv) (format : Nat) (c : Command) : Command :=
  let c' := { c with resp := (takeResponse format env.res c.resp).2 }
  { c' with error := (cmdError env.stat c').getD c'.error }

/-- The state in which the response of a command has been taken. -/
def answered (s : State) (env : CmdEnv) (p : CmdPtr) (c : Command) : State :=
  (State.modifyCommand { s with cmd := none } p fun _ => answer env s.rType c).record
    (.response c.flags s.rType (takeResponse s.rType env.res c.resp).1 c.resp
      (takeResponse s.rType env.res c.resp).2)

theorem jzMmcCmdDone_eq (env : CmdEnv) (hp : s.cmd = some p) (hc : s.command p = some c) :
    jzMmcCmdDone env s =
      if (answered s env p c).data.isSome ∧ (answer env s.rType c).error = 0 then
        jzMmcEnableIrq dataTranDone (answered s env p c)
      else jzMmcFinishRequest (answered s env p c).mrq (answered s env p c) := by
  have hc' : State.command { s with cmd := none } p = some c := (command_of_reqs rfl p).trans hc
  simp only [jzMmcCmdDone, run_bind, run_get, hp, run_modify, hc']
  by_cases h : (answered s env p c).data.isSome ∧ (answer env s.rType c).error = 0
  · rw [if_pos h]
    exact congrFun (if_pos h) _
  · rw [if_neg h]
    exact congrFun (if_neg h) _

section
variable (h : Busy s i)
include h

theorem Busy.of_eq (hmrq : s'.mrq = s.mrq) (hdata : s'.data = s.data) (himask : s'.imask = s.imask)
    (hreg : s'.regImask = 0xff) (hlen : s'.reqs.length = s.reqs.length)
    (hdone : doneLog s' = doneLog s) : Busy s' i where
  mrq := hmrq.trans h.mrq
  data := hdata ▸ h.data
  imask := himask.trans h.imask
  regImask := hreg
  last := hlen.trans h.last
  done := hdone.trans h.done

theorem Busy.sent (p : CmdPtr) (c : Command) (cmdat : BitVec 32) : Busy (sent s p c cmdat) i :=
  h.of_eq rfl rfl rfl rfl rfl (doneLog_record_other (by simp))

theorem Busy.answered (env : CmdEnv) (p : CmdPtr) (c : Command) : Busy (answered s env p c) i := by
  refine h.of_eq rfl rfl rfl h.regImask ?_ (doneLog_record_other (by simp))
  exact length_modifyCommand { s with cmd := none } p fun _ => answer env s.rType c

theorem Busy.finish : Idle (jzMmcFinishRequest s.mrq s).2 where
  mrq := rfl
  cmd := rfl
  data := rfl
  imask := h.imask
  regImask := h.regImask
  done := by
    show doneLog (State.record { s with mrq := none, cmd := none, data := none } (.done s.mrq)) =
      (List.range s.reqs.length).map some
    rw [doneLog_record_done, h.last, List.range_succ, List.map_append, h.mrq]
    congr 1
    exact (doneLog_of_log rfl).trans h.done

theorem Busy.failCmd (p : CmdPtr) : Idle (failCmd p s).2 := by
  have hfail : Busy (s.modifyCommand p fun c => { c with error := -ETIMEDOUT }) i :=
    h.of_eq rfl rfl rfl h.regImask (length_modifyCommand _ _ _) (doneLog_of_log rfl)
  exact hfail.finish

theorem Busy.cmdDone_idle (env : CmdEnv) (hp : s.cmd = some p) (hc : s.command p = some c)
    (hend : s.data = none ∨ (answer env s.rType c).error ≠ 0) : Idle (jzMmcCmdDone env s).2 := by
  rw [jzMmcCmdDone_eq env hp hc, if_neg]
  · exact (h.answered env p c).finish
  · rintro ⟨hsome, herror⟩
    rcases hend with hnone | hne
    · rw [show (MmcHost.answered s env p c).data = s.data from rfl, hnone] at hsome
      cases hsome
    · exact hne herror

theorem Busy.cmdDone_open (env : CmdEnv) (hp : s.cmd = some p) (hc : s.command p = some c)
    (hdata : s.data = some i) (herror : (answer env s.rType c).error = 0) :
    Open (jzMmcCmdDone env s).2 i := by
  have ha := h.answered env p c
  have hmask : s.imask &&& ~~~dataTranDone = 0xfe := by
    rw [h.imask]
    decide
  rw [jzMmcCmdDone_eq env hp hc, if_pos]
  · exact ⟨h.mrq, rfl, hdata, hmask, hmask, ha.last, (doneLog_of_log rfl).trans ha.done⟩
  · exact ⟨by rw [show (MmcHost.answered s env p c).data = s.data from rfl, hdata]; rfl, herror⟩

theorem Busy.cmdDone (env : CmdEnv) (hp : s.cmd = some p) (hc : s.command p = some c) :
    Quiescent (jzMmcCmdDone env s).2 := by
  rcases h.data with hnone | hsome
  · exact Or.inl (h.cmdDone_idle env hp hc (Or.inl hnone))
  · by_cases herror : (answer env s.rType c).error = 0
    · exact Or.inr ⟨i, h.cmdDone_open env hp hc hsome herror⟩
    · exact Or.inl (h.cmdDone_idle env hp hc (Or.inr herror))

end

theorem Idle.record_txSetup (h : Idle s) (data : Option Nat) : Idle (s.record (.txSetup data)) :=
  ⟨h.mrq, h.cmd, h.data, h.imask, h.regImask, (doneLog_record_other (by simp)).trans h.done⟩

theorem Open.record_txSetup (h : Open s i) (data : Option Nat) :
    Open (s.record (.txSetup data)) i :=
  ⟨h.mrq, h.cmd, h.data, h.imask, h.regImask, h.last,
    (doneLog_record_other (by simp)).trans h.done⟩

theorem Quiescent.record_txSetup (h : Quiescent s) (data : Option Nat) :
    Quiescent (s.record (.txSetup data)) := by
  rcases h with h | ⟨i, h⟩
  · exact Or.inl (h.record_txSetup data)
  · exact Or.inr ⟨i, h.record_txSetup data⟩

/-- What holds however a command that was sent ends, and is kept by the interrupts that come
then, holds after `jz_mmc_start_cmd`. -/
theorem startCmd_keeps {R : State → Prop}
    (hmask : ∀ n (t : State), t.regImask = 0xff → window n t = ((), t))
    (hwin : ∀ n (t : State), R t → R (window n t).2)
    (htx : ∀ (t : State) data, R t → R (t.record (.txSetup data))) {env : CmdEnv}
    {cmdat : BitVec 32} (hreg : s.regImask = 0xff) (hc : s.command p = some c)
    (hfail : R (failCmd p (sent s p c cmdat)).2)
    (hdone : R (jzMmcCmdDone env (sent s p c cmdat)).2) :
    R (jzMmcStartCmd window env p cmdat s).2 := by
  rw [jzMmcStartCmd_eq hmask env cmdat hreg hc]
  unfold afterSend
  rw [run_ite]
  split
  · exact hfail
  · rw [run_ite]
    split
    · exact hfail
    · simp only [run_bind]
      rw [run_ite]
      split
      · exact htx _ _ (hwin 7 _ (hwin 6 _ hdone))
      · exact hwin 6 _ hdone

theorem Busy.startCmd (hmask : ∀ n (t : State), t.regImask = 0xff → window n t = ((), t))
    (hquiet : ∀ n (t : State), Quiescent t → Quiescent (window n t).2) (env : CmdEnv)
    (cmdat : BitVec 32) (h : Busy s i) (hc : s.command p = some c) :
    Quiescent (jzMmcStartCmd window env p cmdat s).2 := by
  have hs := h.sent p c cmdat
  have hc' : (MmcHost.sent s p c cmdat).command p = some c := (command_of_reqs rfl p).trans hc
  exact startCmd_keeps hmask hquiet (fun t data ht => ht.record_txSetup data) h.regImask hc
    (Or.inl (hs.failCmd p)) (hs.cmdDone env rfl hc')

/-! ### The interrupt -/

/-- The state in which the data of request `i` has been taken and its interrupt masked. -/
def transferred (s : State) (e : IrqEnv) (i : Nat) : State :=
  { s.modifyData i (dataResult e) with
    imask := s.imask ||| dataTranDone
    regImask := s.imask ||| dataTranDone
    data := none }

theorem Open.transferred (h : Open s i) (e : IrqEnv) : Busy (transferred s e i) i where
  mrq := h.mrq
  data := Or.inl rfl
  imask := by
    show s.imask ||| dataTranDone = 0xff
    rw [h.imask]
    decide
  regImask := by
    show s.imask ||| dataTranDone = 0xff
    rw [h.imask]
    decide
  last := (List.length_modify _ _ _).trans h.last
  done := (doneLog_of_log rfl).trans h.done

theorem Open.dataDone_eq (h : Open s i) (e : IrqEnv) :
    jzMmcDataDone e s =
      match (MmcHost.transferred s e i).command (.stop i) with
      | some _ => jzMmcStartCmd (fun _ => pure ()) e.stop (.stop i) 0 (MmcHost.transferred s e i)
      | none => jzMmcFinishRequest (MmcHost.transferred s e i).mrq (MmcHost.transferred s e i) := by
  have hmrq : (MmcHost.transferred s e i).mrq = some i := h.mrq
  simp only [Ops.jzMmcDataDone, plain_lift, plain_state, plain_unmaps, run_bind, run_pure,
    run_get, h.data, run_modify, jzMmcDisableIrq]
  change (match (MmcHost.transferred s e i).mrq.bind
      fun m => (MmcHost.transferred s e i).command (.stop m) with
    | some _ => jzMmcStartCmd (fun _ => pure ()) e.stop
        (.stop ((MmcHost.transferred s e i).mrq.getD 0)) 0
    | none => jzMmcFinishRequest (MmcHost.transferred s e i).mrq) (MmcHost.transferred s e i) = _
  rw [hmrq]
  simp only [Option.bind_some, Option.getD_some]
  cases (MmcHost.transferred s e i).command (.stop i) with
  | none => rfl
  | some c => rfl

theorem Open.dataDone (h : Open s i) (e : IrqEnv) : Quiescent (jzMmcDataDone e s).2 := by
  rw [h.dataDone_eq e]
  split
  · rename_i c hstop
    exact (h.transferred e).startCmd (fun _ _ _ => rfl) (fun _ _ hq => hq) e.stop 0 hstop
  · exact Or.inl (h.transferred e).finish

theorem Quiescent.raise (h : Quiescent s) (e : IrqEnv) : Quiescent (raise e s).2 := by
  rcases h with h | ⟨i, h⟩
  · rw [raise_masked e h.regImask]
    exact Or.inl h
  · simp only [Ops.raise, run_bind]
    rw [run_ite]
    split
    · unfold Ops.jzMmcIrq
      rw [run_ite]
      split
      · exact h.dataDone e
      · exact Or.inr ⟨i, h⟩
    · exact Or.inr ⟨i, h⟩

theorem Quiescent.irqWindow (h : Quiescent s) (irqs : Nat → Option IrqEnv) (n : Nat) :
    Quiescent (irqWindow irqs n s).2 := by
  unfold MmcHost.irqWindow Ops.irqWindow
  cases irqs n with
  | none => exact h
  | some e => exact h.raise e

/-! ### Requests and runs -/

/-- The state in which a request has been saved, and its receive transfer set up. -/
def issued (s : State) (r : Request) : State :=
  let t := { s with
    reqs := s.reqs ++ [r]
    mrq := some s.reqs.length
    data := r.data.map fun _ => s.reqs.length
    cmdat := s.cmdat &&& ~~~cmdatInit }
  if r.data.isSome ∧ !isWrite r.cmd.opcode then t.record (.rxSetup s.reqs.length) else t

/-- The `CMDAT` bits a request starts with. -/
def startCmdat (s : State) (r : Request) : BitVec 32 :=
  match r.data with
  | none => s.cmdat
  | some d => dataCmdat r.cmd.opcode d s.cmdat

theorem jzMmcRequest_eq (h : s.regImask = 0xff) (r : Request) (env : CmdEnv)
    (irqs : Nat → Option IrqEnv) :
    jzMmcRequest r env irqs s =
      jzMmcStartCmd (irqWindow irqs) env (.cmd s.reqs.length) (startCmdat s r) (issued s r) := by
  simp only [Ops.jzMmcRequest, plain_lift, plain_state, plain_rxSetupData, run_bind, run_get,
    run_modify, irqWindow_masked, h]
  cases hd : r.data with
  | none => simp [issued, startCmdat, hd, h]
  | some d =>
    cases hw : isWrite r.cmd.opcode with
    | true => simp [issued, startCmdat, hd, hw, h]
    | false => simp [issued, startCmdat, hd, hw, h]

theorem reqs_issued (s : State) (r : Request) : (issued s r).reqs = s.reqs ++ [r] := by
  unfold issued
  split
  · rfl
  · rfl

theorem data_issued (s : State) (r : Request) :
    (issued s r).data = r.data.map fun _ => s.reqs.length := by
  unfold issued
  split
  · rfl
  · rfl

theorem rType_issued (s : State) (r : Request) : (issued s r).rType = s.rType := by
  unfold issued
  split
  · rfl
  · rfl

theorem issued_command (s : State) (r : Request) :
    (issued s r).command (.cmd s.reqs.length) = some r.cmd := by
  rw [State.command, reqs_issued]
  simp

theorem Idle.issued (h : Idle s) (r : Request) : Busy (issued s r) s.reqs.length := by
  have ht : Busy { s with
      reqs := s.reqs ++ [r]
      mrq := some s.reqs.length
      data := r.data.map fun _ => s.reqs.length
      cmdat := s.cmdat &&& ~~~cmdatInit } s.reqs.length := by
    refine ⟨rfl, ?_, h.imask, h.regImask, by simp, (doneLog_of_log rfl).trans h.done⟩
    cases r.data with
    | none => exact Or.inl rfl
    | some d => exact Or.inr rfl
  unfold MmcHost.issued
  split
  · exact ht.of_eq rfl rfl rfl h.regImask rfl (doneLog_record_other (by simp))
  · exact ht

theorem Idle.request (h : Idle s) (r : Request) (env : CmdEnv) (irqs : Nat → Option IrqEnv) :
    Quiescent (jzMmcRequest r env irqs s).2 := by
  rw [jzMmcRequest_eq h.regImask]
  exact (h.issued r).startCmd (fun n _ => irqWindow_masked irqs n)
    (fun n _ hq => hq.irqWindow irqs n) env _ (issued_command s r)

/-- A request is issued only after every earlier one was completed. -/
def Act.Allowed (s : State) : Act → Prop
  | .request _ _ _ => ∀ j < s.reqs.length, some j ∈ doneLog s
  | .irq _ => True

theorem Quiescent.idle (h : Quiescent s) (hall : ∀ j < s.reqs.length, some j ∈ doneLog s) :
    Idle s := by
  rcases h with h | ⟨i, h⟩
  · exact h
  · -- the last request is not among the completed ones
    have hmem := hall i (by rw [h.last]; omega)
    rw [h.done] at hmem
    simp at hmem

theorem Quiescent.step (h : Quiescent s) (a : Act) (ha : a.Allowed s) : Quiescent (step s a) := by
  cases a with
  | request r env irqs => exact (h.idle ha).request r env irqs
  | irq e => exact h.raise e

theorem quiescent_init : Quiescent initState := Or.inl ⟨rfl, rfl, rfl, rfl, rfl, rfl⟩

theorem Quiescent.nodup (h : Quiescent s) : (doneLog s).Nodup := by
  have hinj : Function.Injective (some : Nat → Option Nat) := Option.some_injective _
  rcases h with h | ⟨i, h⟩
  · rw [h.done]
    exact List.nodup_range.map hinj
  · rw [h.done]
    exact List.nodup_range.map hinj

/-- Nothing is under way, or the last request is uncompleted and waits for its data with the
interrupt unmasked. -/
def Settled (s : State) : Prop :=
  (s.mrq = none ∧ s.cmd = none ∧ s.data = none ∧ ∀ j < s.reqs.length, some j ∈ doneLog s) ∨
    ∃ i, s.reqs.length = i + 1 ∧ s.mrq = some i ∧ some i ∉ doneLog s ∧ s.cmd = none ∧
      s.data = some i ∧ s.regImask &&& dataTranDone = 0

theorem Quiescent.settled (h : Quiescent s) : Settled s := by
  rcases h with h | ⟨i, h⟩
  · refine Or.inl ⟨h.mrq, h.cmd, h.data, fun j hj => ?_⟩
    rw [h.done]
    exact List.mem_map_of_mem (List.mem_range.mpr hj)
  · refine Or.inr ⟨i, h.last, h.mrq, ?_, h.cmd, h.data, ?_⟩
    · rw [h.done]
      simp
    · rw [h.regImask]
      decide

/-- **No request is lost or completed twice**: for every sequence of requests, each issued after
the earlier ones were completed, and of interrupts, wherever they come, `mmc_request_done` is
called at most once per request, and between calls the driver is idle with everything completed
or waits for the data of the one request it has not. -/
theorem completed_once (acts : List Act) (h : EachStep step Act.Allowed initState acts) :
    (doneLog (run initState acts)).Nodup ∧ Settled (run initState acts) := by
  have hq : Quiescent (acts.foldl step initState) :=
    EachStep.invariant Quiescent (fun _ a hs ha => Quiescent.step hs a ha) acts quiescent_init h
  exact ⟨hq.nodup, hq.settled⟩

/-- A read of several blocks with a stop command, ended by its interrupt. -/
theorem completed_once_read :
    EachStep step Act.Allowed initState
        [.request ⟨⟨18, 0, 21, fun _ => 0, 0⟩, some ⟨512, 8, 512, 0, 0⟩,
            some ⟨12, 0, 29, fun _ => 0, 0⟩⟩ ⟨true, 0, fun _ => 0⟩ (fun _ => none),
          .irq ⟨1, 0, 0, ⟨true, 0, fun _ => 0⟩⟩] ∧
      (doneLog (run initState
        [.request ⟨⟨18, 0, 21, fun _ => 0, 0⟩, some ⟨512, 8, 512, 0, 0⟩,
            some ⟨12, 0, 29, fun _ => 0, 0⟩⟩ ⟨true, 0, fun _ => 0⟩ (fun _ => none),
          .irq ⟨1, 0, 0, ⟨true, 0, fun _ => 0⟩⟩])).Nodup := by
  refine (fun h => ⟨h, (completed_once _ h).1⟩) ?_
  rw [eachStep_cons, eachStep_cons]
  exact ⟨fun j hj => absurd hj (Nat.not_lt_zero j), trivial, eachStep_nil _⟩

end Dingoo.MmcHost
