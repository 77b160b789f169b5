/-
Which errors of the MMC host driver reach the request.

A request has one of three fates.  Its command failed or it has no data: then it was
completed with the command.  It waits for its data: then no interrupt that ends a
transfer has come yet.  Or the first such interrupt has come, and the data hold its
result.  `Fate` says which, and what the request looks like in each case; it is kept
by everything that can happen after the command, since a request that is over is not
touched again.

What the driver misses can be read off it: that the polling loop ran into its limit, a
CRC error of a response that is neither a CID nor a CSD, and an error that shows in
only one of the two statuses read for the data.
-/
import Dingoo.Linux.JzMmcPoll
import Dingoo.Proofs.JzMmcHost

namespace Dingoo.MmcHost

open Dingoo.Lib

variable {s t : State} {i j : Nat} {p : CmdPtr} {c : Command} {x r : Request} {e : IrqEnv}
  {seen : List IrqEnv} {sig : Signals} {env : CmdEnv}

/-! ### Requests that are not touched -/

/-- The request of a command. -/
def CmdPtr.mrq : CmdPtr → Nat
  | .cmd i | .stop i => i

theorem getElem?_modifyCommand (f : Command → Command) (hne : p.mrq ≠ i) :
    (s.modifyCommand p f).reqs[i]? = s.reqs[i]? := by
  cases p with
  | cmd k => exact List.getElem?_modify_ne _ _ hne
  | stop k => exact List.getElem?_modify_ne _ _ hne

theorem reqs_failCmd (p : CmdPtr) (s : State) :
    (failCmd p s).2.reqs = (s.modifyCommand p fun c => { c with error := -ETIMEDOUT }).reqs := rfl

theorem reqs_cmdDone (env : CmdEnv) (hp : s.cmd = some p) (hc : s.command p = some c) :
    (jzMmcCmdDone env s).2.reqs = (s.modifyCommand p fun _ => answer env s.rType c).reqs := by
  have hanswered : (answered s env p c).reqs
      = (s.modifyCommand p fun _ => answer env s.rType c).reqs := by
    cases p with
    | cmd k => rfl
    | stop k => rfl
  rw [jzMmcCmdDone_eq env hp hc]
  split
  · exact hanswered
  · exact hanswered

/-- The driver is done with the request `i`, and left it as `x`. -/
structure Past (i : Nat) (x : Request) (t : State) : Prop where
  finished : Idle t ∨ Quiescent t ∧ i + 1 < t.reqs.length
  entry : t.reqs[i]? = some x

namespace Past

theorem mem_done (h : Past i x t) : some i ∈ doneLog t := by
  have hlt := (List.getElem?_eq_some_iff.mp h.entry).1
  rcases h.finished with hidle | ⟨hidle | ⟨j, hopen⟩, hlater⟩
  · rw [hidle.done]
    exact List.mem_map_of_mem (List.mem_range.mpr hlt)
  · rw [hidle.done]
    exact List.mem_map_of_mem (List.mem_range.mpr hlt)
  · rw [hopen.done]
    have := hopen.last
    exact List.mem_map_of_mem (List.mem_range.mpr (by omega))

theorem record_txSetup (h : Past i x t) (data : Option Nat) :
    Past i x (t.record (.txSetup data)) := by
  refine ⟨?_, h.entry⟩
  rcases h.finished with hidle | ⟨hq, hlater⟩
  · exact Or.inl (hidle.record_txSetup data)
  · exact Or.inr ⟨hq.record_txSetup data, hlater⟩

theorem startCmd {window : Nat → M Unit}
    (hmask : ∀ n (t : State), t.regImask = 0xff → window n t = ((), t))
    (hwin : ∀ n (t : State), Past i x t → Past i x (window n t).2) (env : CmdEnv)
    (cmdat : BitVec 32) (hbusy : Busy s j) (hc : s.command p = some c) (hp : p.mrq = j)
    (hlater : i < j) (hentry : s.reqs[i]? = some x) :
    Past i x (jzMmcStartCmd window env p cmdat s).2 := by
  have hs := hbusy.sent p c cmdat
  have hc' : (sent s p c cmdat).command p = some c := (command_of_reqs rfl p).trans hc
  have hlen : i + 1 < (sent s p c cmdat).reqs.length := by
    rw [hs.last]
    omega
  -- either way the request of the command is the only one changed
  have hone : ∀ f, ((sent s p c cmdat).modifyCommand p f).reqs[i]? = some x := fun f =>
    (getElem?_modifyCommand f (by omega)).trans hentry
  refine startCmd_keeps hmask hwin ?_ hbusy.regImask hc ?_ ?_
  · exact fun t data ht => ht.record_txSetup data
  · exact ⟨Or.inl (hs.failCmd p), by rw [reqs_failCmd]; exact hone _⟩
  · refine ⟨Or.inr ⟨hs.cmdDone env rfl hc', ?_⟩, ?_⟩
    · rw [reqs_cmdDone env rfl hc', length_modifyCommand]
      exact hlen
    · rw [reqs_cmdDone env rfl hc']
      exact hone _

theorem dataDone (hopen : Open s j) (hlater : i < j) (hentry : s.reqs[i]? = some x)
    (e : IrqEnv) : Past i x (jzMmcDataDone e s).2 := by
  have hentry' : (transferred s e j).reqs[i]? = some x :=
    (List.getElem?_modify_ne _ _ (by omega)).trans hentry
  rw [hopen.dataDone_eq e]
  split
  · rename_i c hstop
    exact startCmd (fun _ _ _ => rfl) (fun _ _ h => h) e.stop 0 (hopen.transferred e) hstop rfl
      hlater hentry'
  · exact ⟨Or.inl (hopen.transferred e).finish, hentry'⟩

theorem raise (h : Past i x s) (e : IrqEnv) : Past i x (raise e s).2 := by
  rcases h.finished with hidle | ⟨hidle | ⟨j, hopen⟩, hlater⟩
  · rw [raise_masked e hidle.regImask]
    exact h
  · rw [raise_masked e hidle.regImask]
    exact h
  · have hlast := hopen.last
    simp only [Ops.raise, plain_state, run_bind]
    rw [run_ite]
    split
    · unfold Ops.jzMmcIrq
      rw [run_ite]
      split
      · exact dataDone hopen (by omega) h.entry e
      · exact h
    · exact h

theorem irqWindow (h : Past i x s) (irqs : Nat → Option IrqEnv) (n : Nat) :
    Past i x (irqWindow irqs n s).2 := by
  unfold MmcHost.irqWindow Ops.irqWindow
  cases irqs n with
  | none => exact h
  | some e => exact h.raise e

theorem request (h : Past i x s) (hidle : Idle s) (r : Request) (env : CmdEnv)
    (irqs : Nat → Option IrqEnv) : Past i x (jzMmcRequest r env irqs s).2 := by
  have hlt := (List.getElem?_eq_some_iff.mp h.entry).1
  rw [jzMmcRequest_eq hidle.regImask]
  refine startCmd (fun n _ => irqWindow_masked irqs n) (fun n _ ht => ht.irqWindow irqs n) env _
    (hidle.issued r) (issued_command s r) rfl hlt ?_
  rw [reqs_issued, List.getElem?_append_left hlt, h.entry]

end Past

/-! ### The three fates -/

/-- The command of a request once it is over. -/
def ended (s : State) (env : CmdEnv) (c : Command) : Command :=
  if !env.slotEnable then { c with error := -ETIMEDOUT }
  else if c.opcode = sdIoSendOpCond then { c with error := -ETIMEDOUT }
  else answer env (formatAfter s.rType c.flags) c

/-- The interrupt ends a transfer. -/
def IrqEnv.ends (e : IrqEnv) : Bool := e.ireg &&& dataTranDone ≠ 0

/-- What has become of the request `r`, the `i`th, whose command ended as `c`; `seen` are the
interrupts that have come since. -/
inductive Fate (i : Nat) (r : Request) (c : Command) (seen : List IrqEnv) (t : State) : Prop where
  | finished (hwhy : c.error ≠ 0 ∨ r.data = none) (hpast : Past i { r with cmd := c } t)
  | waiting (d : Data) (hc : c.error = 0) (hd : r.data = some d) (hopen : Open t i)
      (hentry : t.reqs[i]? = some { r with cmd := c }) (hseen : seen.find? IrqEnv.ends = none)
  | moved (d : Data) (e : IrqEnv) (stop : Option Command) (hc : c.error = 0)
      (hd : r.data = some d) (hseen : seen.find? IrqEnv.ends = some e)
      (hpast : Past i ⟨c, some (dataResult e d), stop⟩ t)

theorem Busy.startStop (h : Busy s i) (hdata : s.data = none)
    (hstop : s.command (.stop i) = some c) (env : CmdEnv)
    (hentry : s.reqs[i]? = some x) :
    ∃ stop, Past i ⟨x.cmd, x.data, stop⟩
      (jzMmcStartCmd (fun _ => pure ()) env (.stop i) 0 s).2 := by
  have hs := h.sent (.stop i) c 0
  have hc' : (MmcHost.sent s (.stop i) c 0).command (.stop i) = some c :=
    (command_of_reqs rfl _).trans hstop
  -- only the stop command of the request is changed
  have hone : ∀ f, ∃ stop, ((MmcHost.sent s (.stop i) c 0).modifyCommand (.stop i) f).reqs[i]?
      = some ⟨x.cmd, x.data, stop⟩ := by
    intro f
    refine ⟨x.stop.map f, ?_⟩
    show (s.reqs.modify i _)[i]? = _
    rw [List.getElem?_modify_eq, hentry]
    rfl
  refine startCmd_keeps (R := fun t => ∃ stop, Past i ⟨x.cmd, x.data, stop⟩ t)
    (fun _ _ _ => rfl) (fun _ _ ht => ht) ?_ h.regImask hstop ?_ ?_
  · rintro t data ⟨stop, ht⟩
    exact ⟨stop, ht.record_txSetup data⟩
  · obtain ⟨stop, hx⟩ := hone fun c => { c with error := -ETIMEDOUT }
    exact ⟨stop, Or.inl (hs.failCmd _), by rw [reqs_failCmd]; exact hx⟩
  · obtain ⟨stop, hx⟩ := hone fun _ => answer env (MmcHost.sent s (.stop i) c 0).rType c
    exact ⟨stop, Or.inl (hs.cmdDone_idle env rfl hc' (Or.inl hdata)),
      by rw [reqs_cmdDone env rfl hc']; exact hx⟩

theorem Open.moved (h : Open s i) (hentry : s.reqs[i]? = some x) {d : Data}
    (hd : x.data = some d) (e : IrqEnv) :
    ∃ stop, Past i ⟨x.cmd, some (dataResult e d), stop⟩ (jzMmcDataDone e s).2 := by
  have hentry' : (MmcHost.transferred s e i).reqs[i]?
      = some { x with data := some (dataResult e d) } := by
    show (s.reqs.modify i _)[i]? = _
    rw [List.getElem?_modify_eq, hentry]
    simp [hd]
  rw [h.dataDone_eq e]
  split
  · rename_i c hstop
    exact (h.transferred e).startStop rfl hstop e.stop hentry'
  · exact ⟨x.stop, Or.inl (h.transferred e).finish, hentry'⟩

namespace Fate

section
variable (h : Fate i r c seen s)
include h

theorem of_past (hdone : some i ∈ doneLog s) (l : List IrqEnv)
    (hkeep : ∀ x, Past i x s → Past i x t) : Fate i r c (seen ++ l) t := by
  cases h with
  | finished hwhy hpast => exact .finished hwhy (hkeep _ hpast)
  | waiting d hc hd hopen =>
    rw [hopen.done] at hdone
    simp at hdone
  | moved d e stop hc hd hseen hpast =>
    exact .moved d e stop hc hd (by rw [List.find?_append, hseen]; rfl) (hkeep _ hpast)

theorem append_of_no_data (hdata : s.data = none) (l : List IrqEnv) : Fate i r c (seen ++ l) s := by
  refine h.of_past ?_ l fun _ hx => hx
  cases h with
  | finished hwhy hpast => exact hpast.mem_done
  | waiting d hc hd hopen => exact absurd (hdata.symm.trans hopen.data) (by simp)
  | moved d e stop hc hd hseen hpast => exact hpast.mem_done

theorem raise (e : IrqEnv) : Fate i r c (seen ++ [e]) (raise e s).2 := by
  by_cases hdone : some i ∈ doneLog s
  · exact h.of_past hdone [e] fun x hx => hx.raise e
  · cases h with
    | finished hwhy hpast => exact absurd hpast.mem_done hdone
    | moved d e stop hc hd hseen hpast => exact absurd hpast.mem_done hdone
    | waiting d hc hd hopen hentry hseen =>
      simp only [Ops.raise, plain_state, run_bind, run_get, hopen.regImask]
      by_cases hends : e.ireg &&& dataTranDone ≠ 0
      · have hirq : e.ireg &&& ~~~(0xfe : BitVec 8) ≠ 0 := hends
        rw [if_pos hirq, Ops.jzMmcIrq, if_pos hends]
        obtain ⟨stop, hpast⟩ := hopen.moved hentry hd e
        refine .moved d e stop hc hd ?_ hpast
        have htrue : e.ends = true := decide_eq_true hends
        simp [List.find?_append, hseen, htrue]
      · have hirq : ¬ e.ireg &&& ~~~(0xfe : BitVec 8) ≠ 0 := hends
        rw [if_neg hirq]
        refine .waiting d hc hd hopen hentry ?_
        have hfalse : e.ends = false := decide_eq_false hends
        simp [List.find?_append, hseen, hfalse]

theorem irqWindow (irqs : Nat → Option IrqEnv) (n : Nat) :
    Fate i r c (seen ++ (irqs n).toList) (irqWindow irqs n s).2 := by
  unfold MmcHost.irqWindow Ops.irqWindow
  cases irqs n with
  | none => simpa using h
  | some e => exact h.raise e

theorem record_txSetup (data : Option Nat) : Fate i r c seen (s.record (.txSetup data)) := by
  cases h with
  | finished hwhy hpast => exact .finished hwhy (hpast.record_txSetup data)
  | waiting d hc hd hopen hentry hseen =>
    exact .waiting d hc hd (hopen.record_txSetup data) hentry hseen
  | moved d e stop hc hd hseen hpast =>
    exact .moved d e stop hc hd hseen (hpast.record_txSetup data)

end

end Fate

/-! ### Requests and runs -/

/-- The interrupts that come in `jz_mmc_request` once the command is over. -/
def requestIrqs (r : Request) (irqs : Nat → Option IrqEnv) : List IrqEnv :=
  (irqs 6).toList ++ if isWrite r.cmd.opcode then (irqs 7).toList else []

theorem cmd_modified (hentry : s.reqs[i]? = some r) (f : Command → Command) :
    (s.modifyCommand (.cmd i) f).reqs[i]? = some { r with cmd := f r.cmd } := by
  show (s.reqs.modify i _)[i]? = _
  rw [List.getElem?_modify_eq, hentry]
  rfl

theorem Fate.failCmd (h : Busy s i) (hentry : s.reqs[i]? = some r) (seen : List IrqEnv) :
    Fate i r { r.cmd with error := -ETIMEDOUT } seen (failCmd (.cmd i) s).2 := by
  refine .finished (Or.inl (show (-ETIMEDOUT : Int) ≠ 0 by decide)) ⟨Or.inl (h.failCmd _), ?_⟩
  rw [reqs_failCmd]
  exact cmd_modified hentry _

theorem Fate.cmdDone (h : Busy s i) (hcmd : s.cmd = some (.cmd i)) (hentry : s.reqs[i]? = some r)
    (hdata : s.data = r.data.map fun _ => i) (env : CmdEnv) :
    Fate i r (answer env s.rType r.cmd) [] (jzMmcCmdDone env s).2 := by
  have hc : s.command (.cmd i) = some r.cmd := by
    rw [State.command, hentry]
    rfl
  have hentry' : (jzMmcCmdDone env s).2.reqs[i]?
      = some { r with cmd := answer env s.rType r.cmd } := by
    rw [reqs_cmdDone env hcmd hc]
    exact cmd_modified hentry _
  cases hd : r.data with
  | none =>
    rw [hd] at hdata
    exact .finished (Or.inr hd) ⟨Or.inl (h.cmdDone_idle env hcmd hc (Or.inl hdata)), hentry'⟩
  | some d =>
    rw [hd] at hdata
    by_cases herror : (answer env s.rType r.cmd).error = 0
    · exact .waiting d herror hd (h.cmdDone_open env hcmd hc hdata herror) hentry' rfl
    · have hidle := h.cmdDone_idle env hcmd hc (Or.inr herror)
      exact .finished (Or.inl herror) ⟨Or.inl hidle, hentry'⟩

theorem Fate.request (hidle : Idle s) (r : Request) (env : CmdEnv)
    (irqs : Nat → Option IrqEnv) :
    Fate s.reqs.length r (ended s env r.cmd) (requestIrqs r irqs)
      (jzMmcRequest r env irqs s).2 := by
  have hbusy := (hidle.issued r).sent (.cmd s.reqs.length) r.cmd (startCmdat s r)
  have hentry : (sent (issued s r) (.cmd s.reqs.length) r.cmd
      (startCmdat s r)).reqs[s.reqs.length]? = some r := by
    show (issued s r).reqs[s.reqs.length]? = some r
    rw [reqs_issued]
    simp
  have hdata : (sent (issued s r) (.cmd s.reqs.length) r.cmd (startCmdat s r)).data
      = r.data.map fun _ => s.reqs.length := data_issued s r
  have htype : (sent (issued s r) (.cmd s.reqs.length) r.cmd (startCmdat s r)).rType
      = formatAfter s.rType r.cmd.flags := by
    show formatAfter (issued s r).rType r.cmd.flags = _
    rw [rType_issued]
  rw [jzMmcRequest_eq hidle.regImask, jzMmcStartCmd_eq (fun n _ => irqWindow_masked irqs n) env _
    (hidle.issued r).regImask (issued_command s r)]
  unfold afterSend ended
  rw [run_ite]
  split
  · exact Fate.failCmd hbusy hentry _
  · rw [run_ite]
    split
    · exact Fate.failCmd hbusy hentry _
    · have hfirst := (Fate.cmdDone hbusy rfl hentry hdata env).irqWindow irqs 6
      rw [htype, List.nil_append] at hfirst
      simp only [run_bind]
      rw [run_ite]
      unfold requestIrqs
      by_cases hwrite : isWrite r.cmd.opcode = true
      · rw [if_pos hwrite]
        split
        · exact (hfirst.irqWindow irqs 7).record_txSetup _
        · rename_i hnot
          refine hfirst.append_of_no_data ?_ _
          exact Option.not_isSome_iff_eq_none.mp fun hsome => hnot ⟨hsome, hwrite⟩
      · rw [if_neg hwrite, if_neg fun h => hwrite h.2, List.append_nil]
        exact hfirst

/-- The interrupts that come after the request. -/
def Act.irqs : Act → List IrqEnv
  | .request _ _ _ => []
  | .irq e => [e]

theorem Fate.step (h : Fate i r c seen s) (hq : Quiescent s) (a : Act) (ha : a.Allowed s) :
    Fate i r c (seen ++ a.irqs) (step s a) := by
  cases a with
  | irq e => exact h.raise e
  | request r' env irqs =>
    have hidle := hq.idle ha
    -- a request is issued only after this one was completed
    have hdone : some i ∈ doneLog s := by
      cases h with
      | finished hwhy hpast => exact hpast.mem_done
      | waiting d hc hd hopen => exact absurd (hidle.data.symm.trans hopen.data) (by simp)
      | moved d e stop hc hd hseen hpast => exact hpast.mem_done
    exact h.of_past hdone [] fun x hx => hx.request hidle r' env irqs

theorem Fate.run :
    ∀ (acts : List Act) {seen : List IrqEnv} {s : State}, Fate i r c seen s → Quiescent s →
      EachStep MmcHost.step Act.Allowed s acts →
      Fate i r c (seen ++ acts.flatMap Act.irqs) (run s acts) := by
  intro acts
  induction acts with
  | nil =>
    intro seen s h _ _
    rw [List.flatMap_nil, List.append_nil]
    exact h
  | cons a acts ih =>
    intro seen s h hq hacts
    obtain ⟨ha, hrest⟩ := eachStep_cons.mp hacts
    have := ih (h.step hq a ha) (hq.step a ha) hrest
    rwa [List.append_assoc, ← List.flatMap_cons] at this

/-! ### What is reported -/

/-- The polling loop sees the end of the response. -/
def Signals.Ended (sig : Signals) : Prop :=
  ∃ n < pollTimeout, sig.stat n &&& statEndCmdRes ≠ 0

/-- The commands whose response may show a bogus CRC error: `MMC_ALL_SEND_CID`, `MMC_SEND_CSD`
and `MMC_SEND_CID`. -/
def Command.HasCid (c : Command) : Prop := c.opcode = 2 ∨ c.opcode = 9 ∨ c.opcode = 10

def statCrcError : BitVec 32 := statCrcReadError ||| statCrcWriteError

/-- Neither status read for the data shows a timeout or a CRC error. -/
structure IrqEnv.Clean (e : IrqEnv) : Prop where
  timeout : e.stat &&& statTimeOutRead = 0 ∧ e.dataStat &&& statTimeOutRead = 0
  crc : e.stat &&& statCrcError = 0 ∧ e.dataStat &&& statCrcError = 0

/-- If the request `i` was completed without an error then there was none: the response was
complete, and its status shows neither a timeout nor a CRC error it should have been checked
for; if the data have no error either, then the interrupt that ended the transfer, the
first of `seen`, showed none. -/
def Reported (sig : Signals) (seen : List IrqEnv) (i : Nat) (t : State) : Prop :=
  ∀ x, some i ∈ doneLog t → t.reqs[i]? = some x → x.cmd.error = 0 →
    (sig.Ended ∧ sig.env.stat &&& statTimeOutRes = 0 ∧
      (sig.env.stat &&& statCrcResErr ≠ 0 → x.cmd.flags &&& mmcRspCrc ≠ 0 →
        x.cmd.HasCid ∧ x.cmd.resp 0 &&& 0x80000000 ≠ 0)) ∧
    ∀ d, x.data = some d → d.error = 0 → ∃ e, seen.find? IrqEnv.ends = some e ∧ e.Clean

/-- What the driver relies on for a request.  A card that is there ends its response within the
limit of the polling, or the status says that it did not; only a CID or a CSD comes with a
CRC error; and the status does not change between its two reads for the data. -/
structure Watched (sig : Signals) (r : Request) (seen : List IrqEnv) : Prop where
  ends : sig.slotEnable = true → r.cmd.opcode ≠ sdIoSendOpCond →
    sig.Ended ∨ sig.env.stat &&& statTimeOutRes ≠ 0
  crc : sig.env.stat &&& statCrcResErr ≠ 0 → r.cmd.flags &&& mmcRspCrc ≠ 0 → r.cmd.HasCid
  data : ∀ d ∈ r.data, ∀ e ∈ seen.find? IrqEnv.ends,
    e.stat &&& statTimeOutRead = e.dataStat &&& statTimeOutRead ∧
      e.stat &&& statCrcError = e.dataStat &&& statCrcError

theorem answer_error {format : Nat} (h : (answer env format c).error = 0) :
    env.stat &&& statTimeOutRes = 0 ∧
      (env.stat &&& statCrcResErr ≠ 0 → c.flags &&& mmcRspCrc ≠ 0 → c.HasCid →
        (answer env format c).resp 0 &&& 0x80000000 ≠ 0) := by
  have herror : (cmdError env.stat
      { c with resp := (takeResponse format env.res c.resp).2 }).getD c.error = 0 := h
  unfold cmdError at herror
  by_cases htime : env.stat &&& statTimeOutRes ≠ 0
  · rw [if_pos htime] at herror
    exact absurd herror (show (-ETIMEDOUT : Int) ≠ 0 by decide)
  · rw [if_neg htime] at herror
    refine ⟨not_not.mp htime, fun hcrc hflag hcid htop => ?_⟩
    rw [if_pos ⟨hcrc, hflag⟩, if_pos ⟨hcid, htop⟩] at herror
    exact absurd herror (show (-EILSEQ : Int) ≠ 0 by decide)

theorem ended_error (h : (ended s env c).error = 0) :
    env.slotEnable = true ∧ c.opcode ≠ sdIoSendOpCond ∧
      ended s env c = answer env (formatAfter s.rType c.flags) c := by
  unfold ended at h ⊢
  split at h
  · exact absurd h (show (-ETIMEDOUT : Int) ≠ 0 by decide)
  · split at h
    · exact absurd h (show (-ETIMEDOUT : Int) ≠ 0 by decide)
    · rename_i hslot hop
      rw [if_neg hslot, if_neg hop]
      exact ⟨by simpa using hslot, hop, rfl⟩

theorem dataResult_error {d : Data} (h : (dataResult e d).error = 0) :
    e.stat &&& statTimeOutRead = 0 ∧ e.dataStat &&& statCrcError = 0 := by
  unfold dataResult at h
  dsimp only at h
  by_cases htime : e.stat &&& statTimeOutRead ≠ 0
  · rw [if_pos htime] at h
    exact absurd h (by decide)
  · rw [if_neg htime] at h
    refine ⟨not_not.mp htime, ?_⟩
    by_contra hcrc
    have hcrc' : e.dataStat &&& (statCrcReadError ||| statCrcWriteError) ≠ 0 := hcrc
    rw [if_pos hcrc'] at h
    exact absurd h (by decide)

/-- A completed request: its command is the one that ended, and its data, if there was no
error before, are what the interrupt left. -/
theorem Fate.of_done (h : Fate i r c seen t) (hdone : some i ∈ doneLog t)
    (hentry : t.reqs[i]? = some x) :
    x.cmd = c ∧ (c.error = 0 → ∀ d, x.data = some d →
      ∃ e, ∃ d' ∈ r.data, seen.find? IrqEnv.ends = some e ∧ d = dataResult e d') := by
  cases h with
  | finished hwhy hpast =>
    obtain rfl := Option.some.inj (hentry.symm.trans hpast.entry)
    refine ⟨rfl, fun hc d hd => ?_⟩
    rcases hwhy with hne | hnone
    · exact absurd hc hne
    · exact absurd (hnone.symm.trans hd) (by simp)
  | waiting d hc hd hopen =>
    rw [hopen.done] at hdone
    simp at hdone
  | moved d e stop hc hd hseen hpast =>
    obtain rfl := Option.some.inj (hentry.symm.trans hpast.entry)
    exact ⟨rfl, fun _ d' hd' => ⟨e, d, hd, hseen, (Option.some.inj hd').symm⟩⟩

theorem Fate.reported (h : Fate i r (ended s sig.env r.cmd) seen t) (hw : Watched sig r seen) :
    Reported sig seen i t := by
  intro x hdone hentry herror
  obtain ⟨hcmd, hdata⟩ := h.of_done hdone hentry
  rw [hcmd] at herror
  obtain ⟨hslot, hop, hanswer⟩ := ended_error herror
  specialize hdata herror
  rw [hanswer] at hcmd herror
  obtain ⟨htime, htop⟩ := answer_error herror
  refine ⟨⟨(hw.ends hslot hop).resolve_right (not_not.mpr htime), htime, fun hbit hflag => ?_⟩,
    fun d hd hzero => ?_⟩
  · rw [hcmd] at hflag ⊢
    exact ⟨hw.crc hbit hflag, htop hbit hflag (hw.crc hbit hflag)⟩
  · obtain ⟨e, d', hd', hseen, rfl⟩ := hdata d hd
    obtain ⟨hread, hbit⟩ := dataResult_error hzero
    obtain ⟨hsameTime, hsameCrc⟩ := hw.data d' hd' e hseen
    exact ⟨e, hseen, ⟨hread, hsameTime ▸ hread⟩, ⟨hsameCrc ▸ hbit, hbit⟩⟩

/-- A card that answers at once, with every status `stat`. -/
def steady (stat : BitVec 32) : Signals := ⟨true, fun _ => stat, fun _ => 0⟩

/-- A read of eight blocks with its stop command. -/
def readBlocks : Request :=
  ⟨⟨18, 0, 21, fun _ => 0, 0⟩, some ⟨512, 8, 512, 0, 0⟩, some ⟨12, 0, 29, fun _ => 0, 0⟩⟩

end Dingoo.MmcHost
