/-
In which format the MMC host driver reads a response.

`jz_mmc_start_cmd` leaves the format in the file-level variable `r_type` when the
command has a response, and leaves the variable alone when it has none.  So the
variable holds the format of the last command that had a response, and a command
without one is answered in that format.

`Traced` says so of the log: `r_type` is the format the log ends with, every response
was read in the format the log had at that point, and if its command has a response
type that format is its own.
-/
import Dingoo.Proofs.JzMmcHost

namespace Dingoo.MmcHost

open Dingoo.Lib

variable {s s' : State} {i : Nat} {p : CmdPtr} {c : Command} {log : List Event}

/-! ### Formats along a log -/

/-- The format the flags of a command ask for; 0 if it has no response. -/
def responseFormat (flags : BitVec 32) : Nat := formatAfter 0 flags

theorem formatAfter_eq (f : Nat) (flags : BitVec 32) :
    formatAfter f flags = if responseFormat flags = 0 then f else responseFormat flags := by
  unfold responseFormat formatAfter
  split
  · rfl
  · split
    · rfl
    · split
      · rfl
      · rfl

/-- What an event does to the format in force. -/
def track (f : Nat) : Event → Nat
  | .send flags _ _ _ => formatAfter f flags
  | _ => f

/-- A response was read in the format in force, and this is that of its command unless the
command has none. -/
def Fits (f : Nat) : Event → Prop
  | .response flags format words before after =>
    format = f ∧ (responseFormat flags ≠ 0 → f = responseFormat flags) ∧
      (format = 0 → words = 0 ∧ after = before)
  | _ => True

structure Traced (s : State) : Prop where
  rType : s.rType = s.log.foldl track 0
  fits : EachStep track Fits 0 s.log

theorem Traced.of_log (h : Traced s) (hr : s'.rType = s.rType) (hlog : s'.log = s.log) :
    Traced s' :=
  ⟨by rw [hr, hlog, h.rType], by rw [hlog]; exact h.fits⟩

theorem Traced.record {e : Event} (h : Traced s) (hlog : s'.log = s.log ++ [e])
    (hr : s'.rType = track s.rType e) (he : Fits s.rType e) : Traced s' := by
  constructor
  · rw [hr, hlog, List.foldl_append, ← h.rType]
    rfl
  · rw [hlog, eachStep_concat, ← h.rType]
    exact ⟨h.fits, he⟩

theorem takeResponse_zero (res : Nat → BitVec 32) (resp : Fin 4 → BitVec 32) :
    takeResponse 0 res resp = (0, resp) := rfl

/-! ### Every function keeps the trace -/

theorem Traced.sent (h : Traced s) (p : CmdPtr) (c : Command) (cmdat : BitVec 32) :
    Traced (sent s p c cmdat) :=
  h.record rfl rfl trivial

theorem Traced.finish (h : Traced s) (mrq : Option Nat) : Traced (jzMmcFinishRequest mrq s).2 :=
  h.record rfl rfl trivial

theorem Traced.failCmd (h : Traced s) (p : CmdPtr) : Traced (failCmd p s).2 := by
  have hfail : Traced (s.modifyCommand p fun c => { c with error := -ETIMEDOUT }) :=
    h.of_log rfl rfl
  exact hfail.finish _

/-- The response of the command sent last is read in its own format, if it has one. -/
theorem Traced.cmdDone (h : Traced s) (env : CmdEnv) (hp : s.cmd = some p)
    (hc : s.command p = some c)
    (hown : responseFormat c.flags ≠ 0 → s.rType = responseFormat c.flags) :
    Traced (jzMmcCmdDone env s).2 := by
  have ha : Traced (answered s env p c) := by
    refine h.record rfl rfl ⟨rfl, hown, fun hzero => ?_⟩
    rw [hzero, takeResponse_zero]
    exact ⟨rfl, rfl⟩
  rw [jzMmcCmdDone_eq env hp hc]
  split
  · exact ha.of_log rfl rfl
  · exact ha.finish _

theorem Traced.startCmd {window : Nat → M Unit}
    (hmask : ∀ n (t : State), t.regImask = 0xff → window n t = ((), t))
    (hwin : ∀ n (t : State), Quiescent t ∧ Traced t →
      Quiescent (window n t).2 ∧ Traced (window n t).2)
    (env : CmdEnv) (cmdat : BitVec 32) (h : Traced s) (hbusy : Busy s i)
    (hc : s.command p = some c) :
    Quiescent (jzMmcStartCmd window env p cmdat s).2 ∧
      Traced (jzMmcStartCmd window env p cmdat s).2 := by
  have hs := hbusy.sent p c cmdat
  have ht := h.sent p c cmdat
  have hc' : (MmcHost.sent s p c cmdat).command p = some c := (command_of_reqs rfl p).trans hc
  have hown : responseFormat c.flags ≠ 0 →
      (MmcHost.sent s p c cmdat).rType = responseFormat c.flags := by
    intro hne
    show formatAfter s.rType c.flags = responseFormat c.flags
    rw [formatAfter_eq, if_neg hne]
  exact startCmd_keeps hmask hwin
    (fun t data ht => ⟨ht.1.record_txSetup data, ht.2.record rfl rfl trivial⟩) hbusy.regImask hc
    ⟨Or.inl (hs.failCmd p), ht.failCmd p⟩ ⟨hs.cmdDone env rfl hc', ht.cmdDone env rfl hc' hown⟩

theorem Traced.raise (h : Traced s) (hq : Quiescent s) (e : IrqEnv) : Traced (raise e s).2 := by
  rcases hq with hidle | ⟨i, hopen⟩
  · rw [raise_masked e hidle.regImask]
    exact h
  · have ht : Traced (transferred s e i) := h.of_log rfl rfl
    have hdata : Traced (jzMmcDataDone e s).2 := by
      rw [hopen.dataDone_eq e]
      split
      · rename_i c hstop
        exact (ht.startCmd (fun _ _ _ => rfl) (fun _ _ hq => hq) e.stop 0
          (hopen.transferred e) hstop).2
      · exact ht.finish _
    simp only [Ops.raise, plain_state, run_bind]
    rw [run_ite]
    split
    · unfold Ops.jzMmcIrq
      rw [run_ite]
      split
      · exact hdata
      · exact h
    · exact h

theorem Traced.irqWindow (h : Traced s) (hq : Quiescent s) (irqs : Nat → Option IrqEnv)
    (n : Nat) : Traced (irqWindow irqs n s).2 := by
  unfold MmcHost.irqWindow Ops.irqWindow
  cases irqs n with
  | none => exact h
  | some e => exact h.raise hq e

theorem Traced.issued (h : Traced s) (r : Request) : Traced (issued s r) := by
  unfold MmcHost.issued
  split
  · exact h.record rfl rfl trivial
  · exact h.of_log rfl rfl

theorem Traced.request (h : Traced s) (hidle : Idle s) (r : Request) (env : CmdEnv)
    (irqs : Nat → Option IrqEnv) : Traced (jzMmcRequest r env irqs s).2 := by
  rw [jzMmcRequest_eq hidle.regImask]
  exact ((h.issued r).startCmd (fun n _ => irqWindow_masked irqs n)
    (fun n _ ht => ⟨ht.1.irqWindow irqs n, ht.2.irqWindow ht.1 irqs n⟩) env _ (hidle.issued r)
    (issued_command s r)).2

theorem traced_step (h : Quiescent s ∧ Traced s) (a : Act) (ha : a.Allowed s) :
    Quiescent (step s a) ∧ Traced (step s a) := by
  refine ⟨h.1.step a ha, ?_⟩
  cases a with
  | request r env irqs => exact h.2.request (h.1.idle ha) r env irqs
  | irq e => exact h.2.raise h.1 e

theorem traced_run (acts : List Act) (h : EachStep step Act.Allowed initState acts) :
    Traced (run initState acts) :=
  (EachStep.invariant (fun s => Quiescent s ∧ Traced s) (fun _ a hs ha => traced_step hs a ha)
    acts ⟨quiescent_init, rfl, eachStep_nil 0⟩ h).2

/-! ### When every response is read in the format of its command -/

/-- A response was read in the format its command asks for; none was read if it asks for none. -/
def OwnFormat : Event → Prop
  | .response flags format words before after =>
    format = responseFormat flags ∧
      (responseFormat flags = 0 → words = 0 ∧ after = before)
  | _ => True

/-- No command that has a response was sent before one without is answered. -/
def NoneFirst (log : List Event) : Prop :=
  ∀ pre flags format words before after post,
    log = pre ++ .response flags format words before after :: post → responseFormat flags = 0 →
    ∀ flags' opcode arg cmdat, Event.send flags' opcode arg cmdat ∈ pre → responseFormat flags' = 0

theorem track_eq_zero_iff :
    ∀ (l : List Event), l.foldl track 0 = 0 ↔
      ∀ flags opcode arg cmdat, Event.send flags opcode arg cmdat ∈ l →
        responseFormat flags = 0 := by
  intro l
  induction l using List.reverseRecOn with
  | nil => simp
  | append_singleton l e ih =>
    rw [List.foldl_append]
    cases e with
    | send flags opcode arg cmdat =>
      show formatAfter (l.foldl track 0) flags = 0 ↔ _
      rw [formatAfter_eq]
      by_cases hzero : responseFormat flags = 0
      · rw [if_pos hzero, ih]
        constructor
        · intro h flags' opcode' arg' cmdat' hmem
          rcases List.mem_append.mp hmem with hl | he
          · exact h flags' opcode' arg' cmdat' hl
          · cases List.mem_singleton.mp he
            exact hzero
        · intro h flags' opcode' arg' cmdat' hmem
          exact h flags' opcode' arg' cmdat' (List.mem_append_left _ hmem)
      · rw [if_neg hzero]
        refine ⟨fun h => absurd h hzero, fun h => ?_⟩
        exact absurd (h flags opcode arg cmdat (by simp)) hzero
    | response | rxSetup | txSetup | done =>
      show l.foldl track 0 = 0 ↔ _
      rw [ih]
      simp

/-- A command with a short response, then one without: the second takes three words from the
FIFO, and its `resp` is changed. -/
theorem stale_format :
    EachStep step Act.Allowed initState
        [.request ⟨⟨13, 0, 21, fun _ => 0, 0⟩, none, none⟩ ⟨true, 0, fun _ => 0xff⟩ (fun _ => none),
          .request ⟨⟨0, 0, 0, fun _ => 0, 0⟩, none, none⟩ ⟨true, 0, fun _ => 0xff⟩
            (fun _ => none)] ∧
      Event.response 0 1 3 (fun _ => 0) (Function.update (fun _ => 0) 0 0xff00ffff) ∈
        (run initState
          [.request ⟨⟨13, 0, 21, fun _ => 0, 0⟩, none, none⟩ ⟨true, 0, fun _ => 0xff⟩
            (fun _ => none),
            .request ⟨⟨0, 0, 0, fun _ => 0, 0⟩, none, none⟩ ⟨true, 0, fun _ => 0xff⟩
              (fun _ => none)]).log := by
  constructor
  · rw [eachStep_cons, eachStep_cons]
    refine ⟨fun j hj => absurd hj (Nat.not_lt_zero j), ?_, eachStep_nil _⟩
    show ∀ j < 1, some j ∈ _
    decide
  · decide

/-- **When responses are read in their own format**: for every run, if and only if no command
with a response was sent before a command without one is answered. -/
theorem own_format_iff (acts : List Act) (h : EachStep step Act.Allowed initState acts) :
    (∀ e ∈ (run initState acts).log, OwnFormat e) ↔ NoneFirst (run initState acts).log := by
  have hfits := (traced_run acts h).fits
  constructor
  · intro hown pre flags format words before after post hlog hzero
    obtain ⟨hformat, -, -⟩ := hfits pre _ post hlog
    obtain ⟨hsame, -⟩ := hown (.response flags format words before after) (by simp [hlog])
    rw [← track_eq_zero_iff, ← hformat, hsame, hzero]
  · intro hfirst e he
    obtain ⟨pre, post, hlog⟩ := List.append_of_mem he
    have hfit := hfits pre e post hlog
    cases e with
    | send | rxSetup | txSetup | done => trivial
    | response flags format words before after =>
      obtain ⟨hformat, hresp, hnone⟩ := hfit
      by_cases hzero : responseFormat flags = 0
      · have htrack := (track_eq_zero_iff pre).mpr
          (hfirst pre flags format words before after post hlog hzero)
        have hf : format = 0 := hformat.trans htrack
        exact ⟨hf.trans hzero.symm, fun _ => hnone hf⟩
      · exact ⟨hformat.trans (hresp hzero), fun h0 => absurd h0 hzero⟩

/-- A test for `NoneFirst`, event by event. -/
def answersNone (f : Nat) : Event → Bool
  | .response flags .. => responseFormat flags != 0 || f == 0
  | _ => true

theorem noneFirst_of_test {log : List Event}
    (h : EachStep track (fun f e => answersNone f e = true) 0 log) : NoneFirst log := by
  intro pre flags format words before after post hlog hzero
  have htest := h pre _ post hlog
  simp only [answersNone, hzero, bne_self_eq_false, Bool.false_or, beq_iff_eq] at htest
  exact (track_eq_zero_iff pre).mp htest

/-- A card is reset, which has no response, and then asked for its status. -/
def resetThenStatus : List Act :=
  [.request ⟨⟨0, 0, 0, fun _ => 0, 0⟩, none, none⟩ ⟨true, 0, fun _ => 0xff⟩ (fun _ => none),
    .request ⟨⟨13, 0, 21, fun _ => 0, 0⟩, none, none⟩ ⟨true, 0, fun _ => 0xff⟩ (fun _ => none)]

theorem own_format_none_first :
    EachStep step Act.Allowed initState resetThenStatus ∧
      (∀ j < 2, some j ∈ doneLog (run initState resetThenStatus)) ∧
      ∀ e ∈ (run initState resetThenStatus).log, OwnFormat e := by
  have hallowed : EachStep step Act.Allowed initState resetThenStatus := by
    refine eachStep_cons.mpr ⟨fun j hj => absurd hj (Nat.not_lt_zero j),
      eachStep_cons.mpr ⟨?_, eachStep_nil _⟩⟩
    show ∀ j < 1, some j ∈ _
    decide
  exact ⟨hallowed, by decide, (own_format_iff _ hallowed).mpr (noneFirst_of_test (by decide))⟩

end Dingoo.MmcHost
