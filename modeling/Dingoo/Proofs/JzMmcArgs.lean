/-
The argument a command is sent with.

The argument register is written on every start but one: opcode 6, with a one-bit bus, writes it
only for the two arguments that would widen the bus.  With any other argument, such as that
of the function switch of an SD card, the command is sent with what the command before it
was sent with.
-/
import Dingoo.Proofs.JzMmcDma

namespace Dingoo.MmcDma

open Dingoo.Lib Dingoo.MmcHost

/-- A command that was started: its opcode and argument, and what was sent. -/
structure Started where
  opcode : BitVec 32
  arg : BitVec 32
  sent : BitVec 32
deriving DecidableEq, Repr

def startOf : TraceEvent → Option Started
  | .start _ opcode arg sent => some ⟨opcode, arg, sent⟩
  | _ => none

/-- The commands started, in order. -/
def starts (trace : List TraceEvent) : List Started := trace.filterMap startOf

/-- The argument to be sent: that of the command, but for the two that would widen the bus. -/
def wanted (x : Started) : BitVec 32 :=
  if x.opcode = 6 ∧ x.arg = 2 then 0
  else if x.opcode = 6 ∧ x.arg = 0x3b70101 then 0x3b70001
  else x.arg

/-- Every command is sent with the argument wanted. -/
def AllWanted (l : List Started) : Prop := ∀ x ∈ l, x.sent = wanted x

/-- A command with opcode 6 and an argument that does not widen the bus has the argument wanted by
the command before it, or that of the register at the beginning. -/
def SixRepeats (regArg : BitVec 32) (l : List Started) : Prop :=
  EachStep (fun _ x => wanted x)
    (fun before x => x.opcode = 6 → x.arg ≠ 2 → x.arg ≠ 0x3b70101 → x.arg = before) regArg l

/-! ### What the register holds -/

/-- What is sent, from what the register held. -/
def sendArg (x : Started) (regArg : BitVec 32) : BitVec 32 :=
  if x.opcode = 6 then
    if x.arg = 2 then 0 else if x.arg = 0x3b70101 then 0x3b70001 else regArg
  else x.arg

/-- Each command is sent with what the register holds after the one before it. -/
def Chain (regArg : BitVec 32) (l : List Started) : Prop :=
  EachStep (fun _ x => x.sent) (fun before x => x.sent = sendArg x before) regArg l

theorem sendArg_eq_wanted (x : Started) (regArg : BitVec 32) :
    sendArg x regArg = wanted x ↔
      (x.opcode = 6 → x.arg ≠ 2 → x.arg ≠ 0x3b70101 → x.arg = regArg) := by
  unfold sendArg wanted
  by_cases hsix : x.opcode = 6
  · by_cases htwo : x.arg = 2
    · rw [if_pos hsix, if_pos htwo, if_pos ⟨hsix, htwo⟩]
      exact ⟨fun _ _ h => absurd htwo h, fun _ => rfl⟩
    · have hother : ¬ (x.opcode = 6 ∧ x.arg = 2) := fun h => htwo h.2
      rw [if_pos hsix, if_neg htwo, if_neg hother]
      by_cases hwide : x.arg = 0x3b70101
      · rw [if_pos hwide, if_pos ⟨hsix, hwide⟩]
        exact ⟨fun _ _ _ h => absurd hwide h, fun _ => rfl⟩
      · have hnarrow : ¬ (x.opcode = 6 ∧ x.arg = 0x3b70101) := fun h => hwide h.2
        rw [if_neg hwide, if_neg hnarrow]
        exact ⟨fun h _ _ _ => h.symm, fun h => (h hsix htwo hwide).symm⟩
  · have hother : ∀ v, ¬ (x.opcode = 6 ∧ x.arg = v) := fun _ h => hsix h.1
    rw [if_neg hsix, if_neg (hother 2), if_neg (hother 0x3b70101)]
    exact ⟨fun _ h => absurd h hsix, fun _ => rfl⟩

theorem allWanted_iff : ∀ (l : List Started) {regArg : BitVec 32}, Chain regArg l →
    (AllWanted l ↔ SixRepeats regArg l) := by
  intro l
  induction l with
  | nil => exact fun _ => ⟨fun _ => eachStep_nil _, fun _ x hx => absurd hx List.not_mem_nil⟩
  | cons x l ih =>
    intro regArg hchain
    obtain ⟨hsent, hrest⟩ := eachStep_cons.mp hchain
    have hfirst : x.sent = wanted x ↔
        (x.opcode = 6 → x.arg ≠ 2 → x.arg ≠ 0x3b70101 → x.arg = regArg) := by
      rw [hsent]
      exact sendArg_eq_wanted x regArg
    unfold AllWanted SixRepeats
    rw [List.forall_mem_cons, eachStep_cons, hfirst]
    refine and_congr_right fun hsix => ?_
    -- the rest of the chain begins with what was wanted
    rw [hfirst.mpr hsix] at hrest
    exact ih hrest

/-! ### The invariant -/

/-- The register holds what was sent last, and what was sent follows the chain. -/
structure Chained (regArg : BitVec 32) (t : Traced) : Prop where
  reg : t.host.regArg = (starts t.trace).foldl (fun _ x => x.sent) regArg
  chain : Chain regArg (starts t.trace)

theorem Chained.of_starts {regArg : BitVec 32} {t t' : Traced} (h : Chained regArg t)
    (hreg : t'.host.regArg = t.host.regArg) (hstarts : starts t'.trace = starts t.trace) :
    Chained regArg t' := by
  refine ⟨?_, ?_⟩
  · rw [hreg, hstarts]
    exact h.reg
  · rw [hstarts]
    exact h.chain

theorem starts_append_host (trace : List TraceEvent) (l : List Event) :
    starts (trace ++ l.map .host) = starts trace := by
  have hnone : startOf ∘ TraceEvent.host = fun _ => none := rfl
  unfold starts
  rw [List.filterMap_append, List.filterMap_map, hnone, List.filterMap_none, List.append_nil]

theorem kept_chained (sgLen : Nat → Nat) (regArg : BitVec 32) : Kept sgLen (Chained regArg) where
  part := fun hx t ht => ht.of_starts (hx t.host) (starts_append_host t.trace _)
  map := fun i flags t ht => by
    refine ht.of_starts rfl ?_
    exact (List.filterMap_append).trans (List.append_nil _)
  unmap := fun t i ht => by
    refine ht.of_starts rfl ?_
    exact (List.filterMap_append).trans (List.append_nil _)
  start := fun t p c ht => by
    have hstarts : starts (started t p c).trace =
        starts t.trace ++ [⟨c.opcode, c.arg, busArg c t.host.regArg⟩] := List.filterMap_append
    refine ⟨?_, ?_⟩
    · rw [hstarts, List.foldl_append]
      rfl
    · rw [hstarts]
      refine (eachStep_concat (starts t.trace)).mpr ⟨ht.chain, ?_⟩
      rw [← ht.reg]
      rfl

/-- **Commands are sent with the argument wanted exactly if each command with opcode 6 repeats it**,
but for the two that would widen the bus: for every sequence of requests and interrupts, and
whatever the argument register holds at the beginning. -/
theorem sent_arguments_iff (sgLen : Nat → Nat) (regArg : BitVec 32) (acts : List Act) :
    AllWanted (starts (run sgLen (initTraced regArg) acts).trace) ↔
      SixRepeats regArg (starts (run sgLen (initTraced regArg) acts).trace) := by
  have hchained : Chained regArg (run sgLen (initTraced regArg) acts) :=
    (kept_chained sgLen regArg).run acts ⟨rfl, eachStep_nil _⟩
  exact allWanted_iff _ hchained.chain

/-- A command without data. -/
def plainRequest (opcode arg : BitVec 32) : Request :=
  { cmd := { opcode := opcode, arg := arg, flags := 0x15, resp := fun _ => 0, error := 0 }
    data := none
    stop := none }

/-- A card that answers. -/
def answers : CmdEnv := { slotEnable := true, stat := 0, res := fun _ => 0 }

/-- The card's status is asked for, then a function is switched with opcode 6: the argument sent is
the address of the first command. -/
theorem switch_sends_old_argument :
    starts (run (fun _ => 0) (initTraced 0)
      [.request (plainRequest 13 0x10000) answers fun _ => none,
       .request (plainRequest 6 0x80fffff1) answers fun _ => none]).trace =
      [⟨13, 0x10000, 0x10000⟩, ⟨6, 0x80fffff1, 0x10000⟩] ∧
    ¬ AllWanted (starts (run (fun _ => 0) (initTraced 0)
      [.request (plainRequest 13 0x10000) answers fun _ => none,
       .request (plainRequest 6 0x80fffff1) answers fun _ => none]).trace) := by
  have hstarts : starts (run (fun _ => 0) (initTraced 0)
      [.request (plainRequest 13 0x10000) answers fun _ => none,
       .request (plainRequest 6 0x80fffff1) answers fun _ => none]).trace =
      [⟨13, 0x10000, 0x10000⟩, ⟨6, 0x80fffff1, 0x10000⟩] := by decide
  refine ⟨hstarts, fun h => ?_⟩
  rw [hstarts] at h
  exact absurd (h ⟨6, 0x80fffff1, 0x10000⟩ (by decide)) (by decide)

end Dingoo.MmcDma
