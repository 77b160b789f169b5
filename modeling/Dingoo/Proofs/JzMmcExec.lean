/-
Which errors of the card reach the callers of `mmc_read` and `mmc_bread`.

An error passes four layers.  `jz_mmc_exec_cmd` reports a bad status by leaving
`MMC_NO_RESPONSE` in the request, and drops the result of `jz_mmc_receive_data`.
`mmc_unpack_r1` turns the error bits of the card into positive numbers, and
`mmc_block_read` passes on what it returns.  `mmc_read` takes only negative numbers
for errors, so of all results it sees `MMC_NO_RESPONSE` alone; `mmc_bread` does not
look at the result at all.

What is an error is said of the registers: `Refused` of the status after the wait for the
response, `Good` of status, response and data.  The log of the values `mmc_block_read`
returned and the list of the commands sent are kept together: `Tally` says that the values
are all of a kind exactly if the results of all commands are.
-/
import Dingoo.Proofs.JzMmc
import Dingoo.UBoot.JzMmcExec

namespace Dingoo.JzMmc

variable {dev : List Cmd × List Int} {ret : Int} {c : Cmd} {s : Signals} {card : Card}
  {size src : BitVec 32}

/-! ### Results -/

theorem mmcUnpackR1_ne (cmd : Int) {r : Reply} {x : MmcResult} (h : r.result ≠ x)
    (hx : x ∉ MmcResult.noError :: .headerMismatch :: r1Errors.map Prod.snd) :
    mmcUnpackR1 cmd r ≠ x := by
  simp only [List.mem_cons, not_or] at hx
  unfold mmcUnpackR1
  split
  · exact h
  · dsimp only
    split
    · rename_i e he
      split at he
      · rintro rfl
        exact hx.2.2 (List.mem_map_of_mem (List.mem_of_find?_eq_some he))
      · cases he
    · split
      · exact Ne.symm hx.2.1
      · exact Ne.symm hx.1

/-! ### The commands sent -/

/-- `P` holds of every command sent and the signals it met; `m` commands were sent before. -/
def Each (sig : Nat → Signals) (m : Nat) (sent : List Cmd) (P : Cmd → Signals → Prop) : Prop :=
  ∀ k c, sent[k]? = some c → P c (sig (m + k))

variable {sig : Nat → Signals} {m : Nat} {P : Cmd → Signals → Prop}

theorem each_nil : Each sig m [] P := by
  intro k c hc
  simp at hc

theorem each_cons {sent : List Cmd} :
    Each sig m (c :: sent) P ↔ P c (sig m) ∧ Each sig (m + 1) sent P := by
  constructor
  · intro h
    refine ⟨h 0 c rfl, fun k c' hc' => ?_⟩
    rw [Nat.add_right_comm, Nat.add_assoc]
    exact h (k + 1) c' hc'
  · rintro ⟨hfirst, hrest⟩ k c' hc'
    cases k with
    | zero =>
      obtain rfl := Option.some.inj hc'
      exact hfirst
    | succ k =>
      have := hrest k c' hc'
      rwa [Nat.add_right_comm, Nat.add_assoc] at this

theorem each_append :
    ∀ (sent : List Cmd) {m : Nat} {new : List Cmd},
      Each sig m (sent ++ new) P ↔ Each sig m sent P ∧ Each sig (m + sent.length) new P := by
  intro sent
  induction sent with
  | nil =>
    intro m new
    exact ⟨fun h => ⟨each_nil, h⟩, fun h => h.2⟩
  | cons c sent ih =>
    intro m new
    rw [List.cons_append, each_cons, ih, each_cons, and_assoc, List.length_cons, Nat.add_assoc,
      Nat.add_comm 1]

/-- The command ended. -/
def Ends (c : Cmd) (s : Signals) : Prop := sendCmd s c ≠ none

/-- What `mmc_unpack_r1` makes of the command's reply. -/
def Returned (P : Int → Prop) (c : Cmd) (s : Signals) : Prop :=
  ∀ e ∈ sendCmd s c, P (mmcUnpackR1 c.cmd e.reply).code

/-- The data of a read command were received completely. -/
def Received (c : Cmd) (s : Signals) : Prop :=
  c.cmd = 17 → ∃ e ∈ sendCmd s c, e.received = some .noError

/-! ### The signals -/

/-- The response came before the loop that waits for it gave up. -/
def Responds (s : Signals) : Prop := ∃ n < 0x3fffff, s.stat n &&& statEndCmdRes ≠ 0

/-- The reads of the status in that loop; the next one is checked. -/
def reads (s : Signals) : Nat := (pollEndCmdRes s.stat 0x3fffff 0).2

def statErrors : BitVec 32 :=
  statTimeOutRes ||| statTimeOutRead ||| statCrcReadError ||| statCrcWriteError ||| statCrcResErr

/-- The response comes in the last turn of the loop, which is taken for none, or the status read
after it has an error. -/
def Refused (s : Signals) : Prop :=
  (pollEndCmdRes s.stat 0x3fffff 0).1 = 0 ∨ s.stat (reads s) &&& statErrors ≠ 0

/-- The R1 status has no error, and the header is that of the command. -/
def CardOk (c : Cmd) (s : Signals) : Prop :=
  (∀ e ∈ r1Errors, (parseU32 (jzMmcGetResponse .r1 s.res) 1).getLsbD e.1 = false) ∧
    ((s.res 0).extractLsb' 8 8).toNat = c.cmd

/-- From the read `k` of the status on, data come in time and without an error. -/
def DataComes (s : Signals) (k : Nat) : Prop :=
  ∃ m, m + 1 < 0x3ffffff ∧
    (s.stat (k + m) &&& statDataFifoEmpty = 0 ∨ s.stat (k + m) &&& statDataFifoAfull ≠ 0) ∧
    ∀ i ≤ m, s.stat (k + i) &&& statTimeOutRead = 0 ∧ s.stat (k + i) &&& statCrcReadError = 0

/-- No error of the status, the response or the data. -/
def Good (c : Cmd) (s : Signals) : Prop :=
  Responds s ∧ ¬ Refused s ∧ CardOk c s ∧ (c.cmd = 17 → DataComes s (reads s + 1))

theorem jzMmcCheckStatus_ok {status : BitVec 32} :
    jzMmcCheckStatus status = .noError ↔ status &&& statErrors = 0 := by
  have hsplit : status &&& statErrors = (status &&& (statTimeOutRes ||| statTimeOutRead)) |||
      (status &&& (statCrcReadError ||| statCrcWriteError ||| statCrcResErr)) := by
    rw [← BitVec.and_or_distrib_left]
    rfl
  have hboth := @BitVec.or_eq_zero_iff 32 (status &&& (statTimeOutRes ||| statTimeOutRead))
    (status &&& (statCrcReadError ||| statCrcWriteError ||| statCrcResErr))
  rw [hsplit]
  refine Iff.trans ?_ hboth.symm
  unfold jzMmcCheckStatus
  split
  · rename_i hbad
    exact ⟨nofun, fun h => absurd h.1 hbad⟩
  · rename_i htime
    split
    · rename_i hbad
      exact ⟨nofun, fun h => absurd h.2 hbad⟩
    · rename_i hcrc
      exact ⟨fun _ => ⟨not_not.mp htime, not_not.mp hcrc⟩, fun _ => rfl⟩

theorem waitData_ok {s : Signals} : ∀ (timeout k m : Nat), m + 1 < timeout →
    (s.stat (k + m) &&& statDataFifoEmpty = 0 ∨ s.stat (k + m) &&& statDataFifoAfull ≠ 0) →
    (∀ i ≤ m, s.stat (k + i) &&& statTimeOutRead = 0 ∧ s.stat (k + i) &&& statCrcReadError = 0) →
    waitData s.stat timeout k = .noError := by
  intro timeout
  induction timeout with
  | zero => intro k m hm; exact absurd hm (Nat.not_lt_zero _)
  | succ timeout ih =>
    intro k m hm hshown hclean
    obtain ⟨htime, hcrc⟩ := hclean 0 (Nat.zero_le m)
    rw [Nat.add_zero] at htime hcrc
    rw [waitData, if_neg (not_not.mpr htime), if_neg (not_not.mpr hcrc)]
    split
    · rw [if_neg (by omega)]
    · rename_i hnot
      cases m with
      | zero => exact absurd hshown hnot
      | succ m =>
        have hshift : ∀ i, k + 1 + i = k + (i + 1) := fun i => by omega
        refine ih (k + 1) m (by omega) (by rw [hshift]; exact hshown) fun i hi => ?_
        rw [hshift]
        exact hclean (i + 1) (Nat.succ_le_succ hi)

theorem CardOk.unpack {x : List (BitVec 8)} (h : CardOk c s) :
    mmcUnpackR1 c.cmd ⟨.noError, jzMmcGetResponse .r1 s.res ++ x⟩ = .noError := by
  have hnone : r1Errors.find? (fun e => (parseU32 (jzMmcGetResponse .r1 s.res) 1).getLsbD e.1)
      = none := by
    rw [List.find?_eq_none]
    intro e he
    rw [h.1 e he]
    decide
  have hstatus : parseU32 (jzMmcGetResponse .r1 s.res ++ x) 1
      = parseU32 (jzMmcGetResponse .r1 s.res) 1 := rfl
  have hheader : (jzMmcGetResponse .r1 s.res ++ x).getD 0 0 = (s.res 0).extractLsb' 8 8 := rfl
  unfold mmcUnpackR1
  rw [if_neg (not_not.mpr rfl)]
  dsimp only
  rw [hstatus, hnone, ite_self, hheader, h.2]
  simp

theorem sendCmd_cases (hends : Ends c s) :
    Refused s ∧ (∃ r, sendCmd s c = some (.noReply r)) ∨
    ¬ Refused s ∧ ∃ e x, sendCmd s c = some e ∧
      e.reply = ⟨.noError, jzMmcGetResponse .r1 s.res ++ x⟩ ∧
      (c.cmd = 17 → e.received = some (waitData s.stat 0x3ffffff (reads s + 1))) := by
  unfold Refused
  rw [ne_eq, ← jzMmcCheckStatus_ok]
  unfold Ends at hends
  revert hends
  unfold sendCmd jzMmcExecCmd
  dsimp only
  split
  · rename_i hzero
    exact fun _ => Or.inl ⟨Or.inl hzero, _, rfl⟩
  · rename_i hne
    split
    · rename_i hbad
      exact fun _ => Or.inl ⟨Or.inr hbad, _, rfl⟩
    · rename_i hok
      rw [if_neg (by decide)]
      intro hends
      refine Or.inr ⟨not_or.mpr ⟨hne, hok⟩, ?_⟩
      have hreceived : ∀ n len, (jzMmcReceiveData s n len).1 = waitData s.stat 0x3ffffff n := by
        intro n len
        unfold jzMmcReceiveData
        split
        · rename_i heq
          exact heq.symm
        · rfl
      unfold dataPhase at hends ⊢
      dsimp only at hends ⊢
      split at hends
      · exact absurd rfl hends
      · rename_i hgoes
        rw [if_neg hgoes]
        split
        · split
          · rename_i h51
            refine ⟨_, _, rfl, rfl, fun h17 => ?_⟩
            omega
          · exact ⟨_, [], rfl, by rw [List.append_nil], fun _ => congrArg some (hreceived _ _)⟩
        · rename_i hno
          refine ⟨_, [], rfl, by rw [List.append_nil], fun h17 => ?_⟩
          rw [h17] at hno
          exact absurd rfl hno

theorem Good.answered (h : Good c s) (hends : Ends c s) :
    Returned (· = 0) c s ∧ Received c s := by
  obtain ⟨-, hnot, hcard, hdata⟩ := h
  rcases sendCmd_cases hends with ⟨hrefused, -⟩ | ⟨-, e, x, hsend, hreply, hreceived⟩
  · exact absurd hrefused hnot
  · refine ⟨fun e' he' => ?_, fun h17 => ⟨e, hsend, ?_⟩⟩
    · obtain rfl := Option.some.inj (hsend.symm.trans he')
      rw [hreply, hcard.unpack]
      rfl
    · obtain ⟨m, hm, hshown, hclean⟩ := hdata h17
      rw [hreceived h17, waitData_ok 0x3ffffff _ m hm hshown hclean]

/-- The card answers a command with what `mmc_unpack_r1` makes of its reply, which is never the
error that `mmc_block_read` puts up with. -/
def Speaks (card : Card) (sig : Nat → Signals) : Prop :=
  ∀ sent c, Ends c (sig (List.length sent)) →
    (∀ P, P (card.answer (sent ++ [c])).1 ↔ Returned P c (sig sent.length)) ∧
      (card.answer (sent ++ [c])).1 ≠ mmcErrorStateMismatch

theorem signalCard_speaks (sig : Nat → Signals) (content : Nat → UInt8) (sd20 : Bool)
    (rca : BitVec 32) : Speaks (signalCard sig content sd20 rca) sig := by
  intro sent c hends
  obtain ⟨x, hx⟩ := Option.ne_none_iff_exists'.mp hends
  have hanswer : ((signalCard sig content sd20 rca).answer (sent ++ [c])).1
      = (mmcUnpackR1 c.cmd x.reply).code := by
    simp [signalCard, hx]
  rw [hanswer]
  refine ⟨fun P => ⟨fun h e he => ?_, fun h => h x hx⟩, ?_⟩
  · obtain rfl := Option.some.inj (hx.symm.trans he)
    exact h
  · have hne : mmcUnpackR1 c.cmd x.reply ≠ .stateMismatch := by
      refine mmcUnpackR1_ne _ ?_ (by decide)
      rcases sendCmd_cases hends with ⟨-, r, hsend⟩ | ⟨-, e, y, hsend, hreply, -⟩
      · rw [Option.some.inj (hx.symm.trans hsend)]
        exact nofun
      · rw [Option.some.inj (hx.symm.trans hsend), hreply]
        exact nofun
    generalize mmcUnpackR1 c.cmd x.reply = r at hne
    cases r <;> first | decide | exact absurd rfl hne

theorem Speaks.concat {card : Card} (hcard : Speaks card sig) {sent new : List Cmd} {c : Cmd}
    {P : Int → Prop} (hends : Each sig sent.length (new ++ [c]) Ends)
    (hnew : Each sig sent.length new (Returned P)) :
    (P (card.answer (sent ++ new ++ [c])).1 ↔ Each sig sent.length (new ++ [c]) (Returned P)) ∧
      (card.answer (sent ++ new ++ [c])).1 ≠ mmcErrorStateMismatch := by
  obtain ⟨-, hlast⟩ := (each_append new).mp hends
  have h := hcard (sent ++ new) c (by
    rw [List.length_append]
    exact (each_cons.mp hlast).1)
  rw [each_append, each_cons, ← List.length_append]
  exact ⟨(h.1 P).trans ⟨fun hc => ⟨hnew, hc, each_nil⟩, fun hc => hc.2.1⟩, h.2⟩

/-- Where zero is of a kind, a block read returns a value of that kind if and only if all its
commands did: the ones before the last returned zero. -/
theorem mmcBlockRead_tally (hcard : Speaks card sig) {P : Int → Prop} (hP : P 0)
    (sent : List Cmd) (src : BitVec 32) :
    ∃ new, (mmcBlockRead card sent src mmcBlockSize).1 = sent ++ new ∧
      (Each sig sent.length new Ends →
        (P (mmcBlockRead card sent src mmcBlockSize).2.1 ↔
          Each sig sent.length new (Returned P))) := by
  have hlen : mmcBlockSize ≠ 0 := by decide
  have hzero : ∀ {k new}, Each sig k new (Returned (· = 0)) → Each sig k new (Returned P) :=
    fun h k c hc e he => (h k c hc e he) ▸ hP
  have hfirst := fun P => @Speaks.concat sig card hcard sent [] ⟨13, card.rca⟩ P
  have hsecond := fun P => @Speaks.concat sig card hcard sent [⟨13, card.rca⟩] ⟨16, mmcBlockSize⟩ P
  have hthird := fun P => @Speaks.concat sig card hcard sent [⟨13, card.rca⟩, ⟨16, mmcBlockSize⟩]
    ⟨17, if card.sd20 then src / mmcBlockSize else src⟩ P
  simp only [List.append_assoc, List.nil_append, List.cons_append] at hfirst hsecond hthird
  unfold mmcBlockRead
  rw [if_neg hlen]
  simp only [List.append_assoc, List.cons_append, List.nil_append]
  split
  · exact ⟨_, rfl, fun hends => (hfirst P hends each_nil).1⟩
  · rename_i hok
    -- the status was read without an error, since the other way on is never taken
    have hone : ∀ {c : Cmd} {l : List Cmd}, Each sig sent.length (⟨13, card.rca⟩ :: c :: l) Ends →
        Each sig sent.length [⟨13, card.rca⟩] (Returned (· = 0)) := by
      intro c l hends
      have hends' : Each sig sent.length [⟨13, card.rca⟩] Ends :=
        each_cons.mpr ⟨(each_cons.mp hends).1, each_nil⟩
      obtain ⟨hiff, hne⟩ := hfirst (· = 0) hends' each_nil
      exact hiff.mp (by_contra fun hbad => hok ⟨hbad, hne⟩)
    split
    · exact ⟨_, rfl, fun hends => (hsecond P hends (hzero (hone hends))).1⟩
    · rename_i hok'
      refine ⟨_, rfl, fun hends => ?_⟩
      have hends' := ((each_append [_, _]).mp hends).1
      refine (hthird P hends (hzero ?_)).1
      exact (hsecond (· = 0) hends' (hone hends)).1.mp (by_contra hok')

/-! ### The log and the commands -/

/-- The values all block reads returned are of a kind if and only if the results of all commands
are. -/
def Tally (sig : Nat → Signals) (dev : List Cmd × List Int) : Prop :=
  Each sig 0 dev.1 Ends → ∀ P : Int → Prop, P 0 →
    ((∀ r ∈ dev.2, P r) ↔ Each sig 0 dev.1 (Returned P))

theorem Tally.step (hcard : Speaks card sig) (h : Tally sig dev) (src : BitVec 32) :
    Tally sig (logged (mmcBlockRead card) dev src mmcBlockSize).1 := by
  unfold Tally logged
  dsimp only
  intro hends P hP
  obtain ⟨new, hsent, hvalue⟩ := mmcBlockRead_tally hcard hP dev.1 src
  rw [hsent] at hends ⊢
  obtain ⟨hold, hnew⟩ := (each_append dev.1).mp hends
  rw [Nat.zero_add] at hnew
  rw [each_append, Nat.zero_add, ← h hold P hP, ← hvalue hnew]
  simp [or_imp, forall_and]

/-! ### What `mmc_read` returns -/

section

variable {σ : Type} {blockRead : BlockRead σ} {Inv : σ × List Int → Prop}

/-- No block read has returned a negative value. -/
def Passed (Inv : σ × List Int → Prop) (dev : σ × List Int) : Prop :=
  Inv dev ∧ ∀ r ∈ dev.2, 0 ≤ r

/-- One has. -/
def Stopped (Inv : σ × List Int → Prop) (dev : σ × List Int) : Prop :=
  Inv dev ∧ ∃ r ∈ dev.2, r < 0

/-- What each block read keeps. -/
def Kept (blockRead : BlockRead σ) (Inv : σ × List Int → Prop) : Prop :=
  ∀ dev src, Inv dev → Inv (logged blockRead dev src mmcBlockSize).1

section
variable (hkept : Kept blockRead Inv)
include hkept

theorem Passed.next {dev : σ × List Int} (h : Passed Inv dev) (src : BitVec 32) :
    ((logged blockRead dev src mmcBlockSize).2.1 < 0 →
        Stopped Inv (logged blockRead dev src mmcBlockSize).1) ∧
      (¬ (logged blockRead dev src mmcBlockSize).2.1 < 0 →
        Passed Inv (logged blockRead dev src mmcBlockSize).1) := by
  refine ⟨fun hneg => ⟨hkept dev src h.1, _, ?_, hneg⟩, fun hpos => ⟨hkept dev src h.1, ?_⟩⟩
  · simp [logged]
  · intro r hr
    simp only [logged, List.mem_append, List.mem_singleton] at hr
    rcases hr with hold | rfl
    · exact h.2 r hold
    · exact Int.not_lt.mp hpos

theorem Passed.readHead {run : Run (σ × List Int)} (h : Passed Inv run.dev)
    (src alignedStart partStart : BitVec 32) :
    match readHead (logged blockRead) run src alignedStart partStart with
    | .error run' => Stopped Inv run'.dev
    | .ok (run', _, _) => Passed Inv run'.dev := by
  obtain ⟨hneg, hpos⟩ := h.next hkept alignedStart
  unfold JzMmc.readHead readBuf
  by_cases hpart : partStart ≠ 0
  · rw [if_pos hpart]
    dsimp only
    split_ifs with hbad
    · exact hneg hbad
    · exact hpos hbad
  · rw [if_neg hpart]
    exact h

theorem Passed.readBlocks (alignedEnd : BitVec 32) :
    ∀ (fuel : Nat) {run : Run (σ × List Int)} (src : BitVec 32) (off : Nat),
      Passed Inv run.dev →
      match readBlocks (logged blockRead) alignedEnd fuel run src off with
      | none => True
      | some (.error run') => Stopped Inv run'.dev
      | some (.ok (run', _, _)) => Passed Inv run'.dev := by
  intro fuel
  induction fuel with
  | zero =>
    intro run src off h
    trivial
  | succ fuel ih =>
    intro run src off h
    obtain ⟨hneg, hpos⟩ := h.next hkept src
    unfold JzMmc.readBlocks readDest
    by_cases hlt : src < alignedEnd
    · rw [if_pos hlt]
      dsimp only
      split_ifs with hbad
      · exact hneg hbad
      · exact ih _ _ (hpos hbad)
    · rw [if_neg hlt]
      exact h

theorem Passed.readTail {run : Run (σ × List Int)} (h : Passed Inv run.dev)
    (src endw alignedEnd partEnd : BitVec 32) (off : Nat) :
    match readTail (logged blockRead) run src endw alignedEnd partEnd off with
    | .error run' => Stopped Inv run'.dev
    | .ok run' => Passed Inv run'.dev := by
  obtain ⟨hneg, hpos⟩ := h.next hkept alignedEnd
  unfold JzMmc.readTail readBuf
  by_cases hpart : partEnd ≠ 0 ∧ src < endw
  · rw [if_pos hpart]
    dsimp only
    split_ifs with hbad
    · exact hneg hbad
    · exact hpos hbad
  · rw [if_neg hpart]
    exact h

theorem Passed.readRange {run run' : Run (σ × List Int)} (h : Passed Inv run.dev)
    (hret : readRange (logged blockRead) run src size = some (ret, run')) :
    ret = 0 ∧ Passed Inv run'.dev ∨ ret ≠ 0 ∧ Stopped Inv run'.dev := by
  unfold JzMmc.readRange at hret
  dsimp only at hret
  -- the three parts, one after the other
  have hhead := h.readHead hkept src (~~~(mmcBlockSize - 1) &&& src)
    (~~~(~~~(mmcBlockSize - 1)) &&& src)
  split at hret
  · rename_i run₁ heq
    rw [heq] at hhead
    obtain ⟨rfl, rfl⟩ := Prod.mk.inj (Option.some.inj hret)
    exact Or.inr ⟨by decide, hhead⟩
  · rename_i run₁ src₁ off₁ heq
    rw [heq] at hhead
    have hblocks := Passed.readBlocks hkept (~~~(mmcBlockSize - 1) &&& (src + size))
      ((~~~(mmcBlockSize - 1) &&& (src + size)).toNat / 512 + 1) src₁ off₁ hhead
    split at hret
    · cases hret
    · rename_i run₂ heq₂
      rw [heq₂] at hblocks
      obtain ⟨rfl, rfl⟩ := Prod.mk.inj (Option.some.inj hret)
      exact Or.inr ⟨by decide, hblocks⟩
    · rename_i run₂ src₂ off₂ heq₂
      rw [heq₂] at hblocks
      have htail := Passed.readTail hkept hblocks src₂ (src + size)
        (~~~(mmcBlockSize - 1) &&& (src + size)) (~~~(~~~(mmcBlockSize - 1)) &&& (src + size)) off₂
      split at hret
      · rename_i run₃ heq₃
        rw [heq₃] at htail
        obtain ⟨rfl, rfl⟩ := Prod.mk.inj (Option.some.inj hret)
        exact Or.inr ⟨by decide, htail⟩
      · rename_i run₃ heq₃
        rw [heq₃] at htail
        obtain ⟨rfl, rfl⟩ := Prod.mk.inj (Option.some.inj hret)
        exact Or.inl ⟨rfl, htail⟩

/-- `mmc_read` returns zero if and only if no block read returned a negative value, unless it
does not start at all. -/
theorem Passed.mmcRead {run run' : Run (σ × List Int)} (h : Passed Inv run.dev) {mmcReady : Bool}
    (hret : mmcRead (logged blockRead) mmcReady run src size = some (ret, run')) :
    ret = 0 ∧ Passed Inv run'.dev ∨ ret ≠ 0 ∧ Stopped Inv run'.dev ∨
      ret ≠ 0 ∧ run'.dev = run.dev := by
  unfold JzMmc.mmcRead at hret
  by_cases hsize : size = 0
  · rw [if_pos hsize] at hret
    obtain ⟨rfl, rfl⟩ := Prod.mk.inj (Option.some.inj hret)
    exact Or.inl ⟨rfl, h⟩
  rw [if_neg hsize] at hret
  by_cases hready : mmcReady = false
  · rw [if_pos hready] at hret
    obtain ⟨rfl, rfl⟩ := Prod.mk.inj (Option.some.inj hret)
    exact Or.inr (Or.inr ⟨by decide, rfl⟩)
  rw [if_neg hready] at hret
  rcases h.readRange hkept hret with hzero | hstop
  · exact Or.inl hzero
  · exact Or.inr (Or.inl hstop)

end

end

/-! ### Which errors reach the caller -/

namespace Session

variable (s : Session)

theorem kept : Kept s.blockRead (Tally s.sig) := fun _ src h =>
  h.step (signalCard_speaks s.sig s.content s.sd20 s.rca) src

variable {s}

end Session

end Dingoo.JzMmc
