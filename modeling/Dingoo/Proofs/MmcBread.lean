/-
Which sectors `mmc_bread` asks the card for.

The sector number becomes a byte offset from `CFG_MMC_BASE`, `mmc_read` turns the
range of bytes into block reads and `mmc_block_read` turns a byte address back into
the argument of the card's command.  A range of whole blocks has no head and no
tail, so the loop issues every command; it runs from the start of the range up to
its end, both modulo four gigabytes.  `readBlocks_args` says which arguments that
are, whatever the card answers: a failed command makes the loop skip a sector or
stop, it never makes it ask for another one.
-/
import Dingoo.Proofs.JzMmc

namespace Dingoo.JzMmc

/-! ### The commands that read -/

/-- The arguments of the read commands among those sent. -/
def readArgs (sent : List Cmd) : List (BitVec 32) :=
  (sent.filter fun c => c.cmd == 17).map (·.arg)

theorem readArgs_append (l l' : List Cmd) : readArgs (l ++ l') = readArgs l ++ readArgs l' := by
  simp [readArgs]

/-- A read command with this argument selects that sector: by its number, or by the address
of its first byte. -/
def Selects (sd20 : Bool) (arg : BitVec 32) (sector : Nat) : Prop :=
  if sd20 then arg.toNat = sector else arg.toNat = sector * 512

theorem Selects.unique {sd20 : Bool} {arg : BitVec 32} {n m : Nat} (hn : Selects sd20 arg n)
    (hm : Selects sd20 arg m) : n = m := by
  unfold Selects at hn hm
  split at hn
  · rename_i h
    rw [if_pos h] at hm
    exact hn.symm.trans hm
  · rename_i h
    rw [if_neg h] at hm
    omega

/-- The commands `new` read sectors among `sectors`, in order and each at most once; on a card
without errors they read them all. -/
def Reads (card : Card) (new : List Cmd) (sectors : List Nat) : Prop :=
  ∃ l, l.Sublist sectors ∧ List.Forall₂ (Selects card.sd20) (readArgs new) l ∧
    (card.Working → l = sectors)

variable {card : Card}

theorem Reads.append {new new' : List Cmd} {l l' : List Nat} (h : Reads card new l)
    (h' : Reads card new' l') : Reads card (new ++ new') (l ++ l') := by
  obtain ⟨k, hsub, hall, hfull⟩ := h
  obtain ⟨k', hsub', hall', hfull'⟩ := h'
  refine ⟨k ++ k', hsub.append hsub', ?_, fun hw => by rw [hfull hw, hfull' hw]⟩
  rw [readArgs_append]
  exact List.rel_append hall hall'

theorem mmcBlockRead_args (card : Card) (sent : List Cmd) {src : BitVec 32}
    (hsrc : src.toNat % 512 = 0) :
    ∃ new, (mmcBlockRead card sent src mmcBlockSize).1 = sent ++ new ∧
      Reads card new [src.toNat / 512] ∧
      (card.Working → (mmcBlockRead card sent src mmcBlockSize).2.1 = 0) := by
  have hlen : mmcBlockSize ≠ 0 := by decide
  have hsel : Selects card.sd20 (if card.sd20 then src / mmcBlockSize else src)
      (src.toNat / 512) := by
    unfold Selects
    split
    · rw [BitVec.toNat_udiv]
      rfl
    · omega
  unfold mmcBlockRead
  rw [if_neg hlen]
  dsimp only
  split
  · -- the status is wrong: no read command is sent
    rename_i herr
    refine ⟨[⟨13, card.rca⟩], rfl, ⟨[], by simp, by simp [readArgs], fun hw => ?_⟩, fun hw => ?_⟩
    · exact absurd (hw.noError _ _) herr.1
    · exact absurd (hw.noError _ _) herr.1
  · split
    · rename_i herr
      refine ⟨[⟨13, card.rca⟩, ⟨16, mmcBlockSize⟩], by simp,
        ⟨[], by simp, by simp [readArgs], fun hw => ?_⟩, fun hw => ?_⟩
      · exact absurd (hw.noError _ _) herr
      · exact absurd (hw.noError _ _) herr
    · exact ⟨[⟨13, card.rca⟩, ⟨16, mmcBlockSize⟩,
          ⟨17, if card.sd20 then src / mmcBlockSize else src⟩], by simp,
        ⟨[src.toNat / 512], List.Sublist.refl _, by simpa [readArgs] using hsel, fun _ => rfl⟩,
        fun hw => hw.noError _ _⟩

/-! ### The loop -/

/-- The state a loop ends in, be it at `return -1`. -/
def final {σ : Type} : Except (Run σ) (Run σ × BitVec 32 × Nat) → Run σ
  | .error run => run
  | .ok (run, _, _) => run

theorem blocks_cons {src last : Nat} (h : src + 512 ≤ last) :
    List.range' (src / 512) (last / 512 - src / 512)
      = [src / 512] ++ List.range' ((src + 512) / 512) (last / 512 - (src + 512) / 512) := by
  rw [show (src + 512) / 512 = src / 512 + 1 by omega,
    show last / 512 - src / 512 = last / 512 - (src / 512 + 1) + 1 by omega, List.range'_succ]
  rfl

theorem readBlocks_args (card : Card) {alignedEnd : BitVec 32}
    (hend : alignedEnd.toNat % 512 = 0) :
    ∀ (fuel : Nat) (run : Run (List Cmd)) (src : BitVec 32) (off : Nat), src.toNat % 512 = 0 →
      0 < fuel → alignedEnd.toNat + 512 ≤ src.toNat + 512 * fuel →
      ∃ r new, readBlocks (mmcBlockRead card) alignedEnd fuel run src off = some r ∧
        (final r).dev = run.dev ++ new ∧
        Reads card new
          (List.range' (src.toNat / 512) (alignedEnd.toNat / 512 - src.toNat / 512)) := by
  intro fuel
  induction fuel with
  | zero => intro run src off _ hpos; omega
  | succ fuel ih =>
    intro run src off hsrc _ hfuel
    rw [readBlocks]
    by_cases h : src < alignedEnd
    · obtain ⟨new, hsent, hreads, hok⟩ := mmcBlockRead_args card run.dev hsrc
      have hlt := BitVec.lt_def.mp h
      have hnext : (src + mmcBlockSize).toNat = src.toNat + 512 := by
        rw [BitVec.toNat_add, show mmcBlockSize.toNat = 512 from rfl]
        omega
      have hrange := blocks_cons (by omega : src.toNat + 512 ≤ alignedEnd.toNat)
      rw [← hnext] at hrange
      rw [if_pos h]
      dsimp only [readDest]
      split
      · -- a failed read ends the loop, with nothing more sent
        rename_i hneg
        refine ⟨_, new, rfl, hsent, ?_⟩
        obtain ⟨l, hsub, hall, hfull⟩ := hreads
        refine ⟨l, ?_, hall, fun hw => ?_⟩
        · rw [hrange]
          exact hsub.trans (List.sublist_append_left _ _)
        · rw [hok hw] at hneg
          exact absurd hneg (by decide)
      · obtain ⟨r, rest, hloop, hdev, hrest⟩ := ih
          { run with
            dev := (mmcBlockRead card run.dev src mmcBlockSize).1
            dest := store off (mmcBlockRead card run.dev src mmcBlockSize).2.2 run.dest }
          (src + mmcBlockSize) (off + mmcBlockSize.toNat) (by omega) (by omega) (by omega)
        refine ⟨r, new ++ rest, hloop, ?_, ?_⟩
        · rw [hdev, hsent, List.append_assoc]
        · rw [hrange]
          exact hreads.append hrest
    · have hle := Nat.le_of_not_lt (fun hlt => h (BitVec.lt_def.mpr hlt))
      rw [if_neg h, show alignedEnd.toNat / 512 - src.toNat / 512 = 0 by omega]
      exact ⟨_, [], rfl, (List.append_nil _).symm, [], by simp, by simp [readArgs], fun _ => rfl⟩

theorem readRange_args (card : Card) (run : Run (List Cmd)) {src size : BitVec 32}
    (hsrc : src.toNat % 512 = 0) (hsize : size.toNat % 512 = 0) :
    ∃ ret run' new, readRange (mmcBlockRead card) run src size = some (ret, run') ∧
      run'.dev = run.dev ++ new ∧
      Reads card new (List.range' (src.toNat / 512)
        ((src + size).toNat / 512 - src.toNat / 512)) := by
  have hmod : (src + size).toNat % 512 = 0 := by
    rw [BitVec.toNat_add]
    omega
  have hzero : ∀ x : BitVec 32, x.toNat % 512 = 0 → ~~~(~~~(mmcBlockSize - 1)) &&& x = 0 := by
    intro x hx
    rw [← BitVec.toNat_inj, offset_toNat, hx]
    rfl
  have hend : (~~~(mmcBlockSize - 1) &&& (src + size)).toNat = (src + size).toNat := by
    rw [aligned_toNat]
    omega
  have hhead : readHead (mmcBlockRead card) run src (~~~(mmcBlockSize - 1) &&& src) 0
      = .ok (run, src, 0) := if_neg (by simp)
  unfold readRange
  simp only [hzero src hsrc, hzero _ hmod, hhead]
  generalize ~~~(mmcBlockSize - 1) &&& (src + size) = alignedEnd at hend ⊢
  obtain ⟨r, new, hloop, hdev, hreads⟩ := readBlocks_args card (by rw [hend]; exact hmod)
    (alignedEnd.toNat / 512 + 1) run src 0 hsrc (by omega) (by omega)
  rw [hend] at hreads
  simp only [hloop]
  cases r with
  | error run' => exact ⟨-1, run', new, rfl, hdev, hreads⟩
  | ok r =>
    obtain ⟨run', src', off'⟩ := r
    have htail : readTail (mmcBlockRead card) run' src' (src + size) alignedEnd 0 off'
        = .ok run' := if_neg (by simp)
    simp only [htail]
    exact ⟨0, run', new, rfl, hdev, hreads⟩

/-! ### `mmc_bread` -/

/-- What `mmc_bread` asks for: the sectors from `blknr * 512` to `(blknr + blkcnt) * 512`, both
taken modulo four gigabytes. -/
theorem mmcBread_args (card : Card) (run : Run (List Cmd)) (blknr blkcnt : BitVec 32) :
    ∃ run' new, mmcBread (mmcBlockRead card) true run blknr blkcnt = some (blkcnt, run') ∧
      run'.dev = run.dev ++ new ∧
      Reads card new (List.range' (blknr.toNat % 8388608)
        ((blknr.toNat + blkcnt.toNat) % 8388608 - blknr.toNat % 8388608)) := by
  have hbytes : ∀ x : BitVec 32, (x * mmcBlockSize).toNat = x.toNat % 8388608 * 512 := by
    intro x
    rw [BitVec.toNat_mul, show mmcBlockSize.toNat = 512 from rfl]
    omega
  have hsrc : blknr * mmcBlockSize + cfgMmcBase - cfgMmcBase = blknr * mmcBlockSize :=
    BitVec.add_sub_cancel _ _
  unfold mmcBread mmcRead
  simp only [hsrc]
  by_cases hsize : blkcnt * mmcBlockSize = 0
  · have hcnt : blkcnt.toNat % 8388608 = 0 := by
      have := hbytes blkcnt
      rw [hsize] at this
      simpa using this.symm
    rw [if_pos hsize, show (blknr.toNat + blkcnt.toNat) % 8388608 - blknr.toNat % 8388608 = 0 by
      omega]
    exact ⟨run, [], rfl, (List.append_nil _).symm, [], by simp, by simp [readArgs], fun _ => rfl⟩
  · obtain ⟨ret, run', new, hrun, hdev, hreads⟩ := readRange_args card run
      (by rw [hbytes]; omega : (blknr * mmcBlockSize).toNat % 512 = 0)
      (by rw [hbytes]; omega : (blkcnt * mmcBlockSize).toNat % 512 = 0)
    rw [if_neg hsize, if_neg (by decide), hrun]
    refine ⟨run', new, rfl, hdev, ?_⟩
    have hstart : (blknr * mmcBlockSize).toNat / 512 = blknr.toNat % 8388608 := by
      rw [hbytes]
      omega
    have hend : (blknr * mmcBlockSize + blkcnt * mmcBlockSize).toNat / 512
        = (blknr.toNat + blkcnt.toNat) % 8388608 := by
      rw [BitVec.toNat_add, hbytes, hbytes]
      omega
    rwa [hstart, hend] at hreads

/-- The call sends read commands for sectors among `blknr .. blknr + blkcnt - 1` only, in order
and each at most once, and for all of them if the card reports no error. -/
def AddressesSectors (card : Card) (blknr blkcnt : BitVec 32) : Prop :=
  ∀ run : Run (List Cmd), ∃ run' new,
    mmcBread (mmcBlockRead card) true run blknr blkcnt = some (blkcnt, run') ∧
    run'.dev = run.dev ++ new ∧ Reads card new (List.range' blknr.toNat blkcnt.toNat)

/-- On a card of sixteen million sectors, the one behind the first four gigabytes: the card is
asked for its first sector. -/
theorem mmcBread_four_gigabytes :
    (8388608 : BitVec 32).toNat + (1 : BitVec 32).toNat ≤ 16777216 ∧
    (mmcBread (mmcBlockRead (Card.good (fun i => UInt8.ofNat i) true)) true
      ⟨[], [], fun _ => none⟩ 8388608 1).map (fun r => readArgs r.2.dev) = some [0] := by
  decide +kernel

/-- **When `mmc_bread` addresses the requested sectors**: for every card of either kind, if and
only if the range is empty or ends below sector `2 ^ 23`, four gigabytes. -/
theorem mmcBread_sectors_iff (sd20 : Bool) (blknr blkcnt : BitVec 32) :
    (∀ card : Card, card.sd20 = sd20 → AddressesSectors card blknr blkcnt) ↔
      blkcnt.toNat = 0 ∨ blknr.toNat + blkcnt.toNat < 2 ^ 23 := by
  constructor
  · intro hall
    have hgood := Card.good_working (fun _ => 0) sd20
    obtain ⟨run, new, hrun, hdev, l, -, hall, hfull⟩ :=
      hall (Card.good (fun _ => 0) sd20) rfl ⟨[], [], fun _ => none⟩
    obtain ⟨run', new', hrun', hdev', l', -, hall', hfull'⟩ :=
      mmcBread_args (Card.good (fun _ => 0) sd20) ⟨[], [], fun _ => none⟩ blknr blkcnt
    obtain rfl : run = run' := by simpa using hrun.symm.trans hrun'
    obtain rfl : new = new' := List.append_cancel_left (hdev.symm.trans hdev')
    -- the same arguments select both ranges, so the ranges are one
    have hunique : Relator.RightUnique (Selects sd20) := fun _ _ _ hn hm => hn.unique hm
    have hsame := List.right_unique_forall₂' hunique hall hall'
    rw [hfull hgood, hfull' hgood, List.range'_inj] at hsame
    omega
  · rintro hcond card rfl run
    obtain ⟨run', new, hrun, hdev, hreads⟩ := mmcBread_args card run blknr blkcnt
    refine ⟨run', new, hrun, hdev, ?_⟩
    have hsame : List.range' (blknr.toNat % 8388608)
        ((blknr.toNat + blkcnt.toNat) % 8388608 - blknr.toNat % 8388608)
        = List.range' blknr.toNat blkcnt.toNat := by
      rw [List.range'_inj]
      omega
    rwa [hsame] at hreads

end Dingoo.JzMmc
