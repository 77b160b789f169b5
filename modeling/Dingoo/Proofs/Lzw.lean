/-
The LZW decoder prints what the textbook decoder prints.

The C code stores no strings, so the two are related by what the parent links
spell.  `Chain` says that a code's links run strictly downwards to a single byte;
from it come the facts the two walks need, that the chain has no repetition and is
short.  The walks themselves are `relink` of `Lib/Links.lean`, once along the chain
and once along its reverse, so between two codes the links are what they were.

The newest node is the one point where the two decoders differ between codes: its
symbol is not known yet, and the textbook has not entered its string yet either.
`Sim.hole` carries it as the parent chain of the previous string.
-/
import Dingoo.Lib.Links
import Dingoo.Hwinit.Lzw
import Dingoo.Hwinit.LzwTextbook
import Mathlib.Tactic.IntervalCases

namespace Dingoo.Lzw

open Dingoo.Lib

variable {src : Nat → BitVec 32} {l codes : List Nat} {w : List UInt8} {t : Textbook.State}
  {fuel n c bitpos b : Nat} {st : State}

/-! ### Reading a code -/

theorem mask_testBit {bits : Nat} (hb : bits < 32) (i : Nat) :
    ((1#32 <<< bits) - 1#32).toNat.testBit i = decide (i < bits) := by
  have hpow : 2 ^ bits < 2 ^ 32 := Nat.pow_lt_pow_right (by omega) hb
  have hpos : 0 < 2 ^ bits := Nat.two_pow_pos bits
  have hval : ((1#32 <<< bits) - 1#32).toNat = 2 ^ bits - 1 := by
    rw [BitVec.toNat_sub, BitVec.toNat_shiftLeft]
    simp only [BitVec.toNat_ofNat, Nat.shiftLeft_eq]
    omega
  rw [hval, Nat.testBit_two_pow_sub_one]

theorem nextCode_spec (src : Nat → BitVec 32) (s bits bitpos : Nat) (hp : bitpos < 32)
    (hb : bits ≤ 25) :
    let r := nextCode src s bits bitpos
    r.2.2 < 32 ∧ 32 * r.2.1 + r.2.2 = 32 * s + bitpos + bits ∧ r.1.toNat < 2 ^ bits ∧
      ∀ i, i < bits → r.1.toNat.testBit i = streamBit src (32 * s + bitpos + i) := by
  have hlt : ∀ c : BitVec 32, (c &&& ((1#32 <<< bits) - 1#32)).toNat < 2 ^ bits := by
    intro c
    refine Nat.lt_pow_two_of_testBit _ fun i hi => ?_
    rw [BitVec.toNat_and, Nat.testBit_and, mask_testBit (by omega)]
    simp [Nat.not_lt.mpr hi]
  by_cases hw : bitpos + bits ≥ 32
  · -- The code straddles two words; its first `32 - bitpos` bits are in the first.
    simp only [nextCode, if_pos hw]
    refine ⟨by omega, by omega, hlt _, ?_⟩
    intro i hi
    rw [BitVec.toNat_and, Nat.testBit_and, mask_testBit (by omega)]
    simp only [hi, decide_true, Bool.and_true, BitVec.testBit_toNat, BitVec.getLsbD_or,
      BitVec.getLsbD_ushiftRight, BitVec.getLsbD_shiftLeft, streamBit]
    by_cases hin : bitpos + i < 32
    · rw [show (32 * s + bitpos + i) / 32 = s by omega,
        show (32 * s + bitpos + i) % 32 = bitpos + i by omega]
      simp [show i < bits - (bitpos + bits - 32) by omega]
    · rw [show (32 * s + bitpos + i) / 32 = s + 1 by omega,
        show (32 * s + bitpos + i) % 32 = i - (bits - (bitpos + bits - 32)) by omega,
        BitVec.getLsbD_of_ge _ _ (by omega)]
      simp [show ¬ i < bits - (bitpos + bits - 32) by omega, show i < 32 by omega]
  · simp only [nextCode, if_neg hw]
    refine ⟨by omega, by omega, hlt _, ?_⟩
    intro i hi
    rw [BitVec.toNat_and, Nat.testBit_and, mask_testBit (by omega)]
    simp only [hi, decide_true, Bool.and_true, BitVec.testBit_toNat,
      BitVec.getLsbD_ushiftRight, streamBit]
    rw [show (32 * s + bitpos + i) / 32 = s by omega,
      show (32 * s + bitpos + i) % 32 = bitpos + i by omega]

theorem nextCode_packed (hpack : Packed src codes) {s : Nat} (hn : codes[n]? = some c)
    (hw : codeWidth n ≤ 25) (hp : bitpos < 32) (hs : 32 * s + bitpos = codeOffset n) :
    ∃ s' bitpos', nextCode src s (codeWidth n) bitpos = (BitVec.ofNat 32 c, s', bitpos') ∧
      c < 2 ^ 32 ∧ bitpos' < 32 ∧ 32 * s' + bitpos' = codeOffset (n + 1) := by
  obtain ⟨hp', hpos, hlt, hbits⟩ := nextCode_spec src s (codeWidth n) bitpos hp hw
  obtain ⟨hc, hcode⟩ := hpack n c hn
  have hval : (nextCode src s (codeWidth n) bitpos).1.toNat = c := by
    refine Nat.eq_of_testBit_eq fun i => ?_
    by_cases hi : i < codeWidth n
    · rw [hbits i hi, hs, hcode i hi]
    · have hle : 2 ^ codeWidth n ≤ 2 ^ i := Nat.pow_le_pow_right (by omega) (by omega)
      rw [Nat.testBit_lt_two_pow (by omega), Nat.testBit_lt_two_pow (by omega)]
  refine ⟨(nextCode src s (codeWidth n) bitpos).2.1, (nextCode src s (codeWidth n) bitpos).2.2,
    ?_, by omega, hp', by rw [hpos, hs]; rfl⟩
  rw [← hval, BitVec.ofNat_toNat, BitVec.setWidth_eq]

/-! ### Chains of parent links -/

/-- The links of code `c` run down through `l` to a single byte. -/
inductive Chain (parent : Nat → Int) : Nat → List Nat → Prop
  | root {c : Nat} (hc : c < 256) (hp : parent c = -1) : Chain parent c [c]
  | node {c k : Nat} {l : List Nat} (hc : 257 ≤ c) (hk : k < c) (hp : parent c = k)
      (h : Chain parent k l) : Chain parent c (c :: l)

namespace Chain

variable {parent parent' : Nat → Int}

theorem head (h : Chain parent c l) : ∃ l', l = c :: l' := by
  cases h with
  | root hc hp => exact ⟨[], rfl⟩
  | node hc hk hp h => exact ⟨_, rfl⟩

theorem last (h : Chain parent c l) :
    ∃ l' b, l = l' ++ [b] ∧ b < 256 ∧ ∀ x ∈ l', 257 ≤ x := by
  induction h with
  | root hc hp => exact ⟨[], _, rfl, hc, by simp⟩
  | @node c k l hc hk hp h ih =>
    obtain ⟨l', b, rfl, hb, hl'⟩ := ih
    refine ⟨c :: l', b, rfl, hb, ?_⟩
    intro x hx
    rcases List.mem_cons.mp hx with rfl | hx
    · exact hc
    · exact hl' x hx

section
variable (h : Chain parent c l)
include h

theorem le : ∀ x ∈ l, x ≤ c := by
  induction h with
  | root hc hp => simp
  | @node c k l hc hk hp h ih =>
    intro x hx
    rcases List.mem_cons.mp hx with rfl | hx
    · exact Nat.le_refl _
    · have := ih x hx
      omega

theorem nodup : l.Nodup := by
  induction h with
  | root hc hp => simp
  | @node c k l hc hk hp h ih =>
    refine List.nodup_cons.mpr ⟨?_, ih⟩
    intro hmem
    have := h.le c hmem
    omega

theorem length_le : l.length + 255 ≤ max c 256 := by
  induction h with
  | root hc hp => simp
  | @node c k l hc hk hp h ih =>
    simp only [List.length_cons]
    omega

theorem links : Links (Nat.cast : Nat → Int) parent (-1) l := by
  induction h with
  | root hc hp => exact ⟨hp, trivial⟩
  | @node c k l hc hk hp h ih =>
    obtain ⟨l', rfl⟩ := h.head
    exact ⟨hp, ih⟩

theorem congr (heq : ∀ x, x ≤ c → parent' x = parent x) : Chain parent' c l := by
  induction h with
  | root hc hp => exact root hc (by rw [heq _ (Nat.le_refl _), hp])
  | @node c k l hc hk hp h ih =>
    refine node hc hk (by rw [heq _ (Nat.le_refl _), hp]) (ih fun x hx => heq x ?_)
    omega

end

end Chain

/-- The string a chain spells, from the byte it ends in to its code. -/
def spell (symbol : Nat → UInt8) (l : List Nat) : List UInt8 := l.reverse.map symbol

@[simp] theorem spell_cons (symbol : Nat → UInt8) (c : Nat) (l : List Nat) :
    spell symbol (c :: l) = spell symbol l ++ [symbol c] := by
  simp [spell]

theorem spell_update (symbol : Nat → UInt8) (x : UInt8) (h : c ∉ l) :
    spell (Function.update symbol c x) l = spell symbol l := by
  refine List.map_congr_left fun y hy => ?_
  exact Function.update_of_ne (fun hc => h (by rw [← hc]; simpa using hy)) _ _

/-! ### The two walks -/

theorem walkBack_eq {e : Int} (he : e < 0) : ∀ (l : List Nat) (fuel : Nat) (m : Nodes) (i : Int)
    (j : Nat), Links (Nat.cast : Nat → Int) m.parent e (j :: l) → (j :: l).Nodup → l.length < fuel →
    walkBack fuel m i j = some ({ m with parent := relink Nat.cast m.parent i (j :: l) },
      (j :: l).getLast (by simp), e) := by
  intro l
  induction l with
  | nil =>
    intro fuel m i j hl hnd hf
    obtain ⟨fuel, rfl⟩ : ∃ f, fuel = f + 1 := ⟨fuel - 1, by simp at hf; omega⟩
    have hj : m.parent j = e := hl.1
    simp only [walkBack, hj, if_pos he]
    rfl
  | cons j' l ih =>
    intro fuel m i j hl hnd hf
    obtain ⟨fuel, rfl⟩ : ∃ f, fuel = f + 1 := ⟨fuel - 1, by omega⟩
    have hj : m.parent j = (j' : Int) := hl.1
    obtain ⟨hjl, hnd'⟩ := List.nodup_cons.mp hnd
    have hrest := links_update hl.2 hjl i
    have hneg : ¬ ((j' : Int) < 0) := by omega
    simp only [walkBack, hj, if_neg hneg, Int.toNat_natCast]
    rw [ih fuel (m.setParent j i) j j' hrest hnd' (by simp at hf; omega)]
    rfl

theorem walkForward_eq {e : Int} (he : e < 0) : ∀ (l : List Nat) (fuel : Nat) (m : Nodes)
    (d : List UInt8) (k : Int) (j : Nat), Links (Nat.cast : Nat → Int) m.parent e (j :: l) →
    (j :: l).Nodup → l.length < fuel →
    walkForward fuel m d k j = some ({ m with parent := relink Nat.cast m.parent k (j :: l) },
      d ++ (j :: l).map m.symbol) := by
  intro l
  induction l with
  | nil =>
    intro fuel m d k j hl hnd hf
    obtain ⟨fuel, rfl⟩ : ∃ f, fuel = f + 1 := ⟨fuel - 1, by simp at hf; omega⟩
    have hj : m.parent j = e := hl.1
    simp only [walkForward, hj, if_pos he]
    rfl
  | cons j' l ih =>
    intro fuel m d k j hl hnd hf
    obtain ⟨fuel, rfl⟩ : ∃ f, fuel = f + 1 := ⟨fuel - 1, by omega⟩
    have hj : m.parent j = (j' : Int) := hl.1
    obtain ⟨hjl, hnd'⟩ := List.nodup_cons.mp hnd
    have hrest := links_update hl.2 hjl k
    have hneg : ¬ ((j' : Int) < 0) := by omega
    simp only [walkForward, hj, if_neg hneg, Int.toNat_natCast]
    rw [ih fuel (m.setParent j k) _ j j' hrest hnd' (by simp at hf; omega)]
    simp [Nodes.setParent]

/-- The nodes once the symbol of node `fix` is known. -/
def fixNode (m : Nodes) (fix : Int) (x : UInt8) : Nodes :=
  if fix ≥ 0 then m.setSymbol fix.toNat x else m

@[simp] theorem fixNode_parent (m : Nodes) (fix : Int) (x : UInt8) :
    (fixNode m fix x).parent = m.parent := by
  unfold fixNode
  split <;> rfl

/-- **Printing a code leaves every link as it was**: it fills in the pending symbol
with the first byte of the entry and appends the entry's string. -/
theorem outputCode_eq {m : Nodes} (h : Chain m.parent c l) (hb : l.getLast? = some b) (fix : Int)
    (d : List UInt8) (hf : l.length ≤ fuel) :
    outputCode fuel m fix d c
      = some (fixNode m fix (m.symbol b), d ++ spell (fixNode m fix (m.symbol b)).symbol l) := by
  obtain ⟨l', hl'⟩ := h.head
  subst hl'
  have hlast : (c :: l').getLast (by simp) = b := by
    rw [List.getLast?_eq_getLast_of_ne_nil (by simp)] at hb
    simpa using hb
  have hback := walkBack_eq (by omega : (-1 : Int) < 0) l' fuel m (-1) c h.links h.nodup
    (by simp at hf; omega)
  -- The reversed chain starts at the byte and ends on the link the walk started with.
  obtain ⟨r, hr⟩ : ∃ r, (c :: l').reverse = b :: r := by
    refine ⟨(c :: l').reverse.tail, ?_⟩
    rw [← List.head?_reverse] at hb
    exact (List.eq_cons_of_mem_head? (by rw [hb]; rfl))
  have hlinks := links_relink (ι := (Nat.cast : Nat → Int)) (c :: l') m.parent (-1) h.nodup
  have hnd : (b :: r).Nodup := by rw [← hr]; exact List.nodup_reverse.mpr h.nodup
  have hlen : r.length < fuel := by
    have := congrArg List.length hr
    simp at this hf
    omega
  rw [hr] at hlinks
  have hrestore := relink_reverse m.parent (-1) (-1) (c :: l') h.links h.nodup
  rw [hr] at hrestore
  have hfix : ∀ (p : Nat → Int), (if fix ≥ 0 then
      Nodes.setSymbol { m with parent := p } fix.toNat (m.symbol b) else { m with parent := p })
      = { fixNode m fix (m.symbol b) with parent := p } := by
    intro p
    unfold fixNode
    split <;> rfl
  unfold outputCode
  simp only [hback, hlast, Option.bind_eq_bind, Option.bind_some, hfix]
  rw [walkForward_eq (by omega : (-1 : Int) < 0) r fuel _ d (-1) b hlinks hnd hlen, ← hr]
  simp only [spell]
  rw [hr, hrestore, ← fixNode_parent m fix (m.symbol b)]

/-! ### The simulation -/

/-- The newest node: the previous string is its parent's, its symbol is not known. -/
def Hole (n : Nat) (t : Textbook.State) (m : Nodes) (fix : Int) : Prop :=
  match t.prev with
  | none => n = 0 ∧ t.dict = [] ∧ fix = -1
  | some p => t.dict.length + 1 = n ∧ fix = ((256 + n : Nat) : Int) ∧
      ∃ (k : Nat) (l : List Nat), m.parent (256 + n) = (k : Int) ∧ k < 256 + n ∧
        Chain m.parent k l ∧ p = spell m.symbol l

/-- The two decoders between codes number `n - 1` and `n`. -/
structure Sim (n : Nat) (t : Textbook.State) (st : State) : Prop where
  running : t.status = .running
  ret : st.ret = none
  out : st.d = t.out
  count : st.count = 257 + n
  bits : st.bits = codeWidth n
  bitpos : st.bitpos < 32
  offset : 32 * st.s + st.bitpos = codeOffset n
  entries : ∀ c w, Textbook.lookup t.dict c = some w →
    ∃ l, Chain st.node.parent c l ∧ w = spell st.node.symbol l
  hole : Hole n t st.node st.fix

theorem initNodes_spec (temp : Nodes) (count c : Nat) (hc : c < count) :
    (initNodes count temp).symbol c = UInt8.ofNat c ∧ (initNodes count temp).parent c = -1 := by
  induction count with
  | zero => omega
  | succ count ih =>
    have hstep : initNodes (count + 1) temp
        = ((initNodes count temp).setSymbol count (UInt8.ofNat count)).setParent count (-1) := by
      simp [initNodes, List.range_succ]
    rw [hstep]
    by_cases hcc : c = count
    · subst hcc
      simp [Nodes.setParent, Nodes.setSymbol]
    · obtain ⟨hs, hp⟩ := ih (by omega)
      simp [Nodes.setParent, Nodes.setSymbol, Function.update_of_ne hcc, hs, hp]

theorem sim_init (temp : Nodes) : Sim 0 Textbook.init (initState temp) where
  running := rfl
  ret := rfl
  out := rfl
  count := rfl
  bits := rfl
  bitpos := by simp [initState]
  offset := rfl
  entries := by
    intro c w hw
    by_cases hc : c < 256
    · obtain ⟨hs, hp⟩ := initNodes_spec temp 257 c (by omega)
      refine ⟨[c], Chain.root hc hp, ?_⟩
      simp only [Textbook.lookup, if_pos hc, Option.some.injEq] at hw
      rw [← hw]
      simp [spell, initState, hs]
    · simp [Textbook.lookup, hc, Textbook.init] at hw
  hole := ⟨rfl, rfl, rfl⟩

theorem codeWidth_succ (n : Nat) : codeWidth (n + 1)
    = if 257 + n + 1 > 1 <<< codeWidth n then codeWidth n + 1 else codeWidth n := by
  have hlo : 2 ^ (Nat.log2 (256 + n)) ≤ 256 + n := Nat.log2_self_le (by omega)
  have hhi : 256 + n < 2 ^ (Nat.log2 (256 + n) + 1) := Nat.lt_log2_self
  simp only [codeWidth, Nat.one_shiftLeft]
  split
  · rename_i h
    rw [Nat.add_right_cancel_iff, Nat.log2_eq_iff (by omega)]
    exact ⟨by omega, by rw [Nat.pow_succ]; omega⟩
  · rename_i h
    rw [Nat.add_right_cancel_iff, Nat.log2_eq_iff (by omega)]
    omega

theorem fixNode_spell (m : Nodes) (fix : Int) (y : UInt8) (h : ∀ x ∈ l, (x : Int) ≠ fix) :
    spell (fixNode m fix y).symbol l = spell m.symbol l := by
  unfold fixNode
  split
  · refine spell_update _ _ fun hmem => h _ hmem ?_
    omega
  · rfl

@[simp] theorem fixNode_symbol (m : Nodes) (x : Nat) (y : UInt8) :
    (fixNode m (x : Int) y).symbol x = y := by
  simp only [fixNode, ge_iff_le, Int.natCast_nonneg, if_true, Int.toNat_natCast, Nodes.setSymbol]
  exact Function.update_self _ _ _

theorem Textbook.lookup_extend {dict : List (List UInt8)} {prev : Option (List UInt8)}
    {v : List UInt8} {k : Nat} (h : lookup (extend dict prev w) k = some v) :
    lookup dict k = some v ∨
      ∃ p, prev = some p ∧ k = 257 + dict.length ∧ v = p ++ w.take 1 := by
  cases prev with
  | none => exact Or.inl h
  | some p =>
    unfold lookup at h ⊢
    split at h
    · rename_i hk
      rw [if_pos hk]
      exact Or.inl h
    · rename_i hk
      split at h
      · simp at h
      · rename_i hk'
        rw [if_neg hk, if_neg hk']
        unfold extend at h
        rcases Nat.lt_or_ge (k - 257) dict.length with hin | hout
        · rw [List.getElem?_append_left hin] at h
          exact Or.inl h
        · rw [List.getElem?_append_right hout] at h
          obtain ⟨hlt, hval⟩ := List.getElem?_eq_some_iff.mp h
          simp only [List.length_singleton] at hlt
          refine Or.inr ⟨p, rfl, by omega, ?_⟩
          simpa using hval.symm

namespace Sim

section
variable (h : Sim n t st)
include h

theorem fix_cases :
    (n = 0 ∧ t.dict = [] ∧ t.prev = none ∧ st.fix = -1) ∨
    (t.dict.length + 1 = n ∧ st.fix = ((256 + n : Nat) : Int) ∧ ∃ p, t.prev = some p) := by
  have hh := h.hole
  unfold Hole at hh
  cases hp : t.prev with
  | none =>
    rw [hp] at hh
    exact Or.inl ⟨hh.1, hh.2.1, rfl, hh.2.2⟩
  | some p =>
    rw [hp] at hh
    exact Or.inr ⟨hh.1, hh.2.1, p, rfl⟩

theorem entry_ne_fix (hw : Textbook.lookup t.dict c = some w) (hl : Chain st.node.parent c l) :
    ∀ x ∈ l, (x : Int) ≠ st.fix := by
  intro x hx
  have hle := hl.le x hx
  rcases h.fix_cases with ⟨-, -, -, hf⟩ | ⟨hn, hf, -⟩
  · rw [hf]; omega
  · have hc : c < 256 + n := by
      by_cases hc : c < 256
      · omega
      · simp only [Textbook.lookup, if_neg hc] at hw
        split at hw
        · simp at hw
        · have := (List.getElem?_eq_some_iff.mp hw).1
          omega
    rw [hf]
    omega

theorem byte_ne_fix (hb : b < 256) : (b : Int) ≠ st.fix := by
  rcases h.fix_cases with ⟨-, -, -, hf⟩ | ⟨hn, hf, -⟩ <;> rw [hf] <;> omega

theorem chain_first (hl : Chain st.node.parent c l) :
    ∃ b, l.getLast? = some b ∧ b < 256 ∧
      (spell (fixNode st.node st.fix (st.node.symbol b)).symbol l).take 1
        = [st.node.symbol b] := by
  obtain ⟨l', b, rfl, hb, -⟩ := hl.last
  refine ⟨b, by simp, hb, ?_⟩
  have hsym : spell (fixNode st.node st.fix (st.node.symbol b)).symbol [b]
      = spell st.node.symbol [b] :=
    fixNode_spell _ _ _ (by simpa using h.byte_ne_fix hb)
  simpa [spell] using hsym

/-- The newest node's chain spells the previous string and the symbol that is filled in. -/
theorem newest_chain {p : List UInt8} (hp : t.prev = some p) :
    t.dict.length + 1 = n ∧ p ≠ [] ∧
      ∃ lp, Chain st.node.parent (256 + n) ((256 + n) :: lp) ∧
        ∀ y, spell (fixNode st.node st.fix y).symbol ((256 + n) :: lp) = p ++ [y] := by
  have hh := h.hole
  unfold Hole at hh
  rw [hp] at hh
  obtain ⟨hn, hf, k, lp, hpar, hk, hchain, hpspell⟩ := hh
  refine ⟨hn, ?_, lp, Chain.node (by omega) hk hpar hchain, fun y => ?_⟩
  · obtain ⟨l', rfl⟩ := hchain.head
    rw [hpspell]
    simp
  · have hlp : ∀ x ∈ lp, (x : Int) ≠ st.fix := by
      intro x hx
      have := hchain.le x hx
      rw [hf]
      omega
    rw [spell_cons, fixNode_spell _ _ _ hlp, ← hpspell, hf, fixNode_symbol]

/-- The string of a code is what its chain spells once the newest symbol is filled in. -/
theorem current_chain (hw : Textbook.current t.dict t.prev c = some w) :
    ∃ l b, Chain st.node.parent c l ∧ l.getLast? = some b ∧ b < 256 ∧
      w = spell (fixNode st.node st.fix (st.node.symbol b)).symbol l ∧
      w.take 1 = [st.node.symbol b] := by
  cases hlook : Textbook.lookup t.dict c with
  | some v =>
    have hvw : v = w := by simpa [Textbook.current, hlook] using hw
    obtain ⟨l, hl, hv⟩ := h.entries c v hlook
    obtain ⟨b, hlast, hb, htake⟩ := h.chain_first hl
    have hsame := fixNode_spell st.node st.fix (st.node.symbol b) (h.entry_ne_fix hlook hl)
    refine ⟨l, b, hl, hlast, hb, ?_, ?_⟩
    · rw [← hvw, hv, hsame]
    · rw [← hvw, hv, ← hsame, htake]
  | none =>
    -- The code names the entry being completed: the previous string and its first byte.
    cases hp : t.prev with
    | none => simp [Textbook.current, hlook, hp] at hw
    | some p =>
      obtain ⟨hn, hpne, lp, hl, hspell⟩ := h.newest_chain hp
      simp only [Textbook.current, hlook, hp] at hw
      split at hw
      · rename_i hc
        have hcn : c = 256 + n := by omega
        subst hcn
        obtain ⟨b, hlast, hb, htake⟩ := h.chain_first hl
        have hwp : p ++ p.take 1 = w := Option.some.inj hw
        have hfirst : ∀ y : List UInt8, (p ++ y).take 1 = p.take 1 := fun y =>
          List.take_append_of_le_length (List.length_pos_iff.mpr hpne)
        rw [hspell, hfirst] at htake
        refine ⟨_, b, hl, hlast, hb, ?_, ?_⟩
        · rw [hspell, ← hwp, htake]
        · rw [← hwp, hfirst, htake]
      · simp at hw

theorem current_eq_none (hc : c ≠ 256) : Textbook.current t.dict t.prev c = none ↔ 257 + n ≤ c := by
  unfold Textbook.current Textbook.lookup
  rcases h.fix_cases with ⟨hn, hd, hp, -⟩ | ⟨hn, -, p, hp⟩
  · rw [hd, hp]
    by_cases hlt : c < 256
    · simp [hlt]; omega
    · simp [hlt, hc]; omega
  · rw [hp]
    by_cases hlt : c < 256
    · simp [hlt]; omega
    · simp only [hlt, if_false, hc]
      rcases Nat.lt_or_ge (c - 257) t.dict.length with hin | hout
      · rw [List.getElem?_eq_getElem hin]
        simp; omega
      · rw [List.getElem?_eq_none hout]
        simp; omega

theorem print {s : Nat} (hc : c < 257 + n) (hw : Textbook.current t.dict t.prev c = some w)
    (hf : n < fuel) (hbp : bitpos < 32) (hoff : 32 * s + bitpos = codeOffset (n + 1)) :
    ∃ m, outputCode fuel st.node st.fix st.d c = some (m, t.out ++ w) ∧
      Sim (n + 1)
        { t with dict := Textbook.extend t.dict t.prev w, prev := some w, out := t.out ++ w }
        { st with
          node := m.setParent st.count c
          s := s
          d := t.out ++ w
          fix := st.count
          count := st.count + 1
          bits := if st.count + 1 > 1 <<< st.bits then st.bits + 1 else st.bits
          bitpos := bitpos } := by
  obtain ⟨l, b, hl, hlast, hb, hwl, hw1⟩ := h.current_chain hw
  have hlen := hl.length_le
  have hcount := h.count
  set m := fixNode st.node st.fix (st.node.symbol b) with hm
  have hout := outputCode_eq hl hlast st.fix st.d (show l.length ≤ fuel by omega)
  rw [← hm, ← hwl, h.out] at hout
  -- Only the fresh node's link is new, so every chain below it stands.
  have hkeep : ∀ {k : Nat} {l : List Nat}, k < 257 + n → Chain st.node.parent k l →
      Chain (m.setParent st.count c).parent k l := by
    intro k l hk hkl
    refine hkl.congr fun x hx => ?_
    rw [hcount, hm]
    simp only [Nodes.setParent, fixNode_parent]
    exact Function.update_of_ne (by omega) _ _
  refine ⟨m, by rw [h.out]; exact hout, h.running, h.ret, rfl, by simp only [hcount]; omega,
    by simp only [hcount, h.bits, codeWidth_succ], hbp, hoff, ?_, ?_⟩
  · intro k v hv
    show ∃ l, Chain (m.setParent st.count c).parent k l ∧ v = spell m.symbol l
    rcases Textbook.lookup_extend hv with hold | ⟨p, hp, hk, rfl⟩
    · obtain ⟨lk, hlk, hspell⟩ := h.entries k v hold
      have hkn : k < 257 + n := by
        by_contra hge
        have hnone : Textbook.current t.dict t.prev k = none :=
          (h.current_eq_none (by omega)).mpr (by omega)
        simp [Textbook.current, hold] at hnone
      refine ⟨lk, hkeep hkn hlk, ?_⟩
      rw [hm, fixNode_spell _ _ _ (h.entry_ne_fix hold hlk), hspell]
    · -- The entry is the one this code completed.
      obtain ⟨hn, -, lp, hchain, hspell⟩ := h.newest_chain hp
      have hkn : k = 256 + n := by omega
      subst hkn
      refine ⟨(256 + n) :: lp, hkeep (by omega) hchain, ?_⟩
      rw [hm, hspell, hw1]
  · show Hole (n + 1) _ (m.setParent st.count c) _
    refine ⟨?_, by simp only [hcount]; omega, c, l, ?_, by omega, hkeep hc hl, hwl⟩
    · show (Textbook.extend t.dict t.prev w).length + 1 = n + 1
      rcases h.fix_cases with ⟨hn, hd, hp, -⟩ | ⟨hn, -, p, hp⟩
      · rw [hp, hd, hn]; rfl
      · rw [hp]
        simp only [Textbook.extend, List.length_append, List.length_singleton]
        omega
    · rw [hcount, show 256 + (n + 1) = 257 + n by omega]
      simp [Nodes.setParent]

end

end Sim

/-! ### Whole runs -/

/-- The decoders agree on what is written and returned, and stay related while running. -/
structure Agree (n : Nat) (t : Textbook.State) (st : State) : Prop where
  out : st.d = t.out
  ret : st.ret = t.ret
  sim : t.status = .running → Sim n t st

theorem Sim.agree (h : Sim n t st) : Agree n t st :=
  ⟨h.out, by rw [h.ret, Textbook.State.ret, h.running], fun _ => h⟩

theorem Sim.decodeOne (hpack : Packed src codes) (h : Sim n t st) (hn : codes[n]? = some c)
    (hw : codeWidth n ≤ 25) (hf : n < fuel) :
    ∃ st', Lzw.decodeOne fuel src st = some st' ∧ Agree (n + 1) (Textbook.step t c) st' := by
  obtain ⟨s', bitpos', hcode, hc, hbp, hoff⟩ :=
    nextCode_packed hpack hn hw h.bitpos h.offset
  have hcn : (BitVec.ofNat 32 c).toNat = c := by
    rw [BitVec.toNat_ofNat]
    exact Nat.mod_eq_of_lt hc
  unfold Lzw.decodeOne
  simp only [h.bits, hcode, hcn, h.count, ge_iff_le]
  by_cases h256 : c = 256
  · subst h256
    rw [if_neg (by omega), if_pos rfl]
    have hstep : Textbook.step t 256 = { t with status := .stopped } := by
      simp [Textbook.step, h.running]
    rw [hstep]
    refine ⟨_, rfl, h.out, ?_, by simp⟩
    simp [Textbook.State.ret, h.out]
  · cases hcur : Textbook.current t.dict t.prev c with
    | none =>
      have hstep : Textbook.step t c = { t with status := .missing } := by
        simp [Textbook.step, h.running, h256, hcur]
      rw [if_pos ((h.current_eq_none h256).mp hcur), hstep]
      exact ⟨_, rfl, h.out, rfl, by simp⟩
    | some w =>
      have hlt : c < 257 + n := by
        by_contra hge
        rw [(h.current_eq_none h256).mpr (by omega)] at hcur
        simp at hcur
      have hstep : Textbook.step t c = { t with
          dict := Textbook.extend t.dict t.prev w, prev := some w, out := t.out ++ w } := by
        simp [Textbook.step, h.running, h256, hcur]
      obtain ⟨m, hout, hsim⟩ := h.print hlt hcur hf hbp hoff
      rw [if_neg (by omega), if_neg h256, hout, hstep]
      simp only [h.count, h.bits] at hsim
      exact ⟨_, rfl, hsim.agree⟩

theorem decodeN_agree (hpack : Packed src codes) (hw : ∀ n, n < codes.length → codeWidth n ≤ 25)
    (hf : codes.length < fuel) (temp : Nodes) : ∀ n, n ≤ codes.length →
      ∃ st, decodeN fuel src (initState temp) n = some st ∧
        Agree n (Textbook.decode (codes.take n)) st := by
  intro n
  induction n with
  | zero => intro _; exact ⟨_, rfl, (sim_init temp).agree⟩
  | succ n ih =>
    intro hn
    obtain ⟨st, hst, hagree⟩ := ih (by omega)
    have hget : codes[n]? = some codes[n] := List.getElem?_eq_getElem (by omega)
    have hdec : Textbook.decode (codes.take (n + 1))
        = Textbook.step (Textbook.decode (codes.take n)) codes[n] := by
      rw [Textbook.decode, List.take_add_one, hget, List.foldl_append]
      rfl
    rw [hdec, decodeN, hst]
    simp only [Option.bind_eq_bind, Option.bind_some, hagree.ret]
    cases hstatus : (Textbook.decode (codes.take n)).status with
    | running =>
      simp only [Textbook.State.ret, hstatus]
      exact (hagree.sim hstatus).decodeOne hpack hget (hw n (by omega)) (by omega)
    | stopped =>
      simp only [Textbook.State.ret, Textbook.step, hstatus]
      exact ⟨st, rfl, hagree.out, hagree.ret, by simp [hstatus]⟩
    | missing =>
      simp only [Textbook.State.ret, Textbook.step, hstatus]
      exact ⟨st, rfl, hagree.out, hagree.ret, by simp [hstatus]⟩

theorem decodeN_returned {st' : State} {r : Int} (h : decodeN fuel src st n = some st')
    (hr : st'.ret = some r) : ∀ k, decodeN fuel src st (n + k) = some st' := by
  intro k
  induction k with
  | zero => exact h
  | succ k ih => rw [← Nat.add_assoc, decodeN, ih]; simp [hr]

/-- **`lzw_decode` is the textbook decoder.**  After every number of codes the bytes
written and the value returned, if any, are the textbook's; so it returns -1 at the
code the textbook does not know, the length at the end marker, and nothing before. -/
theorem lzwDecode_textbook (temp : Nodes) (src : Nat → BitVec 32) (codes : List Nat)
    (hpack : Packed src codes) (hw : ∀ n, n < codes.length → codeWidth n ≤ 25)
    (fuel : Nat) (hf : codes.length < fuel) :
    (∀ n, n ≤ codes.length → ∃ st, decodeN fuel src (initState temp) n = some st ∧
      st.d = (Textbook.decode (codes.take n)).out ∧
      st.ret = (Textbook.decode (codes.take n)).ret) ∧
    (∀ r, (Textbook.decode codes).ret = some r →
      lzwDecode fuel temp src = some (r, (Textbook.decode codes).out)) := by
  refine ⟨fun n hn => ?_, fun r hr => ?_⟩
  · obtain ⟨st, hst, hagree⟩ := decodeN_agree hpack hw hf temp n hn
    exact ⟨st, hst, hagree.out, hagree.ret⟩
  · obtain ⟨st, hst, hagree⟩ := decodeN_agree hpack hw hf temp codes.length (Nat.le_refl _)
    rw [List.take_length] at hagree
    have hret : st.ret = some r := by rw [hagree.ret, hr]
    have hall := decodeN_returned hst hret (fuel - codes.length)
    rw [show codes.length + (fuel - codes.length) = fuel by omega] at hall
    simp [lzwDecode, hall, hret, hagree.out]

/-- The codes `97, 98, 257, 259, 256` decode to `ab ab ab a`: the fourth names the entry
it completes. -/
def sampleWords (n : Nat) : BitVec 32 :=
  match n with
  | 0 => 0x1c04c461#32
  | 1 => 0x00001008#32
  | _ => 0

theorem lzwDecode_textbook_sample :
    lzwDecode 6 ⟨fun _ => 0, fun _ => 0⟩ sampleWords
      = some (7, [97, 98, 97, 98, 97, 98, 97]) := by
  have hpack : Packed sampleWords [97, 98, 257, 259, 256] := by
    intro n c hn
    have hlt : n < 5 := by
      have := (List.getElem?_eq_some_iff.mp hn).1
      simpa using this
    interval_cases n <;> (simp at hn; subst hn; decide)
  exact (lzwDecode_textbook ⟨fun _ => 0, fun _ => 0⟩ sampleWords [97, 98, 257, 259, 256] hpack
    (by intro n hn; simp at hn; interval_cases n <;> decide) 6 (by decide)).2 7 (by decide)

end Dingoo.Lzw
