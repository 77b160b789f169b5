/-
The parent links of the dictionary, for every input.

Between two codes the parent of an entry comes before the entry and is not the end marker, and
bytes have none (`Linked`).  That is enough for a chain from every code the decoder accepts
down to a byte, so both walks end and stay among the entries there are; and as the second
walk undoes what the first did, a code changes the link of the entry it adds and nothing else.

Nothing is asked of the input: a code that is not in the dictionary ends the decoder before
any node is written.
-/
import Dingoo.Proofs.Lzw

namespace Dingoo.Lzw

open Dingoo.Lib

variable {st : State} {c fuel : Nat}

/-- The nodes that a walk visits from `j` on.  Both walks follow the links and set each to the node
they come from. -/
def visits : Nat → (Nat → Int) → Int → Nat → List Nat
  | 0, _, _, _ => []
  | fuel + 1, parent, i, j =>
    j :: if parent j < 0 then []
      else visits fuel (Function.update parent j i) j (parent j).toNat

/-- Both walks for code `c` end, and visit entries that exist. -/
def WalksEnd (fuel : Nat) (st : State) (c : Nat) : Prop :=
  ∃ m j k, walkBack fuel st.node (-1) c = some (m, j, k) ∧
    (∀ x ∈ visits fuel st.node.parent (-1) c, x < st.count) ∧
    (walkForward fuel (fixNode m st.fix (m.symbol j)) st.d k j).isSome = true ∧
    ∀ x ∈ visits fuel m.parent k j, x < st.count

/-- What a code changes: the link of the entry it adds, and the symbol of the entry that was added
for the code before. -/
structure Changes (st st' : State) : Prop where
  parent : ∀ x, st'.node.parent x ≠ st.node.parent x → x = st.count ∧ st'.count = st.count + 1
  symbol : ∀ x, st'.node.symbol x ≠ st.node.symbol x → 257 ≤ x ∧ x + 1 = st.count

/-- The dictionary before a code is processed. -/
structure Intact (fuel : Nat) (src : Nat → BitVec 32) (st : State) : Prop where
  root : ∀ n < 257, st.node.parent n = -1
  entry : ∀ n, 257 ≤ n → n < st.count → ∃ k : Nat, st.node.parent n = k ∧ k < n ∧ k ≠ 256
  walks : ∀ c < st.count, c ≠ 256 → WalksEnd fuel st c
  code : st.ret = none → ∃ st', decodeOne fuel src st = some st' ∧ Changes st st'

/-! ### The invariant -/

/-- After `n` codes at most. -/
structure Linked (n : Nat) (st : State) : Prop where
  root : ∀ k < 257, st.node.parent k = -1
  entry : ∀ k, 257 ≤ k → k < st.count → ∃ p : Nat, st.node.parent k = p ∧ p < k ∧ p ≠ 256
  count_ge : 257 ≤ st.count
  count_le : st.count ≤ 257 + n
  fix : st.fix = -1 ∨ ∃ x : Nat, st.fix = x ∧ 257 ≤ x ∧ x + 1 = st.count

theorem linked_init (temp : Nodes) : Linked 0 (initState temp) where
  root := fun k hk => (initNodes_spec temp 257 k hk).2
  entry := fun _ hlo hhi => absurd hhi (Nat.not_lt.mpr hlo)
  count_ge := Nat.le_refl 257
  count_le := Nat.le_refl 257
  fix := Or.inl rfl

namespace Linked

variable {n : Nat}

theorem weaken (h : Linked n st) : Linked (n + 1) st :=
  { h with count_le := Nat.le_succ_of_le h.count_le }

theorem chain (h : Linked n st) : ∀ c < st.count, c ≠ 256 → ∃ l, Chain st.node.parent c l := by
  intro c
  induction c using Nat.strong_induction_on with
  | _ c ih =>
    intro hc hne
    by_cases hbyte : c < 257
    · exact ⟨[c], Chain.root (by omega) (h.root c hbyte)⟩
    · obtain ⟨p, hp, hlt, hmark⟩ := h.entry c (by omega) hc
      obtain ⟨l, hl⟩ := ih p hlt (by omega) hmark
      exact ⟨c :: l, Chain.node (by omega) hlt hp hl⟩

theorem length_le (h : Linked n st) {l : List Nat} (hc : c < st.count)
    (hl : Chain st.node.parent c l) : l.length ≤ n + 1 := by
  have hlen := hl.length_le
  have hcount := h.count_le
  omega

end Linked

/-! ### What the walks visit -/

theorem visits_eq {e : Int} (he : e < 0) : ∀ (l : List Nat) (fuel : Nat) (parent : Nat → Int)
    (i : Int) (j : Nat), Links (Nat.cast : Nat → Int) parent e (j :: l) → (j :: l).Nodup →
    l.length < fuel → visits fuel parent i j = j :: l := by
  intro l
  induction l with
  | nil =>
    intro fuel parent i j hl _ hf
    obtain ⟨fuel, rfl⟩ := Nat.exists_eq_succ_of_ne_zero (Nat.ne_of_gt hf)
    have hj : parent j = e := hl.1
    rw [visits, hj, if_pos he]
  | cons j' l ih =>
    intro fuel parent i j hl hnd hf
    obtain ⟨fuel, rfl⟩ := Nat.exists_eq_succ_of_ne_zero (Nat.ne_zero_of_lt hf)
    have hj : parent j = (j' : Int) := hl.1
    obtain ⟨hjl, hnd'⟩ := List.nodup_cons.mp hnd
    have hrest := links_update hl.2 hjl i
    rw [visits, hj, if_neg (by omega), Int.toNat_natCast,
      ih fuel _ j j' hrest hnd' (Nat.lt_of_succ_lt_succ hf)]

/-- The first walk visits the chain and the second one visits it in the other order. -/
theorem Linked.walksEnd {n : Nat} (h : Linked n st) (hf : n < fuel) (hc : c < st.count)
    (hne : c ≠ 256) : WalksEnd fuel st c := by
  obtain ⟨l, hl⟩ := h.chain c hc hne
  have hlen := h.length_le hc hl
  have hexists : ∀ x ∈ l, x < st.count := fun x hx => Nat.lt_of_le_of_lt (hl.le x hx) hc
  obtain ⟨l', rfl⟩ := hl.head
  rw [List.length_cons] at hlen
  have hback := walkBack_eq (by decide : (-1 : Int) < 0) l' fuel st.node (-1) c hl.links hl.nodup
    (by omega)
  obtain ⟨r, hr⟩ : ∃ r, (c :: l').reverse = (c :: l').getLast (by simp) :: r := by
    refine ⟨(c :: l').reverse.tail, ?_⟩
    rw [← List.head_reverse (by simp)]
    exact (List.cons_head_tail (by simp)).symm
  have hnd : (c :: l').reverse.Nodup := List.nodup_reverse.mpr hl.nodup
  have hlinks := links_relink (ι := (Nat.cast : Nat → Int)) (c :: l') st.node.parent (-1) hl.nodup
  have hrlen : r.length = l'.length := by
    have hsame := congrArg List.length hr
    rw [List.length_reverse, List.length_cons, List.length_cons] at hsame
    omega
  refine ⟨_, _, _, hback, ?_, ?_, ?_⟩
  · rw [visits_eq (by decide : (-1 : Int) < 0) l' fuel _ (-1) c hl.links hl.nodup (by omega)]
    exact hexists
  · rw [hr] at hlinks hnd
    rw [walkForward_eq (by decide : (-1 : Int) < 0) r fuel _ st.d (-1) _
      (by rw [fixNode_parent]; exact hlinks) hnd (by omega)]
    rfl
  · have hmem : ∀ x ∈ (c :: l').reverse, x < st.count := fun x hx =>
      hexists x (List.mem_reverse.mp hx)
    rw [hr] at hlinks hnd hmem
    rw [visits_eq (by decide : (-1 : Int) < 0) r fuel _ (-1) _ hlinks hnd (by omega)]
    exact hmem

/-! ### One code -/

theorem fixNode_symbol_ne {m : Nodes} {fix : Int} {y : UInt8} {x : Nat}
    (h : (fixNode m fix y).symbol x ≠ m.symbol x) : fix = x := by
  unfold fixNode at h
  by_cases hfix : fix ≥ 0
  · rw [if_pos hfix] at h
    by_contra hne
    exact h (Function.update_of_ne (fun hx => hne (by omega)) _ _)
  · rw [if_neg hfix] at h
    exact absurd rfl h

theorem Linked.added {n : Nat} {st' : State} (h : Linked n st) (hc : c < st.count) (hne : c ≠ 256)
    (hparent : st'.node.parent = Function.update st.node.parent st.count (c : Int))
    (hcount : st'.count = st.count + 1) (hfix : st'.fix = st.count) : Linked (n + 1) st' := by
  have hge := h.count_ge
  have hle := h.count_le
  have hold : ∀ k, k ≠ st.count → st'.node.parent k = st.node.parent k := fun k hk => by
    rw [hparent, Function.update_of_ne hk]
  refine ⟨fun k hk => (hold k (by omega)).trans (h.root k hk), fun k hlo hhi => ?_, by omega,
    by omega, Or.inr ⟨st.count, hfix, hge, hcount.symm⟩⟩
  by_cases hnew : k = st.count
  · refine ⟨c, ?_, by omega, hne⟩
    rw [hparent, hnew, Function.update_self]
  · obtain ⟨p, hp, hlt, hmark⟩ := h.entry k hlo (by omega)
    exact ⟨p, (hold k hnew).trans hp, hlt, hmark⟩

theorem Linked.changes {n : Nat} {y : UInt8} {st' : State} (h : Linked n st)
    (hnode : st'.node = (fixNode st.node st.fix y).setParent st.count c)
    (hcount : st'.count = st.count + 1) : Changes st st' := by
  refine ⟨fun x hx => ⟨?_, hcount⟩, fun x hx => ?_⟩
  all_goals rw [hnode] at hx
  · by_contra hne
    refine hx ((Function.update_of_ne hne _ _).trans ?_)
    rw [fixNode_parent]
  · have hfix := fixNode_symbol_ne hx
    rcases h.fix with hnone | ⟨z, hz, hlo, hhi⟩
    · omega
    · obtain rfl : z = x := by omega
      exact ⟨hlo, hhi⟩

theorem Linked.decodeOne {n : Nat} (h : Linked n st) (hf : n < fuel) (src : Nat → BitVec 32) :
    ∃ st', Lzw.decodeOne fuel src st = some st' ∧ Changes st st' ∧ Linked (n + 1) st' := by
  have hsame : ∀ st' : State, st'.node = st.node → Changes st st' := fun st' hnode =>
    ⟨fun x hx => absurd (by rw [hnode]) hx, fun x hx => absurd (by rw [hnode]) hx⟩
  obtain ⟨hroot, hentry, hge, hle, hfix⟩ := h.weaken
  unfold Lzw.decodeOne
  obtain ⟨c, s, bitpos⟩ := nextCode src st.s st.bits st.bitpos
  dsimp only
  by_cases hmissing : c.toNat ≥ st.count
  · rw [if_pos hmissing]
    exact ⟨_, rfl, hsame _ rfl, ⟨hroot, hentry, hge, hle, hfix⟩⟩
  rw [if_neg hmissing]
  by_cases hmark : c.toNat = 256
  · rw [if_pos hmark]
    exact ⟨_, rfl, hsame _ rfl, ⟨hroot, hentry, hge, hle, hfix⟩⟩
  rw [if_neg hmark]
  have hc : c.toNat < st.count := Nat.lt_of_not_le hmissing
  obtain ⟨l, hl⟩ := h.chain c.toNat hc hmark
  obtain ⟨l', b, hlast, -, -⟩ := hl.last
  have hlen := h.length_le hc hl
  rw [outputCode_eq hl (b := b) (by rw [hlast]; exact List.getLast?_concat) st.fix st.d
    (show l.length ≤ fuel by omega)]
  refine ⟨_, rfl, h.changes rfl rfl, h.added hc hmark ?_ rfl rfl⟩
  exact congrArg (Function.update · st.count _) (fixNode_parent _ _ _)

/-! ### Whole runs -/

theorem linked_decodeN (temp : Nodes) (src : Nat → BitVec 32) : ∀ n, n < fuel →
    ∃ st, decodeN fuel src (initState temp) n = some st ∧ Linked n st := by
  intro n
  induction n with
  | zero => exact fun _ => ⟨_, rfl, linked_init temp⟩
  | succ n ih =>
    intro hf
    obtain ⟨st, hst, hlinked⟩ := ih (by omega)
    rw [decodeN, hst]
    cases hret : st.ret with
    | some r => exact ⟨st, by simp [hret], hlinked.weaken⟩
    | none =>
      obtain ⟨st', hst', -, hlinked'⟩ := hlinked.decodeOne (show n < fuel by omega) src
      exact ⟨st', by simpa [hret] using hst', hlinked'⟩

/-- **The dictionary is intact before every code**, for every input and whatever the memory of the
dictionary held before. -/
theorem decodeN_intact (temp : Nodes) (src : Nat → BitVec 32) (n fuel : Nat) (hf : n < fuel) :
    ∃ st, decodeN fuel src (initState temp) n = some st ∧ Intact fuel src st := by
  obtain ⟨st, hst, hlinked⟩ := linked_decodeN temp src n hf
  refine ⟨st, hst, hlinked.root, hlinked.entry, fun c hc hne => hlinked.walksEnd hf hc hne,
    fun _ => ?_⟩
  obtain ⟨st', hst', hchanges, -⟩ := hlinked.decodeOne hf src
  exact ⟨st', hst', hchanges⟩

/-- Four codes of the sample. -/
theorem decodeN_intact_sample :
    4 < 6 ∧ ∃ st, decodeN 6 sampleWords (initState ⟨fun _ => 0, fun _ => 0⟩) 4 = some st ∧
      Intact 6 sampleWords st :=
  ⟨by decide, decodeN_intact _ _ 4 6 (by decide)⟩

end Dingoo.Lzw
