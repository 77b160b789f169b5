/-
The lists of the menu as a stack.

Each list is a level: the items before the selected one, nearest first, the selected one,
and the items behind it.  Opening a list pushes a level, leaving it pops one, and moving
the selection moves a level to and fro; that the selection is in the list is part of the
form of a level.  `Rep` relates a stack to the menu: the items of a level are linked in
their order both ways, and their parent is the selected item of the level below.

`step_rep` is the refinement: a call on the menu never reaches a missing item and does
what the call on the stack does.  A group of calls that opens a list and leaves it again
takes the stack back to what it was (`group_returns`), and so the menu.
-/
import Dingoo.Gp2xmb.ItemList

namespace Dingoo.ItemList

open Dingoo.Lib

variable {σ : List Level} {v : Level} {parent : Option Addr} {createNew : Bool} {h h' : Heap}
  {link : Heap → Addr → Option (Option Addr)} {c a b : Addr}

/-! ### The stack -/

/-- A list with one item selected. -/
structure Level where
  before : List Addr
  cur : Addr
  after : List Addr
deriving DecidableEq

namespace Level

def items (v : Level) : List Addr := v.before.reverse ++ v.cur :: v.after

def add (v : Level) (a : Addr) : Level := { v with after := v.after ++ [a] }

def up (v : Level) : Level :=
  match v.before with
  | [] => v
  | b :: before => ⟨before, b, v.cur :: v.after⟩

def down (v : Level) : Level :=
  match v.after with
  | [] => v
  | b :: after => ⟨v.cur :: v.before, b, after⟩

theorem items_add (v : Level) (a : Addr) : (v.add a).items = v.items ++ [a] := by
  simp [items, add]

theorem items_up (v : Level) : v.up.items = v.items := by
  unfold up
  split
  · rfl
  · rename_i hb
    simp [items, hb]

theorem items_down (v : Level) : v.down.items = v.items := by
  unfold down
  split
  · rfl
  · rename_i ha
    simp [items, ha]

theorem items_reverse (v : Level) : v.items.reverse = v.after.reverse ++ v.cur :: v.before := by
  simp [items]

theorem items_ne_nil (v : Level) : v.items ≠ [] := by simp [items]

theorem cur_mem (v : Level) : v.cur ∈ v.items := by simp [items]

theorem getLast?_back (v : Level) : (v.cur :: v.before).getLast? = v.items.head? := by
  rw [items, ← List.head?_reverse, List.reverse_cons]
  cases v.before.reverse <;> rfl

end Level

/-- The levels, the current one first, and whether the next item opens a new one. -/
structure Stack where
  levels : List Level
  createNew : Bool
deriving DecidableEq

def Stack.step (k : Stack) : Call → Stack
  | .listAdd a =>
    match k.levels with
    | [] => ⟨[⟨[], a, []⟩], k.createNew⟩
    | v :: σ => if k.createNew then ⟨⟨[], a, []⟩ :: v :: σ, false⟩ else ⟨v.add a :: σ, false⟩
  | .listIn => { k with createNew := true }
  | .listOut =>
    if k.createNew then { k with createNew := false }
    else
      match k.levels with
      | _ :: v :: σ => ⟨v :: σ, false⟩
      | _ => k
  | .listUp => if k.createNew then k else { k with levels := k.levels.modifyHead Level.up }
  | .listDown => if k.createNew then k else { k with levels := k.levels.modifyHead Level.down }

/-! ### Groups of calls -/

/-- Moves of the selection. -/
def Moves (l : List Call) : Prop := ∀ c ∈ l, c = .listUp ∨ c = .listDown

/-- The calls between the first item of a list and leaving it: more items, moves of the
selection, and groups that open a list and leave it. -/
inductive Visit : List Call → Prop where
  | nil : Visit []
  | add (a : Addr) {l : List Call} : Visit l → Visit (.listAdd a :: l)
  | up {l : List Call} : Visit l → Visit (.listUp :: l)
  | down {l : List Call} : Visit l → Visit (.listDown :: l)
  | group {idle : List Call} (a : Addr) {l l' : List Call} : Moves idle → Visit l → Visit l' →
      Visit (.listIn :: (idle ++ .listAdd a :: (l ++ .listOut :: l')))

/-- A list is opened, gets an item, is used and is left. -/
def Group (calls : List Call) : Prop :=
  ∃ idle a l, Moves idle ∧ Visit l ∧ calls = .listIn :: (idle ++ .listAdd a :: (l ++ [.listOut]))

theorem moves_idle (σ : List Level) : ∀ {idle : List Call}, Moves idle →
    idle.foldl Stack.step ⟨σ, true⟩ = ⟨σ, true⟩ := by
  intro idle
  induction idle with
  | nil => intro _; rfl
  | cons c idle ih =>
    intro h
    have hc : Stack.step ⟨σ, true⟩ c = ⟨σ, true⟩ := by
      rcases h c (by simp) with rfl | rfl <;> rfl
    rw [List.foldl_cons, hc]
    exact ih fun x hx => h x (List.mem_cons_of_mem c hx)

theorem opens {idle : List Call} (hidle : Moves idle) (a : Addr) (l : List Call) (v : Level)
    (σ : List Level) (createNew : Bool) :
    (Call.listIn :: (idle ++ .listAdd a :: l)).foldl Stack.step ⟨v :: σ, createNew⟩
      = l.foldl Stack.step ⟨⟨[], a, []⟩ :: v :: σ, false⟩ := by
  rw [List.foldl_cons, List.foldl_append]
  show List.foldl Stack.step (idle.foldl Stack.step ⟨v :: σ, true⟩) (.listAdd a :: l) = _
  rw [moves_idle _ hidle]
  rfl

theorem visit_returns {l : List Call} (h : Visit l) : ∀ (v : Level) (σ : List Level),
    ∃ v', l.foldl Stack.step ⟨v :: σ, false⟩ = ⟨v' :: σ, false⟩ := by
  induction h with
  | nil => intro v σ; exact ⟨v, rfl⟩
  | add a _ ih => intro v σ; exact ih (v.add a) σ
  | up _ ih => intro v σ; exact ih v.up σ
  | down _ ih => intro v σ; exact ih v.down σ
  | group a hidle _ _ ih ih' =>
    intro v σ
    obtain ⟨w, hw⟩ := ih ⟨[], a, []⟩ (v :: σ)
    obtain ⟨v', hv⟩ := ih' v σ
    refine ⟨v', ?_⟩
    rw [opens hidle, List.foldl_append, hw]
    exact hv

theorem group_returns {calls : List Call} (h : Group calls) (k : Stack) (hne : k.levels ≠ []) :
    calls.foldl Stack.step k = { k with createNew := false } := by
  obtain ⟨idle, a, l, hidle, hl, rfl⟩ := h
  obtain ⟨levels, createNew⟩ := k
  obtain ⟨v, σ, rfl⟩ := List.exists_cons_of_ne_nil hne
  obtain ⟨w, hw⟩ := visit_returns hl ⟨[], a, []⟩ (v :: σ)
  rw [opens hidle, List.foldl_append, hw]
  rfl

/-! ### The menu behind a stack -/

/-- The items of a list, linked both ways, and their parent. -/
structure Listed (h : Heap) (l : List Addr) (parent : Option Addr) : Prop where
  next : Linked h.next l
  prev : Linked h.prev l.reverse
  parent : ∀ a ∈ l, h.parent a = some parent

/-- The item the lists behind are reached by. -/
def parentOf : List Level → Option Addr
  | [] => none
  | v :: _ => some v.cur

def Levels (h : Heap) : List Level → Prop
  | [] => True
  | v :: σ => Listed h v.items (parentOf σ) ∧ Levels h σ

def allItems (σ : List Level) : List Addr := σ.flatMap Level.items

def selectedOf : List Level → Nat
  | [] => 0
  | v :: _ => v.before.length

/-- The menu shows the stack. -/
structure Rep (k : Stack) (m : Menu) : Prop where
  levels : Levels m.heap k.levels
  nodup : (allItems k.levels).Nodup
  live : m.heap.live = (allItems k.levels).length
  root : m.liRoot = k.levels.getLast?.bind (·.items.head?)
  curr : m.liCurrRoot = k.levels.head?.bind (·.items.head?)
  selected : m.liSelected = selectedOf k.levels
  createNew : m.liCreateNew = k.createNew

theorem rep_init : Rep ⟨[], false⟩ listInit := ⟨trivial, List.nodup_nil, rfl, rfl, rfl, rfl, rfl⟩

/-! ### Writes that leave the links alone -/

/-- The links of an item are the same on both heaps. -/
structure SameLinks (h h' : Heap) (a : Addr) : Prop where
  next : h'.next a = h.next a
  prev : h'.prev a = h.prev a
  parent : h'.parent a = h.parent a

theorem SameLinks.of_item (heq : h'.item a = h.item a) : SameLinks h h' a := by
  constructor
  · rw [Heap.next, Heap.next, heq]
  · rw [Heap.prev, Heap.prev, heq]
  · rw [Heap.parent, Heap.parent, heq]

theorem Listed.congr {l : List Addr} (hl : Listed h l parent)
    (hsame : ∀ a ∈ l, SameLinks h h' a) : Listed h' l parent where
  next := linked_congr (fun a ha => (hsame a ha).next.symm) hl.next
  prev := linked_congr (fun a ha => (hsame a (List.mem_reverse.mp ha)).prev.symm) hl.prev
  parent := fun a ha => (hsame a ha).parent.trans (hl.parent a ha)

theorem allItems_cons (v : Level) (σ : List Level) :
    allItems (v :: σ) = v.items ++ allItems σ := List.flatMap_cons

theorem mem_allItems_cons : a ∈ allItems (v :: σ) ↔ a ∈ v.items ∨ a ∈ allItems σ := by
  rw [allItems_cons, List.mem_append]

theorem items_length_le : ∀ {σ : List Level}, v ∈ σ →
    v.items.length ≤ (allItems σ).length := by
  intro σ
  induction σ with
  | nil => intro hv; exact absurd hv List.not_mem_nil
  | cons w σ ih =>
    intro hv
    rw [allItems_cons, List.length_append]
    rcases List.mem_cons.mp hv with rfl | hv
    · exact Nat.le_add_right _ _
    · exact Nat.le_trans (ih hv) (Nat.le_add_left _ _)

theorem Levels.congr : ∀ {σ : List Level}, Levels h σ →
    (∀ a ∈ allItems σ, SameLinks h h' a) → Levels h' σ := by
  intro σ
  induction σ with
  | nil => intro _ _; trivial
  | cons v σ ih =>
    intro hσ hsame
    exact ⟨hσ.1.congr fun a ha => hsame a (mem_allItems_cons.mpr (Or.inl ha)),
      ih hσ.2 fun a ha => hsame a (mem_allItems_cons.mpr (Or.inr ha))⟩

theorem Levels.live : ∀ {σ : List Level}, Levels h σ → ∀ a ∈ allItems σ,
    h.item a ≠ none := by
  intro σ
  induction σ with
  | nil => intro _ a ha; simp [allItems] at ha
  | cons v σ ih =>
    intro hσ a ha hnone
    rcases mem_allItems_cons.mp ha with ha | ha
    · have hparent := hσ.1.parent a ha
      rw [Heap.parent, hnone] at hparent
      exact absurd hparent (by simp)
    · exact ih hσ.2 a ha hnone

/-! ### The loops on a level -/

theorem Listed.next_cur (hv : Listed h v.items parent) : h.next v.cur = some v.after.head? :=
  (linked_cons.mp (Linked.of_append hv.next)).1

theorem Listed.back (hv : Listed h v.items parent) : Linked h.prev (v.cur :: v.before) := by
  have hprev := hv.prev
  rw [v.items_reverse] at hprev
  exact hprev.of_append

theorem Listed.prev_cur (hv : Listed h v.items parent) : h.prev v.cur = some v.before.head? :=
  (linked_cons.mp hv.back).1

theorem listGetSelected_eq {m : Menu} (hv : Listed m.heap v.items parent)
    (hcurr : m.liCurrRoot = v.items.head?) (hsel : m.liSelected = v.before.length) :
    listGetSelected m = some (some v.cur) := by
  have hfollow := follow_linked (l := v.before.reverse) hv.next
  rw [List.length_reverse] at hfollow
  rw [listGetSelected, hcurr, hsel]
  exact hfollow

/-- The way back from the selected item ends at the head, after as many items as there are
before it. -/
theorem findRoot_eq (hv : Listed h v.items parent) (hlive : v.items.length ≤ h.live) :
    findRoot h (some v.cur) = some (v.items.head?, v.before.length) := by
  obtain ⟨c, l, hitems⟩ := List.exists_cons_of_ne_nil v.items_ne_nil
  have hlast : (v.cur :: v.before).getLast? = some c := by
    rw [v.getLast?_back, hitems]
    rfl
  have hlen : v.before.length < h.live := by
    have hsplit : v.items.length = v.before.length + (v.after.length + 1) := by
      simp [Level.items]
    omega
  rw [findRoot, lastCell_linked hv.back hlast hlen, hitems]
  rfl

theorem listEmpty_linked : ∀ {l : List Addr} (fuel : Nat) {h : Heap}, Linked h.next l → l.Nodup →
    l.length ≤ fuel → ∃ h', listEmpty fuel l.head? h = some h' ∧ h'.live = h.live - l.length ∧
      ∀ a ∉ l, h'.item a = h.item a := by
  intro l
  induction l with
  | nil =>
    intro fuel h _ _ _
    exact ⟨h, by cases fuel <;> rfl, rfl, fun _ _ => rfl⟩
  | cons c l ih =>
    intro fuel h hl hnd hfuel
    obtain ⟨fuel, rfl⟩ : ∃ n, fuel = n + 1 := ⟨fuel - 1, by simp at hfuel; omega⟩
    obtain ⟨hc, hl⟩ := linked_cons.mp hl
    obtain ⟨hcl, hnd⟩ := List.nodup_cons.mp hnd
    have hkept : ∀ a, a ≠ c → (h.free c).item a = h.item a := fun a ha =>
      Function.update_of_ne ha _ _
    have hrest : Linked (h.free c).next l := by
      refine linked_congr (fun a ha => ?_) hl
      have hne : a ≠ c := fun heq => hcl (heq ▸ ha)
      exact (SameLinks.of_item (hkept a hne)).next.symm
    obtain ⟨h', hempty, hlive, hsame⟩ := ih fuel hrest hnd (by simp at hfuel; omega)
    refine ⟨h', ?_, ?_, ?_⟩
    · show (h.next c).bind (fun tmp => listEmpty fuel tmp (h.free c)) = some h'
      rw [hc]
      exact hempty
    · rw [hlive, List.length_cons]
      show h.live - 1 - l.length = _
      omega
    · intro a ha
      rw [List.mem_cons, not_or] at ha
      rw [hsame a ha.2, hkept a ha.1]

/-! ### Each call does on the menu what it does on the stack -/

section

variable {k : Stack} {m : Menu}

theorem Rep.fresh (r : Rep k m) (hfresh : m.heap.item a = none) : a ∉ allItems k.levels :=
  fun ha => r.levels.live a ha hfresh

theorem Rep.length_le (r : Rep k m) (hv : v ∈ k.levels) : v.items.length ≤ m.heap.live := by
  rw [r.live]
  exact items_length_le hv

theorem Rep.curr_items (r : Rep ⟨v :: σ, createNew⟩ m) : m.liCurrRoot = v.items.head? := r.curr

theorem Rep.curr_some (r : Rep ⟨v :: σ, createNew⟩ m) :
    ∃ c l, v.items = c :: l ∧ m.liCurrRoot = some c := by
  obtain ⟨c, l, hc⟩ := List.exists_cons_of_ne_nil v.items_ne_nil
  exact ⟨c, l, hc, r.curr_items.trans (congrArg List.head? hc)⟩

theorem Rep.getSelected (r : Rep ⟨v :: σ, createNew⟩ m) : listGetSelected m = some (some v.cur) :=
  listGetSelected_eq r.levels.1 r.curr r.selected

theorem getLast?_head {v' : Level} (h : v'.items.head? = v.items.head?) (σ : List Level) :
    (v' :: σ).getLast?.bind (·.items.head?) = (v :: σ).getLast?.bind (·.items.head?) := by
  cases σ with
  | nil => exact h
  | cons w σ => rw [List.getLast?_cons_cons, List.getLast?_cons_cons]

theorem bottom_mem (hne : σ ≠ []) : ∃ b ∈ allItems σ, σ.getLast?.bind (·.items.head?) = some b := by
  obtain ⟨w, hw⟩ := Option.ne_none_iff_exists'.mp (mt List.getLast?_eq_none_iff.mp hne)
  obtain ⟨b, l, hb⟩ := List.exists_cons_of_ne_nil w.items_ne_nil
  refine ⟨b, List.mem_flatMap.mpr ⟨w, List.mem_of_getLast? hw, by rw [hb]; simp⟩, ?_⟩
  rw [hw, Option.bind_some, hb]
  rfl

theorem Rep.select {v' : Level} (r : Rep ⟨v :: σ, createNew⟩ m) (hitems : v'.items = v.items) :
    Rep ⟨v' :: σ, createNew⟩ { m with liSelected := v'.before.length } := by
  have hall : allItems (v' :: σ) = allItems (v :: σ) := by
    rw [allItems_cons, allItems_cons, hitems]
  refine ⟨⟨?_, r.levels.2⟩, ?_, ?_, ?_, ?_, rfl, r.createNew⟩
  · rw [hitems]
    exact r.levels.1
  · rw [hall]
    exact r.nodup
  · rw [hall]
    exact r.live
  · rw [getLast?_head (congrArg List.head? hitems)]
    exact r.root
  · exact r.curr.trans (congrArg List.head? hitems.symm)

theorem listMove_eq {d : Int} {cur : Addr} {dest : Option Addr} (hcurr : m.liCurrRoot = some c)
    (hsel : listGetSelected m = some (some cur)) (hlink : link m.heap cur = some dest) :
    listMove link d m =
      if dest ≠ none ∧ m.liCreateNew = false then
        some (1, { m with liSelected := m.liSelected + d })
      else some (0, m) := by
  unfold listMove
  rw [hcurr, hsel]
  simp [hlink]

/-- A move of the selection: where there is no item to go to, it stays. -/
structure MovesTo (link : Heap → Addr → Option (Option Addr)) (d : Int) (h : Heap)
    (v v' : Level) : Prop where
  items : v'.items = v.items
  dest : ∃ dest, link h v.cur = some dest ∧ (dest = none → v' = v) ∧
    (dest ≠ none → (v'.before.length : Int) = v.before.length + d)

theorem Listed.up (hv : Listed h v.items parent) : MovesTo Heap.prev (-1) h v v.up := by
  refine ⟨v.items_up, _, hv.prev_cur, ?_, ?_⟩
  · intro hnone
    rw [Level.up, List.head?_eq_none_iff.mp hnone]
  · intro hsome
    obtain ⟨b, before, hb⟩ := List.exists_cons_of_ne_nil (mt List.head?_eq_none_iff.mpr hsome)
    rw [Level.up, hb]
    show (before.length : Int) = ((b :: before).length : Int) + -1
    rw [List.length_cons]
    omega

theorem Listed.down (hv : Listed h v.items parent) : MovesTo Heap.next 1 h v v.down := by
  refine ⟨v.items_down, _, hv.next_cur, ?_, ?_⟩
  · intro hnone
    rw [Level.down, List.head?_eq_none_iff.mp hnone]
  · intro hsome
    obtain ⟨b, after, hb⟩ := List.exists_cons_of_ne_nil (mt List.head?_eq_none_iff.mpr hsome)
    rw [Level.down, hb, List.length_cons]
    omega

theorem listMove_rep (r : Rep k m) {d : Int} {move : Level → Level}
    (hmove : ∀ v parent, Listed m.heap v.items parent → MovesTo link d m.heap v (move v)) :
    ∃ m', (listMove link d m).map Prod.snd = some m' ∧
      Rep (if k.createNew then k else { k with levels := k.levels.modifyHead move }) m' := by
  obtain ⟨levels, createNew⟩ := k
  cases levels with
  | nil =>
    refine ⟨m, ?_, by cases createNew <;> exact r⟩
    rw [listMove, show m.liCurrRoot = none from r.curr]
    rfl
  | cons v σ =>
    obtain ⟨hitems, dest, hlink, hstay, hgo⟩ := hmove v _ r.levels.1
    obtain ⟨c, -, -, hcurr⟩ := r.curr_some
    have hnew := r.createNew
    rw [listMove_eq hcurr r.getSelected hlink]
    cases createNew with
    | true =>
      rw [if_neg (fun h => Bool.false_ne_true (h.2.symm.trans hnew))]
      exact ⟨m, rfl, r⟩
    | false =>
      by_cases hdest : dest = none
      · rw [if_neg (fun h => h.1 hdest)]
        refine ⟨m, rfl, ?_⟩
        show Rep ⟨move v :: σ, false⟩ m
        rw [hstay hdest]
        exact r
      · rw [if_pos ⟨hdest, hnew⟩]
        have hsel : m.liSelected + d = (move v).before.length := by
          rw [r.selected, hgo hdest]
          rfl
        rw [hsel]
        exact ⟨_, rfl, r.select hitems⟩

/-! ### Opening and leaving a list -/

theorem Heap.modify_eq {it : Item} (hit : h.item a = some it) (f : Item → Item) :
    h.modify a f = some { h with item := Function.update h.item a (some (f it)) } := by
  rw [Heap.modify, hit]
  rfl

theorem SameLinks.trans {h'' : Heap} (hs : SameLinks h h' b) (hs' : SameLinks h' h'' b) :
    SameLinks h h'' b :=
  ⟨hs'.next.trans hs.next, hs'.prev.trans hs.prev, hs'.parent.trans hs.parent⟩

theorem listed_single {root : Option Addr} (hit : h.item a = some ⟨none, none, root, parent⟩) :
    Listed h [a] parent := by
  refine ⟨linked_cons.mpr ⟨?_, trivial⟩, linked_cons.mpr ⟨?_, trivial⟩, fun b hb => ?_⟩
  · rw [Heap.next, hit]
    rfl
  · rw [Heap.prev, hit]
    rfl
  · rw [List.mem_singleton.mp hb, Heap.parent, hit]
    rfl

theorem listAdd_first (r : Rep ⟨[], createNew⟩ m) :
    ∃ m', listAdd a m = some m' ∧ Rep ⟨[⟨[], a, []⟩], createNew⟩ m' := by
  refine ⟨{ m with
    heap := m.heap.malloc a ⟨none, none, none, none⟩, liRoot := some a, liCurrRoot := some a },
    ?_, ?_⟩
  · rw [listAdd, show m.liRoot = none from r.root]
  · exact ⟨⟨listed_single (Function.update_self ..), trivial⟩, List.nodup_singleton a,
      congrArg (· + 1) r.live, rfl, rfl, r.selected, r.createNew⟩

theorem Rep.push (r : Rep ⟨σ, createNew⟩ m) (hne : σ ≠ []) (hfresh : a ∉ allItems σ) {heap : Heap}
    (hit : heap.item a = some ⟨none, none, none, parentOf σ⟩) (hlive : heap.live = m.heap.live + 1)
    (hsame : ∀ b, b ≠ a → SameLinks m.heap heap b) :
    Rep ⟨⟨[], a, []⟩ :: σ, false⟩
      { m with heap := heap, liCurrRoot := some a, liCreateNew := false, liSelected := 0 } where
  levels := ⟨listed_single hit,
    r.levels.congr fun b hb => hsame b fun heq => hfresh (heq ▸ hb)⟩
  nodup := List.nodup_cons.mpr ⟨hfresh, r.nodup⟩
  live := hlive.trans (congrArg (· + 1) r.live)
  root := by
    obtain ⟨v, σ, rfl⟩ := List.exists_cons_of_ne_nil hne
    rw [List.getLast?_cons_cons]
    exact r.root
  curr := rfl
  selected := rfl
  createNew := rfl

theorem Heap.modify_root (hlive : h.item c ≠ none) (root : Option Addr) :
    ∃ h', h.modify c (fun it => { it with root := root }) = some h' ∧ h'.live = h.live ∧
      ∀ b, SameLinks h h' b := by
  obtain ⟨it, hit⟩ := Option.ne_none_iff_exists'.mp hlive
  refine ⟨_, Heap.modify_eq hit _, rfl, fun b => ?_⟩
  by_cases hb : b = c
  · subst hb
    constructor <;> simp [Heap.next, Heap.prev, Heap.parent, hit]
  · exact SameLinks.of_item (Function.update_of_ne hb _ _)

theorem Heap.modify_malloc (h : Heap) (it : Item) (f : Item → Item) :
    (h.malloc a it).modify a f = some (h.malloc a (f it)) := by
  rw [Heap.modify_eq (Function.update_self a (some it) h.item)]
  simp only [Heap.malloc, Function.update_idem]

theorem SameLinks.malloc (hs : SameLinks h h' b) (hb : b ≠ a) (it : Item) :
    SameLinks h (h'.malloc a it) b :=
  hs.trans (SameLinks.of_item (Function.update_of_ne hb _ _))

theorem listAddNew_rep (r : Rep ⟨v :: σ, true⟩ m) (hfresh : a ∉ allItems (v :: σ))
    (hcurr : m.liCurrRoot = some c) :
    ∃ m', listAddNew a c m = some m' ∧ Rep ⟨⟨[], a, []⟩ :: v :: σ, false⟩ m' := by
  have hhead : c ∈ v.items := List.mem_of_head? (r.curr_items.symm.trans hcurr)
  -- no loop goes along the `root` of the head
  obtain ⟨h₁, hroot, hlive, hsame⟩ := Heap.modify_root
    (r.levels.live c (mem_allItems_cons.mpr (Or.inl hhead))) (some a)
  have hitems : Listed (h₁.malloc a ⟨none, none, none, none⟩) v.items (parentOf σ) :=
    r.levels.1.congr fun b hb => (hsame b).malloc
      (fun heq : b = a => hfresh (mem_allItems_cons.mpr (Or.inl (heq ▸ hb)))) _
  have hsel : listGetSelected { m with heap := h₁.malloc a ⟨none, none, none, none⟩ }
      = some (some v.cur) := listGetSelected_eq hitems r.curr r.selected
  have hit : (h₁.malloc a ⟨none, none, none, some v.cur⟩).item a
      = some ⟨none, none, none, some v.cur⟩ := Function.update_self a _ _
  have hpush := r.push (List.cons_ne_nil v σ) hfresh hit (congrArg (· + 1) hlive)
    fun b hb => (hsame b).malloc hb _
  refine ⟨_, ?_, hpush⟩
  simp only [listAddNew, hroot, Option.bind_eq_bind, Option.bind_some, hsel, Heap.modify_malloc]

theorem Heap.modify_next (hlive : h.item c ≠ none) (next : Option Addr) :
    ∃ h', h.modify c (fun it => { it with next := next }) = some h' ∧ h'.live = h.live ∧
      h'.next c = some next ∧ (∀ b, h'.prev b = h.prev b ∧ h'.parent b = h.parent b) ∧
      ∀ b, b ≠ c → SameLinks h h' b := by
  obtain ⟨it, hit⟩ := Option.ne_none_iff_exists'.mp hlive
  refine ⟨_, Heap.modify_eq hit _, rfl, by simp [Heap.next], fun b => ?_, fun b hb =>
    SameLinks.of_item (Function.update_of_ne hb _ _)⟩
  by_cases hb : b = c
  · subst hb
    constructor <;> simp [Heap.prev, Heap.parent, hit]
  · have hsame : SameLinks h
        { h with item := Function.update h.item c (some { it with next := next }) } b :=
      SameLinks.of_item (Function.update_of_ne hb _ _)
    exact ⟨hsame.prev, hsame.parent⟩

theorem Listed.concat {h h' h'' : Heap} {init : List Addr} {w : Addr} {parent : Option Addr}
    (hl : Listed h (init ++ [w]) parent) (hnd : (init ++ [w]).Nodup) (ha : a ∉ init ++ [w])
    (hnext : h'.next w = some (some a))
    (hkept : ∀ b, h'.prev b = h.prev b ∧ h'.parent b = h.parent b)
    (hsame : ∀ b, b ≠ w → SameLinks h h' b)
    (hnew : h'' = h'.malloc a ⟨none, some w, none, parent⟩) :
    Listed h'' (init ++ [w] ++ [a]) parent := by
  have hit : h''.item a = some ⟨none, some w, none, parent⟩ := by
    rw [hnew]
    exact Function.update_self a _ _
  have hold : ∀ b, b ∈ init ++ [w] → SameLinks h' h'' b := by
    intro b hb
    have hne : b ≠ a := fun heq => ha (heq ▸ hb)
    rw [hnew]
    exact SameLinks.of_item (Function.update_of_ne hne _ _)
  refine ⟨?_, ?_, ?_⟩
  · rw [List.append_assoc]
    refine linked_concat hl.next (fun b hb => ?_) ?_ ?_
    · have hne : b ≠ w := by
        rintro rfl
        exact (List.nodup_append.mp hnd).2.2 b hb b (by simp) rfl
      rw [(hold b (List.mem_append_left _ hb)).next, (hsame b hne).next]
    · rw [(hold w (by simp)).next, hnext]
    · rw [Heap.next, hit]
      rfl
  · rw [List.reverse_append, List.reverse_singleton, List.singleton_append]
    refine linked_cons.mpr ⟨?_, linked_congr (fun b hb => ?_) hl.prev⟩
    · rw [Heap.prev, hit, List.head?_reverse, List.getLast?_append]
      rfl
    · rw [(hold b (List.mem_reverse.mp hb)).prev, (hkept b).1]
  · intro b hb
    rcases List.mem_append.mp hb with hb | hb
    · rw [(hold b hb).parent, (hkept b).2, hl.parent b hb]
    · rw [List.mem_singleton.mp hb, Heap.parent, hit]
      rfl

theorem Rep.concat {v : Level} {σ : List Level} {createNew : Bool}
    (r : Rep ⟨v :: σ, createNew⟩ m) (hfresh : a ∉ allItems (v :: σ)) {heap : Heap}
    (hlive : heap.live = m.heap.live + 1) (hitems : Listed heap (v.items ++ [a]) (parentOf σ))
    (hsame : ∀ b ∈ allItems σ, SameLinks m.heap heap b) :
    Rep ⟨v.add a :: σ, createNew⟩ { m with heap := heap } := by
  have hadd : allItems (v.add a :: σ) = v.items ++ a :: allItems σ := by
    rw [allItems_cons, v.items_add, List.append_assoc]
    rfl
  have hhead : (v.add a).items.head? = v.items.head? := by
    obtain ⟨c, l, hc, -⟩ := r.curr_some
    rw [v.items_add, hc]
    rfl
  refine ⟨⟨v.items_add a ▸ hitems, r.levels.2.congr hsame⟩, ?_, ?_, ?_, r.curr.trans hhead.symm,
    r.selected, r.createNew⟩
  · rw [hadd, List.nodup_middle, ← allItems_cons]
    exact List.nodup_cons.mpr ⟨hfresh, r.nodup⟩
  · show heap.live = _
    rw [hlive, r.live, hadd]
    show (allItems (v :: σ)).length + 1 = _
    rw [allItems_cons, List.length_append, List.length_append, List.length_cons]
    omega
  · rw [getLast?_head hhead]
    exact r.root

theorem listAddLast_rep (r : Rep ⟨v :: σ, false⟩ m) (hfresh : a ∉ allItems (v :: σ))
    (hcurr : m.liCurrRoot = some c) :
    ∃ m', listAddLast a c m = some m' ∧ Rep ⟨v.add a :: σ, false⟩ m' := by
  obtain ⟨l, hitems⟩ := List.head?_eq_some_iff.mp (r.curr_items.symm.trans hcurr)
  obtain ⟨init, w, hw⟩ : ∃ init w, v.items = init ++ [w] :=
    ⟨_, _, (List.dropLast_append_getLast v.items_ne_nil).symm⟩
  have hwmem : w ∈ v.items := by rw [hw]; simp
  have hlast : lastCell m.heap.next m.heap.live c = some (w, l.length) := by
    have hlen := r.length_le List.mem_cons_self
    rw [hitems, List.length_cons] at hlen
    refine lastCell_linked (hitems ▸ r.levels.1.next) ?_ hlen
    rw [← hitems, hw, List.getLast?_append]
    rfl
  obtain ⟨h', hmodify, hlive, hnext, hkept, hsame⟩ := Heap.modify_next
    (r.levels.live w (mem_allItems_cons.mpr (Or.inl hwmem))) (some a)
  have hparent : h'.parent c = some (parentOf σ) := by
    rw [(hkept c).2]
    exact r.levels.1.parent c (by rw [hitems]; simp)
  obtain ⟨hnd, -, hapart⟩ := List.nodup_append.mp (allItems_cons v σ ▸ r.nodup)
  refine ⟨{ m with heap := h'.malloc a ⟨none, some w, none, parentOf σ⟩ }, ?_,
    r.concat hfresh (congrArg (· + 1) hlive) ?_ fun b hb => ?_⟩
  · simp only [listAddLast, hlast, Option.bind_eq_bind, Option.bind_some, hmodify, hparent]
  · rw [hw]
    refine Listed.concat (hw ▸ r.levels.1) (hw ▸ hnd) ?_ hnext hkept hsame rfl
    exact fun ha => hfresh (mem_allItems_cons.mpr (Or.inl (hw ▸ ha)))
  · exact (hsame b fun heq => hapart w hwmem b hb heq.symm).malloc
      (fun heq : b = a => hfresh (mem_allItems_cons.mpr (Or.inr (heq ▸ hb)))) _

theorem listAdd_rep (r : Rep k m) (hfresh : m.heap.item a = none) :
    ∃ m', listAdd a m = some m' ∧ Rep (k.step (.listAdd a)) m' := by
  have ha := r.fresh hfresh
  obtain ⟨levels, createNew⟩ := k
  cases levels with
  | nil => exact listAdd_first r
  | cons v σ =>
    obtain ⟨c, -, -, hcurr⟩ := r.curr_some
    obtain ⟨b, -, hb⟩ := bottom_mem (List.cons_ne_nil v σ)
    rw [listAdd, show m.liRoot = some b from r.root.trans hb, hcurr]
    have hnew := r.createNew
    cases createNew with
    | true =>
      simp only [show m.liCreateNew = true from hnew, if_true]
      exact listAddNew_rep r ha hcurr
    | false =>
      simp only [show m.liCreateNew = false from hnew, Bool.false_eq_true, if_false]
      exact listAddLast_rep r ha hcurr

theorem listOut_pop {w : Level} (r : Rep ⟨w :: v :: σ, false⟩ m) :
    ∃ m', listOut m = some (0, m') ∧ Rep ⟨v :: σ, false⟩ m' := by
  obtain ⟨hnd, hnd', hapart⟩ := List.nodup_append.mp (allItems_cons w (v :: σ) ▸ r.nodup)
  -- the list left is not the one at the bottom
  have hother : ¬ (m.liCurrRoot = none ∨ m.liCurrRoot = m.liRoot) := by
    obtain ⟨c, l, hc, hcurr⟩ := r.curr_some
    obtain ⟨b, hmem, hb⟩ := bottom_mem (List.cons_ne_nil v σ)
    have hroot : m.liRoot = some b := by
      rw [r.root, ← hb]
      exact congrArg (Option.bind · _) List.getLast?_cons_cons
    rw [hcurr, hroot]
    rintro (h | h)
    · exact absurd h (by simp)
    · exact hapart c (by rw [hc]; simp) b hmem (Option.some.inj h)
  obtain ⟨h', hempty, hlive, hkept⟩ := listEmpty_linked m.heap.live r.levels.1.next hnd
    (r.length_le List.mem_cons_self)
  have hparent : m.heap.parent w.cur = some (some v.cur) := r.levels.1.parent w.cur w.cur_mem
  have hroot := findRoot_eq r.levels.2.1 (r.length_le (by simp : v ∈ w :: v :: σ))
  refine ⟨{ m with heap := h', liCurrRoot := v.items.head?, liSelected := v.before.length }, ?_, ?_⟩
  · rw [listOut, if_neg (by rw [r.createNew]; exact Bool.false_ne_true), if_neg hother,
      r.getSelected]
    simp only [Option.bind_some, Option.bind_eq_bind, hparent, hroot, r.curr_items, hempty]
  · refine ⟨r.levels.2.congr fun a ha => ?_, hnd', ?_, ?_, rfl, rfl, r.createNew⟩
    · exact SameLinks.of_item (hkept a fun hw => hapart a hw a ha rfl)
    · show h'.live = (allItems (v :: σ)).length
      have hlen : m.heap.live = (allItems (w :: v :: σ)).length := r.live
      rw [hlive, hlen, allItems_cons, List.length_append, Nat.add_sub_cancel_left]
    · exact r.root.trans (congrArg (Option.bind · _) List.getLast?_cons_cons)

theorem listOut_rep (r : Rep k m) :
    ∃ m', step m .listOut = some m' ∧ Rep (k.step .listOut) m' := by
  obtain ⟨levels, createNew⟩ := k
  have hnew := r.createNew
  cases createNew with
  | true =>
    refine ⟨{ m with liCreateNew := false }, ?_, ?_⟩
    · rw [step, listOut, if_pos hnew]
      rfl
    · exact ⟨r.levels, r.nodup, r.live, r.root, r.curr, r.selected, rfl⟩
  | false =>
    have hstay : m.liCurrRoot = none ∨ m.liCurrRoot = m.liRoot →
        step m .listOut = some m := by
      intro h
      rw [step, listOut, if_neg (by rw [hnew]; exact Bool.false_ne_true), if_pos h]
      rfl
    rcases levels with _ | ⟨w, _ | ⟨v, σ⟩⟩
    · exact ⟨m, hstay (Or.inl r.curr), r⟩
    · exact ⟨m, hstay (Or.inr (r.curr.trans r.root.symm)), r⟩
    · obtain ⟨m', hout, r'⟩ := listOut_pop r
      exact ⟨m', by rw [step, hout]; rfl, r'⟩

/-- **Each call does on the menu what it does on the stack.** -/
theorem step_rep (r : Rep k m) (c : Call) (hfresh : c.Fresh m) :
    ∃ m', step m c = some m' ∧ Rep (k.step c) m' := by
  cases c with
  | listAdd a => exact listAdd_rep r hfresh
  | listIn =>
    exact ⟨listIn m, rfl, r.levels, r.nodup, r.live, r.root, r.curr, r.selected, rfl⟩
  | listOut => exact listOut_rep r
  | listUp => exact listMove_rep r fun _ _ hv => hv.up
  | listDown => exact listMove_rep r fun _ _ hv => hv.down

theorem run_rep : ∀ (calls : List Call) {k : Stack} {m : Menu}, Rep k m → Fresh m calls →
    ∃ m', run m calls = some m' ∧ Rep (calls.foldl Stack.step k) m' := by
  intro calls
  induction calls with
  | nil => intro k m r _; exact ⟨m, rfl, r⟩
  | cons c calls ih =>
    intro k m r hfresh
    obtain ⟨m', hstep, r'⟩ := step_rep r c hfresh.1
    obtain ⟨m'', hrun, r''⟩ := ih r' (hfresh.2 m' hstep)
    refine ⟨m'', ?_, r''⟩
    rw [run, List.foldlM_cons, hstep]
    exact hrun

end

/-! ### Navigation -/

/-- The items of the current list. -/
def currentItems (m : Menu) : Option (List Addr) :=
  cellsFrom m.heap.next m.heap.live m.liCurrRoot

/-- The selection is in the current list, its head has no predecessor and its items have one
parent. -/
def Navigable (m : Menu) : Prop :=
  ∀ head, m.liCurrRoot = some head → ∃ items parent,
    currentItems m = some items ∧ items.head? = some head ∧
    0 ≤ m.liSelected ∧ m.liSelected < items.length ∧
    m.heap.prev head = some none ∧ ∀ a ∈ items, m.heap.parent a = some parent

/-- The same items are linked in the same way, and the same one is selected. -/
structure SameList (m m' : Menu) : Prop where
  curr : m'.liCurrRoot = m.liCurrRoot
  selected : m'.liSelected = m.liSelected
  getSelected : listGetSelected m' = listGetSelected m
  items : currentItems m' = currentItems m
  links : ∀ items, currentItems m = some items → ∀ a ∈ items, SameLinks m.heap m'.heap a

section

variable {k : Stack} {m m' : Menu}

theorem Rep.items (r : Rep ⟨v :: σ, createNew⟩ m) : currentItems m = some v.items := by
  rw [currentItems, r.curr_items]
  exact cellsFrom_linked r.levels.1.next (r.length_le List.mem_cons_self)

theorem Rep.navigable (r : Rep k m) : Navigable m := by
  intro head hhead
  obtain ⟨levels, createNew⟩ := k
  cases levels with
  | nil => exact absurd (r.curr.symm.trans hhead) (by simp)
  | cons v σ =>
    have hitems : v.items.head? = some head := r.curr_items.symm.trans hhead
    refine ⟨v.items, parentOf σ, r.items, hitems, ?_, ?_, ?_, r.levels.1.parent⟩
    · rw [r.selected]
      exact Int.natCast_nonneg _
    · have hlen : v.items.length = v.before.length + (v.after.length + 1) := by
        simp [Level.items]
      rw [r.selected]
      show (v.before.length : Int) < _
      omega
    · obtain ⟨l, hl⟩ := List.head?_eq_some_iff.mp hitems
      have hprev := r.levels.1.prev
      rw [hl, List.reverse_cons] at hprev
      exact (linked_cons.mp hprev.of_append).1

theorem Rep.same {createNew' : Bool} (r : Rep ⟨v :: σ, createNew⟩ m)
    (r' : Rep ⟨v :: σ, createNew'⟩ m') : SameList m m' where
  curr := r'.curr.trans r.curr.symm
  selected := r'.selected.trans r.selected.symm
  getSelected := r'.getSelected.trans r.getSelected.symm
  items := r'.items.trans r.items.symm
  links := by
    intro items hitems a ha
    obtain rfl : v.items = items := Option.some.inj (r.items.symm.trans hitems)
    refine ⟨?_, ?_, ?_⟩
    · exact links_agree _ r'.levels.1.next r.levels.1.next a ha
    · exact links_agree _ r'.levels.1.prev r.levels.1.prev a (List.mem_reverse.mpr ha)
    · rw [r'.levels.1.parent a ha, r.levels.1.parent a ha]

end

/-- **Navigation.**  Whatever is called after `LIST_init`, no call goes through `NULL` or an item
that is not there, and the selection is in the current list.  Where there is a current list,
opening a list on the selected item and leaving it again comes back to the same list and the
same item. -/
theorem navigation_returns (calls : List Call) (hfresh : Fresh listInit calls) :
    ∃ m, run listInit calls = some m ∧ Navigable m ∧
      ∀ group, Group group → Fresh m group → m.liCurrRoot ≠ none →
        ∃ m', run m group = some m' ∧ SameList m m' := by
  obtain ⟨m, hrun, r⟩ := run_rep calls rep_init hfresh
  refine ⟨m, hrun, r.navigable, fun group hgroup hfresh hcurr => ?_⟩
  obtain ⟨m', hrun', r'⟩ := run_rep group r hfresh
  generalize calls.foldl Stack.step ⟨[], false⟩ = k at r r'
  obtain ⟨levels, createNew⟩ := k
  cases levels with
  | nil => exact absurd r.curr hcurr
  | cons v σ =>
    rw [group_returns hgroup _ (List.cons_ne_nil v σ)] at r'
    exact ⟨m', hrun', r.same r'⟩

/-! ### A walk through a menu -/

instance decidableCallFresh (m : Menu) : ∀ c : Call, Decidable (c.Fresh m)
  | .listAdd a => inferInstanceAs (Decidable (m.heap.item a = none))
  | .listIn => isTrue trivial
  | .listOut => isTrue trivial
  | .listUp => isTrue trivial
  | .listDown => isTrue trivial

instance decidableFresh : ∀ (m : Menu) (calls : List Call), Decidable (Fresh m calls)
  | _, [] => isTrue trivial
  | m, c :: calls =>
    have := fun m' => decidableFresh m' calls
    inferInstanceAs (Decidable (c.Fresh m ∧ ∀ m' ∈ step m c, Fresh m' calls))

/-- The second item of two is opened; in its list one more list is opened and left, and the
selection moves.  The addresses of the items freed are used again. -/
theorem navigation_returns_visit :
    Fresh listInit [.listAdd 1, .listAdd 2, .listDown] ∧
    ∃ m, run listInit [.listAdd 1, .listAdd 2, .listDown] = some m ∧ Navigable m ∧
      ∃ m', run m [.listIn, .listUp, .listAdd 3, .listIn, .listAdd 4, .listAdd 5, .listOut,
        .listAdd 4, .listDown, .listOut] = some m' ∧ SameList m m' := by
  refine ⟨by decide, ?_⟩
  obtain ⟨m, hrun, hnav, hgroup⟩ :=
    navigation_returns [.listAdd 1, .listAdd 2, .listDown] (by decide)
  have hopen : ∀ m ∈ run listInit [.listAdd 1, .listAdd 2, .listDown],
      Fresh m [.listIn, .listUp, .listAdd 3, .listIn, .listAdd 4, .listAdd 5, .listOut,
        .listAdd 4, .listDown, .listOut] ∧ m.liCurrRoot ≠ none := by
    decide
  refine ⟨m, hrun, hnav, hgroup _ ?_ (hopen m hrun).1 (hopen m hrun).2⟩
  refine ⟨[.listUp], 3, [.listIn, .listAdd 4, .listAdd 5, .listOut, .listAdd 4, .listDown],
    ?_, ?_, rfl⟩
  · intro c hc
    exact Or.inl (List.mem_singleton.mp hc)
  · have hidle : Moves [] := fun c hc => absurd hc List.not_mem_nil
    exact .group 4 hidle (.add 5 .nil) (.add 4 (.down .nil))

end Dingoo.ItemList
