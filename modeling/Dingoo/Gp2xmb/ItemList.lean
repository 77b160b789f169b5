/-
The item list of the menu, `gp2xmb/src/itemlist.c`.

The items of a list are linked both ways.  A list that is opened on a selected item gets
that item as the parent of all its items; the list behind it is found again over that
pointer.  `li_curr_root` is the head of the list shown and `li_selected` the index in it.

Items live on a heap.  Reading or writing an item that is not there has no result, as has
going through `NULL`.  `malloc` succeeds; the address it returns is an argument of
`LIST_add`.  Icons, texts, flags and `extra` of the items and the animation (`li_stage`,
`li_animtimer`) are left out.
-/
import Mathlib.Algebra.Group.Nat.Defs
import Dingoo.Lib.Cells

namespace Dingoo.ItemList

open Dingoo.Lib

/-! ### The heap -/

abbrev Addr := Nat

/-- The links of a `struct listitem`; `none` is `NULL`. -/
structure Item where
  next : Option Addr
  prev : Option Addr
  root : Option Addr
  parent : Option Addr
deriving DecidableEq, Repr

structure Heap where
  item : Addr → Option Item
  /-- the number of items there are, which no loop along them exceeds -/
  live : Nat

namespace Heap

variable (h : Heap)

def next (a : Addr) : Option (Option Addr) := (h.item a).map Item.next

def prev (a : Addr) : Option (Option Addr) := (h.item a).map Item.prev

def parent (a : Addr) : Option (Option Addr) := (h.item a).map Item.parent

/-- An item is written. -/
def modify (a : Addr) (f : Item → Item) : Option Heap :=
  (h.item a).map fun it => { h with item := Function.update h.item a (some (f it)) }

/-- `malloc` returned `a`, and the item there is filled in. -/
def malloc (a : Addr) (it : Item) : Heap :=
  { item := Function.update h.item a (some it), live := h.live + 1 }

def free (a : Addr) : Heap :=
  { item := Function.update h.item a none, live := h.live - 1 }

end Heap

/-! ### The list -/

structure Menu where
  heap : Heap
  liRoot : Option Addr
  liCurrRoot : Option Addr
  liSelected : Int
  liCreateNew : Bool

def listInit : Menu where
  heap := { item := fun _ => none, live := 0 }
  liRoot := none
  liCurrRoot := none
  liSelected := 0
  liCreateNew := false

def listGetSelected (m : Menu) : Option (Option Addr) :=
  follow m.heap.next m.liSelected.toNat m.liCurrRoot

/-- The second branch of `LIST_add`: a list of its own for the selected item. -/
def listAddNew (a curr : Addr) (m : Menu) : Option Menu := do
  let heap ← m.heap.modify curr fun it => { it with root := some a }
  let heap := heap.malloc a ⟨none, none, none, none⟩
  let selected ← listGetSelected { m with heap := heap }
  let heap ← heap.modify a fun it => { it with parent := selected }
  some { m with heap := heap, liCurrRoot := some a, liCreateNew := false, liSelected := 0 }

/-- The third branch of `LIST_add`: one more item in the current list. -/
def listAddLast (a curr : Addr) (m : Menu) : Option Menu := do
  let (walker, _) ← lastCell m.heap.next m.heap.live curr
  let heap ← m.heap.modify walker fun it => { it with next := some a }
  let parent ← heap.parent curr
  some { m with heap := heap.malloc a ⟨none, some walker, none, parent⟩ }

def listAdd (a : Addr) (m : Menu) : Option Menu :=
  match m.liRoot, m.liCurrRoot with
  | none, _ =>
    some { m with
      heap := m.heap.malloc a ⟨none, none, none, none⟩
      liRoot := some a
      liCurrRoot := some a }
  | some _, some curr => if m.liCreateNew then listAddNew a curr m else listAddLast a curr m
  -- `curr` is still `NULL` when its fields are set
  | some _, none => none

/-- `LIST_empty`, for at most `fuel` items. -/
def listEmpty : Nat → Option Addr → Heap → Option Heap
  | _, none, h => some h
  | 0, some _, _ => none
  | fuel + 1, some c, h => (h.next c).bind fun tmp => listEmpty fuel tmp (h.free c)

def listIn (m : Menu) : Menu := { m with liCreateNew := true }

/-- The head of the list an item is in, and the index of the item. -/
def findRoot (h : Heap) : Option Addr → Option (Option Addr × Nat)
  | none => some (none, 0)
  | some a => (lastCell h.prev h.live a).map fun r => (some r.1, r.2)

/-- `LIST_out`: the value returned, and the menu. -/
def listOut (m : Menu) : Option (Nat × Menu) :=
  if m.liCreateNew then some (0, { m with liCreateNew := false })
  else if m.liCurrRoot = none ∨ m.liCurrRoot = m.liRoot then some (1, m)
  else
    (listGetSelected m).bind fun selected =>
      match selected with
      | none => some (1, m)
      | some sel => do
          let parent ← m.heap.parent sel
          let (tmpRoot, count) ← findRoot m.heap parent
          let heap ← listEmpty m.heap.live m.liCurrRoot m.heap
          some (0, { m with heap := heap, liCurrRoot := tmpRoot, liSelected := count })

/-- `LIST_up` and `LIST_down`: the selection moves along a link that is not `NULL`. -/
def listMove (link : Heap → Addr → Option (Option Addr)) (d : Int) (m : Menu) :
    Option (Nat × Menu) :=
  match m.liCurrRoot with
  | none => some (0, m)
  | some _ => do
      let selected ← listGetSelected m
      let dest ← selected.bind (link m.heap)
      if dest ≠ none ∧ m.liCreateNew = false then
        some (1, { m with liSelected := m.liSelected + d })
      else some (0, m)

def listUp (m : Menu) : Option (Nat × Menu) := listMove Heap.prev (-1) m

def listDown (m : Menu) : Option (Nat × Menu) := listMove Heap.next 1 m

/-! ### Runs -/

inductive Call where
  | listAdd (a : Addr)
  | listIn
  | listOut
  | listUp
  | listDown
deriving DecidableEq, Repr

def step (m : Menu) : Call → Option Menu
  | .listAdd a => listAdd a m
  | .listIn => some (listIn m)
  | .listOut => (listOut m).map Prod.snd
  | .listUp => (listUp m).map Prod.snd
  | .listDown => (listDown m).map Prod.snd

def run (m : Menu) (calls : List Call) : Option Menu := calls.foldlM step m

/-- `malloc` returns an address where there is no item. -/
def Call.Fresh (m : Menu) : Call → Prop
  | .listAdd a => m.heap.item a = none
  | _ => True

/-- All calls of a run are given fresh addresses. -/
def Fresh : Menu → List Call → Prop
  | _, [] => True
  | m, c :: calls => c.Fresh m ∧ ∀ m' ∈ step m c, Fresh m' calls

end Dingoo.ItemList
