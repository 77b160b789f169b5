/-
Programs that share a state and one lock.

A program reads and changes the shared state, waits until something holds of it, takes the lock
and gives it back.  `LockMachine` runs any number of calls of such programs, interleaved in any
order.  Taking the lock turns interrupts off and giving it back turns them on, as
`spin_lock_irq` and `spin_unlock_irq` do.

`wp` is the calculus for one program: it takes and gives back the lock only as it may, and what
it returns tells whether it still has the lock.  If all calls are such, then the lock is
held by a call that has finished exactly if one of them returned so (`Sound`), whatever
the order of steps.
-/
import Dingoo.Lib.Runs

namespace Dingoo.Lib

variable {Q : Unit → Bool → Prop} {i : Nat}

inductive LockProg (σ α : Type) : Type
  | ret (a : α)
  | lock (k : LockProg σ α)
  | unlock (k : LockProg σ α)
  | get (k : σ → LockProg σ α)
  | put (f : σ → σ) (k : LockProg σ α)
  | await (p : σ → Bool) (k : LockProg σ α)

namespace LockProg

variable {σ α β : Type}

def bind : LockProg σ α → (α → LockProg σ β) → LockProg σ β
  | .ret a, f => f a
  | .lock k, f => .lock (k.bind f)
  | .unlock k, f => .unlock (k.bind f)
  | .get k, f => .get fun s => (k s).bind f
  | .put g k, f => .put g (k.bind f)
  | .await p k, f => .await p (k.bind f)

instance instMonadLockProg : Monad (LockProg σ) where
  pure := .ret
  bind := bind

def takeLock : LockProg σ Unit := .lock (.ret ())
def dropLock : LockProg σ Unit := .unlock (.ret ())
def read : LockProg σ σ := .get .ret
def modify (f : σ → σ) : LockProg σ Unit := .put f (.ret ())
/-- A loop that does nothing until `p` holds. -/
def waitFor (p : σ → Bool) : LockProg σ Unit := .await p (.ret ())
/-- An `if` without an `else`. -/
def onlyIf (c : Bool) (p : LockProg σ Unit) : LockProg σ Unit := if c then p else .ret ()

/-! ### The calculus -/

/-- From having the lock or not, as `has` says, the program takes it only without having it and
gives it back only if it has it, and at its end `Q` holds of what it returns and of whether it
has the lock. -/
def wp (has : Bool) : LockProg σ α → (α → Bool → Prop) → Prop
  | .ret a, Q => Q a has
  | .lock k, Q => has = false ∧ wp true k Q
  | .unlock k, Q => has = true ∧ wp false k Q
  | .get k, Q => ∀ s, wp has (k s) Q
  | .put _ k, Q => wp has k Q
  | .await _ k, Q => wp has k Q

@[simp]
theorem wp_bind {f : α → LockProg σ β} {Q : β → Bool → Prop} :
    ∀ (p : LockProg σ α) (has : Bool),
      wp has (p >>= f) Q ↔ wp has p fun a c => wp c (f a) Q := by
  intro p
  induction p with
  | ret a => exact fun has => Iff.rfl
  | lock k ih => exact fun has => and_congr_right fun _ => ih true
  | unlock k ih => exact fun has => and_congr_right fun _ => ih false
  | get k ih => exact fun has => forall_congr' fun s => ih s has
  | put g k ih => exact ih
  | await p k ih => exact ih

section

variable {has : Bool}

@[simp]
theorem wp_pure {a : α} {Q : α → Bool → Prop} :
    wp has (pure a : LockProg σ α) Q ↔ Q a has := Iff.rfl

@[simp]
theorem wp_takeLock :
    wp has (takeLock : LockProg σ Unit) Q ↔ has = false ∧ Q () true := Iff.rfl

@[simp]
theorem wp_dropLock :
    wp has (dropLock : LockProg σ Unit) Q ↔ has = true ∧ Q () false := Iff.rfl

@[simp]
theorem wp_read {Q : σ → Bool → Prop} : wp has (read : LockProg σ σ) Q ↔ ∀ s, Q s has := Iff.rfl

@[simp]
theorem wp_modify {f : σ → σ} : wp has (modify f) Q ↔ Q () has := Iff.rfl

@[simp]
theorem wp_waitFor {p : σ → Bool} :
    wp has (waitFor p) Q ↔ Q () has := Iff.rfl

theorem wp_onlyIf {c : Bool} {p : LockProg σ Unit} (hthen : wp has p Q) (helse : Q () has) :
    wp has (onlyIf c p) Q := by
  cases c with
  | false => exact helse
  | true => exact hthen

end

theorem wp_mono {Q Q' : α → Bool → Prop} (hQ : ∀ a has, Q a has → Q' a has) :
    ∀ {p : LockProg σ α} {has : Bool}, wp has p Q → wp has p Q' := by
  intro p
  induction p with
  | ret a => exact fun h => hQ a _ h
  | lock k ih => exact fun h => ⟨h.1, ih h.2⟩
  | unlock k ih => exact fun h => ⟨h.1, ih h.2⟩
  | get k ih => exact fun h s => ih s (h s)
  | put f k ih => exact fun h => ih h
  | await p k ih => exact fun h => ih h

/-- Whatever the program returns, `R` holds of it. -/
def Returns (R : α → Prop) : LockProg σ α → Prop
  | .ret a => R a
  | .lock k | .unlock k | .put _ k | .await _ k => k.Returns R
  | .get k => ∀ s, (k s).Returns R

theorem Returns.of_wp {R : α → Prop} {Q : α → Bool → Prop} (hQ : ∀ a has, Q a has → R a) :
    ∀ {p : LockProg σ α} {has : Bool}, wp has p Q → p.Returns R := by
  intro p
  induction p with
  | ret a => exact fun h => hQ a _ h
  | lock k ih => exact fun h => ih h.2
  | unlock k ih => exact fun h => ih h.2
  | get k ih => exact fun h s => ih s (h s)
  | put f k ih => exact fun h => ih h
  | await p k ih => exact fun h => ih h

end LockProg

/-! ### Calls that run together -/

/-- The shared state, the call that took the lock, whether interrupts are on, what is left of each
call that is running, the number of calls begun, and what calls returned. -/
structure LockMachine (σ α : Type) where
  data : σ
  holder : Option Nat
  irqs : Bool
  calls : Nat → Option (LockProg σ α)
  next : Nat
  results : List α

/-- A call begins, a call makes a step, or the state is changed from outside. -/
inductive LockAction (σ α : Type) : Type
  | begin (p : LockProg σ α)
  | step (i : Nat)
  | change (f : σ → σ)

namespace LockMachine

variable {σ α : Type}

def setCall (m : LockMachine σ α) (i : Nat) (p : Option (LockProg σ α)) : LockMachine σ α :=
  { m with calls := fun j => if j = i then p else m.calls j }

/-- Call `i` makes the first step of its program.  It stays where it is while the lock is held,
or while what it waits for does not hold. -/
def stepCall (m : LockMachine σ α) (i : Nat) : LockProg σ α → LockMachine σ α
  | .ret a => { m.setCall i none with results := a :: m.results }
  | .lock k =>
    if m.holder = none then { m.setCall i (some k) with holder := some i, irqs := false } else m
  | .unlock k => { m.setCall i (some k) with holder := none, irqs := true }
  | .get k => m.setCall i (some (k m.data))
  | .put f k => { m.setCall i (some k) with data := f m.data }
  | .await p k => if p m.data then m.setCall i (some k) else m

def act (m : LockMachine σ α) : LockAction σ α → LockMachine σ α
  | .begin p => { m.setCall m.next (some p) with next := m.next + 1 }
  | .step i => (m.calls i).elim m (m.stepCall i)
  | .change f => { m with data := f m.data }

/-- No call is running. -/
def Quiet (m : LockMachine σ α) : Prop := ∀ i, m.calls i = none

/-- The lock is held from a call that has finished. -/
def HeldByFinished (m : LockMachine σ α) : Prop := ∃ i, m.holder = some i ∧ m.calls i = none

/-- The action is an attempt to take the lock. -/
def TriesLock (m : LockMachine σ α) (a : LockAction σ α) : Prop :=
  ∃ i k, a = .step i ∧ m.calls i = some (.lock k)

/-- Whenever no call is running, the lock is free and interrupts are on, and no call tries to take
the lock while it is held from a finished call. -/
def Discipline (m : LockMachine σ α) (sched : List (LockAction σ α)) : Prop :=
  (∀ pre, pre <+: sched → (pre.foldl act m).Quiet →
    (pre.foldl act m).holder = none ∧ (pre.foldl act m).irqs = true) ∧
  EachStep act (fun m a => m.TriesLock a → ¬ m.HeldByFinished) m sched

/-! ### The invariant -/

/-- Of the results, `leaves` tells those with which a call keeps the lock. -/
structure Sound (leaves : α → Bool) (m : LockMachine σ α) : Prop where
  calls : ∀ i p, m.calls i = some p →
    p.wp (decide (m.holder = some i)) fun a has => has = leaves a
  fresh : ∀ i, m.next ≤ i → m.calls i = none
  holder : ∀ i, m.holder = some i → i < m.next
  irqs : m.irqs = m.holder.isNone
  left : m.HeldByFinished ↔ ∃ a ∈ m.results, leaves a = true

section

variable {leaves : α → Bool} {m : LockMachine σ α}

theorem setCall_self (m : LockMachine σ α) (i : Nat) (p : Option (LockProg σ α)) :
    (m.setCall i p).calls i = p := if_pos rfl

theorem setCall_of_ne {j : Nat} (h : j ≠ i) (p : Option (LockProg σ α)) :
    (m.setCall i p).calls j = m.calls j := if_neg h

theorem setCall_cases {j : Nat} {p : Option (LockProg σ α)} {q : LockProg σ α}
    (h : (m.setCall i p).calls j = some q) :
    (j = i ∧ p = some q) ∨ (j ≠ i ∧ m.calls j = some q) := by
  by_cases hji : j = i
  · subst hji
    exact Or.inl ⟨rfl, (setCall_self m j p).symm.trans h⟩
  · exact Or.inr ⟨hji, (setCall_of_ne hji p).symm.trans h⟩

theorem not_heldByFinished_of_running {p : LockProg σ α} (hi : m.calls i = some p)
    (hholder : m.holder = some i) : ¬ m.HeldByFinished := by
  rintro ⟨j, hj, hnone⟩
  rw [hholder] at hj
  obtain rfl := Option.some.inj hj
  rw [hi] at hnone
  cases hnone

section
variable (h : Sound leaves m)
include h

theorem Sound.lt_next {p : LockProg σ α} (hi : m.calls i = some p) : i < m.next := by
  by_contra hge
  rw [h.fresh i (Nat.le_of_not_lt hge)] at hi
  cases hi

theorem Sound.fresh_setCall {p : LockProg σ α} (hi : m.calls i = some p)
    (q : Option (LockProg σ α)) : ∀ j, m.next ≤ j → (m.setCall i q).calls j = none := by
  intro j hj
  have hlt := h.lt_next hi
  rw [setCall_of_ne (by omega)]
  exact h.fresh j hj

theorem Sound.setRunning {p k : LockProg σ α} (hi : m.calls i = some p)
    (hk : k.wp (decide (m.holder = some i)) fun a has => has = leaves a) :
    Sound leaves (m.setCall i (some k)) where
  calls := fun j q hj => by
    rcases setCall_cases hj with ⟨rfl, hq⟩ | ⟨-, hq⟩
    · cases hq
      exact hk
    · exact h.calls j q hq
  fresh := h.fresh_setCall hi _
  holder := h.holder
  irqs := h.irqs
  left := by
    refine Iff.trans ⟨?_, ?_⟩ h.left
    · rintro ⟨j, hj, hnone⟩
      refine ⟨j, hj, ?_⟩
      by_cases hji : j = i
      · subst hji
        rw [setCall_self] at hnone
        cases hnone
      · rwa [setCall_of_ne hji] at hnone
    · rintro ⟨j, hj, hnone⟩
      refine ⟨j, hj, ?_⟩
      rw [setCall_of_ne]
      · exact hnone
      · rintro rfl
        rw [hi] at hnone
        cases hnone

theorem Sound.setData (d : σ) : Sound leaves { m with data := d } :=
  ⟨h.calls, h.fresh, h.holder, h.irqs, h.left⟩

theorem Sound.lock {k : LockProg σ α} (hi : m.calls i = some (.lock k)) (hfree : m.holder = none) :
    Sound leaves { m.setCall i (some k) with holder := some i, irqs := false } where
  calls := fun j q hj => by
    rcases setCall_cases hj with ⟨rfl, hq⟩ | ⟨hji, hq⟩
    · cases hq
      rw [decide_eq_true rfl]
      exact (h.calls j _ hi).2
    · have hold := h.calls j q hq
      rw [hfree] at hold
      rw [decide_eq_false fun heq => hji (Option.some.inj heq).symm]
      exact hold
  fresh := h.fresh_setCall hi _
  holder := fun j hj => by
    rw [← Option.some.inj hj]
    exact h.lt_next hi
  irqs := rfl
  left := by
    have hnone : ¬ m.HeldByFinished := by
      rintro ⟨j, hj, -⟩
      rw [hfree] at hj
      cases hj
    refine ⟨fun hheld => absurd hheld ?_, fun hleft => absurd (h.left.mpr hleft) hnone⟩
    exact not_heldByFinished_of_running (setCall_self m i _) rfl

theorem Sound.unlock {k : LockProg σ α} (hi : m.calls i = some (.unlock k)) :
    Sound leaves { m.setCall i (some k) with holder := none, irqs := true } where
  calls := fun j q hj => by
    have hhas : m.holder = some i := of_decide_eq_true (h.calls i _ hi).1
    rcases setCall_cases hj with ⟨rfl, hq⟩ | ⟨hji, hq⟩
    · cases hq
      exact (h.calls j _ hi).2
    · have hold := h.calls j q hq
      rw [hhas, decide_eq_false fun heq => hji (Option.some.inj heq).symm] at hold
      exact hold
  fresh := h.fresh_setCall hi _
  holder := fun j hj => by cases hj
  irqs := rfl
  left := by
    have hhas : m.holder = some i := of_decide_eq_true (h.calls i _ hi).1
    refine ⟨?_, fun hleft => ?_⟩
    · rintro ⟨j, hj, -⟩
      cases hj
    · exact absurd (h.left.mpr hleft) (not_heldByFinished_of_running hi hhas)

theorem Sound.ret {a : α} (hi : m.calls i = some (.ret a)) :
    Sound leaves { m.setCall i none with results := a :: m.results } where
  calls := fun j q hj => by
    rcases setCall_cases hj with ⟨-, hq⟩ | ⟨-, hq⟩
    · cases hq
    · exact h.calls j q hq
  fresh := h.fresh_setCall hi _
  holder := h.holder
  irqs := h.irqs
  left := by
    -- the call that returns keeps the lock exactly if its result says so
    have hresult : decide (m.holder = some i) = leaves a := h.calls i _ hi
    constructor
    · rintro ⟨j, hj, hnone⟩
      by_cases hji : j = i
      · subst hji
        exact ⟨a, List.mem_cons_self, by rw [← hresult]; exact decide_eq_true hj⟩
      · obtain ⟨b, hb, hleaves⟩ := h.left.mp ⟨j, hj, (setCall_of_ne hji none).symm.trans hnone⟩
        exact ⟨b, List.mem_cons_of_mem a hb, hleaves⟩
    · rintro ⟨b, hb, hleaves⟩
      rcases List.mem_cons.mp hb with rfl | hold
      · rw [hleaves] at hresult
        exact ⟨i, of_decide_eq_true hresult, setCall_self m i none⟩
      · obtain ⟨j, hj, hnone⟩ := h.left.mpr ⟨b, hold, hleaves⟩
        have hji : j ≠ i := by
          rintro rfl
          rw [hi] at hnone
          cases hnone
        exact ⟨j, hj, (setCall_of_ne hji none).trans hnone⟩

theorem Sound.stepCall {p : LockProg σ α} (hi : m.calls i = some p) :
    Sound leaves (m.stepCall i p) := by
  have hp := h.calls i p hi
  cases p with
  | ret a => exact h.ret hi
  | lock k =>
    rw [LockMachine.stepCall]
    by_cases hfree : m.holder = none
    · rw [if_pos hfree]
      exact h.lock hi hfree
    · rw [if_neg hfree]
      exact h
  | unlock k => exact h.unlock hi
  | get k => exact h.setRunning hi (hp m.data)
  | put f k => exact (h.setRunning (k := k) hi hp).setData (f m.data)
  | await q k =>
    rw [LockMachine.stepCall]
    by_cases hq : q m.data = true
    · rw [if_pos hq]
      exact h.setRunning hi hp
    · rw [if_neg hq]
      exact h

theorem Sound.begin {p : LockProg σ α} (hp : p.wp false fun a has => has = leaves a) :
    Sound leaves { m.setCall m.next (some p) with next := m.next + 1 } where
  calls := fun j q hj => by
    rcases setCall_cases hj with ⟨rfl, hq⟩ | ⟨-, hq⟩
    · cases hq
      have hnot : m.holder ≠ some m.next := fun heq => absurd (h.holder _ heq) (Nat.lt_irrefl _)
      change p.wp (decide (m.holder = some m.next)) _
      rw [decide_eq_false hnot]
      exact hp
    · exact h.calls j q hq
  fresh := fun j hj => by
    have hlt : m.next < j := hj
    exact (setCall_of_ne (Nat.ne_of_gt hlt) _).trans (h.fresh j (Nat.le_of_lt hlt))
  holder := fun j hj => Nat.lt_succ_of_lt (h.holder j hj)
  irqs := h.irqs
  left := by
    refine Iff.trans ⟨?_, ?_⟩ h.left
    · rintro ⟨j, hj, hnone⟩
      have hji : j ≠ m.next := Nat.ne_of_lt (h.holder j hj)
      exact ⟨j, hj, (setCall_of_ne hji _).symm.trans hnone⟩
    · rintro ⟨j, hj, hnone⟩
      have hji : j ≠ m.next := Nat.ne_of_lt (h.holder j hj)
      exact ⟨j, hj, (setCall_of_ne hji _).trans hnone⟩

end

/-- The programs that begin keep to the calculus. -/
def Proper (leaves : α → Bool) (a : LockAction σ α) : Prop :=
  ∀ p, a = .begin p → p.wp false fun r has => has = leaves r

theorem Sound.act (h : Sound leaves m) {a : LockAction σ α} (ha : Proper leaves a) :
    Sound leaves (m.act a) := by
  cases a with
  | begin p => exact h.begin (ha p rfl)
  | step i =>
    rw [LockMachine.act]
    cases hi : m.calls i with
    | none => exact h
    | some p => exact h.stepCall hi
  | change f => exact h.setData (f m.data)

theorem Sound.run {sched : List (LockAction σ α)} (h : Sound leaves m)
    (hsched : ∀ a ∈ sched, Proper leaves a) : Sound leaves (sched.foldl LockMachine.act m) := by
  induction sched generalizing m with
  | nil => exact h
  | cons a sched ih =>
    exact ih (h.act (hsched a List.mem_cons_self))
      fun b hb => hsched b (List.mem_cons_of_mem a hb)

/-! ### Results stay -/

theorem results_stepCall (m : LockMachine σ α) (i : Nat) (p : LockProg σ α) :
    ∀ a ∈ m.results, a ∈ (m.stepCall i p).results := by
  intro a ha
  cases p with
  | ret b => exact List.mem_cons_of_mem b ha
  | lock k =>
    rw [LockMachine.stepCall]
    split <;> exact ha
  | unlock k => exact ha
  | get k => exact ha
  | put f k => exact ha
  | await q k =>
    rw [LockMachine.stepCall]
    split <;> exact ha

theorem results_run : ∀ (sched : List (LockAction σ α)) (m : LockMachine σ α),
    ∀ a ∈ m.results, a ∈ (sched.foldl LockMachine.act m).results := by
  intro sched
  induction sched with
  | nil => exact fun m a ha => ha
  | cons b sched ih =>
    intro m a ha
    refine ih (m.act b) a ?_
    cases b with
    | begin p => exact ha
    | step i =>
      rw [LockMachine.act]
      cases hi : m.calls i with
      | none => exact ha
      | some p => exact results_stepCall m i p a ha
    | change f => exact ha

theorem calls_stepCall {j : Nat} (hij : i ≠ j) (q : LockProg σ α) :
    (m.stepCall j q).calls i = m.calls i ∧ (m.stepCall j q).next = m.next := by
  cases q with
  | lock k =>
    rw [stepCall]
    split
    · exact ⟨setCall_of_ne hij _, rfl⟩
    · exact ⟨rfl, rfl⟩
  | await c k =>
    rw [stepCall]
    split
    · exact ⟨setCall_of_ne hij _, rfl⟩
    · exact ⟨rfl, rfl⟩
  | _ => exact ⟨setCall_of_ne hij _, rfl⟩

theorem Sound.returned_of_quiet {a : α} : ∀ (sched : List (LockAction σ α)) {m : LockMachine σ α},
    Sound leaves m → (∀ b ∈ sched, Proper leaves b) → m.calls i = some (.ret a) →
    (sched.foldl LockMachine.act m).Quiet → a ∈ (sched.foldl LockMachine.act m).results := by
  intro sched
  induction sched with
  | nil =>
    intro m _ _ hi hquiet
    exact absurd ((hquiet i).symm.trans hi) (by simp)
  | cons b sched ih =>
    intro m h hsched hi hquiet
    have hnext := ih (h.act (hsched b List.mem_cons_self))
      fun b hb => hsched b (List.mem_cons_of_mem _ hb)
    cases b with
    | begin p =>
      exact hnext ((setCall_of_ne (Nat.ne_of_lt (h.lt_next hi)) _).trans hi) hquiet
    | step j =>
      by_cases hj : i = j
      · subst hj
        refine results_run sched _ a ?_
        rw [LockMachine.act, hi]
        exact List.mem_cons_self
      · refine hnext ?_ hquiet
        rw [LockMachine.act]
        cases hp : m.calls j with
        | none => exact hi
        | some p => exact (calls_stepCall hj p).1.trans hi
    | change f => exact hnext hi hquiet

/-! ### The discipline of whole runs -/

variable {sched : List (LockAction σ α)}

theorem Sound.free_of_quiet (h : Sound leaves m) (hquiet : m.Quiet) (hleft : ¬ m.HeldByFinished) :
    m.holder = none ∧ m.irqs = true := by
  have hfree : m.holder = none := by
    cases hholder : m.holder with
    | none => rfl
    | some i => exact absurd ⟨i, hholder, hquiet i⟩ hleft
  refine ⟨hfree, ?_⟩
  rw [h.irqs, hfree]
  rfl

theorem Sound.discipline (h : Sound leaves m) (hsched : ∀ a ∈ sched, Proper leaves a)
    (hnone : ∀ a ∈ (sched.foldl LockMachine.act m).results, leaves a = false) :
    Discipline m sched := by
  have hpoint : ∀ pre post, sched = pre ++ post →
      Sound leaves (pre.foldl LockMachine.act m) ∧
        ¬ (pre.foldl LockMachine.act m).HeldByFinished := by
    intro pre post hsplit
    have hsound : Sound leaves (pre.foldl LockMachine.act m) :=
      h.run fun a ha => hsched a (by rw [hsplit]; exact List.mem_append_left post ha)
    refine ⟨hsound, fun hheld => ?_⟩
    obtain ⟨a, ha, hleaves⟩ := hsound.left.mp hheld
    have hend := results_run post _ a ha
    rw [← List.foldl_append, ← hsplit] at hend
    rw [hnone a hend] at hleaves
    cases hleaves
  constructor
  · rintro pre ⟨post, hsplit⟩ hquiet
    obtain ⟨hsound, hleft⟩ := hpoint pre post hsplit.symm
    exact hsound.free_of_quiet hquiet hleft
  · exact fun pre a post hsplit _ => (hpoint pre (a :: post) hsplit).2

theorem Sound.not_discipline (h : Sound leaves m) (hsched : ∀ a ∈ sched, Proper leaves a)
    (hquiet : (sched.foldl LockMachine.act m).Quiet) {a : α}
    (ha : a ∈ (sched.foldl LockMachine.act m).results) (hleaves : leaves a = true) :
    ¬ Discipline m sched := by
  intro hdiscipline
  obtain ⟨i, hi, -⟩ := (h.run hsched).left.mpr ⟨a, ha, hleaves⟩
  rw [(hdiscipline.1 sched (List.prefix_refl sched) hquiet).1] at hi
  cases hi

end

end LockMachine

end Dingoo.Lib
