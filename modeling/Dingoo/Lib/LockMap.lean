/-
Programs that differ in what they make of the same result.

A program that uses some data only to compute what it returns is `p.map f`, where `p` does not
know that data.  Among whatever other calls it runs, it takes the same steps for every `f`: all
that depends on `f` is what is returned at its end (`run_map`).
-/
import Dingoo.Lib.LockProg

namespace Dingoo.Lib

variable {σ α β : Type} {j : Nat}

/-- The program, with `f` of its result. -/
def LockProg.map (f : β → α) (p : LockProg σ β) : LockProg σ α := p.bind fun x => .ret (f x)

namespace LockMachine

variable {m : LockMachine σ α} {i : Nat}

theorem setCall_setCall (m : LockMachine σ α) (i : Nat) (p q : Option (LockProg σ α)) :
    (m.setCall i p).setCall i q = m.setCall i q := by
  have hcalls : ((m.setCall i p).setCall i q).calls = (m.setCall i q).calls := by
    funext j
    by_cases hj : j = i
    · rw [hj, setCall_self, setCall_self]
    · rw [setCall_of_ne hj, setCall_of_ne hj, setCall_of_ne hj]
  exact congrArg (fun calls => { m with calls := calls }) hcalls

theorem setCall_comm (hij : i ≠ j) (p q : Option (LockProg σ α)) :
    (m.setCall i p).setCall j q = (m.setCall j q).setCall i p := by
  have hcalls : ((m.setCall i p).setCall j q).calls = ((m.setCall j q).setCall i p).calls := by
    funext k
    by_cases hk : k = i
    · rw [hk, setCall_self, setCall_of_ne hij, setCall_self]
    · rw [setCall_of_ne hk]
      by_cases hkj : k = j
      · rw [hkj, setCall_self, setCall_self]
      · rw [setCall_of_ne hkj, setCall_of_ne hkj, setCall_of_ne hk]
  exact congrArg (fun calls => { m with calls := calls }) hcalls

/-- Call `i` has begun and is not running. -/
structure Lacks (i : Nat) (m : LockMachine σ α) : Prop where
  ended : m.calls i = none
  begun : i < m.next

theorem stepCall_setCall (hij : i ≠ j) (p : Option (LockProg σ α)) (q : LockProg σ α) :
    (m.setCall i p).stepCall j q = (m.stepCall j q).setCall i p := by
  have hcomm := fun r => setCall_comm (m := m) hij p r
  cases q with
  | ret a => exact congrArg (fun t => { t with results := a :: m.results }) (hcomm none)
  | lock k =>
    rw [stepCall, stepCall, show (m.setCall i p).holder = m.holder from rfl]
    split
    · exact congrArg (fun t => { t with holder := some j, irqs := false }) (hcomm (some k))
    · rfl
  | unlock k => exact congrArg (fun t => { t with holder := none, irqs := true }) (hcomm (some k))
  | get k => exact hcomm (some (k m.data))
  | put f k => exact congrArg (fun t => { t with data := f m.data }) (hcomm (some k))
  | await c k =>
    rw [stepCall, stepCall, show (m.setCall i p).data = m.data from rfl]
    split
    · exact hcomm (some k)
    · rfl

theorem Lacks.act_setCall (h : Lacks i m) {a : LockAction σ α} (ha : a ≠ .step i)
    (p : Option (LockProg σ α)) : (m.setCall i p).act a = (m.act a).setCall i p := by
  cases a with
  | begin q =>
    exact congrArg (fun t => { t with next := m.next + 1 })
      (setCall_comm (Nat.ne_of_lt h.begun) p (some q))
  | step j =>
    have hij : i ≠ j := fun hij => ha (by rw [hij])
    rw [act, act, setCall_of_ne hij.symm]
    cases m.calls j with
    | none => rfl
    | some q => exact stepCall_setCall hij p q
  | change f => rfl

theorem Lacks.act (h : Lacks i m) (a : LockAction σ α) : Lacks i (m.act a) := by
  cases a with
  | begin q =>
    exact ⟨(setCall_of_ne (Nat.ne_of_lt h.begun) _).trans h.ended, Nat.lt_succ_of_lt h.begun⟩
  | step j =>
    rw [LockMachine.act]
    cases hj : m.calls j with
    | none => exact h
    | some q =>
      have hij : i ≠ j := by
        rintro rfl
        rw [h.ended] at hj
        cases hj
      obtain ⟨hcalls, hnext⟩ := calls_stepCall (m := m) hij q
      exact ⟨hcalls.trans h.ended, by rw [Option.elim, hnext]; exact h.begun⟩
  | change f => exact ⟨h.ended, h.begun⟩

theorem Lacks.run (h : Lacks i m) (sched : List (LockAction σ α)) :
    Lacks i (sched.foldl LockMachine.act m) :=
  List.foldlRecOn sched _ h fun _ hm a _ => hm.act a

theorem act_results (m : LockMachine σ α) (a : LockAction σ α) (t : List α) :
    ({ m with results := m.results ++ t } : LockMachine σ α).act a =
      { m.act a with results := (m.act a).results ++ t } := by
  cases a with
  | begin q => rfl
  | step j =>
    rw [act, act]
    cases m.calls j with
    | none => rfl
    | some q =>
      rw [Option.elim, Option.elim]
      cases q with
      | lock k =>
        rw [stepCall, stepCall]
        split <;> rfl
      | await c k =>
        rw [stepCall, stepCall]
        split <;> rfl
      | _ => rfl
  | change f => rfl

theorem run_results (sched : List (LockAction σ α)) (m : LockMachine σ α) (t : List α) :
    sched.foldl act { m with results := m.results ++ t } =
      { sched.foldl act m with results := (sched.foldl act m).results ++ t } := by
  induction sched generalizing m with
  | nil => rfl
  | cons a sched ih => rw [List.foldl_cons, act_results, ih, List.foldl_cons]

theorem step_map (h : Lacks i m) (p : LockProg σ β) :
    (∃ (m' : LockMachine σ α) (p' : LockProg σ β), Lacks i m' ∧ ∀ f : β → α,
      (m.setCall i (some (p.map f))).act (.step i) = m'.setCall i (some (p'.map f))) ∨
    ∃ x, ∀ f : β → α, (m.setCall i (some (p.map f))).act (.step i) =
      { m.setCall i none with results := f x :: m.results } := by
  have hset := fun f => setCall_setCall m i (some (p.map f))
  have hact : ∀ f : β → α, (m.setCall i (some (p.map f))).act (.step i) =
      (m.setCall i (some (p.map f))).stepCall i (p.map f) := fun f => by
    rw [act, setCall_self]
    rfl
  simp only [hact]
  cases p with
  | ret x =>
    exact Or.inr ⟨x, fun f => congrArg (fun t => { t with results := f x :: m.results })
      (hset f none)⟩
  | lock k =>
    by_cases hfree : m.holder = none
    · refine Or.inl ⟨{ m with holder := some i, irqs := false }, k, ⟨h.ended, h.begun⟩, ?_⟩
      exact fun f => (if_pos hfree).trans
        (congrArg (fun t => { t with holder := some i, irqs := false }) (hset f _))
    · exact Or.inl ⟨m, .lock k, h, fun f => if_neg hfree⟩
  | unlock k =>
    refine Or.inl ⟨{ m with holder := none, irqs := true }, k, ⟨h.ended, h.begun⟩, fun f => ?_⟩
    exact congrArg (fun t => { t with holder := none, irqs := true }) (hset f _)
  | get k => exact Or.inl ⟨m, k m.data, h, fun f => hset f _⟩
  | put g k =>
    refine Or.inl ⟨{ m with data := g m.data }, k, ⟨h.ended, h.begun⟩, fun f => ?_⟩
    exact congrArg (fun t => { t with data := g m.data }) (hset f _)
  | await c k =>
    by_cases hc : c m.data = true
    · exact Or.inl ⟨m, k, h, fun f => (if_pos hc).trans (hset f _)⟩
    · exact Or.inl ⟨m, .await c k, h, fun f => if_neg hc⟩

/-- **A call among others, for every `f`**: it is still running and nothing depends on `f` but what
it will return, or it has returned `f x` for an `x` that does not depend on `f`. -/
theorem run_map (h : Lacks i m) (p : LockProg σ β) (sched : List (LockAction σ α)) :
    (∃ (m' : LockMachine σ α) (p' : LockProg σ β), ∀ f : β → α,
      sched.foldl act (m.setCall i (some (p.map f))) = m'.setCall i (some (p'.map f))) ∨
    ∃ (m' : LockMachine σ α) (x : β) (t : List α), m'.calls i = none ∧ ∀ f : β → α,
      sched.foldl act (m.setCall i (some (p.map f))) =
        { m' with results := m'.results ++ f x :: t } := by
  induction sched generalizing m p with
  | nil => exact Or.inl ⟨m, p, fun f => rfl⟩
  | cons a sched ih =>
    by_cases ha : a = .step i
    · simp only [ha, List.foldl_cons]
      rcases step_map h p with ⟨m', p', hm', heq⟩ | ⟨x, heq⟩
      · simp only [heq]
        exact ih hm' p'
      · -- from here on the call is one that has ended
        have hended : Lacks i { m.setCall i none with results := [] } :=
          ⟨setCall_self m i none, h.begun⟩
        refine Or.inr ⟨_, x, m.results, (hended.run sched).ended, fun f => ?_⟩
        rw [heq]
        exact run_results sched { m.setCall i none with results := [] } (f x :: m.results)
    · simp only [List.foldl_cons, h.act_setCall ha]
      exact ih (h.act a) p

end LockMachine

end Dingoo.Lib
