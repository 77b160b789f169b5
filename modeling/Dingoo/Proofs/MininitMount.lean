/-
Mounting one of several devices.

`_multimount` cuts its source at each comma while it tries the piece in front of it.
What it does is said without the buffer: an attempt on a piece is a list of system
calls made one after the other up to the first that fails (`attemptCalls`), and the
pieces are tried one after the other, round by round, up to the first attempt in which
every call succeeds.

The proof has a lemma for each level.  `tryPiece_eq` turns an attempt into its list of
calls, `multimountPieces_eq` a round into its list of pieces, by induction on the part
of the source that is left, and `multimountTries_eq` the rounds into one list.  At the
start of each piece the buffer is what it was before the call, so the three lemmas
give the state in full.
-/
import Dingoo.Proofs.Mininit

namespace Dingoo.Mininit

open Dingoo.Lib

variable {a : Attempt}

/-! ### Calls up to the first failure -/

section
variable (ok : Nat → Bool)

/-- The calls one after the other, up to the first that fails. -/
def runCalls : List Call → M Bool
  | [] => pure true
  | c :: cs => do
    if ← sys ok c then runCalls cs else pure false

theorem runCalls_cons (c : Call) (cs : List Call) (s : State) :
    runCalls ok (c :: cs) s =
      if ok s.log.length then runCalls ok cs { s with log := s.log ++ [(c, true)] }
      else .ok false { s with log := s.log ++ [(c, false)] } := by
  show (if ok s.log.length = true then runCalls ok cs else pure false)
    { s with log := s.log ++ [(c, ok s.log.length)] } = _
  cases ok s.log.length with
  | true => rfl
  | false => rfl

theorem runCalls_singleton (c : Call) : runCalls ok [c] = sys ok c := by
  funext s
  rw [runCalls_cons]
  show _ = EStateM.Result.ok (ok s.log.length) { s with log := s.log ++ [(c, ok s.log.length)] }
  cases ok s.log.length with
  | true => rfl
  | false => rfl

theorem runCalls_append (as bs : List Call) :
    runCalls ok (as ++ bs) =
      (runCalls ok as >>= fun r => if r = true then runCalls ok bs else pure false) := by
  induction as with
  | nil => rfl
  | cons a as ih =>
    funext s
    rw [List.cons_append, runCalls_cons]
    have hcons := runCalls_cons ok a as s
    cases hok : ok s.log.length with
    | true =>
      rw [hok, if_pos rfl] at hcons
      rw [if_pos rfl, ih]
      show EStateM.bind _ _ _ = EStateM.bind _ _ _
      unfold EStateM.bind
      rw [hcons]
    | false =>
      rw [hok, if_neg Bool.false_ne_true] at hcons
      rw [if_neg Bool.false_ne_true, bind_of_ok hcons]
      rfl

theorem runCalls_cases : ∀ (cs : List Call) (s : State),
    runCalls ok cs s = .ok true { s with log := s.log ++ cs.map (·, true) } ∨
    ∃ made c others, cs = made ++ c :: others ∧
      runCalls ok cs s =
        .ok false { s with log := s.log ++ (made.map (·, true) ++ [(c, false)]) } := by
  intro cs
  induction cs with
  | nil =>
    intro s
    refine Or.inl ?_
    rw [List.map_nil, List.append_nil]
    rfl
  | cons c cs ih =>
    intro s
    rw [runCalls_cons]
    cases ok s.log.length with
    | false => exact Or.inr ⟨[], c, cs, rfl, rfl⟩
    | true =>
      rw [if_pos rfl]
      rcases ih { s with log := s.log ++ [(c, true)] } with hall | ⟨made, d, others, rfl, hsome⟩
      · refine Or.inl ?_
        rw [hall, List.append_assoc]
        rfl
      · refine Or.inr ⟨c :: made, d, others, rfl, ?_⟩
        rw [hsome, List.append_assoc]
        rfl

end

/-! ### One attempt -/

section
variable (target : Str) (type : Option Str) (flags : Nat) (data : Option Str)

/-- The calls of `_mount` that is not fatal. -/
def mountCalls (source : Option Str) : List Call :=
  (parents target ++ [target]).map .mkdir ++
    ((if type.isNone && flags &&& MS_MOVE = 0 then [.fstype source] else []) ++
      [.mount source target type flags data])

/-- The calls of an attempt to mount `piece`. -/
def attemptCalls (piece : Str) : List Call :=
  .access piece R_OK :: mountCalls target type flags data (some piece)

variable (ok : Nat → Bool)

theorem check_eq (c : Call) (msg : Str) : check ok c false msg = runCalls ok [c] := by
  rw [runCalls_singleton]
  funext s
  show (if (!ok s.log.length && false) = true then throw msg else pure (ok s.log.length) : M Bool)
    { s with log := s.log ++ [(c, ok s.log.length)] } = _
  rw [Bool.and_false]
  rfl

theorem mkpath_eq (ds : List Str) : mkpath ok false ds = runCalls ok (ds.map .mkdir) := by
  induction ds with
  | nil => rfl
  | cons d ds ih =>
    rw [mkpath, check_eq, ih, List.map_cons]
    exact (runCalls_append ok [.mkdir d] _).symm

theorem mkdir_eq (path : Str) :
    mkdir ok path false = runCalls ok ((parents path ++ [path]).map .mkdir) := by
  rw [mkdir, mkpath_eq, check_eq, List.map_append, runCalls_append]
  rfl

theorem guessType_eq (source : Option Str) : guessType ok source type flags false =
    runCalls ok (if type.isNone && flags &&& MS_MOVE = 0 then [.fstype source] else []) := by
  rw [guessType, check_eq]
  split
  · rfl
  · rfl

theorem mount_eq (source : Option Str) : mount ok source target type flags data false =
    runCalls ok (mountCalls target type flags data source) := by
  rw [mount, mkdir_eq, guessType_eq, check_eq, mountCalls, runCalls_append, runCalls_append]

theorem tryPiece_eq (piece : Str) : tryPiece ok target type flags data piece =
    runCalls ok (attemptCalls target type flags data piece) := by
  rw [tryPiece, mount_eq, attemptCalls, ← List.singleton_append, runCalls_append,
    runCalls_singleton]

/-- An attempt: the piece, and the calls made with their outcomes. -/
structure Attempt where
  piece : Str
  calls : List (Call × Bool)

/-- The piece is accessible and mounts. -/
def Attempt.Succeeded (a : Attempt) : Prop :=
  a.calls = (attemptCalls target type flags data a.piece).map (·, true)

/-- One of the calls failed, and was the last. -/
def Attempt.Failed (a : Attempt) : Prop :=
  ∃ made c others, attemptCalls target type flags data a.piece = made ++ c :: others ∧
    a.calls = made.map (·, true) ++ [(c, false)]

/-- The state after some more attempts. -/
def State.after (s : State) (tried : List Attempt) : State :=
  { s with log := s.log ++ tried.flatMap Attempt.calls }

theorem State.after_nil (s : State) : s.after [] = s := by
  unfold State.after
  rw [List.flatMap_nil, List.append_nil]

theorem State.after_append (s : State) (as bs : List Attempt) :
    s.after (as ++ bs) = (s.after as).after bs := by
  unfold State.after
  rw [List.flatMap_append, List.append_assoc]

theorem State.after_singleton (s : State) (a : Attempt) :
    s.after [a] = { s with log := s.log ++ a.calls } := by
  unfold State.after
  rw [List.flatMap_singleton]

theorem tryPiece_cases (piece : Str) (s : State) :
    ∃ a : Attempt, a.piece = piece ∧
      (a.Succeeded target type flags data ∧
          tryPiece ok target type flags data piece s = .ok true (s.after [a]) ∨
        a.Failed target type flags data ∧
          tryPiece ok target type flags data piece s = .ok false (s.after [a])) := by
  rw [tryPiece_eq]
  rcases runCalls_cases ok (attemptCalls target type flags data piece) s with
    hall | ⟨made, c, others, hcs, hsome⟩
  · refine ⟨⟨piece, (attemptCalls target type flags data piece).map (·, true)⟩, rfl,
      Or.inl ⟨rfl, ?_⟩⟩
    rw [hall, State.after_singleton]
  · refine ⟨⟨piece, made.map (·, true) ++ [(c, false)]⟩, rfl,
      Or.inr ⟨⟨made, c, others, hcs, rfl⟩, ?_⟩⟩
    rw [hsome, State.after_singleton]

/-! ### One after the other -/

/-- Attempts on the pieces in order, up to the first that succeeds: those that failed, and
the one that did not if there is one. -/
inductive InOrder : List Str → List Attempt → Bool → Prop
  | allFailed {tried : List Attempt} (hfailed : ∀ a ∈ tried, a.Failed target type flags data) :
      InOrder (tried.map Attempt.piece) tried false
  | mounted {tried : List Attempt} {a : Attempt} (others : List Str)
      (hfailed : ∀ b ∈ tried, b.Failed target type flags data)
      (hmounted : a.Succeeded target type flags data) :
      InOrder (tried.map Attempt.piece ++ a.piece :: others) (tried ++ [a]) true

theorem InOrder.cons_mounted (hmounted : a.Succeeded target type flags data) (others : List Str) :
    InOrder target type flags data (a.piece :: others) [a] true :=
  @InOrder.mounted _ _ _ _ [] a others (by simp) hmounted

theorem InOrder.cons_failed (ha : a.Failed target type flags data) {pieces : List Str}
    {tried : List Attempt} {r : Bool} (h : InOrder target type flags data pieces tried r) :
    InOrder target type flags data (a.piece :: pieces) (a :: tried) r := by
  cases h with
  | allFailed hfailed => exact InOrder.allFailed (List.forall_mem_cons.mpr ⟨ha, hfailed⟩)
  | mounted others hfailed hmounted =>
    exact @InOrder.mounted _ _ _ _ (a :: _) _ others
      (List.forall_mem_cons.mpr ⟨ha, hfailed⟩) hmounted

theorem InOrder.append {ps qs : List Str} {as bs : List Attempt} {r : Bool}
    (hps : InOrder target type flags data ps as false)
    (hqs : InOrder target type flags data qs bs r) :
    InOrder target type flags data (ps ++ qs) (as ++ bs) r := by
  cases hps with
  | allFailed hfailed =>
    induction as with
    | nil => exact hqs
    | cons a as ih =>
      obtain ⟨ha, has⟩ := List.forall_mem_cons.mp hfailed
      exact InOrder.cons_failed target type flags data ha (ih has)

theorem InOrder.append_mounted {ps : List Str} {as : List Attempt} (qs : List Str)
    (hps : InOrder target type flags data ps as true) :
    InOrder target type flags data (ps ++ qs) as true := by
  cases hps with
  | mounted others hfailed hmounted =>
    rw [List.append_assoc, List.cons_append]
    exact InOrder.mounted (others ++ qs) hfailed hmounted

/-! ### A round -/

theorem multimountPieces_step (n t : Nat) (s : State) {p : Nat}
    (hp : scan (fun c => c ≠ ',' && c ≠ NUL) s.cbuf t = p) :
    multimountPieces ok target type flags data (n + 1) t s =
      (tryPiece ok target type flags data (cstr (s.cbuf.set p NUL) t) >>= fun mounted =>
        write p (readAt s.cbuf p) >>= fun _ =>
        if mounted = true then pure true
        else if readAt s.cbuf p = ',' then multimountPieces ok target type flags data n (p + 1)
        else pure false) { s with cbuf := s.cbuf.set p NUL } := by
  subst hp
  rfl

/-- One turn of the inner loop: whatever the attempt comes to, the cut is undone. -/
theorem multimountPieces_succ (n t : Nat) (s : State) {p : Nat}
    (hp : scan (fun c => c ≠ ',' && c ≠ NUL) s.cbuf t = p) :
    ∃ a : Attempt, a.piece = cstr (s.cbuf.set p NUL) t ∧
      (a.Succeeded target type flags data ∧
          multimountPieces ok target type flags data (n + 1) t s = .ok true (s.after [a]) ∨
        a.Failed target type flags data ∧
          multimountPieces ok target type flags data (n + 1) t s =
            (if readAt s.cbuf p = ',' then multimountPieces ok target type flags data n (p + 1)
            else pure false) (s.after [a])) := by
  obtain ⟨a, hpiece, htry⟩ := tryPiece_cases target type flags data ok
    (cstr (s.cbuf.set p NUL) t) { s with cbuf := s.cbuf.set p NUL }
  have hback : (⟨(s.cbuf.set p NUL).set p (readAt s.cbuf p),
      s.log ++ [a].flatMap Attempt.calls⟩ : State) = s.after [a] := by
    rw [set_restore]
    rfl
  refine ⟨a, hpiece, ?_⟩
  rw [multimountPieces_step target type flags data ok n t s hp, ← hback]
  rcases htry with ⟨ha, htry⟩ | ⟨ha, htry⟩
  · rw [bind_of_ok htry]
    exact Or.inl ⟨ha, rfl⟩
  · rw [bind_of_ok htry]
    exact Or.inr ⟨ha, rfl⟩

theorem splitOn_comma {a : Str} (ha : ',' ∉ a) (b : Str) :
    (a ++ ',' :: b).splitOn ',' = a :: b.splitOn ',' := by
  unfold List.splitOn
  rw [List.splitOnP_append_cons _ _ (by simp), List.splitOnP_eq_singleton]
  · rfl
  · rintro x hx
    exact beq_eq_false_iff_ne.mpr (fun h => ha (h ▸ hx))

theorem piece_at {a : Str} {c : Char} (front after : Str) (ha : ∀ x ∈ a, x ≠ ',' ∧ x ≠ NUL)
    (hc : c = ',' ∨ c = NUL) :
    scan (fun c => c ≠ ',' && c ≠ NUL) (front ++ (a ++ c :: after)) front.length =
      (front ++ a).length ∧
    readAt (front ++ (a ++ c :: after)) (front ++ a).length = c ∧
    cstr ((front ++ (a ++ c :: after)).set (front ++ a).length NUL) front.length = a := by
  have hstop : (decide (c ≠ ',') && decide (c ≠ NUL)) = false := by
    rcases hc with rfl | rfl
    · rfl
    · rfl
  refine ⟨?_, ?_, ?_⟩
  · rw [scan_append (fun x hx => by simp [ha x hx]) hstop, List.length_append]
  · rw [← List.append_assoc, readAt_append_length]
  · have hset : (front ++ (a ++ c :: after)).set (front ++ a).length NUL =
        front ++ (a ++ NUL :: after) := by
      simp
    rw [hset]
    exact cstr_append (fun x hx => (ha x hx).2) after

theorem multimountPieces_piece (n : Nat) {front a after : Str} {c : Char} {s : State}
    (hbuf : s.cbuf = front ++ (a ++ c :: after)) (ha : ∀ x ∈ a, x ≠ ',' ∧ x ≠ NUL)
    (hc : c = ',' ∨ c = NUL) :
    ∃ x : Attempt, x.piece = a ∧
      (x.Succeeded target type flags data ∧
          multimountPieces ok target type flags data (n + 1) front.length s =
            .ok true (s.after [x]) ∨
        x.Failed target type flags data ∧
          multimountPieces ok target type flags data (n + 1) front.length s =
            (if c = ',' then
              multimountPieces ok target type flags data n (front ++ a ++ [c]).length
            else pure false) (s.after [x])) := by
  obtain ⟨hscan, hread, hcut⟩ := piece_at front after ha hc
  rw [← hbuf] at hscan hread hcut
  obtain ⟨x, hpiece, hturn⟩ := multimountPieces_succ target type flags data ok n _ s hscan
  rw [hread] at hturn
  have hlen : (front ++ a ++ [c]).length = (front ++ a).length + 1 := List.length_append
  rw [hlen]
  exact ⟨x, hpiece.trans hcut, hturn⟩

/-- **A round tries the pieces of the source in order**, and leaves the buffer as it was.
The induction is on the part of the source that is left. -/
theorem multimountPieces_eq (rest : Str) :
    ∀ (n : Nat) (front src : Str) (s : State), src.length < n → NUL ∉ src →
      s.cbuf = lineAt front src rest →
      ∃ tried r, InOrder target type flags data (src.splitOn ',') tried r ∧
        multimountPieces ok target type flags data n front.length s = .ok r (s.after tried) := by
  intro n
  induction n with
  | zero => intro front src s hn; omega
  | succ n ih =>
    intro front src s hn hNul hbuf
    have hsafe : ∀ {a : Str}, (∀ x ∈ a, x ∈ src) → (∀ x ∈ a, decide (x ≠ ',') = true) →
        ∀ x ∈ a, x ≠ ',' ∧ x ≠ NUL := by
      intro a hsub hcomma x hx
      exact ⟨of_decide_eq_true (hcomma x hx), fun h => hNul (h ▸ hsub x hx)⟩
    rcases run_cases (fun x => decide (x ≠ ',')) src with hlast | ⟨a, c, b, rfl, ha, hc⟩
    · -- the last piece, ended by the end of the source
      have hsplit : src.splitOn ',' = [src] :=
        List.splitOn_eq_singleton fun h => absurd (hlast _ h) (by decide)
      obtain ⟨x, hpiece, hturn⟩ := multimountPieces_piece target type flags data ok n hbuf
        (hsafe (fun _ h => h) hlast) (Or.inr rfl)
      rw [hsplit, ← hpiece]
      rcases hturn with ⟨hmounted, hrun⟩ | ⟨hfailed, hrun⟩
      · exact ⟨[x], true, InOrder.cons_mounted _ _ _ _ hmounted [], hrun⟩
      · rw [if_neg (by decide)] at hrun
        refine ⟨[x], false, InOrder.cons_failed _ _ _ _ hfailed ?_, hrun⟩
        exact @InOrder.allFailed _ _ _ _ [] (by simp)
    · -- a piece and the comma behind it
      obtain rfl : c = ',' := by simpa using hc
      have hassoc : lineAt front (a ++ ',' :: b) rest =
          front ++ (a ++ ',' :: (b ++ NUL :: rest)) := by
        simp [lineAt]
      obtain ⟨x, hpiece, hturn⟩ := multimountPieces_piece target type flags data ok n
        (hbuf.trans hassoc) (hsafe (fun _ h => List.mem_append_left _ h) ha) (Or.inl rfl)
      rw [splitOn_comma (fun h => absurd (ha _ h) (by decide)), ← hpiece]
      rcases hturn with ⟨hmounted, hrun⟩ | ⟨hfailed, hrun⟩
      · exact ⟨[x], true, InOrder.cons_mounted _ _ _ _ hmounted _, hrun⟩
      · rw [if_pos rfl] at hrun
        have hnext : lineAt (front ++ a ++ [',']) b rest = lineAt front (a ++ ',' :: b) rest := by
          simp [lineAt]
        obtain ⟨tried, r, horder, hrest⟩ := ih (front ++ a ++ [',']) b (s.after [x])
          (by simp only [List.length_append, List.length_cons] at hn; omega)
          (fun h => hNul (by simp [h])) (by rw [hnext, ← hbuf]; rfl)
        refine ⟨x :: tried, r, InOrder.cons_failed _ _ _ _ hfailed horder, ?_⟩
        rw [hrun, hrest, ← State.after_append]
        rfl

/-! ### The rounds -/

/-- **The rounds try the pieces again and again**, up to the first success. -/
theorem multimountTries_eq (front src rest : Str) (hNul : NUL ∉ src) :
    ∀ (retries : Nat) (s : State), s.cbuf = lineAt front src rest →
      ∃ tried r,
        InOrder target type flags data (List.replicate retries (src.splitOn ',')).flatten tried r ∧
        multimountTries ok target type flags data front.length retries s =
          .ok r (s.after tried) := by
  intro retries
  induction retries with
  | zero =>
    intro s _
    refine ⟨[], false, @InOrder.allFailed _ _ _ _ [] (by simp), ?_⟩
    rw [State.after_nil]
    rfl
  | succ retries ih =>
    intro s hbuf
    have hfuel : src.length < s.cbuf.length + 1 := by
      rw [hbuf, lineAt]
      simp only [List.length_append]
      omega
    obtain ⟨tried, r, horder, hround⟩ :=
      multimountPieces_eq target type flags data ok rest _ front src s hfuel hNul hbuf
    have hstep : multimountTries ok target type flags data front.length (retries + 1) s =
        (if r = true then pure true
        else multimountTries ok target type flags data front.length retries) (s.after tried) :=
      bind_of_ok hround
    rw [List.replicate_succ, List.flatten_cons, hstep]
    cases r with
    | true =>
      rw [if_pos rfl]
      exact ⟨tried, true, InOrder.append_mounted _ _ _ _ _ horder, rfl⟩
    | false =>
      rw [if_neg Bool.false_ne_true]
      obtain ⟨more, r, hmore, hrest⟩ := ih (s.after tried) hbuf
      refine ⟨tried ++ more, r, InOrder.append _ _ _ _ horder hmore, ?_⟩
      rw [hrest, State.after_append]

/-- **`_multimount` tries the comma separated pieces in order**, the empty ones included, in
at most `retries` rounds and up to the first that is accessible and mounts.  It returns 0
if there was one; if all attempts failed it returns -1, or exits where failure is fatal.
In every case the buffer is byte for byte what it was. -/
theorem multimount_tries_in_order (front src rest : Str) (retries : Nat) (fatal : Bool)
    (log : List (Call × Bool)) (hNul : NUL ∉ src) :
    ∃ failed : List Attempt, (∀ a ∈ failed, a.Failed target type flags data) ∧
      ((∃ (a : Attempt) (others : List Str), a.Succeeded target type flags data ∧
          (List.replicate retries (src.splitOn ',')).flatten =
            failed.map Attempt.piece ++ a.piece :: others ∧
          multimount ok target type flags data front.length retries fatal
              ⟨front ++ (src ++ NUL :: rest), log⟩ =
            .ok true
              ⟨front ++ (src ++ NUL :: rest), log ++ failed.flatMap Attempt.calls ++ a.calls⟩) ∨
        ((List.replicate retries (src.splitOn ',')).flatten = failed.map Attempt.piece ∧
          multimount ok target type flags data front.length retries fatal
              ⟨front ++ (src ++ NUL :: rest), log⟩ =
            if fatal then
              .error ("cannot mount ".toList ++ src ++ " on ".toList ++ target ++ ['\n'])
                ⟨front ++ (src ++ NUL :: rest), log ++ failed.flatMap Attempt.calls⟩
            else .ok false
                ⟨front ++ (src ++ NUL :: rest), log ++ failed.flatMap Attempt.calls⟩)) := by
  obtain ⟨tried, r, horder, hrun⟩ := multimountTries_eq target type flags data ok front src rest
    hNul retries ⟨front ++ (src ++ NUL :: rest), log⟩ rfl
  generalize hall : (List.replicate retries (src.splitOn ',')).flatten = pieces at horder
  cases horder with
  | allFailed hfailed =>
    refine ⟨tried, hfailed, Or.inr ⟨rfl, ?_⟩⟩
    have hsrc : cstr (front ++ (src ++ NUL :: rest)) front.length = src :=
      cstr_append (fun x hx h => hNul (h ▸ hx)) rest
    refine (bind_of_ok hrun).trans ?_
    cases fatal with
    | true =>
      rw [if_pos rfl]
      show EStateM.Result.error ("cannot mount ".toList ++
        cstr (front ++ (src ++ NUL :: rest)) front.length ++ _ ++ _ ++ _) _ = _
      rw [hsrc]
      rfl
    | false => rfl
  | @mounted failed a others hfailed hmounted =>
    refine ⟨failed, hfailed, Or.inl ⟨a, others, hmounted, rfl, ?_⟩⟩
    refine (bind_of_ok hrun).trans ?_
    show EStateM.Result.ok true _ = _
    rw [State.after_append, State.after_singleton]
    rfl

end

/-- The first device is missing, the second does not mount, the third does. -/
theorem multimount_tries_in_order_third :
    NUL ∉ "/dev/a,/dev/b,,/dev/c".toList ∧
    ∃ failed : List Attempt, ∃ a : Attempt, ∃ others : List Str,
      (∀ b ∈ failed, b.Failed "/root".toList none MS_RDONLY none) ∧
      a.Succeeded "/root".toList none MS_RDONLY none ∧
      (List.replicate 20 ("/dev/a,/dev/b,,/dev/c".toList.splitOn ',')).flatten =
        failed.map Attempt.piece ++ a.piece :: others := by
  have hrun : multimount (fun n => n ≠ 0 ∧ n ≠ 3 ∧ n ≠ 4) "/root".toList none MS_RDONLY none
      5 20 false ⟨"root=".toList ++ ("/dev/a,/dev/b,,/dev/c".toList ++ [NUL]), []⟩ =
      .ok true (endState (multimount (fun n => n ≠ 0 ∧ n ≠ 3 ∧ n ≠ 4) "/root".toList none
        MS_RDONLY none 5 20 false
        ⟨"root=".toList ++ ("/dev/a,/dev/b,,/dev/c".toList ++ [NUL]), []⟩)) := by
    decide +kernel
  refine ⟨by decide, ?_⟩
  obtain ⟨failed, hfailed, ⟨a, others, ha, hall, -⟩ | ⟨-, hnone⟩⟩ :=
    multimount_tries_in_order "/root".toList none MS_RDONLY none
      (fun n => n ≠ 0 ∧ n ≠ 3 ∧ n ≠ 4) "root=".toList "/dev/a,/dev/b,,/dev/c".toList [] 20 false []
      (by decide)
  · exact ⟨failed, a, others, hfailed, ha, hall⟩
  · cases hrun.symm.trans hnone

end Dingoo.Mininit
