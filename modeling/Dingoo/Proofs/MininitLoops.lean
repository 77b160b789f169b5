/-
The loop devices of the command line.

A word asks for a loop device by its form, `loopX=FILE`.  `main` looks at the characters
at offsets 0 to 3 and 5 of the word, and the one at offset 5 is a character of the word
only if the word is long enough.  Behind a word of five characters there is its end.
Behind the word `loop` there is its end and then the character that follows in the
buffer: the first of the next word where one white space stands between the two, or
what the buffer held before the line was read into it.

So the calls made are those asked for exactly if no word `loop` has `=` as the second
character behind it (`LoneLoop`), and, for a line that does not fit into the buffer or
has a line feed in it, if what is lost asks for nothing.
-/
import Dingoo.Proofs.MininitSplit

namespace Dingoo.Mininit

open Dingoo.Lib

variable {w contents line sp : Str} {ps : List Nat} {ws : List Str}

/-! ### What is asked for -/

/-- The device and the file a word asks for. -/
def request : Str → Option (Str × Str)
  | 'l' :: 'o' :: 'o' :: 'p' :: x :: '=' :: file => some ("/dev/loop".toList ++ [x], file)
  | _ => none

/-- The devices and files of the words of the form `loopX=FILE`, in order. -/
def requested (ws : List Str) : List (Str × Str) := ws.filterMap request

/-- `_losetup` for each of them. -/
def losetupAll (ok : Nat → Bool) : List (Str × Str) → M Unit
  | [] => pure ()
  | (loop, file) :: others => do
    let _ ← losetup ok loop file true
    losetupAll ok others

/-- A word `loop` whose end is followed by `=`. -/
def LoneLoop (buf : Str) : Prop :=
  ∃ a c after, buf = a ++ ("loop".toList ++ c :: '=' :: after) ∧ NUL ∉ a ∧
    (∀ d ∈ a.getLast?, isspace d = true) ∧ (isspace c = true ∨ c = NUL)

/-! ### What is done -/

/-- The device and the file of the parameter at `p`. -/
def loopCall (buf : Str) (p : Nat) : Option (Str × Str) :=
  if hasKey buf "loop".toList p && readAt buf (p + 5) = '=' then
    some (cstr ("/dev/loop".toList ++ [readAt buf (p + 4)]) 0, cstr buf (p + 6))
  else none

theorem loopParams_eq (ok : Nat → Bool) : ∀ (paramv : List Nat) (s : State),
    loopParams ok paramv s = losetupAll ok (paramv.filterMap (loopCall s.cbuf)) s := by
  intro paramv
  induction paramv with
  | nil => intro s; rfl
  | cons p paramv ih =>
    intro s
    have hone : loopParams ok (p :: paramv) s =
        (loopParam ok p >>= fun _ => loopParams ok paramv) s := rfl
    by_cases hcall : (hasKey s.cbuf "loop".toList p && readAt s.cbuf (p + 5) = '=') = true
    · have hparam : loopParam ok p s = losetup ok
          (cstr ("/dev/loop".toList ++ [readAt s.cbuf (p + 4)]) 0) (cstr s.cbuf (p + 6)) true
          s := by
        show (if _ then _ else _ : M Bool) s = _
        rw [if_pos hcall]
      rw [hone, List.filterMap_cons_some (by rw [loopCall, if_pos hcall])]
      show EStateM.bind _ _ _ = EStateM.bind _ _ _
      unfold EStateM.bind
      rw [hparam]
      cases hrun : losetup ok _ (cstr s.cbuf (p + 6)) true s with
      | error e t => rfl
      | ok r t =>
        show loopParams ok paramv t = losetupAll ok _ t
        rw [ih, losetup_keeps ok _ _ _ _ _ _ hrun]
    · have hparam : loopParam ok p s = .ok true s := by
        show (if _ then _ else _ : M Bool) s = _
        rw [if_neg hcall]
        rfl
      rw [hone, bind_of_ok hparam, ih, List.filterMap_cons_none]
      rw [loopCall, if_neg hcall]

theorem request_of_other (hw : ¬ "loop".toList.isPrefixOf w = true) : request w = none := by
  unfold request
  split
  · exact absurd rfl hw
  · rfl

theorem request_long (x y : Char) (file : Str) :
    request ("loop".toList ++ x :: y :: file) =
      if y = '=' then some ("/dev/loop".toList ++ [x], file) else none := by
  show request ('l' :: 'o' :: 'o' :: 'p' :: x :: y :: file) = _
  unfold request
  split
  · rename_i h
    cases h
    rfl
  · rename_i h
    rw [if_neg]
    rintro rfl
    exact h x file rfl

theorem cstr_device (x : Char) : cstr ("/dev/loop".toList ++ [x]) 0 =
    if x = NUL then "/dev/loop".toList else "/dev/loop".toList ++ [x] := by
  by_cases hx : x = NUL
  · rw [if_pos hx, hx]
    rfl
  · rw [if_neg hx]
    show ("/dev/loop".toList ++ [x]).takeWhile _ = _
    rw [List.takeWhile_append_of_pos (List.all_eq_true.mp (by decide)), List.takeWhile_cons]
    simp [hx]

theorem loopCall_word (hw : IsWord w) (a after : Str) :
    loopCall (a ++ (w ++ NUL :: after)) a.length =
      if w = "loop".toList ∧ readAt after 0 = '=' then
        some ("/dev/loop".toList, cstr after 1)
      else request w := by
  have hkey : hasKey (a ++ (w ++ NUL :: after)) "loop".toList a.length =
      "loop".toList.isPrefixOf w := by
    rw [hasKey, cstr_word hw]
  unfold loopCall
  rw [hkey, readAt_append_add, readAt_append_add, cstr_append_add]
  by_cases hkeyed : "loop".toList.isPrefixOf w = true
  · obtain ⟨v, rfl⟩ := List.isPrefixOf_iff_prefix.mp hkeyed
    rw [hkeyed, Bool.true_and]
    rcases v with _ | ⟨x, _ | ⟨y, file⟩⟩
    · -- behind `loop` there is its end and the character that follows it
      show (if decide (readAt after 0 = '=') = true then
        some (cstr ("/dev/loop".toList ++ [NUL]) 0, cstr after 1) else none) = _
      rw [cstr_device, if_pos rfl]
      by_cases heq : readAt after 0 = '='
      · rw [if_pos (decide_eq_true heq), if_pos ⟨rfl, heq⟩]
      · rw [if_neg (by simpa using heq), if_neg (fun h => heq h.2)]
        rfl
    · rw [if_neg (c := _ ∧ _) (by rintro ⟨h, -⟩; cases h)]
      rfl
    · have hNul : ∀ c ∈ x :: y :: file, c ≠ NUL := fun c hc =>
        (hw.2 c (List.mem_append_right _ hc)).2
      obtain ⟨hx, hrest⟩ := List.forall_mem_cons.mp hNul
      have hfile : cstr (file ++ NUL :: after) 0 = file :=
        cstr_append (a := []) (List.forall_mem_cons.mp hrest).2 after
      show (if decide (y = '=') = true then
        some (cstr ("/dev/loop".toList ++ [x]) 0, cstr (file ++ NUL :: after) 0) else none) = _
      rw [if_neg (c := _ ∧ _) (by rintro ⟨h, -⟩; cases h), request_long, hfile, cstr_device,
        if_neg hx]
      simp only [decide_eq_true_eq]
  · rw [request_of_other hkeyed, if_neg (fun h => hkeyed (Bool.and_eq_true_iff.mp h).1),
      if_neg]
    rintro ⟨rfl, -⟩
    exact hkeyed rfl

/-! ### The words of the line -/

theorem behind_spaces {a t u : Str} (hsp : ∀ c ∈ sp, isspace c = true)
    (heq : sp ++ t = a ++ ("loop".toList ++ u)) :
    ∃ b, a = sp ++ b ∧ t = b ++ ("loop".toList ++ u) := by
  rcases List.append_eq_append_iff.mp heq with h | ⟨b, rfl, hb⟩
  · exact h
  · cases b with
    | nil => exact ⟨[], by rw [List.append_nil, List.append_nil], hb.symm⟩
    | cons d b =>
      have hd : 'l' = d := (List.cons.inj hb).1
      have hspace := hsp d (by simp)
      rw [← hd] at hspace
      exact absurd hspace (by decide)

theorem not_loneLoop_spaces (hsp : ∀ c ∈ sp, isspace c = true) (rest : Str) :
    ¬ LoneLoop (sp ++ NUL :: rest) := by
  rintro ⟨a, c, after, heq, hNul, -, -⟩
  obtain ⟨b, rfl, hb⟩ := behind_spaces hsp heq
  cases b with
  | nil => cases hb
  | cons d b =>
    cases hb
    exact hNul (by simp)

theorem IsWord.run (hw : IsWord w) : ∀ c ∈ w, (!isspace c && decide (c ≠ NUL)) = true := by
  intro c hc
  simp [hw.2 c hc]

theorem behind_word {a after u : Str} {c : Char} (hw : IsWord w) (hne : a ≠ [])
    (hlast : ∀ d ∈ a.getLast?, isspace d = true) (heq : w ++ c :: after = a ++ u) :
    ∃ b, a = w ++ c :: b ∧ after = b ++ u := by
  have hnot : ∀ v, w ≠ a ++ v := by
    rintro v rfl
    have hspace := hlast _ (List.getLast?_eq_some_getLast hne)
    rw [(hw.2 _ (List.mem_append_left v (List.getLast_mem hne))).1] at hspace
    cases hspace
  rcases List.append_eq_append_iff.mp heq with ⟨b, rfl, hb⟩ | ⟨b, hw', -⟩
  · cases b with
    | nil => exact absurd (by rw [List.append_nil, List.append_nil]) (hnot [])
    | cons d b =>
      obtain ⟨rfl, rfl⟩ := List.cons.inj hb
      exact ⟨b, rfl, rfl⟩
  · exact absurd hw' (hnot b)

section
variable {after : Str} {c : Char} (hsp : ∀ c ∈ sp, isspace c = true)
include hsp

theorem loneLoop_first (hc : isspace c = true ∨ c = NUL) (hx : readAt after 0 = '=') :
    LoneLoop (sp ++ ("loop".toList ++ c :: after)) := by
  cases after with
  | nil => exact absurd hx (by decide)
  | cons y after =>
    obtain rfl : y = '=' := hx
    refine ⟨sp, c, after, rfl, ?_, fun d hd => hsp d (List.mem_of_getLast? hd), hc⟩
    exact fun h => absurd (hsp NUL h) (by decide)

theorem LoneLoop.behind (hw : IsWord w) (hc : isspace c = true) (h : LoneLoop after) :
    LoneLoop (sp ++ (w ++ c :: after)) := by
  obtain ⟨a, d, x, rfl, hNul, hlast, hd⟩ := h
  refine ⟨sp ++ (w ++ c :: a), d, x, by simp, ?_, ?_, hd⟩
  · intro h
    rcases List.mem_append.mp h with h | h
    · exact absurd (hsp NUL h) (by decide)
    · rcases List.mem_append.mp h with h | h
      · exact (hw.2 NUL h).2 rfl
      · rcases List.mem_cons.mp h with rfl | h
        · exact absurd hc (by decide)
        · exact hNul h
  · intro e he
    rw [← List.append_assoc] at he
    cases a with
    | nil =>
      rw [List.getLast?_concat] at he
      cases he
      exact hc
    | cons f a =>
      rw [List.append_cons, List.getLast?_append_of_ne_nil _ (List.cons_ne_nil f a)] at he
      exact hlast e he

theorem loneLoop_word (hw : IsWord w) (hc : isspace c = true ∨ c = NUL) :
    LoneLoop (sp ++ (w ++ c :: after)) ↔
      (w = "loop".toList ∧ readAt after 0 = '=') ∨ (isspace c = true ∧ LoneLoop after) := by
  have hstop : ∀ {d : Char}, isspace d = true ∨ d = NUL →
      (!isspace d && decide (d ≠ NUL)) = false := by
    rintro d (hd | rfl)
    · simp [hd]
    · rfl
  constructor
  · rintro ⟨a, d, x, heq, hNul, hlast, hd⟩
    obtain ⟨b, rfl, hb⟩ := behind_spaces hsp heq
    by_cases hfirst : b = []
    · rw [hfirst, List.nil_append] at hb
      obtain ⟨hloop, -, rfl⟩ := run_unique hw.run (List.all_eq_true.mp (by decide)) (hstop hc)
        (hstop hd) hb
      exact Or.inl ⟨hloop, rfl⟩
    · rw [List.getLast?_append_of_ne_nil _ hfirst] at hlast
      obtain ⟨b', rfl, rfl⟩ := behind_word hw hfirst hlast hb
      have hcNul : c ≠ NUL := by
        rintro rfl
        exact hNul (by simp)
      refine Or.inr ⟨hc.resolve_right hcNul, b', d, x, rfl, fun h => hNul (by simp [h]), ?_, hd⟩
      intro f hf
      have hne : b' ≠ [] := by
        rintro rfl
        cases hf
      refine hlast f ?_
      rw [List.append_cons, List.getLast?_append_of_ne_nil _ hne]
      exact hf
  · rintro (⟨rfl, hx⟩ | ⟨hspace, hlone⟩)
    · exact loneLoop_first hsp hc hx
    · exact hlone.behind hsp hw hspace

end

theorem Cut.readAt_zero {k : Nat} {front line' : Str} (h : Cut k front line line' ps) (rest : Str) :
    readAt (line' ++ NUL :: rest) 0 = readAt (line ++ NUL :: rest) 0 := by
  cases h with
  | spaces hsp => rfl
  | last hsp hw => rfl
  | full hsp hw hc => rfl
  | @word k front sp w l l' c ps hsp hw hc hrest =>
    cases sp with
    | cons d sp => rfl
    | nil =>
      obtain ⟨d, v, hv, -⟩ := hw.starts []
      rw [List.append_nil] at hv
      rw [hv]
      rfl

theorem loopCalls_cons {buf file : Str} {p : Nat} {qs : List Nat}
    {lone later : Prop} [Decidable lone]
    (hcall : loopCall buf p = if lone then some ("/dev/loop".toList, file) else request w)
    (hrest : (later → ∃ call ∈ qs.filterMap (loopCall buf), call.1 = "/dev/loop".toList) ∧
      (¬ later → qs.filterMap (loopCall buf) = requested ws)) :
    (lone ∨ later →
      ∃ call ∈ (p :: qs).filterMap (loopCall buf), call.1 = "/dev/loop".toList) ∧
    (¬ (lone ∨ later) → (p :: qs).filterMap (loopCall buf) = requested (w :: ws)) := by
  refine ⟨?_, fun hno => ?_⟩
  · rintro (hlone | hlater)
    · rw [if_pos hlone] at hcall
      exact ⟨_, List.mem_filterMap.mpr ⟨p, by simp, hcall⟩, rfl⟩
    · obtain ⟨call, hmem, hdev⟩ := hrest.1 hlater
      obtain ⟨q, hq, hqcall⟩ := List.mem_filterMap.mp hmem
      exact ⟨call, List.mem_filterMap.mpr ⟨q, by simp [hq], hqcall⟩, hdev⟩
  · rw [if_neg (fun h => hno (Or.inl h))] at hcall
    have htail := hrest.2 (fun h => hno (Or.inr h))
    unfold requested at htail ⊢
    rw [List.filterMap_cons, List.filterMap_cons, hcall, htail]

/-- What the loop does at the pointers of a split line. -/
theorem Cut.loopCalls {k : Nat} {front line' : Str} (h : Cut k front line line' ps) (rest : Str)
    (hroom : (words line).length < k) :
    (LoneLoop (line ++ NUL :: rest) →
      ∃ call ∈ ps.filterMap (loopCall (lineAt front line' rest)), call.1 = "/dev/loop".toList) ∧
    (¬ LoneLoop (line ++ NUL :: rest) →
      ps.filterMap (loopCall (lineAt front line' rest)) = requested (words line)) := by
  induction h with
  | spaces hsp =>
    refine ⟨fun h => absurd h (not_loneLoop_spaces hsp rest), fun _ => ?_⟩
    rw [words_of_spaces hsp]
    rfl
  | @last k front sp w hsp hw =>
    have hbuf : lineAt front (sp ++ w) rest = (front ++ sp) ++ (w ++ NUL :: rest) := by
      simp [lineAt]
    rw [List.append_assoc, loneLoop_word hsp hw (Or.inr rfl), words_last hsp hw, hbuf]
    refine loopCalls_cons (loopCall_word hw (front ++ sp) rest) ⟨?_, fun _ => rfl⟩
    rintro ⟨hspace, -⟩
    exact absurd hspace (by decide)
  | full hsp hw hc =>
    rw [words_cons hsp hw hc, List.length_cons] at hroom
    omega
  | @word k front sp w l l' c ps hsp hw hc hrest ih =>
    rw [words_cons hsp hw hc, List.length_cons] at hroom
    have hbuf : lineAt front (sp ++ (w ++ NUL :: l')) rest =
        (front ++ sp) ++ (w ++ NUL :: (l' ++ NUL :: rest)) := by
      simp [lineAt]
    have hbuf' : lineAt (front ++ sp ++ w ++ [NUL]) l' rest =
        (front ++ sp) ++ (w ++ NUL :: (l' ++ NUL :: rest)) := by
      simp [lineAt]
    have hline : sp ++ (w ++ c :: l) ++ NUL :: rest = sp ++ (w ++ c :: (l ++ NUL :: rest)) := by
      simp
    have hcall := loopCall_word hw (front ++ sp) (l' ++ NUL :: rest)
    rw [hrest.readAt_zero rest] at hcall
    have hlater := ih (by omega)
    rw [hbuf'] at hlater
    rw [hline, loneLoop_word hsp hw (Or.inl hc), words_cons hsp hw hc, hbuf]
    refine loopCalls_cons hcall ⟨fun h => hlater.1 h.2, fun h => hlater.2 fun hl => h ⟨hc, hl⟩⟩

/-! ### Lists of calls -/

theorem losetupAll_true : ∀ (calls : List (Str × Str)) (s : State),
    losetupAll (fun _ => true) calls s =
      .ok () { s with log := s.log ++ calls.flatMap fun c =>
        [(.open c.2 .rdwr, true), (.open c.1 .rdwr, true), (.losetup c.1 c.2, true)] } := by
  intro calls
  induction calls with
  | nil =>
    intro s
    rw [List.flatMap_nil, List.append_nil]
    rfl
  | cons c calls ih =>
    intro s
    have hone : losetup (fun _ => true) c.1 c.2 true s = .ok true { s with
        log := s.log ++ [(.open c.2 .rdwr, true)] ++ [(.open c.1 .rdwr, true)] ++
          [(.losetup c.1 c.2, true)] } := rfl
    have hcons : losetupAll (fun _ => true) (c :: calls) s =
        (losetup (fun _ => true) c.1 c.2 true >>= fun _ => losetupAll (fun _ => true) calls) s :=
      rfl
    rw [hcons, bind_of_ok hone, ih, List.flatMap_cons]
    simp only [List.append_assoc, List.cons_append, List.nil_append]

theorem losetupAll_inj {as bs : List (Str × Str)} {s : State}
    (h : losetupAll (fun _ => true) as s = losetupAll (fun _ => true) bs s) : as = bs := by
  rw [losetupAll_true, losetupAll_true] at h
  injection h with _ hs
  have hlogs := List.append_cancel_left (congrArg State.log hs)
  clear hs
  induction as generalizing bs with
  | nil =>
    cases bs with
    | nil => rfl
    | cons b bs => cases hlogs
  | cons a as ih =>
    cases bs with
    | nil => cases hlogs
    | cons b bs =>
      simp only [List.flatMap_cons, List.cons_append, List.nil_append, List.cons.injEq,
        Prod.mk.injEq, Call.open.injEq, and_true] at hlogs
      obtain ⟨hfile, hloop, -, hrest⟩ := hlogs
      rw [ih hrest, Prod.ext hloop hfile]

theorem requested_device {call : Str × Str} (h : call ∈ requested ws) :
    call.1 ≠ "/dev/loop".toList := by
  obtain ⟨w, -, hw⟩ := List.mem_filterMap.mp h
  unfold request at hw
  split at hw
  · cases hw
    intro heq
    have hlen := congrArg List.length heq
    simp at hlen
  · cases hw

/-! ### `main` up to the loop -/

section
variable (ok : Nat → Bool)

/-- `main` up to the loop over the `loop` parameters: the parameters, and whether there is a
`boot` parameter. -/
def untilLoops (contents : Str) : M (List Nat × Bool) := do
  let _ ← mount ok none "/proc".toList (some "proc".toList) 0 none true
  let _ ← mount ok none "/sys".toList (some "sysfs".toList) 0 none true
  let _ ← readLine ok "/proc/cmdline".toList contents 4096 true
  let paramv ← modifyGet fun s =>
    ((mkparam s.cbuf 62).2, { s with cbuf := (mkparam s.cbuf 62).1 })
  let boot ← bootParam ok paramv
  pure (paramv, boot)

/-- `main` from there to `execv`. -/
def afterLoops (paramv : List Nat) (boot : Bool) : M (Str × List Str) := do
  let _ ← rootParam ok paramv
  let _ ← moveBoot ok boot
  let _ ← switchRoot ok
  let path ← initPath ok paramv
  let s ← get
  pure (path, path :: paramv.map (cstr s.cbuf))

theorem execArgs_eq (contents : Str) : execArgs ok contents =
    (untilLoops ok contents >>= fun start =>
      loopParams ok start.1 >>= fun _ => afterLoops ok start.1 start.2) := by
  simp only [execArgs, prepare, untilLoops, afterLoops, bind_assoc, pure_bind]

/-- The state in which the loop starts: the buffer is the line, split. -/
theorem untilLoops_ok {s s₁ : State} {paramv : List Nat} {boot : Bool}
    (h : untilLoops ok contents s = .ok (paramv, boot) s₁) :
    mkparam (lineBuffer s.cbuf contents 4096) 62 = (s₁.cbuf, paramv) := by
  obtain ⟨_, t1, h1, h⟩ := bind_eq_ok.mp h
  obtain ⟨_, t2, h2, h⟩ := bind_eq_ok.mp h
  obtain ⟨_, t3, h3, h⟩ := bind_eq_ok.mp h
  obtain ⟨paramv', t4, h4, h⟩ := bind_eq_ok.mp h
  obtain ⟨boot', t5, h5, h⟩ := bind_eq_ok.mp h
  cases h
  cases h4
  rw [bootParam_keeps ok _ _ _ _ h5, ← mount_keeps ok _ _ _ _ _ _ _ _ _ h1,
    ← mount_keeps ok _ _ _ _ _ _ _ _ _ h2, ← readLine_ok h3]

end

/-! With every call successful the loop is reached. -/

theorem check_returns (c : Call) (fatal : Bool) (msg : Str) :
    Returns (check (fun _ => true) c fatal msg) true := by
  intro s
  exact ⟨_, rfl⟩

theorem mkdir_returns (path : Str) (fatal : Bool) :
    Returns (mkdir (fun _ => true) path fatal) true := by
  have hpath : ∀ ds, Returns (mkpath (fun _ => true) fatal ds) true := by
    intro ds
    induction ds with
    | nil => exact Returns.pure true
    | cons d ds ih => exact Returns.bind (check_returns _ _ _) ih
  exact Returns.bind (hpath _) (check_returns _ _ _)

theorem mount_returns (source : Option Str) (target : Str) (type : Option Str) (flags : Nat)
    (data : Option Str) (fatal : Bool) :
    Returns (mount (fun _ => true) source target type flags data fatal) true := by
  refine Returns.bind (mkdir_returns target fatal) ?_
  refine Returns.bind (a := true) ?_ (check_returns _ _ _)
  unfold guessType
  split
  · exact check_returns _ _ _
  · exact Returns.pure true

theorem multimount_returns (target : Str) (type : Option Str) (flags : Nat) (data : Option Str)
    (source retries : Nat) (fatal : Bool) :
    Returns (multimount (fun _ => true) target type flags data source (retries + 1) fatal)
      true := by
  have htry : ∀ piece, Returns (tryPiece (fun _ => true) target type flags data piece) true :=
    fun piece => Returns.bind (fun s => ⟨_, rfl⟩) (mount_returns _ _ _ _ _ _)
  have hround : ∀ n t,
      Returns (multimountPieces (fun _ => true) target type flags data (n + 1) t) true := by
    intro n t s
    obtain ⟨s', hs'⟩ := htry _ _
    exact ⟨_, bind_of_ok hs'⟩
  refine Returns.bind (a := true) ?_ (Returns.pure true)
  intro s
  obtain ⟨s', hs'⟩ := hround s.cbuf.length source s
  exact ⟨s', bind_of_ok hs'⟩

theorem readLine_returns (path contents : Str) (len : Nat) (fatal : Bool) :
    Returns (readLine (fun _ => true) path contents len fatal) true := by
  refine Returns.bind (check_returns _ _ _) (Returns.bind (check_returns _ _ _) ?_)
  intro s
  exact ⟨_, rfl⟩

theorem untilLoops_returns (contents : Str) (s : State) :
    ∃ paramv boot s₁, untilLoops (fun _ => true) contents s = .ok (paramv, boot) s₁ := by
  obtain ⟨t1, h1⟩ := mount_returns none "/proc".toList (some "proc".toList) 0 none true s
  obtain ⟨t2, h2⟩ := mount_returns none "/sys".toList (some "sysfs".toList) 0 none true t1
  have hboot : ∀ paramv t, ∃ boot t', bootParam (fun _ => true) paramv t = .ok boot t' := by
    intro paramv t
    cases hfind : paramv.find? (hasKey t.cbuf "boot=".toList) with
    | none =>
      refine ⟨false, t, bind_eq_ok.mpr ⟨t, t, rfl, ?_⟩⟩
      rw [hfind]
      rfl
    | some p =>
      obtain ⟨t', h⟩ := multimount_returns "/boot".toList none MS_RDONLY (some "utf8".toList)
        (p + 5) 19 true t
      refine ⟨true, t', bind_eq_ok.mpr ⟨t, t, rfl, ?_⟩⟩
      rw [hfind]
      exact bind_of_ok h
  obtain ⟨t3, h3⟩ := readLine_returns "/proc/cmdline".toList contents 4096 true t2
  obtain ⟨boot, t5, h5⟩ := hboot (mkparam t3.cbuf 62).2
    { t3 with cbuf := (mkparam t3.cbuf 62).1 }
  refine ⟨(mkparam t3.cbuf 62).2, boot, t5, ?_⟩
  refine (bind_of_ok h1).trans ((bind_of_ok h2).trans ((bind_of_ok h3).trans ?_))
  exact (bind_of_ok rfl).trans (bind_of_ok h5)

/-! ### The loop devices -/

theorem words_append_length (b : Str) : ∀ (n : Nat) (a : Str), a.length < n → NUL ∉ a ++ b →
    (words a).length ≤ (words (a ++ b)).length := by
  intro n
  induction n with
  | zero => intro a hn; omega
  | succ n ih =>
    intro a hn hNul
    rcases line_cases (fun h => hNul (List.mem_append_left b h)) with
      hall | ⟨sp, w, rfl, hsp, hw⟩ | ⟨sp, w, c, l, rfl, hsp, hw, hc⟩
    · rw [words_of_spaces hall]
      exact Nat.zero_le _
    · rw [words_last hsp hw, List.length_singleton]
      refine List.length_pos_iff.mpr fun hnone => ?_
      obtain ⟨c, v, hv, hc, -⟩ := hw.starts b
      have hspace := spaces_of_words_nil hNul hnone c (by simp [hv])
      rw [hc] at hspace
      cases hspace
    · have heq : sp ++ (w ++ c :: l) ++ b = sp ++ (w ++ c :: (l ++ b)) := by simp
      rw [heq] at hNul
      rw [heq, words_cons hsp hw hc, words_cons hsp hw hc]
      refine Nat.succ_le_succ (ih l ?_ fun h => hNul (by simp [List.mem_append.mp h]))
      simp only [List.length_append, List.length_cons] at hn
      omega

theorem lineBuffer_part (buf : Str) (hNul : NUL ∉ line)
    (hc : contents = line ∨ contents = line ++ ['\n']) :
    ∃ l b rest, line = l ++ b ∧ lineBuffer buf contents 4096 = lineAt [] l rest := by
  obtain ⟨rest, hbuf⟩ := lineBuffer_eq buf 4096 (nul_not_mem_contents hNul hc)
  generalize hl : (contents.take (4096 - 1)).takeWhile (· ≠ '\n') = l at hbuf
  have hkeyed : l <+: contents := by
    rw [← hl]
    exact (List.takeWhile_prefix _).trans (List.take_prefix _ _)
  have hline : l <+: line := by
    rcases hc with rfl | rfl
    · exact hkeyed
    · rcases List.prefix_concat_iff.mp hkeyed with heq | h
      · have hnl : '\n' ∈ (List.take (4096 - 1) (line ++ ['\n'])).takeWhile (· ≠ '\n') := by
          rw [hl, heq]
          simp
        exact absurd (List.mem_takeWhile_imp hnl) (by decide)
      · exact h
  obtain ⟨b, rfl⟩ := hline
  exact ⟨l, b, rest, rfl, hbuf⟩

/-- **The loop devices are set up as asked for exactly if no word `loop` is followed by `=`**:
whenever `main` comes to the loop over the `loop` parameters, the loop does what `_losetup`
for each word of the form `loopX=FILE`, in order, would do.  The second part is about lines
that do not fit into the buffer or have a line feed in them; it holds of all others. -/
theorem loopParams_requested_iff {line contents : Str} (s : State) (hNul : NUL ∉ line)
    (hc : contents = line ∨ contents = line ++ ['\n']) (hwords : (words line).length ≤ 61) :
    (∀ ok paramv boot s₁, untilLoops ok contents s = .ok (paramv, boot) s₁ →
      loopParams ok paramv s₁ = losetupAll ok (requested (words line)) s₁) ↔
    ¬ LoneLoop (lineBuffer s.cbuf contents 4096) ∧
      requested (words (cstr (lineBuffer s.cbuf contents 4096) 0)) = requested (words line) := by
  obtain ⟨l, b, rest, rfl, hbuf⟩ := lineBuffer_part s.cbuf hNul hc
  have hlNul : NUL ∉ l := fun h => hNul (List.mem_append_left b h)
  have hroom : (words l).length < 61 + 1 := by
    have := words_append_length b _ l (Nat.lt_succ_self _) hNul
    omega
  obtain ⟨l', ps, hcut, hsplit⟩ := mkparam_cut rest 61 hlNul
  obtain ⟨hlone, hall⟩ := hcut.loopCalls rest hroom
  have hstr : cstr (lineAt [] l rest) 0 = l :=
    cstr_append (a := []) (fun x hx h => hlNul (h ▸ hx)) rest
  -- whatever the calls answer, the loop does the calls found in the split buffer
  have hloop : ∀ {ok paramv boot s₁}, untilLoops ok contents s = .ok (paramv, boot) s₁ →
      loopParams ok paramv s₁ =
        losetupAll ok (ps.filterMap (loopCall (lineAt [] l' rest))) s₁ := by
    intro ok paramv boot s₁ hreach
    have hstart := untilLoops_ok ok hreach
    rw [hbuf, hsplit] at hstart
    obtain ⟨hcbuf, rfl⟩ := Prod.mk.inj hstart
    rw [loopParams_eq, ← hcbuf]
  rw [hbuf, hstr]
  constructor
  · intro h
    obtain ⟨paramv, boot, s₁, hreach⟩ := untilLoops_returns contents s
    have hcalls := h _ _ _ _ hreach
    rw [hloop hreach] at hcalls
    have hsame := losetupAll_inj hcalls
    have hno : ¬ LoneLoop (lineAt [] l rest) := by
      intro hl
      obtain ⟨call, hmem, hdev⟩ := hlone hl
      rw [hsame] at hmem
      exact requested_device hmem hdev
    exact ⟨hno, (hall hno).symm.trans hsame⟩
  · rintro ⟨hno, hsame⟩ ok paramv boot s₁ hreach
    rw [hloop hreach, hall hno, hsame]

/-- One loop device, in front of the root device. -/
theorem loopParams_requested_one :
    NUL ∉ "loop0=/fs root=/dev/a".toList ∧
    (words "loop0=/fs root=/dev/a".toList).length ≤ 61 ∧
    ∀ ok paramv boot s₁,
      untilLoops ok "loop0=/fs root=/dev/a\n".toList ⟨[], []⟩ = .ok (paramv, boot) s₁ →
      loopParams ok paramv s₁ = losetupAll ok [("/dev/loop0".toList, "/fs".toList)] s₁ := by
  have hbuf : lineBuffer [] "loop0=/fs root=/dev/a\n".toList 4096 =
      [] ++ ("loop0=/fs".toList ++ ' ' :: ([] ++ ("root=/dev/a".toList ++ NUL :: [NUL]))) := by
    decide +kernel
  have hlone : ¬ LoneLoop (lineBuffer [] "loop0=/fs root=/dev/a\n".toList 4096) := by
    rw [hbuf, loneLoop_word (by simp) (isWord_of_all (by decide) (by decide)) (Or.inl rfl),
      loneLoop_word (by simp) (isWord_of_all (by decide) (by decide)) (Or.inr rfl)]
    rintro (⟨h, -⟩ | ⟨-, ⟨h, -⟩ | ⟨h, -⟩⟩)
    · exact absurd h (by decide)
    · exact absurd h (by decide)
    · exact absurd h (by decide)
  have hreq : requested (words "loop0=/fs root=/dev/a".toList) =
      [("/dev/loop0".toList, "/fs".toList)] := by
    decide +kernel
  refine ⟨by decide, by decide +kernel, ?_⟩
  rw [← hreq]
  exact (@loopParams_requested_iff "loop0=/fs root=/dev/a".toList _ ⟨[], []⟩ (by decide)
    (Or.inr (by decide)) (by decide +kernel)).mpr ⟨hlone, by decide +kernel⟩

/-- The word `loop` in front of a word that begins with `=`: a device is set up though no
word asks for one. -/
theorem lone_loop_set_up :
    requested (words "loop =/fs root=/dev/a".toList) = [] ∧
    (.losetup "/dev/loop".toList "/fs".toList, true) ∈
      (endState (execArgs (fun _ => true) "loop =/fs root=/dev/a\n".toList ⟨[], []⟩)).log := by
  decide +kernel

end Dingoo.Mininit
