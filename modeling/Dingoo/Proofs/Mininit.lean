/-
The argument vector of `init`.

The command line is cut into words in place, and every word stays where it is: the
pointers of the argument vector point into the same buffer `_multimount` cuts at commas.
So the proof has two parts.

  * After the split the strings at the pointers are the words (`mkparam_words`).  The
    induction follows the loop of `_mkparam`: in front of `s` the buffer is final, from
    `s` on it is still the line.
  * Nothing between the split and `execv` changes the buffer (`prepare_keeps`).  Only
    `_multimount` writes to it, and what it cuts it restores before it goes on, whatever
    the outcome of the mount (`multimountPieces_keeps`).
-/
import Dingoo.Mininit.Init
import Mathlib.Data.List.TakeWhile

namespace Dingoo.Mininit

open Dingoo.Lib

variable {line w sp contents path : Str} {ok : Nat → Bool} {paramv : List Nat} {c d : Char}

/-- The white-space separated words of a line. -/
def words (line : Str) : List Str := (line.splitOnP isspace).filter (· ≠ [])

/-- The value of the last `init=` word, empty if there is none. -/
def lastInit (ws : List Str) : Str :=
  ((ws.filter ("init=".toList.isPrefixOf ·)).getLast?.map (List.drop 5)).getD []

/-! ### Words -/

theorem words_nil : words [] = [] := rfl

theorem words_space_cons (hc : isspace c = true) (line : Str) : words (c :: line) = words line := by
  unfold words
  rw [List.splitOnP_cons_eq_if_modifyHead, if_pos hc, List.filter_cons_of_neg (by simp)]

theorem words_spaces : ∀ (sp line : Str), (∀ c ∈ sp, isspace c = true) →
    words (sp ++ line) = words line := by
  intro sp line
  induction sp with
  | nil => intro _; rfl
  | cons c sp ih =>
    intro hsp
    rw [List.cons_append, words_space_cons (hsp c (by simp))]
    exact ih (fun d hd => hsp d (by simp [hd]))

theorem words_word (hne : w ≠ []) (hw : ∀ c ∈ w, isspace c = false) : words w = [w] := by
  unfold words
  rw [List.splitOnP_eq_singleton hw, List.filter_cons_of_pos (by simpa using hne),
    List.filter_nil]

theorem words_word_space (hne : w ≠ []) (hw : ∀ c ∈ w, isspace c = false) (hd : isspace d = true)
    (line : Str) : words (w ++ d :: line) = w :: words line := by
  unfold words
  rw [List.splitOnP_append_cons _ _ hd, List.splitOnP_eq_singleton hw, List.filter_append,
    List.filter_cons_of_pos (by simpa using hne), List.filter_nil]
  rfl

/-! ### The split -/

/-- The buffer while the loop runs: the final part, the line still to be read, its end. -/
def lineAt (front line rest : Str) : Str := front ++ (line ++ NUL :: rest)

theorem lineAt_append (front a b rest : Str) :
    lineAt front (a ++ b) rest = lineAt (front ++ a) b rest := by
  simp only [lineAt, List.append_assoc]

theorem lineAt_cut (front sp w line rest : Str) :
    lineAt front (sp ++ (w ++ NUL :: line)) rest =
      lineAt (front ++ sp ++ w ++ [NUL]) line rest := by
  simp [lineAt]

theorem readAt_lineAt_nil (front rest : Str) : readAt (lineAt front [] rest) front.length = NUL :=
  readAt_append_length front NUL rest

theorem readAt_lineAt_cons (front : Str) (c : Char) (line rest : Str) :
    readAt (lineAt front (c :: line) rest) front.length = c :=
  readAt_append_length front c _

theorem set_lineAt (front : Str) (c : Char) (line rest : Str) :
    (lineAt front (c :: line) rest).set front.length NUL = lineAt (front ++ [NUL]) line rest := by
  simp [lineAt]

theorem scan_lineAt {p : Char → Bool} {a b : Str} (front rest : Str) (hNul : p NUL = false)
    (ha : ∀ x ∈ a, p x = true) (hb : b = [] ∨ ∃ c b', b = c :: b' ∧ p c = false) :
    scan p (lineAt front (a ++ b) rest) front.length = (front ++ a).length := by
  unfold lineAt
  rw [List.append_assoc, List.length_append]
  rcases hb with rfl | ⟨c, b', rfl, hc⟩
  · exact scan_append ha hNul rest
  · exact scan_append ha hc _

/-- A word: not empty, without white space and without the end of the string. -/
def IsWord (w : Str) : Prop := w ≠ [] ∧ ∀ c ∈ w, isspace c = false ∧ c ≠ NUL

theorem isWord_of_all (hne : w ≠ [])
    (hall : w.all (fun c => !isspace c && decide (c ≠ NUL)) = true) : IsWord w := by
  refine ⟨hne, fun c hc => ?_⟩
  simpa using List.all_eq_true.mp hall c hc

theorem scan_spaces (front rest : Str) (hsp : ∀ c ∈ sp, isspace c = true)
    (hline : line = [] ∨ ∃ c l, line = c :: l ∧ isspace c = false) :
    scan (fun c => c ≠ NUL && isspace c) (lineAt front (sp ++ line) rest) front.length =
      (front ++ sp).length := by
  refine scan_lineAt front rest (by simp) ?_ ?_
  · intro c hc
    have hne : c ≠ NUL := by
      rintro rfl
      exact absurd (hsp NUL hc) (by decide)
    simp [hne, hsp c hc]
  · rcases hline with rfl | ⟨c, l, rfl, hc⟩
    · exact Or.inl rfl
    · exact Or.inr ⟨c, l, rfl, by simp [hc]⟩

theorem scan_word (front rest : Str) (hw : IsWord w)
    (hline : line = [] ∨ ∃ d l, line = d :: l ∧ isspace d = true) :
    scan (fun c => c ≠ NUL && !isspace c) (lineAt front (w ++ line) rest) front.length =
      (front ++ w).length := by
  refine scan_lineAt front rest (by simp) ?_ ?_
  · intro c hc
    simp [hw.2 c hc]
  · rcases hline with rfl | ⟨d, l, rfl, hd⟩
    · exact Or.inl rfl
    · exact Or.inr ⟨d, l, rfl, by simp [hd]⟩

theorem IsWord.starts (hw : IsWord w) (line : Str) :
    ∃ c l, w ++ line = c :: l ∧ isspace c = false ∧ c ≠ NUL := by
  cases w with
  | nil => exact absurd rfl hw.1
  | cons c w => exact ⟨c, w ++ line, rfl, hw.2 c (by simp)⟩

/-! One turn of the loop, by what is left of the line. -/

section
variable {maxparam n : Nat} {front rest : Str} {paramv : List Nat}

theorem mkparamLoop_spaces (hsp : ∀ c ∈ sp, isspace c = true) :
    mkparamLoop maxparam (n + 1) (lineAt front sp rest) front.length paramv =
      (lineAt front sp rest, paramv) := by
  have hscan := scan_spaces front rest hsp (Or.inl rfl)
  have hend : lineAt front sp rest = lineAt (front ++ sp) [] rest := by
    rw [← lineAt_append, List.append_nil]
  rw [List.append_nil] at hscan
  simp only [mkparamLoop]
  rw [hscan, hend, if_pos (readAt_lineAt_nil _ _)]

/-- Up to the word: its start is stored, and the turn goes on there if there is room for
one more. -/
theorem mkparamLoop_start {sp w line : Str} (hsp : ∀ c ∈ sp, isspace c = true) (hw : IsWord w)
    (hline : line = [] ∨ ∃ d l, line = d :: l ∧ isspace d = true) :
    mkparamLoop maxparam (n + 1) (lineAt front (sp ++ (w ++ line)) rest) front.length paramv =
      if maxparam ≤ paramv.length + 1 then
        (lineAt front (sp ++ (w ++ line)) rest, paramv ++ [(front ++ sp).length])
      else if readAt (lineAt (front ++ sp ++ w) line rest) (front ++ sp ++ w).length = NUL then
        (lineAt (front ++ sp ++ w) line rest, paramv ++ [(front ++ sp).length])
      else
        mkparamLoop maxparam n
          ((lineAt (front ++ sp ++ w) line rest).set (front ++ sp ++ w).length NUL)
          ((front ++ sp ++ w).length + 1) (paramv ++ [(front ++ sp).length]) := by
  obtain ⟨c, l, hcons, hc, hcNul⟩ := hw.starts line
  have hread : readAt (lineAt (front ++ sp) (w ++ line) rest) (front ++ sp).length ≠ NUL := by
    rw [hcons, readAt_lineAt_cons]
    exact hcNul
  simp only [mkparamLoop]
  rw [scan_spaces front rest hsp (Or.inr ⟨c, l, hcons, hc⟩), lineAt_append, if_neg hread,
    List.length_append, List.length_singleton, scan_word (front ++ sp) rest hw hline, lineAt_append]

section
variable (hsp : ∀ c ∈ sp, isspace c = true)
include hsp

theorem mkparamLoop_full (hw : IsWord w)
    (hline : line = [] ∨ ∃ d l, line = d :: l ∧ isspace d = true)
    (hroom : maxparam ≤ paramv.length + 1) :
    mkparamLoop maxparam (n + 1) (lineAt front (sp ++ (w ++ line)) rest) front.length paramv =
      (lineAt front (sp ++ (w ++ line)) rest, paramv ++ [(front ++ sp).length]) := by
  rw [mkparamLoop_start hsp hw hline, if_pos hroom]

theorem mkparamLoop_lastWord (hw : IsWord w) :
    mkparamLoop maxparam (n + 1) (lineAt front (sp ++ w) rest) front.length paramv =
      (lineAt front (sp ++ w) rest, paramv ++ [(front ++ sp).length]) := by
  have hstart := @mkparamLoop_start maxparam n front rest paramv sp w [] hsp hw (Or.inl rfl)
  rw [List.append_nil, if_pos (readAt_lineAt_nil _ _), ← lineAt_append, ← lineAt_append,
    List.append_nil, ite_self] at hstart
  exact hstart

theorem mkparamLoop_word (hw : IsWord w) (hd : isspace d = true)
    (hroom : paramv.length + 1 < maxparam) :
    mkparamLoop maxparam (n + 1) (lineAt front (sp ++ (w ++ d :: line)) rest) front.length paramv =
      mkparamLoop maxparam n (lineAt (front ++ sp ++ w ++ [NUL]) line rest)
        (front ++ sp ++ w ++ [NUL]).length (paramv ++ [(front ++ sp).length]) := by
  have hdNul : d ≠ NUL := by
    rintro rfl
    exact absurd hd (by decide)
  have hlen : (front ++ sp ++ w ++ [NUL]).length = (front ++ sp ++ w).length + 1 :=
    List.length_append
  rw [mkparamLoop_start hsp hw (Or.inr ⟨d, line, rfl, hd⟩), if_neg (by omega),
    readAt_lineAt_cons, if_neg hdNul, set_lineAt, hlen]

end

end

theorem cstr_word (hw : IsWord w) (front after : Str) :
    cstr (front ++ (w ++ NUL :: after)) front.length = w :=
  cstr_append (fun c hc => (hw.2 c hc).2) after

theorem line_cases (hNul : NUL ∉ line) :
    (∀ c ∈ line, isspace c = true) ∨
    (∃ sp w, line = sp ++ w ∧ (∀ c ∈ sp, isspace c = true) ∧ IsWord w) ∨
    ∃ sp w c l, line = sp ++ (w ++ c :: l) ∧ (∀ c ∈ sp, isspace c = true) ∧ IsWord w ∧
      isspace c = true := by
  rcases run_cases isspace line with hall | ⟨sp, c, l, rfl, hsp, hc⟩
  · exact Or.inl hall
  · have hNul' : ∀ d ∈ c :: l, d ≠ NUL := by
      rintro d hd rfl
      exact hNul (List.mem_append_right sp hd)
    rcases run_cases (fun d => !isspace d) (c :: l) with hall | ⟨w, d, l', heq, hw, hd⟩
    · refine Or.inr (Or.inl ⟨sp, c :: l, rfl, hsp, by simp, fun d hd => ?_⟩)
      exact ⟨by simpa using hall d hd, hNul' d hd⟩
    · refine Or.inr (Or.inr ⟨sp, w, d, l', by rw [heq], hsp, ⟨?_, fun x hx => ?_⟩, ?_⟩)
      · rintro rfl
        cases heq
        simp [hc] at hd
      · exact ⟨by simpa using hw x hx, hNul' x (heq ▸ List.mem_append_left _ hx)⟩
      · simpa using hd

/-- What the loop makes of a line behind `front` with room for `k` words: the line it
leaves, and the pointers it stores. -/
inductive Cut : Nat → Str → Str → Str → List Nat → Prop
  | spaces {k : Nat} {front line : Str} (hsp : ∀ c ∈ line, isspace c = true) :
      Cut (k + 1) front line line []
  | last {k : Nat} {front sp w : Str} (hsp : ∀ c ∈ sp, isspace c = true) (hw : IsWord w) :
      Cut (k + 1) front (sp ++ w) (sp ++ w) [(front ++ sp).length]
  | full {front sp w l : Str} {c : Char} (hsp : ∀ c ∈ sp, isspace c = true) (hw : IsWord w)
      (hc : isspace c = true) :
      Cut 1 front (sp ++ (w ++ c :: l)) (sp ++ (w ++ c :: l)) [(front ++ sp).length]
  | word {k : Nat} {front sp w l l' : Str} {c : Char} {ps : List Nat}
      (hsp : ∀ c ∈ sp, isspace c = true) (hw : IsWord w) (hc : isspace c = true)
      (hrest : Cut (k + 1) (front ++ sp ++ w ++ [NUL]) l l' ps) :
      Cut (k + 2) front (sp ++ (w ++ c :: l)) (sp ++ (w ++ NUL :: l')) ((front ++ sp).length :: ps)

/-- **The loop of `_mkparam` cuts the line**, by induction on what is left of it. -/
theorem mkparamLoop_cut (rest : Str) :
    ∀ (n k : Nat) (front line : Str) (paramv : List Nat), line.length < n → NUL ∉ line →
      ∃ line' ps, Cut (k + 1) front line line' ps ∧
        mkparamLoop (paramv.length + (k + 1)) n (lineAt front line rest) front.length paramv =
          (lineAt front line' rest, paramv ++ ps) := by
  intro n
  induction n with
  | zero => intro k front line paramv hn; omega
  | succ n ih =>
    intro k front line paramv hn hNul
    rcases line_cases hNul with
      hall | ⟨sp, w, rfl, hsp, hword⟩ | ⟨sp, w, c, l, rfl, hsp, hword, hc⟩
    · refine ⟨line, [], Cut.spaces hall, ?_⟩
      rw [mkparamLoop_spaces hall, List.append_nil]
    · exact ⟨_, _, Cut.last hsp hword, mkparamLoop_lastWord hsp hword⟩
    · cases k with
      | zero =>
        exact ⟨_, _, Cut.full hsp hword hc,
          mkparamLoop_full hsp hword (Or.inr ⟨c, l, rfl, hc⟩) (Nat.le_refl _)⟩
      | succ k =>
        have hshort : l.length < n := by
          simp only [List.length_append, List.length_cons] at hn
          omega
        obtain ⟨l', ps, hcut, hloop⟩ := ih k (front ++ sp ++ w ++ [NUL]) l
          (paramv ++ [(front ++ sp).length]) hshort (fun h => hNul (by simp [h]))
        have hmax : (paramv ++ [(front ++ sp).length]).length + (k + 1) =
            paramv.length + (k + 1 + 1) := by
          rw [List.length_append, List.length_singleton]
          omega
        rw [hmax] at hloop
        refine ⟨_, _, Cut.word hsp hword hc hcut, ?_⟩
        rw [mkparamLoop_word hsp hword hc (by omega), hloop, lineAt_cut,
          List.append_assoc paramv]
        rfl

theorem mkparam_cut (rest : Str) (k : Nat) (hNul : NUL ∉ line) :
    ∃ line' ps, Cut (k + 1) [] line line' ps ∧
      mkparam (lineAt [] line rest) (k + 1) = (lineAt [] line' rest, ps) := by
  have hlen : line.length < (lineAt [] line rest).length + 1 := by
    simp only [lineAt, List.length_append]
    omega
  obtain ⟨line', ps, hcut, hloop⟩ := mkparamLoop_cut rest _ k [] line [] hlen hNul
  rw [List.length_nil, Nat.zero_add] at hloop
  exact ⟨line', ps, hcut, hloop⟩

theorem words_of_spaces (hall : ∀ c ∈ line, isspace c = true) : words line = [] := by
  have h := words_spaces line [] hall
  rwa [List.append_nil, words_nil] at h

theorem words_last (hsp : ∀ c ∈ sp, isspace c = true) (hw : IsWord w) : words (sp ++ w) = [w] := by
  rw [words_spaces sp _ hsp, words_word hw.1 (fun d hd => (hw.2 d hd).1)]

theorem words_cons (hsp : ∀ c ∈ sp, isspace c = true) (hw : IsWord w) (hc : isspace c = true)
    (l : Str) : words (sp ++ (w ++ c :: l)) = w :: words l := by
  rw [words_spaces sp _ hsp, words_word_space hw.1 (fun x hx => (hw.2 x hx).1) hc]

theorem cstr_lineAt_word (front after rest : Str) (hw : IsWord w) :
    cstr (lineAt front (sp ++ (w ++ NUL :: after)) rest) (front ++ sp).length = w := by
  have hstart : lineAt front (sp ++ (w ++ NUL :: after)) rest =
      (front ++ sp) ++ (w ++ NUL :: (after ++ NUL :: rest)) := by
    simp [lineAt]
  rw [hstart, cstr_word hw]

theorem cstr_lineAt_last (front rest : Str) (hw : IsWord w) :
    cstr (lineAt front (sp ++ w) rest) (front ++ sp).length = w := by
  rw [lineAt_append]
  exact cstr_word hw (front ++ sp) rest

theorem Cut.strings {k : Nat} {front line' : Str} {ps : List Nat} (h : Cut k front line line' ps)
    (rest : Str) (hroom : (words line).length < k) :
    ps.map (cstr (lineAt front line' rest)) = words line := by
  induction h with
  | spaces hsp =>
    rw [words_of_spaces hsp]
    rfl
  | last hsp hw => rw [words_last hsp hw, List.map_singleton, cstr_lineAt_last _ _ hw]
  | full hsp hw hc =>
    rw [words_cons hsp hw hc, List.length_cons] at hroom
    omega
  | @word k front sp w l l' c ps hsp hw hc hrest ih =>
    rw [words_cons hsp hw hc, List.length_cons] at hroom
    rw [words_cons hsp hw hc, List.map_cons, cstr_lineAt_word _ _ _ hw, lineAt_cut,
      ih (by omega)]

theorem mkparam_words (rest : Str) (maxparam : Nat) (hNul : NUL ∉ line)
    (hroom : (words line).length < maxparam) :
    ((mkparam (lineAt [] line rest) maxparam).2.map
      (cstr (mkparam (lineAt [] line rest) maxparam).1)) = words line := by
  obtain ⟨k, rfl⟩ := Nat.exists_eq_succ_of_ne_zero (Nat.ne_of_gt (Nat.zero_lt_of_lt hroom))
  obtain ⟨line', ps, hcut, hpair⟩ := mkparam_cut rest k hNul
  rw [Nat.succ_eq_add_one, hpair]
  exact hcut.strings rest hroom

/-! ### The line in the buffer -/

theorem lineBuffer_eq (buf : Str) (len : Nat) (hNul : NUL ∉ contents) :
    ∃ rest, lineBuffer buf contents len =
      lineAt [] ((contents.take (len - 1)).takeWhile (· ≠ '\n')) rest := by
  generalize hl : (contents.take (len - 1)).takeWhile (· ≠ '\n') = l
  have hrun : ∀ x ∈ l, (decide (x ≠ '\n') && decide (x ≠ NUL)) = true := by
    intro x hx
    rw [← hl] at hx
    have hnl := List.mem_takeWhile_imp hx
    have hne : x ≠ NUL := fun h =>
      hNul (h ▸ List.mem_of_mem_take ((List.takeWhile_sublist _).subset hx))
    rw [hnl, Bool.true_and]
    exact decide_eq_true hne
  -- the character behind the line is the one that ends it
  have hend : ∃ c after, (c = '\n' ∨ c = NUL) ∧
      splice buf 0 (contents.take (len - 1) ++ [NUL]) = [] ++ (l ++ c :: after) := by
    rcases run_cases (fun x => decide (x ≠ '\n')) (contents.take (len - 1)) with
      hall | ⟨a, c, b, heq, ha, hc⟩
    · have hself : contents.take (len - 1) = l := by
        rw [← hl, List.takeWhile_eq_self_iff.mpr hall]
      exact ⟨NUL, _, Or.inr rfl, by simp [splice, hself]; rfl⟩
    · have hself : a = l := by
        rw [← hl, heq, List.takeWhile_append_of_pos ha, List.takeWhile_cons, hc]
        simp
      exact ⟨c, _, Or.inl (by simpa using hc), by simp [splice, heq, hself]; rfl⟩
  obtain ⟨c, after, hc, hbuf⟩ := hend
  have hstop : (decide (c ≠ '\n') && decide (c ≠ NUL)) = false := by
    rcases hc with rfl | rfl
    · rfl
    · rfl
  have hscan := scan_append (a := []) hrun hstop after
  rw [List.length_nil, Nat.zero_add] at hscan
  refine ⟨after, ?_⟩
  unfold lineBuffer
  rw [hbuf]
  simp only [hscan]
  rw [List.nil_append, readAt_append_length]
  rcases hc with rfl | rfl
  · rw [if_pos rfl]
    simp [lineAt]
  · rw [if_neg (by decide)]
    rfl

theorem nul_not_mem_contents (hNul : NUL ∉ line)
    (hc : contents = line ∨ contents = line ++ ['\n']) : NUL ∉ contents := by
  rcases hc with rfl | rfl
  · exact hNul
  · intro h
    rcases List.mem_append.mp h with h | h
    · exact hNul h
    · exact absurd h (by decide)

/-- The buffer after `_read_line` is the line and its end, whether the file ends in a
newline or the buffer had no room for it. -/
theorem lineBuffer_line (buf : Str) (hlen : line.length < 4096) (hNul : NUL ∉ line)
    (hnl : '\n' ∉ line) (hc : contents = line ∨ contents = line ++ ['\n']) :
    ∃ rest, lineBuffer buf contents 4096 = lineAt [] line rest := by
  have hself : ∀ x ∈ line, decide (x ≠ '\n') = true := by
    intro x hx
    exact decide_eq_true fun h => hnl (h ▸ hx)
  have htake : contents.take 4095 = line ∨ contents.take 4095 = line ++ ['\n'] := by
    rcases hc with rfl | rfl
    · exact Or.inl (List.take_of_length_le (by omega))
    · by_cases hfull : line.length = 4095
      · exact Or.inl (by rw [← hfull, List.take_left])
      · exact Or.inr (List.take_of_length_le (by simp; omega))
  have hfirst : (contents.take 4095).takeWhile (· ≠ '\n') = line := by
    rcases htake with heq | heq
    · rw [heq]
      exact List.takeWhile_eq_self_iff.mpr hself
    · rw [heq, List.takeWhile_append_of_pos hself]
      exact List.append_nil line
  obtain ⟨rest, hbuf⟩ := lineBuffer_eq buf 4096 (nul_not_mem_contents hNul hc)
  rw [hfirst] at hbuf
  exact ⟨rest, hbuf⟩

/-! ### The buffer from the split to `execv` -/

section
variable (ok : Nat → Bool)

theorem sys_keeps (c : Call) : Keeps State.cbuf (sys ok c) := by
  intro s a s' h
  cases h
  rfl

theorem check_keeps (c : Call) (fatal : Bool) (msg : Str) :
    Keeps State.cbuf (check ok c fatal msg) :=
  Keeps.bind (sys_keeps ok c) fun r => Keeps.ite _ (Keeps.throw msg) (Keeps.pure r)

theorem mkpath_keeps (fatal : Bool) : ∀ ds, Keeps State.cbuf (mkpath ok fatal ds) := by
  intro ds
  induction ds with
  | nil => exact Keeps.pure true
  | cons d ds ih =>
    exact Keeps.bind (check_keeps ok _ _ _) fun r => Keeps.ite _ ih (Keeps.pure false)

theorem mkdir_keeps (path : Str) (fatal : Bool) : Keeps State.cbuf (mkdir ok path fatal) :=
  Keeps.bind (mkpath_keeps ok _ _) fun _ =>
    Keeps.ite _ (check_keeps ok _ _ _) (Keeps.pure false)

theorem mount_keeps (source : Option Str) (target : Str) (type : Option Str) (flags : Nat)
    (data : Option Str) (fatal : Bool) :
    Keeps State.cbuf (mount ok source target type flags data fatal) := by
  refine Keeps.bind (mkdir_keeps ok target fatal) fun _ => Keeps.ite _ ?_ (Keeps.pure false)
  refine Keeps.bind ?_ fun _ => Keeps.ite _ (check_keeps ok _ _ _) (Keeps.pure false)
  exact Keeps.ite _ (check_keeps ok _ _ _) (Keeps.pure true)

theorem umount_keeps (target : Str) : Keeps State.cbuf (umount ok target) :=
  Keeps.bind (sys_keeps ok _) fun _ => Keeps.ite _ (Keeps.pure true) (sys_keeps ok _)

theorem openEither_keeps (path : Str) (mode : OpenMode) :
    Keeps State.cbuf (openEither ok path mode) := by
  refine Keeps.bind (sys_keeps ok _) fun _ => Keeps.ite _ (Keeps.pure _) ?_
  exact Keeps.bind (sys_keeps ok _) fun _ => Keeps.ite _ (Keeps.pure _) (Keeps.pure none)

theorem losetup_keeps (loop file : Str) (fatal : Bool) :
    Keeps State.cbuf (losetup ok loop file fatal) := by
  refine Keeps.bind (openEither_keeps ok file .rdwr) fun opened => ?_
  cases opened with
  | none => exact Keeps.ite _ (Keeps.throw _) (Keeps.pure false)
  | some mode =>
    refine Keeps.bind (openEither_keeps ok loop mode) fun opened => ?_
    cases opened with
    | none => exact Keeps.ite _ (Keeps.throw _) (Keeps.pure false)
    | some _ => exact check_keeps ok _ _ _

section
variable (target : Str) (type : Option Str) (flags : Nat) (data : Option Str)

theorem tryPiece_keeps (path : Str) :
    Keeps State.cbuf (tryPiece ok target type flags data path) :=
  Keeps.bind (sys_keeps ok _) fun _ => Keeps.ite _ (mount_keeps ok _ _ _ _ _ _) (Keeps.pure false)

/-- **A round of `_multimount` restores what it cut**, piece by piece. -/
theorem multimountPieces_keeps :
    ∀ n t, Keeps State.cbuf (multimountPieces ok target type flags data n t) := by
  intro n
  induction n with
  | zero => intro t; exact Keeps.pure false
  | succ n ih =>
    intro t s r s' h
    unfold multimountPieces at h
    obtain ⟨_, _, hget, h⟩ := bind_eq_ok.mp h
    cases hget
    obtain ⟨_, cut, hcut, h⟩ := bind_eq_ok.mp h
    cases hcut
    obtain ⟨mounted, tried, htry, h⟩ := bind_eq_ok.mp h
    obtain ⟨_, back, hback, h⟩ := bind_eq_ok.mp h
    cases hback
    -- the cut is still there after the attempt, and is undone
    have hcut := tryPiece_keeps ok target type flags data _ _ _ _ htry
    have hback : tried.cbuf.set (scan (fun c => c ≠ ',' && c ≠ NUL) s.cbuf t)
        (readAt s.cbuf (scan (fun c => c ≠ ',' && c ≠ NUL) s.cbuf t)) = s.cbuf := by
      rw [hcut]
      exact set_restore _ _ _
    refine Eq.trans ?_ hback
    refine Keeps.ite _ (Keeps.pure true) ?_ _ _ _ h
    exact Keeps.ite _ (ih _) (Keeps.pure false)

theorem multimountTries_keeps (source : Nat) :
    ∀ tries, Keeps State.cbuf (multimountTries ok target type flags data source tries) := by
  intro tries
  induction tries with
  | zero => exact Keeps.pure false
  | succ tries ih =>
    refine Keeps.bind Keeps.get fun _ => ?_
    exact Keeps.bind (multimountPieces_keeps ok target type flags data _ _) fun _ =>
      Keeps.ite _ (Keeps.pure true) ih

theorem multimount_keeps (source retries : Nat) (fatal : Bool) :
    Keeps State.cbuf (multimount ok target type flags data source retries fatal) := by
  refine Keeps.bind (multimountTries_keeps ok target type flags data source retries) fun _ => ?_
  refine Keeps.ite _ (Keeps.pure true) (Keeps.bind Keeps.get fun _ => ?_)
  exact Keeps.ite _ (Keeps.throw _) (Keeps.pure false)

end

theorem bootParam_keeps (paramv : List Nat) : Keeps State.cbuf (bootParam ok paramv) := by
  refine Keeps.bind Keeps.get fun s => ?_
  split
  · exact Keeps.pure false
  · exact Keeps.bind (multimount_keeps ok _ _ _ _ _ _ _) fun _ => Keeps.pure true

theorem loopParam_keeps (p : Nat) : Keeps State.cbuf (loopParam ok p) :=
  Keeps.bind Keeps.get fun _ => Keeps.ite _ (losetup_keeps ok _ _ _) (Keeps.pure true)

theorem loopParams_keeps : ∀ paramv, Keeps State.cbuf (loopParams ok paramv) := by
  intro paramv
  induction paramv with
  | nil => exact Keeps.pure ()
  | cons p paramv ih => exact Keeps.bind (loopParam_keeps ok p) fun _ => ih

theorem rootParam_keeps (paramv : List Nat) : Keeps State.cbuf (rootParam ok paramv) := by
  refine Keeps.bind Keeps.get fun s => ?_
  split
  · exact Keeps.throw _
  · exact multimount_keeps ok _ _ _ _ _ _ _

theorem moveBoot_keeps (boot : Bool) : Keeps State.cbuf (moveBoot ok boot) :=
  Keeps.ite _ (mount_keeps ok _ _ _ _ _ _) (Keeps.pure true)

theorem switchRoot_keeps : Keeps State.cbuf (switchRoot ok) := by
  refine Keeps.bind (check_keeps ok _ _ _) fun _ => ?_
  refine Keeps.bind (check_keeps ok _ _ _) fun _ => ?_
  refine Keeps.bind (check_keeps ok _ _ _) fun _ => ?_
  refine Keeps.bind (check_keeps ok _ _ _) fun _ => ?_
  refine Keeps.bind (check_keeps ok _ _ _) fun _ => ?_
  refine Keeps.bind (sys_keeps ok _) fun _ => ?_
  refine Keeps.bind (umount_keeps ok _) fun _ => ?_
  refine Keeps.bind (umount_keeps ok _) fun _ => ?_
  refine Keeps.bind (mount_keeps ok _ _ _ _ _ _) fun _ => ?_
  exact Keeps.bind (check_keeps ok _ _ _) fun _ => check_keeps ok _ _ _

end

/-! ### The path of `init` -/

/-- The first accessible default: those in front of it were refused, and these attempts
are the last calls in front of `execv`. -/
def FirstAccessible (log : List (Call × Bool)) (path : Str) : Prop :=
  ∃ before refused others, inits = refused ++ path :: others ∧
    log = before ++ refused.map (fun d => (.access d X_OK, false)) ++ [(.access path X_OK, true)]

theorem strcpySbuf_ok {src sbuf : Str} {s s' : State} (h : strcpySbuf src s = .ok sbuf s') :
    sbuf = src ∧ s' = s := by
  unfold strcpySbuf at h
  split at h
  · cases h
    exact ⟨rfl, rfl⟩
  · cases h

theorem locateInit_ok (ok : Nat → Bool) : ∀ (ds : List Str) (s s' : State) (path : Str),
    locateInit ok ds s = .ok path s' →
    s'.cbuf = s.cbuf ∧ ∃ refused others, ds = refused ++ path :: others ∧
      s'.log = s.log ++ refused.map (fun d => (.access d X_OK, false)) ++
        [(.access path X_OK, true)] := by
  intro ds
  induction ds with
  | nil => intro s s' path h; cases h
  | cons d ds ih =>
    intro s s' path h
    obtain ⟨r, t, hsys, h⟩ := bind_eq_ok.mp h
    cases hsys
    cases hr : ok s.log.length with
    | true =>
      rw [hr, if_pos rfl] at h
      obtain ⟨rfl, rfl⟩ := strcpySbuf_ok h
      exact ⟨rfl, [], ds, rfl, by simp⟩
    | false =>
      rw [hr, if_neg Bool.false_ne_true] at h
      obtain ⟨hbuf, refused, others, hds, hlog⟩ := ih _ _ _ h
      refine ⟨hbuf, d :: refused, others, by rw [hds]; rfl, ?_⟩
      rw [hlog]
      simp

theorem lastInit_concat (ws : List Str) (w : Str) :
    lastInit (ws ++ [w]) =
      if "init=".toList.isPrefixOf w then w.drop 5 else lastInit ws := by
  unfold lastInit
  rw [List.filter_append]
  by_cases hw : "init=".toList.isPrefixOf w = true
  · rw [if_pos hw, List.filter_cons_of_pos hw, List.filter_nil, List.getLast?_concat]
    rfl
  · rw [if_neg hw, List.filter_cons_of_neg hw, List.filter_nil, List.append_nil]

theorem initParam_ok {ws : List Str} {sbuf sbuf' : Str} {p : Nat} {s s' : State}
    (hsbuf : sbuf = lastInit ws) (hone : initParam sbuf p s = .ok sbuf' s') :
    sbuf' = lastInit (ws ++ [cstr s.cbuf p]) ∧ s' = s := by
  obtain ⟨_, _, hget, h⟩ := bind_eq_ok.mp hone
  cases hget
  rw [lastInit_concat]
  show (_ = if hasKey s.cbuf "init=".toList p = true then _ else _) ∧ _
  by_cases hkey : hasKey s.cbuf "init=".toList p = true
  · rw [if_pos hkey] at h
    obtain ⟨rfl, rfl⟩ := strcpySbuf_ok h
    have hlen : 5 ≤ (cstr s'.cbuf p).length :=
      (List.isPrefixOf_iff_prefix.mp hkey).length_le
    rw [if_pos hkey, cstr_add 5 p hlen]
    exact ⟨rfl, rfl⟩
  · rw [if_neg hkey] at h
    cases h
    rw [if_neg hkey]
    exact ⟨hsbuf, rfl⟩

theorem initParams_ok : ∀ (paramv : List Nat) (ws : List Str) (sbuf sbuf' : Str) (s s' : State),
    sbuf = lastInit ws → initParams paramv sbuf s = .ok sbuf' s' →
    sbuf' = lastInit (ws ++ paramv.map (cstr s.cbuf)) ∧ s' = s := by
  intro paramv
  induction paramv with
  | nil =>
    intro ws sbuf sbuf' s s' hsbuf h
    cases h
    rw [List.map_nil, List.append_nil]
    exact ⟨hsbuf, rfl⟩
  | cons p paramv ih =>
    intro ws sbuf sbuf' s s' hsbuf hall
    obtain ⟨sbuf1, t, hone, hrest⟩ := bind_eq_ok.mp hall
    obtain ⟨hsbuf1, rfl⟩ := initParam_ok hsbuf hone
    have hlast := ih _ _ _ _ _ hsbuf1 hrest
    rw [List.append_assoc] at hlast
    exact hlast

theorem initPath_ok {s s' : State} (hpath : initPath ok paramv s = .ok path s') :
    s'.cbuf = s.cbuf ∧
    (lastInit (paramv.map (cstr s.cbuf)) ≠ [] → path = lastInit (paramv.map (cstr s.cbuf))) ∧
    (lastInit (paramv.map (cstr s.cbuf)) = [] → FirstAccessible s'.log path) := by
  obtain ⟨sbuf, t, hparams, h⟩ := bind_eq_ok.mp hpath
  obtain ⟨hsbuf, rfl⟩ := initParams_ok paramv [] [] sbuf s t rfl hparams
  rw [List.nil_append] at hsbuf
  rw [← hsbuf]
  by_cases hempty : sbuf = []
  · rw [if_pos hempty] at h
    obtain ⟨hbuf, refused, others, hinits, hlog⟩ := locateInit_ok ok _ _ _ _ h
    exact ⟨hbuf, fun hne => absurd hempty hne, fun _ => ⟨_, refused, others, hinits, hlog⟩⟩
  · rw [if_neg hempty] at h
    cases h
    exact ⟨rfl, fun _ => rfl, fun he => absurd he hempty⟩

/-! ### The argument vector -/

theorem prepare_ok {s s' : State} (h : prepare ok paramv s = .ok path s') :
    s'.cbuf = s.cbuf ∧
    (lastInit (paramv.map (cstr s.cbuf)) ≠ [] → path = lastInit (paramv.map (cstr s.cbuf))) ∧
    (lastInit (paramv.map (cstr s.cbuf)) = [] → FirstAccessible s'.log path) := by
  obtain ⟨boot, s1, h1, h⟩ := bind_eq_ok.mp h
  obtain ⟨_, s2, h2, h⟩ := bind_eq_ok.mp h
  obtain ⟨_, s3, h3, h⟩ := bind_eq_ok.mp h
  obtain ⟨_, s4, h4, h⟩ := bind_eq_ok.mp h
  obtain ⟨_, s5, h5, h⟩ := bind_eq_ok.mp h
  have hbuf : s5.cbuf = s.cbuf := by
    rw [switchRoot_keeps ok _ _ _ h5, moveBoot_keeps ok _ _ _ _ h4,
      rootParam_keeps ok _ _ _ _ h3, loopParams_keeps ok _ _ _ _ h2,
      bootParam_keeps ok _ _ _ _ h1]
  rw [← hbuf]
  exact initPath_ok h

theorem readLine_ok {len : Nat} {s s' : State} {r : Bool}
    (hread : readLine ok path contents len true s = .ok r s') :
    s'.cbuf = lineBuffer s.cbuf contents len := by
  have hfatal : ∀ {c msg s t} {r : Bool}, check ok c true msg s = .ok r t →
      r = true ∧ t.cbuf = s.cbuf := by
    intro c msg s t r h
    have hbuf := check_keeps ok _ _ _ _ _ _ h
    obtain ⟨r', _, hsys, h⟩ := bind_eq_ok.mp h
    cases r' with
    | true => cases h; exact ⟨rfl, hbuf⟩
    | false => cases h
  obtain ⟨r1, s1, hopen, h1⟩ := bind_eq_ok.mp hread
  obtain ⟨rfl, hbuf1⟩ := hfatal hopen
  obtain ⟨r2, s2, hdata, h2⟩ := bind_eq_ok.mp h1
  obtain ⟨rfl, hbuf2⟩ := hfatal hdata
  cases h2
  show lineBuffer s2.cbuf contents len = _
  rw [hbuf2, hbuf1]

/-- **`execv` gets the path of `init` and the words of the command line**: every word,
unchanged and in order, whatever the system calls answered on the way. -/
theorem execv_arguments {ok : Nat → Bool} {line contents path : Str} {argv : List Str}
    {s s' : State} (hlen : line.length < 4096) (hNul : NUL ∉ line) (hnl : '\n' ∉ line)
    (hc : contents = line ∨ contents = line ++ ['\n']) (hwords : (words line).length ≤ 61)
    (hreached : execArgs ok contents s = .ok (path, argv) s') :
    argv = path :: words line ∧
    (lastInit (words line) ≠ [] → path = lastInit (words line)) ∧
    (lastInit (words line) = [] → FirstAccessible s'.log path) := by
  obtain ⟨_, s1, _, h1⟩ := bind_eq_ok.mp hreached
  obtain ⟨_, s2, _, h2⟩ := bind_eq_ok.mp h1
  obtain ⟨_, s3, hread, h3⟩ := bind_eq_ok.mp h2
  obtain ⟨paramv, s4, hsplit, h4⟩ := bind_eq_ok.mp h3
  obtain ⟨path', s5, hprepare, h5⟩ := bind_eq_ok.mp h4
  obtain ⟨_, _, hget, h6⟩ := bind_eq_ok.mp h5
  cases hget
  cases h6
  cases hsplit
  obtain ⟨rest, hline⟩ := lineBuffer_line s2.cbuf hlen hNul hnl hc
  have hparams := mkparam_words rest 62 hNul (by omega)
  rw [← hline, ← readLine_ok hread] at hparams
  obtain ⟨hbuf, hgiven, hdefault⟩ := prepare_ok hprepare
  rw [hparams] at hgiven hdefault
  refine ⟨?_, hgiven, hdefault⟩
  rw [hbuf, hparams]

/-- The first device of the list is missing, the second is mounted. -/
theorem execv_arguments_second_device :
    (words "root=/dev/sda1,/dev/sda2  quiet".toList).length ≤ 61 ∧
    ∃ s', execArgs (fun n => n ≠ 6) "root=/dev/sda1,/dev/sda2  quiet\n".toList ⟨[], []⟩ =
        .ok ("/sbin/init".toList,
          ["/sbin/init".toList, "root=/dev/sda1,/dev/sda2".toList, "quiet".toList]) s' ∧
      FirstAccessible s'.log "/sbin/init".toList := by
  have hrun : execArgs (fun n => n ≠ 6) "root=/dev/sda1,/dev/sda2  quiet\n".toList ⟨[], []⟩ =
      .ok ("/sbin/init".toList,
        ["/sbin/init".toList, "root=/dev/sda1,/dev/sda2".toList, "quiet".toList])
        (endState (execArgs (fun n => n ≠ 6)
          "root=/dev/sda1,/dev/sda2  quiet\n".toList ⟨[], []⟩)) := by
    decide +kernel
  refine ⟨by decide +kernel, _, hrun, ?_⟩
  have hargs := @execv_arguments _ "root=/dev/sda1,/dev/sda2  quiet".toList _ _ _ _ _
    (by decide) (by decide) (by decide) (Or.inr (by decide)) (by decide +kernel) hrun
  exact hargs.2.2 (by decide +kernel)

end Dingoo.Mininit
