/-
What `_mkparam` makes of every line.

The end of a word is written by the step to the next one.  The last word there is room
for has no next step, so its string goes on to the end of the line.  The number of
words is right in every case; the strings are right where the vector keeps a place
free, or where it is filled by a word that ends with the line.
-/
import Dingoo.Proofs.Mininit

namespace Dingoo.Mininit

open Dingoo.Lib

variable {c : Char} {l w : Str}

/-- The last character of the line is no white space. -/
def EndsInWord (line : Str) : Prop := ∀ c ∈ line.getLast?, isspace c = false

theorem endsInWord_iff (line : Str) :
    line.getLast?.all (fun c => !isspace c) = true ↔ EndsInWord line := by
  unfold EndsInWord
  cases line.getLast? with
  | none => simp
  | some c => simp

instance (line : Str) : Decidable (EndsInWord line) := decidable_of_iff _ (endsInWord_iff line)

theorem IsWord.not_isspace_last (hw : IsWord w) (sp : Str) : EndsInWord (sp ++ w) := by
  intro c hc
  rw [List.getLast?_append_of_ne_nil _ hw.1] at hc
  exact (hw.2 c (List.mem_of_getLast? hc)).1

theorem endsInWord_cons (a : Str) (c : Char) (hl : l ≠ []) :
    EndsInWord (a ++ c :: l) ↔ EndsInWord l := by
  unfold EndsInWord
  rw [List.append_cons, List.getLast?_append_of_ne_nil _ hl]

theorem not_endsInWord (a : Str) (hc : isspace c = true) (hl : ∀ d ∈ l, isspace d = true) :
    ¬ EndsInWord (a ++ c :: l) := by
  intro h
  have hne := List.cons_ne_nil c l
  have hlast : (c :: l).getLast hne ∈ (a ++ c :: l).getLast? := by
    rw [List.getLast?_append_of_ne_nil _ hne, List.getLast?_eq_some_getLast hne]
    rfl
  have hspace : ∀ d ∈ c :: l, isspace d = true := List.forall_mem_cons.mpr ⟨hc, hl⟩
  have hcontra := hspace _ (List.getLast_mem hne)
  rw [h _ hlast] at hcontra
  cases hcontra

theorem spaces_of_words_nil {line : Str} (hNul : NUL ∉ line) (h : words line = []) :
    ∀ c ∈ line, isspace c = true := by
  rcases line_cases hNul with hall | ⟨sp, w, rfl, hsp, hw⟩ | ⟨sp, w, c, l, rfl, hsp, hw, hc⟩
  · exact hall
  · rw [words_last hsp hw] at h
    cases h
  · rw [words_cons hsp hw hc] at h
    cases h

/-! ### Pointers and strings -/

section
variable {k : Nat} {front line line' : Str} {ps : List Nat}

theorem Cut.length_eq (h : Cut k front line line' ps) : ps.length = min k (words line).length := by
  induction h with
  | spaces hsp => simp [words_of_spaces hsp]
  | last hsp hw => simp [words_last hsp hw]
  | full hsp hw hc => simp [words_cons hsp hw hc]
  | word hsp hw hc hrest ih =>
    rw [words_cons hsp hw hc, List.length_cons, List.length_cons, ih]
    omega

/-- The words of the line are as many as there is room for, or fewer. -/
def Fits (k : Nat) (line : Str) : Prop :=
  (words line).length < k ∨ (words line).length = k ∧ EndsInWord line

theorem fits_cons {sp : Str} (hsp : ∀ c ∈ sp, isspace c = true) (hw : IsWord w)
    (hc : isspace c = true) : Fits (k + 2) (sp ++ (w ++ c :: l)) ↔ Fits (k + 1) l := by
  unfold Fits
  rw [words_cons hsp hw hc, List.length_cons]
  by_cases hl : l = []
  · rw [hl, words_nil, List.length_nil]
    constructor
    · intro _
      exact Or.inl (by omega)
    · intro _
      exact Or.inl (by omega)
  · rw [← List.append_assoc, endsInWord_cons _ _ hl]
    constructor
    · rintro (h | ⟨h, hend⟩)
      · exact Or.inl (by omega)
      · exact Or.inr ⟨by omega, hend⟩
    · rintro (h | ⟨h, hend⟩)
      · exact Or.inl (by omega)
      · exact Or.inr ⟨by omega, hend⟩

theorem not_fits_full {sp : Str} (hsp : ∀ c ∈ sp, isspace c = true) (hw : IsWord w)
    (hc : isspace c = true) (hNul : NUL ∉ l) : ¬ Fits 1 (sp ++ (w ++ c :: l)) := by
  unfold Fits
  rw [words_cons hsp hw hc, List.length_cons]
  rintro (h | ⟨h, hend⟩)
  · omega
  · have hl : words l = [] := List.eq_nil_of_length_eq_zero (by omega)
    rw [← List.append_assoc] at hend
    exact not_endsInWord _ hc (spaces_of_words_nil hNul hl) hend

theorem Cut.strings_iff (h : Cut k front line line' ps) (rest : Str) (hNul : NUL ∉ line) :
    ps.map (cstr (lineAt front line' rest)) = (words line).take k ↔ Fits k line := by
  induction h with
  | @spaces k front line hsp =>
    rw [words_of_spaces hsp, List.take_nil]
    refine iff_of_true rfl (Or.inl ?_)
    rw [words_of_spaces hsp, List.length_nil]
    omega
  | @last k front sp w hsp hw =>
    rw [List.map_singleton, cstr_lineAt_last _ _ hw]
    refine iff_of_true ?_ ?_
    · rw [words_last hsp hw, List.take_succ_cons, List.take_nil]
    · unfold Fits
      rw [words_last hsp hw, List.length_singleton]
      have hend := hw.not_isspace_last sp
      by_cases hk : k = 0
      · exact Or.inr ⟨by omega, hend⟩
      · exact Or.inl (by omega)
  | @full front sp w l c hsp hw hc =>
    -- the string goes on behind the word
    have hlineNul : ∀ x ∈ w ++ c :: l, x ≠ NUL := fun x hx hx0 =>
      hNul (hx0 ▸ List.mem_append_right _ hx)
    have hstr : cstr (lineAt front (sp ++ (w ++ c :: l)) rest) (front ++ sp).length =
        w ++ c :: l := by
      rw [lineAt_append]
      exact cstr_append hlineNul rest
    refine iff_of_false ?_ (not_fits_full hsp hw hc fun h => hNul (by simp [h]))
    rw [List.map_singleton, hstr, words_cons hsp hw hc]
    intro heq
    have hlen := congrArg List.length (List.cons.inj heq).1
    rw [List.length_append, List.length_cons] at hlen
    omega
  | @word k front sp w l l' c ps hsp hw hc hrest ih =>
    rw [fits_cons hsp hw hc, ← ih (fun h => hNul (by simp [h])), words_cons hsp hw hc,
      List.map_cons, cstr_lineAt_word _ _ _ hw, lineAt_cut, List.take_succ_cons,
      List.cons_inj_right]

end

/-- **`_mkparam` splits a line into its words**, as many as there is room for, exactly if the
words fit: fewer than `maxparam`, or as many and the line ends in the last of them. -/
theorem mkparam_splits_iff {line : Str} (rest : Str) {maxparam : Nat} (hmax : 1 ≤ maxparam)
    (hNul : NUL ∉ line) :
    ((mkparam (line ++ NUL :: rest) maxparam).2.length = min maxparam (words line).length ∧
      (mkparam (line ++ NUL :: rest) maxparam).2.map
          (cstr (mkparam (line ++ NUL :: rest) maxparam).1) = (words line).take maxparam) ↔
    (words line).length < maxparam ∨ (words line).length = maxparam ∧ EndsInWord line := by
  obtain ⟨k, rfl⟩ := Nat.exists_eq_succ_of_ne_zero (Nat.ne_of_gt hmax)
  obtain ⟨line', ps, hcut, hpair⟩ := mkparam_cut rest k hNul
  have hbuf : lineAt [] line rest = line ++ NUL :: rest := rfl
  rw [Nat.succ_eq_add_one, ← hbuf, hpair]
  constructor
  · rintro ⟨-, hstrings⟩
    exact (hcut.strings_iff rest hNul).mp hstrings
  · intro hfits
    exact ⟨hcut.length_eq, (hcut.strings_iff rest hNul).mpr hfits⟩

/-- Two words, and room for two. -/
theorem mkparam_splits_two :
    1 ≤ 2 ∧ NUL ∉ " ro  quiet".toList ∧
    (mkparam (" ro  quiet".toList ++ NUL :: "=x".toList) 2).2.map
        (cstr (mkparam (" ro  quiet".toList ++ NUL :: "=x".toList) 2).1) =
      ["ro".toList, "quiet".toList] := by
  refine ⟨by decide, by decide, ?_⟩
  have hsplits := (mkparam_splits_iff "=x".toList (by decide : 1 ≤ 2)
    (by decide : NUL ∉ " ro  quiet".toList)).mpr (Or.inr (by decide +kernel))
  rw [hsplits.2]
  decide +kernel

/-- With room for one word the string of the first goes on to the end of the line. -/
theorem mkparam_unended_word :
    words "ro quiet".toList = ["ro".toList, "quiet".toList] ∧
    (mkparam ("ro quiet".toList ++ [NUL]) 1).2.map
        (cstr (mkparam ("ro quiet".toList ++ [NUL]) 1).1) = ["ro quiet".toList] := by
  decide +kernel

end Dingoo.Mininit
