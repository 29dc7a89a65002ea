import SimMaster.CallerIdentityShown

/-!
# The lists of a REGISTER answer

A comma list of texts with balanced quotes and brackets is split into these texts
(`splitSipDelimited_delimited`), so what is read from several fields of one name does not depend on
how the elements are spread over the fields (`flatMap_lines`). The scan counts open brackets in a
`u16`; no text whose brackets nest as deep as that counts as balanced here.
-/

namespace SimMaster.Register

open Rust Digest List

/-! ## Balanced texts -/

/-- What stands between two quotes. -/
inductive Quoted : Str → Prop
  | nil : Quoted []
  | escaped (c : Char) {s : Str} : Quoted s → Quoted ('\\' :: c :: s)
  | char {c : Char} {s : Str} (hquote : c ≠ '"') (hescape : c ≠ '\\') : Quoted s → Quoted (c :: s)

/-- Quotes and brackets are balanced, and brackets nest at most `depth` deep. The delimiter stands
in quotes only, or in brackets; `inside` tells that the text itself stands in brackets. -/
inductive Balanced (delimiter : Char) : Bool → ℕ → Str → Prop
  | nil {inside : Bool} {depth : ℕ} : Balanced delimiter inside depth []
  | char {inside : Bool} {depth : ℕ} {c : Char} {s : Str} (hplain : c ≠ '"' ∧ c ≠ '<' ∧ c ≠ '>')
      (hdelimiter : c = delimiter → inside = true) :
      Balanced delimiter inside depth s → Balanced delimiter inside depth (c :: s)
  | quoted {inside : Bool} {depth : ℕ} {q s : Str} :
      Quoted q → Balanced delimiter inside depth s →
        Balanced delimiter inside depth ('"' :: (q ++ '"' :: s))
  | bracketed {inside : Bool} {depth : ℕ} {b s : Str} :
      Balanced delimiter true depth b → Balanced delimiter inside (depth + 1) s →
        Balanced delimiter inside (depth + 1) ('<' :: (b ++ '>' :: s))

theorem trimEnd_cons (c : Char) (s : Str) :
    trimEnd (c :: s) = [] ∨ trimEnd (c :: s) = c :: trimEnd s := by
  rw [trimEnd, trimEnd, trimEndMatches, trimEndMatches]
  induction s using reverseRecOn with
  | nil =>
    rw [rdropWhile_singleton]
    split
    · exact Or.inl rfl
    · exact Or.inr rfl
  | append_singleton s d ih =>
    rw [← cons_append]
    cases hd : isWhitespace d with
    | true => rwa [rdropWhile_concat_pos _ _ _ hd, rdropWhile_concat_pos _ _ _ hd]
    | false =>
      have hneg : ¬isWhitespace d = true := by rw [hd]; decide
      rw [rdropWhile_concat_neg _ _ _ hneg, rdropWhile_concat_neg _ _ _ hneg]
      exact Or.inr rfl

namespace Balanced

variable {delimiter : Char} {inside : Bool} {depth : ℕ} {s t : Str}

theorem append (hs : Balanced delimiter inside depth s) (ht : Balanced delimiter inside depth t) :
    Balanced delimiter inside depth (s ++ t) := by
  induction hs with
  | nil => exact ht
  | char hplain hdelimiter _ ih => exact .char hplain hdelimiter (ih ht)
  | quoted hq _ ih =>
    rw [cons_append, append_assoc, cons_append]
    exact .quoted hq (ih ht)
  | bracketed hb _ _ ih =>
    rw [cons_append, append_assoc, cons_append]
    exact .bracketed hb (ih ht)

theorem of_all (h : ∀ c ∈ s, (c ≠ '"' ∧ c ≠ '<' ∧ c ≠ '>') ∧ (c = delimiter → inside = true)) :
    Balanced delimiter inside depth s := by
  induction s with
  | nil => exact .nil
  | cons c s ih =>
    obtain ⟨⟨hplain, hdelimiter⟩, hrest⟩ := forall_mem_cons.mp h
    exact .char hplain hdelimiter (ih hrest)

variable (h : Balanced delimiter inside depth s)
include h

/-- Neither a quote nor a bracket is whitespace. -/
theorem trimStart : Balanced delimiter inside depth (trimStart s) := by
  induction h with
  | nil => exact .nil
  | @char _ _ c s hplain hdelimiter hs ih =>
    cases hc : isWhitespace c with
    | true => rwa [Rust.trimStart, dropWhile_cons_of_pos hc]
    | false =>
      rw [Rust.trimStart, dropWhile_cons_of_neg (by rw [hc]; decide)]
      exact .char hplain hdelimiter hs
  | quoted hq hs _ => exact .quoted hq hs
  | bracketed hb hs _ _ => exact .bracketed hb hs

theorem trimEnd : Balanced delimiter inside depth (trimEnd s) := by
  induction h with
  | nil => exact .nil
  | @char _ _ c s hplain hdelimiter _ ih =>
    rcases trimEnd_cons c s with heq | heq
    · rw [heq]
      exact .nil
    · rw [heq]
      exact .char hplain hdelimiter ih
  | @quoted _ _ q s hq _ ih =>
    rw [← cons_append, Caller.trimEnd_append_cons (by decide), cons_append]
    exact .quoted hq ih
  | @bracketed _ _ b s hb _ _ ih =>
    rw [← cons_append, Caller.trimEnd_append_cons (by decide), cons_append]
    exact .bracketed hb ih

theorem trim : Balanced delimiter inside depth (trim s) :=
  h.trimStart.trimEnd

end Balanced

/-! ## The scan -/

/-- The pieces of a scan, with a text at the front of the first. -/
def prepend (s : Str) (pieces : List Str) : List Str := s.foldr consPiece pieces

theorem prepend_char (c : Char) (s : Str) (pieces : List Str) :
    prepend (c :: s) pieces = consPiece c (prepend s pieces) := rfl

theorem prepend_cons (s piece : Str) (pieces : List Str) :
    prepend s (piece :: pieces) = (s ++ piece) :: pieces := by
  induction s with
  | nil => rfl
  | cons c s ih =>
    rw [prepend] at ih
    rw [prepend, foldr_cons, ih]
    rfl

theorem prepend_append (s t : Str) (pieces : List Str) :
    prepend (s ++ t) pieces = prepend s (prepend t pieces) := foldr_append

/-- The scan goes through what stands between two quotes. -/
theorem splitSipLoop_quoted {q : Str} (h : Quoted q) (delimiter : Char) (depth : ℕ) (rest : Str) :
    splitSipLoop delimiter true false depth (q ++ rest) =
      prepend q (splitSipLoop delimiter true false depth rest) := by
  induction h with
  | nil => rfl
  | @escaped c s _ ih =>
    have hescape : splitSipLoop delimiter true false depth ('\\' :: c :: (s ++ rest)) =
        consPiece '\\' (consPiece c (splitSipLoop delimiter true false depth (s ++ rest))) := rfl
    rw [cons_append, cons_append, hescape, ih]
    rfl
  | @char c s hquote hescape _ ih =>
    rw [cons_append, splitSipLoop, ih]
    simp only [hquote, hescape, Bool.false_eq_true, decide_false, Bool.false_and, Bool.and_false,
      Bool.not_true, if_false]
    rfl

variable {delimiter : Char}

/-- The scan goes through a balanced text without ending a piece. -/
theorem splitSipLoop_balanced {inside : Bool} {depth : ℕ} {s : Str}
    (h : Balanced delimiter inside depth s) {angle : ℕ} (hdepth : angle + depth ≤ u16Max)
    (hinside : inside = true → angle ≠ 0) (rest : Str) :
    splitSipLoop delimiter false false angle (s ++ rest) =
      prepend s (splitSipLoop delimiter false false angle rest) := by
  induction h generalizing angle rest with
  | nil => rfl
  | @char inside depth c s hplain hdelimiter _ ih =>
    obtain ⟨hquote, hopen, hclose⟩ := hplain
    have hend : (decide (c = delimiter) && !false && decide (angle = 0)) = false := by
      by_cases hc : c = delimiter
      · rw [decide_eq_false (hinside (hdelimiter hc)), Bool.and_false]
      · rw [decide_eq_false hc, Bool.false_and, Bool.false_and]
    rw [cons_append, splitSipLoop, hend, ih hdepth hinside]
    simp only [hquote, hopen, hclose, Bool.false_eq_true, decide_false, Bool.false_and,
      Bool.and_false, if_false]
    rfl
  | @quoted inside depth q s hq _ ih =>
    have hopen : splitSipLoop delimiter false false angle ('"' :: (q ++ '"' :: (s ++ rest))) =
        consPiece '"' (splitSipLoop delimiter true false angle (q ++ '"' :: (s ++ rest))) := rfl
    have hclose : splitSipLoop delimiter true false angle ('"' :: (s ++ rest)) =
        consPiece '"' (splitSipLoop delimiter false false angle (s ++ rest)) := rfl
    rw [cons_append, append_assoc, cons_append, hopen, splitSipLoop_quoted hq,
      hclose, ih hdepth hinside, prepend_char, prepend_append, prepend_char]
  | @bracketed inside depth b s _ _ ihb ihs =>
    have hopen : splitSipLoop delimiter false false angle ('<' :: (b ++ '>' :: (s ++ rest))) =
        consPiece '<' (splitSipLoop delimiter false false (min (angle + 1) u16Max)
          (b ++ '>' :: (s ++ rest))) := rfl
    have hclose : splitSipLoop delimiter false false (angle + 1) ('>' :: (s ++ rest)) =
        consPiece '>' (splitSipLoop delimiter false false angle (s ++ rest)) := rfl
    -- the count does not saturate
    have hmin : min (angle + 1) u16Max = angle + 1 := Nat.min_eq_left (by omega)
    rw [cons_append, append_assoc, cons_append, hopen, hmin,
      ihb (by omega) (fun _ => Nat.succ_ne_zero angle), hclose, ihs hdepth hinside, prepend_char,
      prepend_append, prepend_char]

/-! ## Delimited lists -/

/-- The texts with the delimiter between them. -/
def delimited (delimiter : Char) : List Str → Str
  | [] => []
  | [text] => text
  | text :: next :: texts => text ++ delimiter :: delimited delimiter (next :: texts)

variable {texts : List Str}

/-- **Splitting a list.** Balanced texts are what a list of them is split into. -/
theorem splitSipDelimited_delimited
    (hdelimiter : delimiter ≠ '"' ∧ delimiter ≠ '<' ∧ delimiter ≠ '>')
    (hne : texts ≠ []) (h : ∀ text ∈ texts, Balanced delimiter false u16Max text) :
    splitSipDelimited (delimited delimiter texts) delimiter = texts := by
  have hscan : ∀ text ∈ texts, ∀ rest, splitSipLoop delimiter false false 0 (text ++ rest) =
      prepend text (splitSipLoop delimiter false false 0 rest) := fun text hmem =>
    splitSipLoop_balanced (h text hmem) (by rw [Nat.zero_add]) (fun h => absurd h (by decide))
  have hend : ∀ rest, splitSipLoop delimiter false false 0 (delimiter :: rest) =
      [] :: splitSipLoop delimiter false false 0 rest := by
    obtain ⟨hquote, hopen, hclose⟩ := hdelimiter
    intro rest
    rw [splitSipLoop]
    simp only [hquote, hopen, hclose, Bool.false_eq_true, decide_false, Bool.false_and,
      Bool.and_false, if_false]
    rfl
  rw [splitSipDelimited]
  clear h
  induction texts with
  | nil => exact absurd rfl hne
  | cons text texts ih =>
    obtain ⟨htext, htexts⟩ := forall_mem_cons.mp hscan
    cases texts with
    | nil =>
      have hlast := htext []
      rw [append_nil] at hlast
      rw [delimited, hlast, splitSipLoop, prepend_cons, append_nil]
    | cons next texts =>
      rw [delimited, htext, hend, prepend_cons, append_nil, ih (cons_ne_nil _ _) htexts]

/-- What a field with some balanced texts is split into; an empty field has one empty piece. -/
theorem splitSipList_delimited (h : ∀ text ∈ texts, Balanced ',' false u16Max text) :
    splitSipList (delimited ',' texts) = if texts = [] then [[]] else texts := by
  by_cases hne : texts = []
  · rw [hne]
    rfl
  · rw [if_neg hne]
    exact splitSipDelimited_delimited (by decide) hne h

/-- **Fields of one name.** What they hold is what their elements are, in whatever fields. -/
theorem flatMap_lines {lines : List (List Str)}
    (h : ∀ line ∈ lines, ∀ text ∈ line, Balanced ',' false u16Max text) :
    ((lines.map (delimited ',')).flatMap fun value =>
        ((splitSipList value).map trim).filter fun text => !text.isEmpty) =
      (lines.flatten.map trim).filter fun text => !text.isEmpty := by
  induction lines with
  | nil => rfl
  | cons line lines ih =>
    obtain ⟨hline, hlines⟩ := forall_mem_cons.mp h
    rw [map_cons, flatMap_cons, ih hlines, flatten_cons, map_append,
      filter_append, splitSipList_delimited hline]
    by_cases hne : line = []
    · rw [if_pos hne, hne]
      rfl
    · rw [if_neg hne]

/-- Splitting a list and trimming gives back trimmed texts that were joined with a space. -/
theorem splitSipList_spaced (hne : texts ≠ [])
    (h : ∀ text ∈ texts, Balanced ',' false u16Max text ∧ trim text = text) :
    (splitSipList (texts.intersperse ", ".toList).flatten).map trim = texts := by
  cases texts with
  | nil => exact absurd rfl hne
  | cons text texts =>
    have hspaced : ∀ (first : Str) (rest : List Str),
        ((first :: rest).intersperse ", ".toList).flatten =
          delimited ',' (first :: rest.map (' ' :: ·)) := by
      intro first rest
      induction rest generalizing first with
      | nil => rw [intersperse_singleton, flatten_singleton]; rfl
      | cons next rest ih =>
        have hrest : delimited ',' ((' ' :: next) :: rest.map (' ' :: ·)) =
            ' ' :: delimited ',' (next :: rest.map (' ' :: ·)) := by
          cases rest <;> rfl
        rw [intersperse_cons_cons, flatten_cons, flatten_cons, ih, map_cons, delimited, hrest]
        rfl
    obtain ⟨⟨hbalanced, htrim⟩, hrest⟩ := forall_mem_cons.mp h
    rw [hspaced, splitSipList_delimited, if_neg (cons_ne_nil _ _), map_cons, map_map, htrim]
    · refine congrArg (text :: ·) ?_
      calc texts.map (trim ∘ (' ' :: ·)) = texts.map id :=
            map_congr_left fun next hmem => (hrest next hmem).2
        _ = texts := map_id texts
    · intro next hmem
      rcases mem_cons.mp hmem with rfl | hmem
      · exact hbalanced
      · obtain ⟨inner, hinner, rfl⟩ := mem_map.mp hmem
        exact .char (by decide) (by decide) (hrest inner hinner).1

end SimMaster.Register
