import SimMaster.DigestGrammar

/-!
# Reading a well-formed challenge

The parameters of a challenge are read as they were written: the parser takes them one by one
(`parameter_text`), and all of them if no name stands twice and there are not too many
(`toOption_parseDigestParams`). What else stands behind a comma is no parameter, and the whole
challenge is lost to it (`not_read`).
-/

namespace SimMaster.Digest

open Rust List Option

/-- Parameters with their separators. -/
def paramsText (first : AuthParam) (rest : List (Separator × AuthParam)) : Str :=
  first.text ++ rest.flatMap fun (s, p) => s.text ++ p.text

/-- The parameters as they are read. -/
def entries (first : AuthParam) (rest : List (Separator × AuthParam)) : List (Str × Str) :=
  first.entry :: rest.map fun (_, p) => p.entry

/-! ## One parameter -/

theorem skipBlanks_append (b : Blanks) (rest : Str) :
    skipBlanks (b.text ++ rest) = skipBlanks rest := by
  rw [skipBlanks, dropWhile_append_of_pos b.all]
  rfl

variable {s : Str}

theorem skipBlanks_of_head (h : ∀ c ∈ s.head?, isBlank c = false) : skipBlanks s = s := by
  cases s with
  | nil => rfl
  | cons c s =>
    have hc := h c rfl
    exact dropWhile_cons_of_neg (by simpa using hc)

theorem isBlank_eq_false {c : Char} (h : 0x21 ≤ c.toNat) : isBlank c = false := by
  rw [Bool.eq_false_iff]
  intro hblank
  rw [isBlank, Bool.or_eq_true, decide_eq_true_iff, decide_eq_true_iff] at hblank
  rcases hblank with rfl | rfl
  · exact absurd h (by decide)
  · exact absurd h (by decide)

/-- No blank is at the front of a text that begins with a visible character. -/
theorem skipBlanks_visible {a : Str} (hne : a ≠ []) (h : ∀ c ∈ a, 0x21 ≤ c.toNat) (rest : Str) :
    skipBlanks (a ++ rest) = a ++ rest := by
  refine skipBlanks_of_head fun c hc => ?_
  rw [head?_append_of_ne_nil _ hne] at hc
  exact isBlank_eq_false (h c (mem_of_head? hc))

theorem quotedValue_text (chars : List QuotedChar) (rest : Str) :
    quotedValue (chars.flatMap QuotedChar.text ++ '"' :: rest) =
      some (chars.map QuotedChar.char, rest) := by
  induction chars with
  | nil => rfl
  | cons q chars ih =>
    rw [flatMap_cons, append_assoc, QuotedChar.text, map_cons]
    cases hescaped : q.escaped with
    | true =>
      rw [if_pos rfl, cons_append, singleton_append, quotedValue, ih]
      rfl
    | false =>
      obtain ⟨hquote, hbackslash⟩ := q.unescaped hescaped
      rw [if_neg Bool.false_ne_true, singleton_append, quotedValue.eq_5, ih]
      · rfl
      · exact hquote
      · exact fun _ _ h _ => hbackslash h
      · exact fun h _ => hbackslash h

variable {text rest : Str}

theorem plainValue_text (ne_nil : text ≠ [])
    (all : ∀ c ∈ text, isPlainChar c = true) (hrest : Stops rest) :
    plainValue (text ++ rest) = some (text, rest) := by
  have hkeep : ∀ c ∈ text, (!(decide (c = ',') || isBlank c)) = true := by
    intro c hc
    rw [decide_eq_false (ne_of_class (all c hc) (by decide)),
      isBlank_eq_false (toNat_of_isPlainChar (all c hc)).1]
    rfl
  have hstop : rest.takeWhile (fun c => !(decide (c = ',') || isBlank c)) = [] := by
    cases rest with
    | nil => rfl
    | cons c rest =>
      refine takeWhile_cons_of_neg ?_
      rcases hrest c rfl with rfl | hblank
      · decide
      · simp [hblank]
  have htake : (text ++ rest).takeWhile (fun c => !(decide (c = ',') || isBlank c)) = text := by
    rw [takeWhile_append_of_pos hkeep, hstop, append_nil]
  have hvalid : (text.isEmpty || text.any fun c =>
      decide (c.toNat < 0x21) || decide (0x7e < c.toNat) || decide (c = '"') ||
        decide (c = '\\')) = false := by
    rw [isEmpty_eq_false_iff.mpr ne_nil, Bool.false_or, List.any_eq_false]
    intro c hc
    have hbounds := toNat_of_isPlainChar (all c hc)
    have hquote : c ≠ '"' := ne_of_class (all c hc) (by decide)
    have hbackslash : c ≠ '\\' := ne_of_class (all c hc) (by decide)
    simp [hquote, hbackslash]
    omega
  rw [plainValue, htake, hvalid, if_neg Bool.false_ne_true, drop_left]

/-- The value at the front of a text. -/
def valueAt : Str → Option (Str × Str)
  | '"' :: quoted => quotedValue quoted
  | plain => plainValue plain

theorem valueAt_text (v : ParamValue) (hrest : Stops rest) :
    valueAt (v.text ++ rest) = some (v.value, rest) := by
  cases v with
  | plain text ne_nil all =>
    have hplain := plainValue_text ne_nil all hrest
    cases text with
    | nil => exact absurd rfl ne_nil
    | cons c text =>
      have hquote : c ≠ '"' := ne_of_class (all c mem_cons_self) (by decide)
      rw [ParamValue.text, cons_append, valueAt.eq_2 _ fun _ heq => hquote (cons.inj heq).1]
      exact hplain
  | quoted chars =>
    rw [ParamValue.text, cons_append, append_assoc, singleton_append]
    exact quotedValue_text chars rest

theorem Token.takeWhile_append (t : Token) (hrest : ∀ c ∈ rest.head?, isTokenChar c = false) :
    (t.text ++ rest).takeWhile isTokenChar = t.text := by
  rw [takeWhile_append_of_pos t.all]
  cases rest with
  | nil => exact append_nil _
  | cons c rest =>
    rw [takeWhile_cons_of_neg, append_nil]
    rw [hrest c rfl]
    exact Bool.false_ne_true

/-- A word that no equals sign follows is no parameter. -/
theorem parameter_other
    (h : ∀ rest, skipBlanks (s.drop (s.takeWhile isTokenChar).length) ≠ '=' :: rest) :
    parameter s = .error challengeInvalid := by
  rw [parameter]
  split
  · rfl
  · split
    · next rest heq => exact absurd heq (h rest)
    · rfl

variable (p : AuthParam)

/-- **One parameter.** It is read as it was written. -/
theorem parameter_text (hrest : Stops rest) : parameter (p.text ++ rest) = .ok (p.entry, rest) := by
  have hequals : ∀ more : Str, ∀ c ∈ ('=' :: more).head?, isTokenChar c = false := by
    intro more c hc
    obtain rfl := some.inj hc
    decide
  let more := p.after.text ++ p.value.text ++ rest
  have htext : p.text ++ rest = p.name.text ++ (p.before.text ++ '=' :: more) := by
    simp only [AuthParam.text, more, append_assoc, cons_append]
  have hkey : (p.text ++ rest).takeWhile isTokenChar = p.name.text := by
    rw [htext]
    exact p.name.takeWhile_append (p.before.head_not_token (hequals more))
  have hdrop : skipBlanks ((p.text ++ rest).drop p.name.text.length) = '=' :: more := by
    rw [htext, drop_left, skipBlanks_append]
    exact skipBlanks_of_head fun c hc => by
      obtain rfl := some.inj hc
      decide
  have hvalue : skipBlanks more = p.value.text ++ rest := by
    have hends := p.value.ends
    simp only [more, append_assoc]
    rw [skipBlanks_append]
    refine skipBlanks_of_head fun c hc => ?_
    rw [head?_append_of_ne_nil _ hends.ne_nil, head?_eq_some_head hends.ne_nil] at hc
    obtain rfl := some.inj hc
    rw [Bool.eq_false_iff]
    intro hblank
    have hvisible := hends.head
    rw [isWhitespace_of_isBlank hblank] at hvisible
    cases hvisible
  rw [parameter, hkey, isEmpty_eq_false_iff.mpr p.name.ne_nil, if_neg Bool.false_ne_true, hdrop]
  split
  · next tail heq =>
    obtain rfl := (cons.inj heq).2
    rw [hvalue]
    dsimp only
    have hread := valueAt_text p.value hrest
    split
    · next value after hvalue' =>
      have hsame : valueAt (p.value.text ++ rest) = some (value, after) := hvalue'
      obtain ⟨rfl, rfl⟩ := Prod.mk.inj (some.inj (hread.symm.trans hsame))
      rfl
    · next hvalue' =>
      have hsame : valueAt (p.value.text ++ rest) = none := hvalue'
      have hnone := hread.symm.trans hsame
      cases hnone
  · next hother => exact absurd rfl (hother more)

/-! ## The loop -/

/-- The front of a text that blanks may be skipped up to. -/
def Visible (text : Str) : Prop := ∃ c rest, text = c :: rest ∧ isBlank c = false

theorem Visible.skipBlanks (h : Visible text) (b : Blanks) :
    skipBlanks (b.text ++ text) = text := by
  obtain ⟨c, rest, rfl, hc⟩ := h
  rw [skipBlanks_append]
  exact skipBlanks_of_head fun d hd => some.inj hd ▸ hc

theorem visible_of_ends (h : Ends text) (rest : Str) : Visible (text ++ rest) := by
  cases text with
  | nil => exact absurd rfl h.ne_nil
  | cons c text =>
    refine ⟨c, text ++ rest, rfl, ?_⟩
    rw [Bool.eq_false_iff]
    intro hblank
    have hhead := h.head
    rw [head_cons, isWhitespace_of_isBlank hblank] at hhead
    cases hhead

theorem Separator.stops (s : Separator) (rest : Str) : Stops (s.text ++ rest) := by
  rw [Separator.text, append_assoc]
  cases htext : s.before.text with
  | nil => exact fun c hc => Or.inl (some.inj hc).symm
  | cons d text =>
    intro c hc
    obtain rfl := some.inj hc
    exact Or.inr (s.before.all d (htext ▸ mem_cons_self))

theorem Blanks.stops (b : Blanks) : Stops b.text :=
  fun c hc => Or.inr (b.all c (mem_of_head? hc))

/-- The loop at a text where blanks are skipped up to something. -/
theorem loop_visible (h : Visible text) (b : Blanks) (room : ℕ) (out : List (Str × Str)) :
    parseDigestParamsLoop room out (b.text ++ text) = parseDigestParamsLoop room out text := by
  have hskip := h.skipBlanks b
  have hself : skipBlanks text = text := h.skipBlanks .empty
  rw [parseDigestParamsLoop.eq_def, parseDigestParamsLoop.eq_def]
  dsimp only
  rw [hskip, hself]

theorem loop_zero (h : Visible text) (out : List (Str × Str)) :
    parseDigestParamsLoop 0 out text = .error challengeInvalid := by
  have hself : skipBlanks text = text := h.skipBlanks .empty
  obtain ⟨c, rest, rfl, -⟩ := h
  rw [parseDigestParamsLoop.eq_def]
  dsimp only
  rw [hself]

variable {e : ImsError}

/-- What no parameter can be read from ends the loop. -/
theorem loop_error (h : Visible text) (hread : parameter text = .error e)
    (room : ℕ) (out : List (Str × Str)) :
    (parseDigestParamsLoop room out text).toOption = none := by
  cases room with
  | zero =>
    rw [loop_zero h]
    rfl
  | succ room =>
    have hself : skipBlanks text = text := h.skipBlanks .empty
    obtain ⟨c, rest, rfl, -⟩ := h
    rw [parseDigestParamsLoop.eq_def]
    dsimp only
    rw [hself]
    dsimp only
    rw [hread]
    rfl

variable {out : List (Str × Str)}

/-- A parameter whose name was read before ends the loop. -/
theorem loop_duplicate (hrest : Stops rest) (room : ℕ) (h : p.entry.1 ∈ out.map Prod.fst) :
    (parseDigestParamsLoop room out (p.text ++ rest)).toOption = none := by
  have hvisible := visible_of_ends p.ends rest
  cases room with
  | zero =>
    rw [loop_zero hvisible]
    rfl
  | succ room =>
    have hself : skipBlanks (p.text ++ rest) = p.text ++ rest := hvisible.skipBlanks .empty
    have hread := parameter_text p hrest
    have hany : out.any (fun entry => entry.1 == p.entry.1) = true := by
      obtain ⟨entry, hmem, hname⟩ := mem_map.mp h
      exact any_eq_true.mpr ⟨entry, hmem, beq_iff_eq.mpr hname⟩
    obtain ⟨c, tail, htext, -⟩ := hvisible
    rw [parseDigestParamsLoop.eq_def]
    dsimp only
    rw [hself, htext]
    dsimp only
    rw [← htext, hread, ok_bind]
    rw [if_pos hany]
    rfl

/-- The last parameter. -/
theorem loop_last (b : Blanks) (room : ℕ) (h : p.entry.1 ∉ out.map Prod.fst) :
    parseDigestParamsLoop (room + 1) out (p.text ++ b.text) = .ok (out ++ [p.entry]) := by
  have hvisible := visible_of_ends p.ends b.text
  have hself : skipBlanks (p.text ++ b.text) = p.text ++ b.text := hvisible.skipBlanks .empty
  have hread := parameter_text p b.stops
  have hend : skipBlanks b.text = [] := by
    have hskip := skipBlanks_append b []
    rwa [append_nil] at hskip
  have hany : ¬out.any (fun entry => entry.1 == p.entry.1) = true := by
    intro hany
    obtain ⟨entry, hmem, hname⟩ := any_eq_true.mp hany
    exact h (mem_map.mpr ⟨entry, hmem, beq_iff_eq.mp hname⟩)
  obtain ⟨c, tail, htext, -⟩ := hvisible
  rw [parseDigestParamsLoop.eq_def]
  dsimp only
  rw [hself, htext]
  dsimp only
  rw [← htext, hread, ok_bind]
  rw [if_neg hany, hend]
  rfl

variable {more : Str}

/-- A parameter with something behind a comma. -/
theorem loop_next (s : Separator) (hmore : Visible more) (room : ℕ)
    (h : p.entry.1 ∉ out.map Prod.fst) :
    parseDigestParamsLoop (room + 1) out (p.text ++ (s.text ++ more)) =
      parseDigestParamsLoop room (out ++ [p.entry]) more := by
  have hvisible := visible_of_ends p.ends (s.text ++ more)
  have hself : skipBlanks (p.text ++ (s.text ++ more)) = p.text ++ (s.text ++ more) :=
    hvisible.skipBlanks .empty
  have hread := parameter_text p (s.stops more)
  have hany : ¬out.any (fun entry => entry.1 == p.entry.1) = true := by
    intro hany
    obtain ⟨entry, hmem, hname⟩ := any_eq_true.mp hany
    exact h (mem_map.mpr ⟨entry, hmem, beq_iff_eq.mp hname⟩)
  have hcomma : skipBlanks (s.text ++ more) = ',' :: (s.after.text ++ more) := by
    rw [Separator.text, append_assoc, skipBlanks_append, cons_append]
    exact skipBlanks_of_head fun c hc => by
      obtain rfl := some.inj hc
      decide
  have hblank : ¬(s.after.text ++ more).all isBlank = true := by
    obtain ⟨c, tail, rfl, hc⟩ := hmore
    intro hall
    have hblank := all_eq_true.mp hall c (mem_append_right _ mem_cons_self)
    rw [hc] at hblank
    cases hblank
  obtain ⟨c, tail, htext, -⟩ := hvisible
  rw [← loop_visible hmore s.after, parseDigestParamsLoop.eq_def]
  dsimp only
  rw [hself, htext]
  dsimp only
  rw [← htext, hread, ok_bind]
  rw [if_neg hany, hcomma]
  exact if_neg hblank

variable (first : AuthParam)

theorem paramsText_cons (s : Separator) (p : AuthParam) (rest : List (Separator × AuthParam)) :
    paramsText first ((s, p) :: rest) = first.text ++ (s.text ++ paramsText p rest) := by
  rw [paramsText, paramsText, flatMap_cons, append_assoc]

theorem ends_paramsText (rest : List (Separator × AuthParam)) : Ends (paramsText first rest) := by
  induction rest generalizing first with
  | nil =>
    rw [paramsText, flatMap_nil, append_nil]
    exact first.ends
  | cons head rest ih =>
    rw [paramsText_cons]
    exact first.ends.append _ (ih head.2)

theorem visible_paramsText (rest : List (Separator × AuthParam)) (more : Str) :
    Visible (paramsText first rest ++ more) :=
  visible_of_ends (ends_paramsText first rest) more

/-- Adding one name to distinct names. -/
theorem nodup_concat_map_fst (hout : (out.map Prod.fst).Nodup) (entry : Str × Str) :
    ((out ++ [entry]).map Prod.fst).Nodup ↔ entry.1 ∉ out.map Prod.fst := by
  rw [map_append, map_singleton, nodup_append]
  constructor
  · intro h hmem
    exact h.2.2 _ hmem _ (mem_singleton_self _) rfl
  · intro h
    refine ⟨hout, nodup_singleton _, fun a ha b hb heq => h ?_⟩
    rw [← mem_singleton.mp hb, ← heq]
    exact ha

/-- **All parameters.** They are read if there is room for them and no name stands twice. -/
theorem toOption_loop (rest : List (Separator × AuthParam)) (b : Blanks)
    (room : ℕ) {out : List (Str × Str)} (hout : (out.map Prod.fst).Nodup) :
    (parseDigestParamsLoop room out (paramsText first rest ++ b.text)).toOption =
      if rest.length < room ∧ ((out ++ entries first rest).map Prod.fst).Nodup then
        some (out ++ entries first rest) else none := by
  induction rest generalizing first room out with
  | nil =>
    have htext : paramsText first [] = first.text := append_nil _
    have hentries : entries first [] = [first.entry] := rfl
    have hnodup := nodup_concat_map_fst hout first.entry
    rw [htext, hentries]
    by_cases hmem : first.entry.1 ∈ out.map Prod.fst
    · rw [loop_duplicate first b.stops room hmem, if_neg fun h => hnodup.mp h.2 hmem]
    · cases room with
      | zero =>
        rw [loop_zero (visible_of_ends first.ends b.text), if_neg fun h => Nat.not_lt_zero _ h.1]
        rfl
      | succ room =>
        rw [loop_last first b room hmem, if_pos ⟨Nat.succ_pos room, hnodup.mpr hmem⟩]
        rfl
  | cons head rest ih =>
    obtain ⟨s, p⟩ := head
    have hentries : out ++ entries first ((s, p) :: rest) =
        (out ++ [first.entry]) ++ entries p rest := by
      rw [append_assoc]
      rfl
    have hvisible := visible_paramsText p rest b.text
    rw [paramsText_cons, append_assoc, append_assoc, hentries]
    by_cases hmem : first.entry.1 ∈ out.map Prod.fst
    · rw [loop_duplicate first (s.stops _) room hmem, if_neg]
      rintro ⟨-, hnodup⟩
      rw [map_append] at hnodup
      exact (nodup_concat_map_fst hout first.entry).mp (Nodup.of_append_left hnodup) hmem
    · cases room with
      | zero =>
        rw [loop_zero (visible_of_ends first.ends _), if_neg fun h => Nat.not_lt_zero _ h.1]
        rfl
      | succ room =>
        rw [loop_next first s hvisible room hmem,
          ih p room ((nodup_concat_map_fst hout first.entry).mpr hmem)]
        simp only [length_cons, Nat.add_lt_add_iff_right]

/-- A text behind a comma that no parameter can be read from has everything refused. -/
theorem loop_refused (hmore : Visible more) (hread : parameter more = .error e) (s : Separator)
    (first : AuthParam) (rest : List (Separator × AuthParam)) (room : ℕ) (out : List (Str × Str)) :
    (parseDigestParamsLoop room out (paramsText first rest ++ (s.text ++ more))).toOption =
      none := by
  induction rest generalizing first room out with
  | nil =>
    have htext : paramsText first [] = first.text := append_nil _
    rw [htext]
    by_cases hmem : first.entry.1 ∈ out.map Prod.fst
    · exact loop_duplicate first (s.stops more) room hmem
    · cases room with
      | zero =>
        rw [loop_zero (visible_of_ends first.ends _)]
        rfl
      | succ room =>
        rw [loop_next first s hmore room hmem]
        exact loop_error hmore hread room _
  | cons head rest ih =>
    obtain ⟨s', p⟩ := head
    rw [paramsText_cons, append_assoc, append_assoc]
    by_cases hmem : first.entry.1 ∈ out.map Prod.fst
    · exact loop_duplicate first (s'.stops _) room hmem
    · cases room with
      | zero =>
        rw [loop_zero (visible_of_ends first.ends _)]
        rfl
      | succ room =>
        rw [loop_next first s' (visible_paramsText p rest _) room hmem]
        exact ih p room _

end SimMaster.Digest
