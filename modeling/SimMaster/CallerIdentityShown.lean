import SimMaster.CallerIdentity
import SimMaster.NameAddr

/-!
# When the caller is shown as he should be

The cut of a header value goes by the first `<` and the first `>`, wherever they stand. It is the
URI in the brackets just when no bracket in the display name comes first
(`parseNameAddr_named_iff`), and it fails just when a `>` comes before the first `<`
(`parseNameAddr_isSome_iff`). What becomes of a frame follows from the values of its headers
(`resolves_iff`).
-/

namespace SimMaster.Caller

open Rust Digest List Option

/-! ## First places -/

variable {c : Char} {s : Str}

theorem find_eq_none : find c s = none ↔ c ∉ s := by
  rw [find, findIdx?_eq_none_iff]
  refine ⟨fun h hmem => ?_, fun h x hx => decide_eq_false fun heq => h (heq ▸ hx)⟩
  exact of_decide_eq_false (h c hmem) rfl

variable {a : Str}

theorem find_append (b : Str) (h : c ∉ a) : find c (a ++ c :: b) = some a.length := by
  induction a with
  | nil => exact findIdx?_cons.trans (if_pos (decide_eq_true rfl))
  | cons d a ih =>
    have hne : d ≠ c := fun heq => h (heq ▸ mem_cons_self)
    have hrest := ih fun hmem => h (mem_cons_of_mem d hmem)
    rw [find] at hrest ⊢
    rw [cons_append, findIdx?_cons, if_neg (by rw [decide_eq_true_iff]; exact hne), hrest]
    rfl

variable {b : Str}

/-- A text is cut in one way at the first place of a character. -/
theorem cut_unique {a' b' : Str} (h : a ++ c :: b = a' ++ c :: b') (ha : c ∉ a)
    (ha' : c ∉ a') : a = a' ∧ b = b' := by
  have hlen : a.length = a'.length := by
    rw [← some_inj, ← find_append b ha, ← find_append b' ha', h]
  obtain ⟨heq, hrest⟩ := append_inj h hlen
  exact ⟨heq, (cons.inj hrest).2⟩

theorem trimStart_append_cons (hc : isWhitespace c = false) (a b : Str) :
    trimStart (a ++ c :: b) = trimStart a ++ c :: b := by
  induction a with
  | nil => exact dropWhile_cons_of_neg (by rw [hc]; decide)
  | cons d a ih =>
    cases hd : isWhitespace d with
    | true =>
      rw [trimStart, trimStart, cons_append, dropWhile_cons_of_pos hd, dropWhile_cons_of_pos hd]
      exact ih
    | false =>
      have hneg : ¬isWhitespace d = true := by rw [hd]; decide
      rw [trimStart, trimStart, cons_append, dropWhile_cons_of_neg hneg,
        dropWhile_cons_of_neg hneg, cons_append]

theorem trimEnd_append_cons (hc : isWhitespace c = false) (a b : Str) :
    trimEnd (a ++ c :: b) = a ++ c :: trimEnd b := by
  rw [trimEnd, trimEnd, trimEndMatches, trimEndMatches]
  induction b using reverseRecOn with
  | nil =>
    rw [rdropWhile_concat_neg _ _ _ (by rw [hc]; decide)]
    rfl
  | append_singleton b d ih =>
    have hsplit : a ++ c :: (b ++ [d]) = (a ++ c :: b) ++ [d] := by
      rw [append_assoc, cons_append]
    cases hd : isWhitespace d with
    | true =>
      rw [hsplit, rdropWhile_concat_pos _ _ _ hd, rdropWhile_concat_pos _ _ _ hd]
      exact ih
    | false =>
      have hneg : ¬isWhitespace d = true := by rw [hd]; decide
      rw [hsplit, rdropWhile_concat_neg _ _ _ hneg, rdropWhile_concat_neg _ _ _ hneg, hsplit]

/-! ## The cut of a value -/

/-- The first `>` of the value stands before its first `<`. -/
def Crossed (value : Str) : Prop := ∃ a b, trim value = a ++ '<' :: b ∧ '<' ∉ a ∧ '>' ∈ a

/-- The brackets of the value hold a text. -/
structure Brackets (value a s b : Str) : Prop where
  eq : trim value = a ++ '<' :: (s ++ '>' :: b)
  opens : '<' ∉ a
  clear : '>' ∉ a
  closes : '>' ∉ s

/-- The URI of a value without brackets. -/
def bareUri (value : Str) : Str := trim ((splitBy (· = ';') (trim value)).head?.getD [])

/-- What the first brackets of a value are. -/
theorem brackets_cases (value : Str) :
    ¬('<' ∈ trim value ∧ '>' ∈ trim value) ∨ Crossed value ∨ ∃ a s b, Brackets value a s b := by
  by_cases hboth : '<' ∈ trim value ∧ '>' ∈ trim value
  · obtain ⟨hopen, hclose⟩ := hboth
    obtain ⟨a, r, heq, ha⟩ := eq_append_cons_of_mem hopen
    by_cases hcrossed : '>' ∈ a
    · exact Or.inr (Or.inl ⟨a, r, heq, ha, hcrossed⟩)
    · rw [heq, mem_append, mem_cons] at hclose
      have hr : '>' ∈ r := by
        rcases hclose with hclose | hclose | hclose
        · exact absurd hclose hcrossed
        · exact absurd hclose (by decide)
        · exact hclose
      obtain ⟨s, b, rfl, hs⟩ := eq_append_cons_of_mem hr
      exact Or.inr (Or.inr ⟨a, s, b, heq, ha, hcrossed, hs⟩)
  · exact Or.inl hboth

variable {value : Str}

theorem parseNameAddr_bare (h : ¬('<' ∈ trim value ∧ '>' ∈ trim value)) : parseNameAddr value =
      some (none, if isSipUri (bareUri value) then some (bareUri value) else none) := by
  rw [parseNameAddr]
  cases hopen : find '<' (trim value) with
  | none => rfl
  | some opening =>
    cases hclose : find '>' (trim value) with
    | none => rfl
    | some closing =>
      refine absurd ⟨?_, ?_⟩ h
      · by_contra hmem
        rw [find_eq_none.mpr hmem] at hopen
        cases hopen
      · by_contra hmem
        rw [find_eq_none.mpr hmem] at hclose
        cases hclose

theorem parseNameAddr_crossed (h : Crossed value) : parseNameAddr value = none := by
  obtain ⟨a, b, heq, hopen, hclose⟩ := h
  obtain ⟨a', s, rfl, ha'⟩ := eq_append_cons_of_mem hclose
  have hclosing : find '>' (trim value) = some a'.length := by
    rw [heq, append_assoc, cons_append]
    exact find_append _ ha'
  rw [parseNameAddr]
  rw [hclosing, heq, find_append b hopen]
  dsimp only
  have hrange : ∀ text : Str, range text ((a' ++ '>' :: s).length + 1) a'.length = none := by
    intro text
    refine if_neg fun h => ?_
    rw [length_append] at h
    omega
  rw [hrange]
  cases range (a' ++ '>' :: s ++ '<' :: b) 0 (a' ++ '>' :: s).length <;> rfl

theorem parseNameAddr_brackets (h : Brackets value a s b) : parseNameAddr value =
      some (nonEmpty (trim (trimMatches '"' (trim a))), nonEmpty (trim s)) := by
  obtain ⟨heq, hopen, hclear, hclose⟩ := h
  have hclosing : find '>' (trim value) = some (a ++ '<' :: s).length := by
    have hmem : '>' ∉ a ++ '<' :: s := by
      rw [mem_append, mem_cons]
      rintro (hmem | hmem | hmem)
      · exact hclear hmem
      · exact absurd hmem (by decide)
      · exact hclose hmem
    rw [heq, ← cons_append, ← append_assoc]
    exact find_append b hmem
  have hdisplay : range (trim value) 0 a.length = some a := by
    rw [range, heq, if_pos ⟨Nat.zero_le _, by rw [length_append]; omega⟩, drop_zero,
      Nat.sub_zero, take_left]
  have huri : range (trim value) (a.length + 1) (a ++ '<' :: s).length = some s := by
    have hfits : a.length + 1 ≤ (a ++ '<' :: s).length ∧
        (a ++ '<' :: s).length ≤ (trim value).length := by
      rw [heq, length_append, length_append, length_cons, length_cons, length_append]
      omega
    have hdrop : (trim value).drop (a.length + 1) = s ++ '>' :: b := by
      rw [heq, ← singleton_append, ← append_assoc]
      exact drop_left' (by rw [length_append]; rfl)
    have hlen : (a ++ '<' :: s).length - (a.length + 1) = s.length := by
      rw [length_append, length_cons]
      omega
    rw [range, if_pos hfits, hdrop, hlen, take_left]
  have hopening : find '<' (trim value) = some a.length := by
    rw [heq]
    exact find_append _ hopen
  rw [parseNameAddr]
  rw [hclosing, hopening]
  dsimp only
  rw [hdisplay, huri]
  rfl

/-- **Cutting a value.** It fails just when a `>` comes before the first `<`. -/
theorem parseNameAddr_isSome_iff (value : Str) :
    (∃ parts, parseNameAddr value = some parts) ↔ ¬Crossed value := by
  constructor
  · rintro ⟨parts, hparts⟩ hcrossed
    rw [parseNameAddr_crossed hcrossed] at hparts
    cases hparts
  · intro hcrossed
    rcases brackets_cases value with hbare | h | ⟨a, s, b, h⟩
    · exact ⟨_, parseNameAddr_bare hbare⟩
    · exact absurd h hcrossed
    · exact ⟨_, parseNameAddr_brackets h⟩

/-! ## A well-formed value -/

/-- The brackets of the value are the first ones in it, or those in its display name hold the same
URI. -/
def Plain (n : NameAddr) : Prop :=
  ('<' ∉ n.display.text ∧ '>' ∉ n.display.text) ∨
    ∃ a s b, n.display.text = a ++ '<' :: (s ++ '>' :: b) ∧ '<' ∉ a ∧ '>' ∉ a ∧ '>' ∉ s ∧
      trim s = n.uri

theorem uri_facts (n : NameAddr) :
    '<' ∉ n.uri ∧ '>' ∉ n.uri ∧ trim n.uri = n.uri ∧ nonEmpty n.uri = some n.uri := by
  have hall := n.uri_all
  refine ⟨fun hmem => absurd (hall _ hmem) (by decide),
    fun hmem => absurd (hall _ hmem) (by decide),
    trim_of_all fun c hc => ?_, if_neg (by rw [List.isEmpty_iff]; exact n.uri_ne_nil)⟩
  have hc := hall c hc
  simp only [isUriChar, Bool.and_eq_true, Bool.not_eq_true'] at hc
  exact hc.1.1.1

theorem trim_text (n : NameAddr) :
    trim n.text = trimStart n.display.text ++ '<' :: (n.uri ++ '>' :: trimEnd n.paramsText) := by
  have hopen : isWhitespace '<' = false := by decide
  have hclose : isWhitespace '>' = false := by decide
  rw [NameAddr.text, trim, trimStart_append_cons hopen, trimEnd_append_cons hopen,
    trimEnd_append_cons hclose]

/-- No bracket stands in a display name without quotes. -/
theorem not_mem_plain {text : Str} (h : ∀ c ∈ text, isTokenChar c = true ∨ isBlank c = true) :
    '<' ∉ text ∧ '>' ∉ text :=
  ⟨fun hmem => absurd (h _ hmem) (by decide), fun hmem => absurd (h _ hmem) (by decide)⟩

/-- A name with brackets in quotes is cut at them. -/
theorem parseNameAddr_quoted {n : NameAddr} (htrim : trimStart n.display.text = n.display.text)
    (hmem : '<' ∈ n.display.text ∨ '>' ∈ n.display.text) :
    (∃ name, parseNameAddr n.text = some (name, some n.uri)) ↔
      ∃ a s b, n.display.text = a ++ '<' :: (s ++ '>' :: b) ∧ '<' ∉ a ∧ '>' ∉ a ∧ '>' ∉ s ∧
        trim s = n.uri := by
  obtain ⟨huriOpen, huriClose, htrimUri, huri⟩ := uri_facts n
  have htext := trim_text n
  rw [htrim] at htext
  by_cases hopen : '<' ∈ n.display.text
  · obtain ⟨a, r, hdisplay, ha⟩ := eq_append_cons_of_mem hopen
    have hcut : trim n.text =
        a ++ '<' :: (r ++ '<' :: (n.uri ++ '>' :: trimEnd n.paramsText)) := by
      rw [htext, hdisplay, append_assoc, cons_append]
    -- any cut of the display name is at its first bracket
    have hfirst : ∀ a' s b, n.display.text = a' ++ '<' :: (s ++ '>' :: b) → '<' ∉ a' →
        a = a' ∧ r = s ++ '>' :: b :=
      fun a' s b heq ha' => cut_unique (hdisplay.symm.trans heq) ha ha'
    by_cases hclear : '>' ∈ a
    · rw [parseNameAddr_crossed ⟨a, _, hcut, ha, hclear⟩]
      refine ⟨fun h => (by cases h.choose_spec), ?_⟩
      rintro ⟨a', s, b, heq, ha', hclear', -⟩
      obtain ⟨rfl, -⟩ := hfirst a' s b heq ha'
      exact absurd hclear hclear'
    · by_cases hclose : '>' ∈ r
      · obtain ⟨s, b, rfl, hs⟩ := eq_append_cons_of_mem hclose
        have hbrackets : Brackets n.text a s
            (b ++ '<' :: (n.uri ++ '>' :: trimEnd n.paramsText)) :=
          ⟨by rw [hcut, append_assoc, cons_append], ha, hclear, hs⟩
        rw [parseNameAddr_brackets hbrackets]
        constructor
        · rintro ⟨name, hname⟩
          refine ⟨a, s, b, hdisplay, ha, hclear, hs, ?_⟩
          have hsome := (Prod.ext_iff.mp (some.inj hname)).2
          change nonEmpty (trim s) = some n.uri at hsome
          rw [nonEmpty] at hsome
          split at hsome
          · cases hsome
          · exact some.inj hsome
        · rintro ⟨a', s', b', heq, ha', -, hs', htrimmed⟩
          obtain ⟨rfl, hr⟩ := hfirst a' s' b' heq ha'
          obtain ⟨rfl, -⟩ := cut_unique hr hs hs'
          exact ⟨_, by rw [htrimmed, huri]⟩
      · have hbrackets : Brackets n.text a (r ++ '<' :: n.uri) (trimEnd n.paramsText) := by
          refine ⟨by rw [hcut, append_assoc, cons_append], ha, hclear, fun hmem => ?_⟩
          rw [mem_append, mem_cons] at hmem
          rcases hmem with hmem | hmem | hmem
          · exact hclose hmem
          · exact absurd hmem (by decide)
          · exact huriClose hmem
        rw [parseNameAddr_brackets hbrackets]
        constructor
        · rintro ⟨name, hname⟩
          have hsome := (Prod.ext_iff.mp (some.inj hname)).2
          change nonEmpty (trim (r ++ '<' :: n.uri)) = some n.uri at hsome
          rw [nonEmpty] at hsome
          split at hsome
          · cases hsome
          · rw [trim, trimStart_append_cons (by decide), trimEnd_append_cons (by decide)] at hsome
            have hmem : '<' ∈ n.uri := by
              rw [← some.inj hsome]
              exact mem_append_right _ mem_cons_self
            exact absurd hmem huriOpen
        · rintro ⟨a', s', b', heq, ha', -⟩
          obtain ⟨-, hr⟩ := hfirst a' s' b' heq ha'
          rw [hr] at hclose
          exact absurd (mem_append_right _ mem_cons_self) hclose
  · have hclose : '>' ∈ n.display.text := hmem.resolve_left hopen
    rw [parseNameAddr_crossed ⟨_, _, htext, hopen, hclose⟩]
    refine ⟨fun h => (by cases h.choose_spec), ?_⟩
    rintro ⟨a, s, b, heq, -⟩
    rw [heq] at hopen
    exact absurd (mem_append_right _ mem_cons_self) hopen

/-- **Naming the caller.** The URI of a well-formed value is the one in its brackets just when the
display name has no bracket, or has the same URI in its own. -/
theorem parseNameAddr_named_iff (n : NameAddr) :
    (∃ name, parseNameAddr n.text = some (name, some n.uri)) ↔ Plain n := by
  obtain ⟨huriOpen, huriClose, htrimUri, huri⟩ := uri_facts n
  by_cases hclear : '<' ∉ n.display.text ∧ '>' ∉ n.display.text
  · have hsub : trimStart n.display.text <:+ n.display.text := dropWhile_suffix _
    have hbrackets : Brackets n.text (trimStart n.display.text) n.uri (trimEnd n.paramsText) :=
      ⟨trim_text n, fun h => hclear.1 (hsub.mem h), fun h => hclear.2 (hsub.mem h), huriClose⟩
    rw [parseNameAddr_brackets hbrackets, htrimUri, huri]
    exact ⟨fun _ => Or.inl hclear, fun _ => ⟨_, rfl⟩⟩
  · have htrim : trimStart n.display.text = n.display.text := by
      cases hdisplay : n.display with
      | plain text all =>
        rw [hdisplay] at hclear
        exact absurd (not_mem_plain all) hclear
      | quoted chars after => exact dropWhile_cons_of_neg (by decide)
    rw [parseNameAddr_quoted htrim (by tauto)]
    exact ⟨Or.inr, fun h => h.resolve_left hclear⟩

/-! ## Frames -/

/-- The value names nobody: its brackets hold nothing, or it has none and no URI of a scheme. -/
def NamesNobody (value : Str) : Prop :=
  (∃ a s b, Brackets value a s b ∧ trim s = []) ∨
    ¬('<' ∈ trim value ∧ '>' ∈ trim value) ∧ isSipUri (bareUri value) = false

/-- The value is looked at: the next one is when a value names nobody. -/
def Reached (values : List (CallerIdentitySource × Str)) (source : CallerIdentitySource)
    (value : Str) : Prop :=
  ∃ front back, values = front ++ (source, value) :: back ∧ ∀ entry ∈ front, NamesNobody entry.2

/-- Some Privacy field has the token `id`. -/
def AsksToHide (frame : Bytes) : Prop :=
  ∃ privacy ∈ headerValues frame privacyHeader, hidesId privacy = true

/-- What is asked of the result for a frame. -/
structure Resolves (frame : Bytes) : Prop where
  inRange : ∃ identity, resolveCallerIdentity frame = some identity
  named : restricted frame = false → ∀ source (n : NameAddr),
    Reached (identityHeaders frame) source n.text →
      ∃ name, resolveCallerIdentity frame = some ⟨.allowed, source, some n.uri, name⟩
  hidden : AsksToHide frame → resolveCallerIdentity frame = some restrictedIdentity

/-- A frame that gives no offence. -/
structure Ordinary (frame : Bytes) : Prop where
  inOrder : restricted frame = false → ∀ source value,
    Reached (identityHeaders frame) source value → ¬Crossed value
  plain : restricted frame = false → ∀ source (n : NameAddr),
    Reached (identityHeaders frame) source n.text → Plain n
  privacy : AsksToHide frame → hidesId ((headerValue frame privacyHeader).getD []) = true ∨
    (headerValue frame remotePartyHeader).any hidesParty = true

theorem NamesNobody.not_crossed (h : NamesNobody value) : ¬Crossed value := by
  rintro ⟨a, b, heq, hopen, hclose⟩
  rcases h with ⟨a', s, b', hbrackets, -⟩ | ⟨hbare, -⟩
  · obtain ⟨rfl, -⟩ := cut_unique (heq.symm.trans hbrackets.eq) hopen hbrackets.opens
    exact hbrackets.clear hclose
  · rw [heq] at hbare
    exact hbare ⟨mem_append_right _ mem_cons_self, mem_append_left _ hclose⟩

/-- A value names nobody just when its parts have no URI. -/
theorem parseNameAddr_nobody_iff (value : Str) :
    (∃ name, parseNameAddr value = some (name, none)) ↔ NamesNobody value := by
  rcases brackets_cases value with hbare | hcrossed | ⟨a, s, b, hbrackets⟩
  · rw [parseNameAddr_bare hbare]
    constructor
    · rintro ⟨name, hname⟩
      refine Or.inr ⟨hbare, ?_⟩
      have hnone := (Prod.ext_iff.mp (some.inj hname)).2
      rw [Bool.eq_false_iff]
      intro hsip
      rw [if_pos hsip] at hnone
      cases hnone
    · rintro (⟨a, s, b, hbrackets, -⟩ | ⟨-, hsip⟩)
      · rw [hbrackets.eq] at hbare
        exact absurd (by simp) hbare
      · exact ⟨none, by rw [if_neg (Bool.eq_false_iff.mp hsip)]⟩
  · rw [parseNameAddr_crossed hcrossed]
    exact ⟨fun h => (by cases h.choose_spec), fun h => absurd hcrossed h.not_crossed⟩
  · rw [parseNameAddr_brackets hbrackets]
    constructor
    · rintro ⟨name, hname⟩
      refine Or.inl ⟨a, s, b, hbrackets, ?_⟩
      have hnone := (Prod.ext_iff.mp (some.inj hname)).2
      change nonEmpty (trim s) = none at hnone
      rw [nonEmpty] at hnone
      split at hnone
      · next hempty => exact List.isEmpty_iff.mp hempty
      · cases hnone
    · rintro (⟨a', s', b', hbrackets', hempty⟩ | ⟨hbare, -⟩)
      · obtain ⟨rfl, hrest⟩ := cut_unique (hbrackets.eq.symm.trans hbrackets'.eq) hbrackets.opens
          hbrackets'.opens
        obtain ⟨rfl, -⟩ := cut_unique hrest hbrackets.closes hbrackets'.closes
        exact ⟨_, by rw [hempty]; rfl⟩
      · rw [hbrackets.eq] at hbare
        exact absurd (by simp) hbare

variable {entry : CallerIdentitySource × Str} {source : CallerIdentitySource}

theorem reached_cons_iff {rest : List (CallerIdentitySource × Str)} :
    Reached (entry :: rest) source value ↔
      entry = (source, value) ∨ NamesNobody entry.2 ∧ Reached rest source value := by
  constructor
  · rintro ⟨front, back, heq, hfront⟩
    cases front with
    | nil => exact Or.inl (cons.inj heq).1
    | cons first front =>
      obtain ⟨rfl, hrest⟩ := cons.inj heq
      exact Or.inr ⟨hfront _ mem_cons_self, front, back, hrest,
        fun e he => hfront e (mem_cons_of_mem _ he)⟩
  · rintro (rfl | ⟨hentry, front, back, rfl, hfront⟩)
    · exact ⟨[], rest, rfl, fun e he => absurd he not_mem_nil⟩
    · refine ⟨entry :: front, back, rfl, fun e he => ?_⟩
      rcases mem_cons.mp he with rfl | he
      · exact hentry
      · exact hfront e he

/-- A value that names nobody is passed by. -/
theorem firstIdentity_nobody (h : NamesNobody entry.2) (rest : List (CallerIdentitySource × Str)) :
    firstIdentity (entry :: rest) = firstIdentity rest := by
  obtain ⟨source, value⟩ := entry
  obtain ⟨name, hname⟩ := (parseNameAddr_nobody_iff value).mpr h
  rw [firstIdentity, hname]
  rfl

theorem firstIdentity_isSome_iff (values : List (CallerIdentitySource × Str)) :
    (∃ identity, firstIdentity values = some identity) ↔
      ∀ source value, Reached values source value → ¬Crossed value := by
  induction values with
  | nil =>
    refine ⟨fun _ source value h => ?_, fun _ => ⟨_, rfl⟩⟩
    obtain ⟨front, back, heq, -⟩ := h
    cases front <;> cases heq
  | cons entry rest ih =>
    by_cases hnobody : NamesNobody entry.2
    · rw [firstIdentity_nobody hnobody, ih]
      constructor
      · intro h source value hreached
        rcases reached_cons_iff.mp hreached with rfl | ⟨-, hreached⟩
        · exact hnobody.not_crossed
        · exact h source value hreached
      · intro h source value hreached
        exact h source value (reached_cons_iff.mpr (Or.inr ⟨hnobody, hreached⟩))
    · have hvalue : (∃ identity, firstIdentity (entry :: rest) = some identity) ↔
          ¬Crossed entry.2 := by
        obtain ⟨source, value⟩ := entry
        rw [← parseNameAddr_isSome_iff, firstIdentity]
        constructor
        · rintro ⟨identity, h⟩
          obtain ⟨parts, hparts, -⟩ := bind_eq_some_iff.mp h
          exact ⟨parts, hparts⟩
        · rintro ⟨⟨name, uri⟩, hparts⟩
          cases uri with
          | none => exact absurd ((parseNameAddr_nobody_iff value).mp ⟨name, hparts⟩) hnobody
          | some uri => exact ⟨_, by rw [hparts]; rfl⟩
      rw [hvalue]
      constructor
      · intro h source value hreached
        rcases reached_cons_iff.mp hreached with rfl | ⟨hno, -⟩
        · exact h
        · exact absurd hno hnobody
      · intro h
        exact h entry.1 entry.2 (reached_cons_iff.mpr (Or.inl rfl))

variable {values : List (CallerIdentitySource × Str)} {identity : CallerIdentity}

/-- A result names one of the headers, or none. -/
theorem source_of_firstIdentity (h : firstIdentity values = some identity) :
    identity.source = .none ∨ identity.source ∈ values.map Prod.fst := by
  induction values with
  | nil => exact Or.inl (congrArg CallerIdentity.source (some.inj h)).symm
  | cons entry rest ih =>
    obtain ⟨source, value⟩ := entry
    obtain ⟨⟨name, uri⟩, -, h⟩ := bind_eq_some_iff.mp h
    cases uri with
    | some uri =>
      have hsource := congrArg CallerIdentity.source (some.inj h)
      exact Or.inr (hsource ▸ mem_cons_self)
    | none => exact (ih h).imp_right (mem_cons_of_mem source)

/-- The result of the headers is no refusal to show the caller. -/
theorem presentation_of_firstIdentity (h : firstIdentity values = some identity) :
    identity.presentation ≠ .restricted := by
  induction values with
  | nil =>
    rw [← some.inj h]
    decide
  | cons entry rest ih =>
    obtain ⟨⟨name, uri⟩, -, h⟩ := bind_eq_some_iff.mp h
    cases uri with
    | some uri =>
      rw [← some.inj h]
      exact fun heq => by cases heq
    | none => exact ih h

theorem sources_identityHeaders (frame : Bytes) : ((identityHeaders frame).map Prod.fst).Nodup ∧
      CallerIdentitySource.none ∉ (identityHeaders frame).map Prod.fst := by
  have hsub : ((identityHeaders frame).map Prod.fst).Sublist
      [.assertedIdentity, .fromHeader, .remotePartyId] := by
    simp only [identityHeaders, filterMap_cons, filterMap_nil]
    cases headerValue frame "P-Asserted-Identity".toList <;>
      cases headerValue frame "From".toList <;>
      cases headerValue frame remotePartyHeader <;>
      simp only [map_none, map_some, map_cons, map_nil] <;>
      decide
  exact ⟨hsub.nodup (by decide), fun hmem => absurd (hsub.subset hmem) (by decide)⟩

/-- A header that is looked at is the source just when its own value gives the URI. -/
theorem firstIdentity_named_iff {uri : Str} (hnodup : (values.map Prod.fst).Nodup)
    (hnone : .none ∉ values.map Prod.fst) (hreached : Reached values source value) :
    (∃ name, firstIdentity values = some ⟨.allowed, source, some uri, name⟩) ↔
      ∃ name, parseNameAddr value = some (name, some uri) := by
  induction values with
  | nil =>
    obtain ⟨front, back, heq, -⟩ := hreached
    cases front <;> cases heq
  | cons entry rest ih =>
    rcases reached_cons_iff.mp hreached with rfl | ⟨hnobody, hreached⟩
    · rw [firstIdentity]
      constructor
      · rintro ⟨name, h⟩
        obtain ⟨⟨name', uri'⟩, hparts, h⟩ := bind_eq_some_iff.mp h
        cases uri' with
        | some uri' =>
          have hsome := congrArg CallerIdentity.uri (some.inj h)
          exact ⟨name', by rw [hparts, some.inj hsome]⟩
        | none =>
          rcases source_of_firstIdentity h with heq | hmem
          · exact absurd (heq ▸ mem_cons_self) hnone
          · exact absurd hmem (nodup_cons.mp hnodup).1
      · rintro ⟨name, hname⟩
        rw [hname]
        exact ⟨name, rfl⟩
    · rw [firstIdentity_nobody hnobody]
      exact ih (nodup_cons.mp hnodup).2 (fun hmem => hnone (mem_cons_of_mem _ hmem))
        hreached

/-- **Resolving the caller.** For every frame: the cuts are in range, the URI is the one in the
brackets and a caller who asks to be hidden is, just when the frame gives no offence. -/
theorem resolves_iff (frame : Bytes) : Resolves frame ↔ Ordinary frame := by
  obtain ⟨hnodup, hnone⟩ := sources_identityHeaders frame
  have hnamed : restricted frame = false → ∀ source (n : NameAddr),
      Reached (identityHeaders frame) source n.text →
        ((∃ name, resolveCallerIdentity frame = some ⟨.allowed, source, some n.uri, name⟩) ↔
          Plain n) := by
    intro hshown source n hreached
    rw [resolveCallerIdentity, hshown, if_neg Bool.false_ne_true,
      firstIdentity_named_iff hnodup hnone hreached]
    exact parseNameAddr_named_iff n
  have hrestricted : restricted frame = true ↔
      hidesId ((headerValue frame privacyHeader).getD []) = true ∨
        (headerValue frame remotePartyHeader).any hidesParty = true := by
    rw [restricted, Bool.or_eq_true]
  have hshown : restricted frame = false →
      ((∃ identity, resolveCallerIdentity frame = some identity) ↔
        ∀ source value, Reached (identityHeaders frame) source value → ¬Crossed value) := by
    intro h
    rw [resolveCallerIdentity, h, if_neg Bool.false_ne_true]
    exact firstIdentity_isSome_iff _
  have hhidden : restricted frame = true → resolveCallerIdentity frame = some restrictedIdentity :=
    fun h => if_pos h
  constructor
  · intro h
    refine ⟨fun hs => (hshown hs).mp h.inRange,
      fun hs source n hreached => (hnamed hs source n hreached).mp (h.named hs source n hreached),
      fun hask => hrestricted.mp ?_⟩
    by_contra hnot
    have hidentity := h.hidden hask
    rw [resolveCallerIdentity, if_neg hnot] at hidentity
    exact presentation_of_firstIdentity hidentity rfl
  · intro h
    refine ⟨?_, fun hs source n hreached =>
      (hnamed hs source n hreached).mpr (h.plain hs source n hreached),
      fun hask => hhidden (hrestricted.mpr (h.privacy hask))⟩
    cases hr : restricted frame with
    | true => exact ⟨_, hhidden hr⟩
    | false => exact (hshown hr).mpr (h.inOrder hr)

/-- A frame that names its caller with the brackets the wrong way round. -/
def crossedFrame : Bytes :=
  asBytes "INVITE sip:a SIP/2.0\r\nP-Asserted-Identity: >x<\r\n\r\n".toList

/-- The cut of this frame's value is out of range. -/
theorem crossedFrame_not_resolves : ¬Resolves crossedFrame := by
  intro h
  obtain ⟨identity, hidentity⟩ := h.inRange
  have hnone : resolveCallerIdentity crossedFrame = none := by decide +kernel
  rw [hnone] at hidentity
  cases hidentity

end SimMaster.Caller
