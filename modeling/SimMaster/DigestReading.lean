import SimMaster.DigestOffers
import SimMaster.DigestResponse

/-!
# Parameter lists of responses

A text that the parameter parser takes is a list of parameters in the grammar
(`paramList_of_parseDigestParams`), and lists joined by a comma are a list of all their parameters
(`ParamList.join`). What `bounded_params` gives for a list depends on its parameters only
(`boundedParams_eq`): not on the blanks, and not on which list of several a parameter stood in.
-/

namespace SimMaster.ResponseAuth

open Rust Digest List Except

/-- The text is a list of these parameters, with blanks around it. -/
def ParamList (text : Str) (params : List AuthParam) : Prop :=
  ∃ (before after : Blanks) (first : AuthParam) (rest : List (Separator × AuthParam)),
    text = before.text ++ (paramsText first rest ++ after.text) ∧
      params = first :: rest.map Prod.snd

variable {text : Str} {params : List AuthParam}

/-- Lists joined by a comma are one list. -/
theorem ParamList.join {more : Str} {others : List AuthParam}
    (h : ParamList text params) (hmore : ParamList more others) :
    ParamList (text ++ ',' :: more) (params ++ others) := by
  obtain ⟨before, after, first, rest, rfl, rfl⟩ := h
  obtain ⟨before', after', first', rest', rfl, rfl⟩ := hmore
  refine ⟨before, after', first, rest ++ (⟨after, before'⟩, first') :: rest', ?_, ?_⟩
  · simp only [paramsText, Separator.text, flatMap_append, flatMap_cons, append_assoc, cons_append]
  · simp only [map_append, map_cons, cons_append]

theorem ParamList.ne_nil (h : ParamList text params) : params ≠ [] ∧ text ≠ [] := by
  obtain ⟨before, after, first, rest, rfl, rfl⟩ := h
  refine ⟨cons_ne_nil _ _, fun heq => ?_⟩
  have hnil := (append_eq_nil_iff.mp (append_eq_nil_iff.mp heq).2).1
  exact (ends_paramsText first rest).ne_nil hnil

theorem entries_eq (first : AuthParam) (rest : List (Separator × AuthParam)) :
    entries first rest = (first :: rest.map Prod.snd).map AuthParam.entry := by
  rw [entries, map_cons, map_map]
  rfl

/-! ## What is read is a list -/

theorem skipBlanks_split (s : Str) : ∃ b : Blanks, s = b.text ++ skipBlanks s :=
  ⟨⟨s.takeWhile isBlank, fun _ hc => mem_takeWhile_imp hc⟩,
    (takeWhile_append_dropWhile (p := isBlank)).symm⟩

variable {s value rest : Str}

theorem quotedValue_sound (h : quotedValue s = some (value, rest))
    (htext : ∀ c ∈ s, isTextChar c = true) :
    ∃ chars : List QuotedChar, s = chars.flatMap QuotedChar.text ++ '"' :: rest ∧
      value = chars.map QuotedChar.char := by
  induction s using quotedValue.induct generalizing value with
  | case1 => cases h
  | case2 tail =>
    obtain ⟨rfl, rfl⟩ := Prod.mk.inj (Option.some.inj h)
    exact ⟨[], rfl, rfl⟩
  | case3 c tail ih =>
    obtain ⟨⟨inner, last⟩, hinner, heq⟩ := Option.map_eq_some_iff.mp h
    obtain ⟨rfl, rfl⟩ := Prod.mk.inj heq
    obtain ⟨-, hc, htail⟩ := (forall_mem_cons.mp htext).imp_right forall_mem_cons.mp
    obtain ⟨chars, rfl, rfl⟩ := ih hinner htail
    exact ⟨⟨true, c, hc, fun hfalse => by cases hfalse⟩ :: chars, rfl, rfl⟩
  | case4 => cases h
  | case5 c tail hquote hescape hlast ih =>
    rw [quotedValue.eq_5 _ _ hquote hescape hlast] at h
    obtain ⟨⟨inner, last⟩, hinner, heq⟩ := Option.map_eq_some_iff.mp h
    obtain ⟨rfl, rfl⟩ := Prod.mk.inj heq
    obtain ⟨hc, htail⟩ := forall_mem_cons.mp htext
    obtain ⟨chars, rfl, rfl⟩ := ih hinner htail
    have hbackslash : c ≠ '\\' := by
      intro hslash
      cases chars with
      | nil => exact hescape '"' last hslash rfl
      | cons q chars =>
        have hne : ∃ d text, QuotedChar.text q = d :: text := by
          rw [QuotedChar.text]
          split
          · exact ⟨_, _, rfl⟩
          · exact ⟨_, _, rfl⟩
        obtain ⟨d, text, hq⟩ := hne
        refine hescape d (text ++ chars.flatMap QuotedChar.text ++ '"' :: last) hslash ?_
        rw [flatMap_cons, hq, cons_append, cons_append]
    exact ⟨⟨false, c, hc, fun _ => ⟨hquote, hbackslash⟩⟩ :: chars, rfl, rfl⟩

theorem plainValue_sound (h : plainValue s = some (value, rest)) :
    s = value ++ rest ∧ value ≠ [] ∧ ∀ c ∈ value, isPlainChar c = true := by
  rw [plainValue] at h
  split at h
  · cases h
  · next hvalid =>
    obtain ⟨hvalue, hrest⟩ := Prod.mk.inj (Option.some.inj h)
    rw [hvalue] at hvalid hrest
    rw [Bool.or_eq_true, not_or, List.isEmpty_iff, any_eq_true] at hvalid
    have hprefix : value <+: s := hvalue ▸ takeWhile_prefix _
    refine ⟨?_, hvalid.1, fun c hc => ?_⟩
    · rw [← hrest]
      exact (prefix_iff_eq_append.mp hprefix).symm
    · have hkeep : (!(decide (c = ',') || isBlank c)) = true := by
        rw [← hvalue] at hc
        exact @mem_takeWhile_imp _ (fun c => !(decide (c = ',') || isBlank c)) _ _ hc
      have hclean : ¬(decide (c.toNat < 0x21) || decide (0x7e < c.toNat) || decide (c = '"') ||
          decide (c = '\\')) = true := fun hbad => hvalid.2 ⟨c, hc, hbad⟩
      simp only [Bool.or_eq_true, decide_eq_true_iff, not_or, not_lt] at hclean
      obtain ⟨⟨⟨hlow, hhigh⟩, hquote⟩, hbackslash⟩ := hclean
      rw [Bool.not_eq_true', Bool.or_eq_false_iff, decide_eq_false_iff_not] at hkeep
      simp [isPlainChar, hlow, hhigh, hquote, hbackslash, hkeep.1]

/-- **One parameter.** What is read at the front of a text is a parameter. -/
theorem parameter_sound {entry : Str × Str} (h : parameter s = .ok (entry, rest))
    (htext : ∀ c ∈ s, isTextChar c = true) :
    ∃ p : AuthParam, s = p.text ++ rest ∧ entry = p.entry := by
  have hkey : s.takeWhile isTokenChar ++ s.drop (s.takeWhile isTokenChar).length = s :=
    (prefix_iff_eq_append.mp ( takeWhile_prefix _)).symm ▸ rfl
  rw [parameter] at h
  generalize hname : s.takeWhile isTokenChar = name at h hkey
  dsimp only at h
  split at h
  · cases h
  · next hne =>
    obtain ⟨before, hbefore⟩ := skipBlanks_split (s.drop name.length)
    split at h
    · next tail hequals =>
      obtain ⟨after, hafter⟩ := skipBlanks_split tail
      have hs : s = name ++ (before.text ++ '=' :: (after.text ++ skipBlanks tail)) := by
        rw [← hafter, ← hequals, ← hbefore, hkey]
      have hvalueText : ∀ c ∈ skipBlanks tail, isTextChar c = true := fun c hc =>
        htext c (by rw [hs]; simp [hc])
      have hread : ∃ value, valueAt (skipBlanks tail) = some (value, rest) ∧
          entry = (toAsciiLowercase name, value) := by
        split at h
        · next value after' hvalue =>
          obtain ⟨rfl, rfl⟩ := Prod.mk.inj (ok.inj h)
          exact ⟨value, hvalue, rfl⟩
        · cases h
      obtain ⟨value, hvalue, rfl⟩ := hread
      have hparam : ∃ v : ParamValue, skipBlanks tail = v.text ++ rest ∧ value = v.value := by
        rw [valueAt.eq_def] at hvalue
        split at hvalue
        · next quoted hquoted =>
          rw [hquoted] at hvalueText
          obtain ⟨chars, hchars, rfl⟩ :=
            quotedValue_sound hvalue (forall_mem_cons.mp hvalueText).2
          refine ⟨.quoted chars, ?_, rfl⟩
          rw [ParamValue.text, hquoted, hchars, cons_append, append_assoc, singleton_append]
        · obtain ⟨heq, hnil, hall⟩ := plainValue_sound hvalue
          exact ⟨.plain value hnil hall, heq, rfl⟩
      obtain ⟨v, hv, rfl⟩ := hparam
      refine ⟨⟨⟨name, fun heq => hne (heq ▸ rfl), fun c hc => ?_⟩, before, after, v⟩, ?_, rfl⟩
      · rw [← hname] at hc
        exact mem_takeWhile_imp hc
      · refine hs.trans ?_
        rw [hv]
        simp only [AuthParam.text, append_assoc, cons_append]
    · cases h

theorem loop_sound {room : ℕ} {out params : List (Str × Str)}
    (h : parseDigestParamsLoop room out s = .ok params) (htext : ∀ c ∈ s, isTextChar c = true) :
    (skipBlanks s = [] ∧ params = out) ∨
      ∃ ps, ParamList s ps ∧ params = out ++ ps.map AuthParam.entry := by
  induction room generalizing out s with
  | zero =>
    rw [parseDigestParamsLoop.eq_def] at h
    dsimp only at h
    cases hskip : skipBlanks s with
    | nil =>
      rw [hskip] at h
      exact Or.inl ⟨rfl, (ok.inj h).symm⟩
    | cons c tail =>
      rw [hskip] at h
      cases h
  | succ room ih =>
    rw [parseDigestParamsLoop.eq_def] at h
    dsimp only at h
    obtain ⟨before, hs⟩ := skipBlanks_split s
    cases hskip : skipBlanks s with
    | nil =>
      rw [hskip] at h
      exact Or.inl ⟨rfl, (ok.inj h).symm⟩
    | cons c tail =>
      rw [hskip] at h hs
      have hskipText : ∀ d ∈ c :: tail, isTextChar d = true := fun d hd =>
        htext d (by rw [hs]; exact mem_append_right _ hd)
      obtain ⟨⟨⟨key, value⟩, rest⟩, hread, h⟩ := bind_eq_ok.mp h
      obtain ⟨p, hp, hentry⟩ := parameter_sound hread hskipText
      obtain ⟨after, hafter⟩ := skipBlanks_split rest
      right
      split at h
      · cases h
      · cases hrest : skipBlanks rest with
        | nil =>
          rw [hrest] at h hafter
          rw [append_nil] at hafter
          refine ⟨[p], ⟨before, after, p, [], ?_, rfl⟩, ?_⟩
          · rw [hs, hp, hafter, paramsText, flatMap_nil, append_nil]
          · rw [← ok.inj h, hentry]
            rfl
        | cons d more =>
          rw [hrest] at h hafter
          by_cases hcomma : d = ','
          · subst hcomma
            have h : (if more.all isBlank then (throw challengeInvalid : Except ImsError _)
                else parseDigestParamsLoop room (out ++ [(key, value)]) more) = .ok params := h
            split at h
            · cases h
            · next hblank =>
              have hmore : ∀ d ∈ more, isTextChar d = true := fun d hd =>
                hskipText d (by rw [hp, hafter]; simp [hd])
              rcases ih h hmore with ⟨hempty, -⟩ | ⟨ps, hps, rfl⟩
              · exact absurd (all_eq_true.mpr (dropWhile_eq_nil_iff.mp hempty)) hblank
              · have hfirst : ParamList (before.text ++ (p.text ++ after.text)) [p] :=
                  ⟨before, after, p, [], by rw [paramsText, flatMap_nil, append_nil], rfl⟩
                refine ⟨p :: ps, ?_, ?_⟩
                · have hjoin := hfirst.join hps
                  rw [hs, hp, hafter]
                  simpa only [append_assoc, singleton_append] using hjoin
                · rw [hentry, append_assoc]
                  rfl
          · split at h
            · next heq => cases heq
            · next heq => exact absurd (cons.inj heq).1 hcomma
            · cases h

/-- The characters the parser lets through. -/
theorem isText_of_clean (h : s.any (fun c =>
      decide (c.toNat = 0x7f) || (decide (c.toNat < 0x20) && c != '\t')) = false) :
    ∀ c ∈ s, isTextChar c = true := by
  intro c hc
  have hclean := any_eq_false.mp h c hc
  rw [Bool.or_eq_true, Bool.and_eq_true, decide_eq_true_iff, decide_eq_true_iff, bne_iff_ne,
    not_or] at hclean
  rw [isTextChar, Bool.or_eq_true, Bool.and_eq_true, decide_eq_true_iff, decide_eq_true_iff,
    bne_iff_ne]
  by_cases htab : c = '\t'
  · exact Or.inl htab
  · refine Or.inr ⟨?_, hclean.1⟩
    by_contra hlow
    exact hclean.2 ⟨not_le.mp hlow, htab⟩

/-- **What is read is a list**, or there is nothing to read. -/
theorem paramList_of_parseDigestParams {input : Str} {params : List (Str × Str)}
    (h : parseDigestParams input = .ok params) (hne : params ≠ []) :
    ∃ ps, ParamList input ps ∧ params = ps.map AuthParam.entry := by
  rw [parseDigestParams] at h
  split at h
  · cases h
  · next hclean =>
    rw [Bool.or_eq_true, not_or] at hclean
    rcases loop_sound h (isText_of_clean (Bool.eq_false_iff.mpr hclean.2)) with ⟨-, rfl⟩ | h
    · exact absurd rfl hne
    · exact h

/-! ## The scan -/

/-- An unquoted value is a token. -/
def strict (p : AuthParam) : Bool :=
  match p.value with
  | .plain text _ _ => text.all isTokenChar
  | .quoted _ => true

/-- Tokens and blanks do not change what the scan has seen. -/
theorem strictScan_word (h : ∀ c ∈ s, isTokenChar c = true ∨ isBlank c = true)
    (seenEquals : Bool) (rest : Str) :
    strictScan false false seenEquals (s ++ rest) = strictScan false false seenEquals rest := by
  induction s with
  | nil => rfl
  | cons c s ih =>
    obtain ⟨hc, hs⟩ := forall_mem_cons.mp h
    have hne : ∀ d, isTokenChar d = false → isBlank d = false → c ≠ d := by
      intro d htoken hblank heq
      rw [heq, htoken, hblank] at hc
      rcases hc with hc | hc <;> cases hc
    have hword : (decide (c = ' ') || decide (c = '\t') || isTokenChar c) = true := by
      rw [Bool.or_eq_true]
      exact hc.symm
    rw [cons_append, strictScan]
    simp only [hne '"' (by decide) (by decide), hne '=' (by decide) (by decide),
      hne ',' (by decide) (by decide), hword, Bool.false_eq_true, Bool.false_and, decide_false,
      if_false, if_true]
    exact ih hs

theorem strictScan_blanks (b : Blanks) (seenEquals : Bool) (rest : Str) :
    strictScan false false seenEquals (b.text ++ rest) = strictScan false false seenEquals rest :=
  strictScan_word (fun c hc => Or.inr (b.all c hc)) seenEquals rest

theorem strictScan_quoted (chars : List QuotedChar) (seenEquals : Bool) (rest : Str) :
    strictScan true false seenEquals (chars.flatMap QuotedChar.text ++ '"' :: rest) =
      strictScan false false seenEquals rest := by
  induction chars with
  | nil => rfl
  | cons q chars ih =>
    rw [flatMap_cons, append_assoc, QuotedChar.text]
    cases hescaped : q.escaped with
    | true =>
      rw [if_pos rfl, ← ih]
      rfl
    | false =>
      obtain ⟨hquote, hbackslash⟩ := q.unescaped hescaped
      rw [if_neg Bool.false_ne_true, singleton_append, strictScan]
      simp only [hquote, hbackslash, Bool.false_eq_true, decide_false, Bool.and_false, if_false,
        if_true]
      exact ih

/-- An unquoted value passes if it is a token; there is an equals sign before it. -/
theorem strictScan_plain (h : ∀ c ∈ text, isPlainChar c = true) (rest : Str) :
    strictScan false false true (text ++ rest) =
      (text.all isTokenChar && strictScan false false true rest) := by
  induction text with
  | nil => rfl
  | cons c text ih =>
    obtain ⟨hc, htext⟩ := forall_mem_cons.mp h
    have hquote : c ≠ '"' := ne_of_class hc (by decide)
    have hcomma : c ≠ ',' := ne_of_class hc (by decide)
    have hspace : c ≠ ' ' := ne_of_class hc (by decide)
    have htab : c ≠ '\t' := ne_of_class hc (by decide)
    rw [cons_append, strictScan, all_cons]
    simp only [hquote, hcomma, hspace, htab, Bool.false_eq_true, Bool.false_and, decide_false,
      Bool.not_true, Bool.and_false, Bool.false_or, if_false]
    cases isTokenChar c with
    | true => exact ih htext
    | false => rfl

/-- **One parameter.** The scan passes it if an unquoted value is a token. -/
theorem strictScan_param (p : AuthParam) (rest : Str) :
    strictScan false false false (p.text ++ rest) =
      (strict p && strictScan false false true rest) := by
  have hequals : ∀ more, strictScan false false false ('=' :: more) =
      strictScan false false true more := fun _ => rfl
  have hopen : ∀ more, strictScan false false true ('"' :: more) =
      strictScan true false true more := fun _ => rfl
  rw [AuthParam.text, append_assoc, append_assoc, cons_append, append_assoc,
    strictScan_word fun c hc => Or.inl (p.name.all c hc), strictScan_blanks, hequals,
    strictScan_blanks, strict]
  cases p.value with
  | plain text ne_nil all => exact strictScan_plain all rest
  | quoted chars =>
    rw [ParamValue.text, cons_append, append_assoc, singleton_append, hopen, strictScan_quoted]
    exact (Bool.true_and _).symm

theorem strictScan_paramList (h : ParamList text params) :
    strictScan false false false text = params.all strict := by
  obtain ⟨before, after, first, rest, rfl, rfl⟩ := h
  rw [strictScan_blanks]
  have hcomma : ∀ seen more, strictScan false false seen (',' :: more) =
      strictScan false false false more := fun seen _ => by cases seen <;> rfl
  induction rest generalizing first with
  | nil =>
    have hend := strictScan_blanks after true []
    rw [append_nil] at hend
    rw [paramsText, flatMap_nil, append_nil, strictScan_param, hend]
    rfl
  | cons head rest ih =>
    rw [paramsText_cons, append_assoc, strictScan_param, Separator.text, append_assoc,
      append_assoc, strictScan_blanks, cons_append, hcomma, strictScan_blanks, ih]
    rfl

/-! ## What is accepted -/

/-- The parameters of a list that is accepted: tokens or quoted, not too many, each name once, and
each of them within bounds. -/
structure Accepted (params : List AuthParam) : Prop where
  strict : params.all strict = true
  count : params.length ≤ 64
  nodup : (params.map fun p => p.entry.1).Nodup
  bounds : (params.map AuthParam.entry).any paramInvalid = false

instance (params : List AuthParam) : Decidable (Accepted params) :=
  decidable_of_iff (params.all ResponseAuth.strict = true ∧ params.length ≤ 64 ∧
      (params.map fun p => p.entry.1).Nodup ∧
      (params.map AuthParam.entry).any paramInvalid = false)
    ⟨fun h => ⟨h.1, h.2.1, h.2.2.1, h.2.2.2⟩, fun h => ⟨h.1, h.2, h.3, h.4⟩⟩

theorem isText_paramList (h : ParamList text params) : ∀ c ∈ text, isTextChar c = true := by
  obtain ⟨before, after, first, rest, rfl, rfl⟩ := h
  intro c hc
  rcases mem_append.mp hc with hc | hc
  · exact isTextChar_of_isBlank (before.all c hc)
  · rcases mem_append.mp hc with hc | hc
    · exact isText_paramsText first rest c hc
    · exact isTextChar_of_isBlank (after.all c hc)

theorem toOption_paramList (h : ParamList text params) (hlength : utf8Len text ≤ maxAuthBytes) :
    (parseDigestParams text).toOption =
      if params.length ≤ 64 ∧ (params.map fun p => p.entry.1).Nodup then
        some (params.map AuthParam.entry)
      else none := by
  have hclean := clean_of_isText (isText_paramList h)
  have hshort : ¬16 * 1024 < utf8Len text := not_lt.mpr hlength
  obtain ⟨before, after, first, rest, rfl, rfl⟩ := h
  have hloop := @toOption_loop first rest after 64 [] nodup_nil
  have hmap : (params : List AuthParam) → params.map (fun p => p.entry.1) =
      (params.map AuthParam.entry).map Prod.fst := fun params => by rw [map_map]; rfl
  rw [parseDigestParams, hclean, Bool.or_false, if_neg (by rwa [decide_eq_true_iff]),
    loop_visible (visible_paramsText first rest after.text), hloop, hmap, ← entries_eq]
  refine if_congr (and_congr_left' ?_) rfl rfl
  rw [length_cons, length_map]
  exact Nat.lt_iff_add_one_le

/-- **A list of parameters.** It is accepted for its parameters, whatever the blanks. -/
theorem boundedParams_eq (h : ParamList text params) (hlength : utf8Len text ≤ maxAuthBytes) :
    boundedParams text =
      if Accepted params then .ok (params.map AuthParam.entry) else .error invalid := by
  have hread := toOption_paramList h hlength
  rw [boundedParams, strictScan_paramList h]
  by_cases hstrict : params.all strict = true
  · rw [hstrict, Bool.not_true, if_neg Bool.false_ne_true]
    by_cases hnames : params.length ≤ 64 ∧ (params.map fun p => p.entry.1).Nodup
    · rw [if_pos hnames, toOption_eq_some] at hread
      have hnil : (params.map AuthParam.entry).isEmpty = false := by
        rw [isEmpty_map, isEmpty_eq_false_iff]
        exact h.ne_nil.1
      rw [hread]
      dsimp only
      rw [hnil, Bool.false_or]
      cases hbounds : (params.map AuthParam.entry).any paramInvalid with
      | true =>
        rw [if_pos rfl, if_neg fun h => by rw [h.bounds] at hbounds; cases hbounds]
      | false =>
        rw [if_neg Bool.false_ne_true, if_pos ⟨hstrict, hnames.1, hnames.2, hbounds⟩]
    · rw [if_neg hnames] at hread
      rw [if_neg fun h => hnames ⟨h.count, h.nodup⟩]
      cases hparse : parseDigestParams text with
      | error e => rfl
      | ok entries =>
        rw [hparse] at hread
        cases hread
  · rw [Bool.eq_false_iff.mpr hstrict, Bool.not_false, if_pos rfl,
      if_neg fun h : Accepted params => hstrict h.strict]

/-- What is accepted is a list of accepted parameters. -/
theorem boundedParams_sound {entries : List (Str × Str)} (h : boundedParams text = .ok entries) :
    utf8Len text ≤ maxAuthBytes ∧
      ∃ params, ParamList text params ∧ Accepted params ∧ entries = params.map AuthParam.entry := by
  have hlength : utf8Len text ≤ maxAuthBytes ∧ ∃ params, ParamList text params := by
    rw [boundedParams] at h
    split at h
    · cases h
    · split at h
      · cases h
      · next read hread =>
        split at h
        · cases h
        · next hvalid =>
          rw [Bool.or_eq_true, not_or, List.isEmpty_iff] at hvalid
          obtain ⟨params, hlist, -⟩ := paramList_of_parseDigestParams hread hvalid.1
          refine ⟨?_, params, hlist⟩
          by_contra hlong
          rw [parseDigestParams, if_pos] at hread
          · cases hread
          · rw [Bool.or_eq_true, decide_eq_true_iff]
            exact Or.inl (not_le.mp hlong)
  obtain ⟨hlength, params, hlist⟩ := hlength
  rw [boundedParams_eq hlist hlength] at h
  split at h
  · next haccepted => exact ⟨hlength, params, hlist, haccepted, (ok.inj h).symm⟩
  · cases h

end SimMaster.ResponseAuth
