import SimMaster.DigestParams

/-!
# What a challenge offers

What the parameters of a Digest challenge offer to this stack, if it can answer them (`offer`), and
that reading the text of a challenge finds just that (`toOption_answer`). The answer is lost if the
challenge is too long to be read, or if a challenge of another scheme is read as one of its
parameters (`answer_hidden`).
-/

namespace SimMaster.Digest

open Rust
open List hiding splitBy

/-! ## Offers -/

def supportedAlgorithms (allowPlainMd5 : Bool) : List Str :=
  ["AKAv1-MD5".toList, "AKAv2-MD5".toList, "AKAv2-SHA-256".toList] ++
    if allowPlainMd5 then ["MD5".toList] else []

/-- One of the options of a `qop` value is `auth`. -/
def OffersAuth (qop : Str) : Prop :=
  ∃ option ∈ splitBy (fun c => c = ',' || c = ' ') qop,
    eqIgnoreAsciiCase (trim option) "auth".toList = true

instance (qop : Str) : Decidable (OffersAuth qop) :=
  inferInstanceAs (Decidable (∃ option ∈ splitBy (fun c => c = ',' || c = ' ') qop, _))

/-- What the parameters of a challenge offer, if this stack can answer them. -/
def offer (allowPlainMd5 proxy : Bool) (params : List (Str × Str)) : Option DigestChallenge := do
  let realm ← params.lookup "realm".toList
  let nonce ← params.lookup "nonce".toList
  let algorithm := (params.lookup "algorithm".toList).getD "AKAv1-MD5".toList
  let stale := (params.lookup "stale".toList).getD "false".toList
  guard (realm ≠ [] ∧ nonce ≠ [])
  guard (eqIgnoreAsciiCase stale "true".toList ∨ eqIgnoreAsciiCase stale "false".toList)
  guard (∃ name ∈ supportedAlgorithms allowPlainMd5, eqIgnoreAsciiCase algorithm name)
  guard (∀ qop ∈ params.lookup "qop".toList, OffersAuth qop)
  return { realm, nonce, algorithm
           qop := (params.lookup "qop".toList).map fun _ => "auth".toList
           opaqueValue := params.lookup "opaque".toList
           proxy
           stale := eqIgnoreAsciiCase stale "true".toList }

/-- What they offer as they are written: nothing if a name stands twice among them. -/
def offerOf (allowPlainMd5 proxy : Bool) (first : AuthParam) (rest : List (Separator × AuthParam)) :
    Option DigestChallenge :=
  if ((entries first rest).map Prod.fst).Nodup then offer allowPlainMd5 proxy (entries first rest)
  else none

/-- What a challenge offers: only a Digest challenge does. -/
def Challenge.offer (allowPlainMd5 proxy : Bool) : Challenge → Option DigestChallenge
  | .digest _ _ _ first rest => offerOf allowPlainMd5 proxy first rest
  | .foreign .. => none

/-- Parameters that are not too long to be read, and not too many. -/
structure Bounded (first : AuthParam) (rest : List (Separator × AuthParam)) : Prop where
  length : utf8Len (paramsText first rest) ≤ 16 * 1024
  count : rest.length < 64

instance (first : AuthParam) (rest : List (Separator × AuthParam)) :
    Decidable (Bounded first rest) :=
  decidable_of_iff (utf8Len (paramsText first rest) ≤ 16 * 1024 ∧ rest.length < 64)
    ⟨fun h => ⟨h.1, h.2⟩, fun h => ⟨h.1, h.2⟩⟩

/-! ## The option `auth` -/

variable {p : Char → Bool} {word text : Str}

/-- The pieces of a text begin with what stands before the first separator. -/
theorem splitBy_append (h : ∀ c ∈ word, p c = false) (rest : Str) :
    ∃ piece pieces, splitBy p rest = piece :: pieces ∧ (∀ c ∈ piece, c ∈ rest) ∧
      splitBy p (word ++ rest) = (word ++ piece) :: pieces := by
  have hfirst : ∃ piece pieces, splitBy p rest = piece :: pieces ∧ ∀ c ∈ piece, c ∈ rest := by
    induction rest with
    | nil => exact ⟨[], [], rfl, forall_mem_nil _⟩
    | cons c rest ih =>
      obtain ⟨piece, pieces, hsplit, hmem⟩ := ih
      rw [splitBy]
      split
      · exact ⟨[], _, rfl, forall_mem_nil _⟩
      · rw [hsplit]
        refine ⟨c :: piece, pieces, rfl, fun d hd => ?_⟩
        rcases mem_cons.mp hd with rfl | hd
        · exact mem_cons_self
        · exact mem_cons_of_mem c (hmem d hd)
  obtain ⟨piece, pieces, hsplit, hmem⟩ := hfirst
  refine ⟨piece, pieces, hsplit, hmem, ?_⟩
  induction word with
  | nil => exact hsplit
  | cons c word ih =>
    rw [cons_append, splitBy, h c mem_cons_self, if_neg Bool.false_ne_true,
      ih fun d hd => h d (mem_cons_of_mem c hd)]
    rfl

/-- A word without separators stands in one piece. -/
theorem exists_piece (h : ∀ c ∈ word, p c = false) (front back : Str) :
    ∃ a b, a ++ (word ++ b) ∈ splitBy p (front ++ (word ++ back)) ∧ (∀ c ∈ a, c ∈ front) ∧
      ∀ c ∈ b, c ∈ back := by
  induction front with
  | nil =>
    obtain ⟨piece, pieces, -, hmem, hsplit⟩ := splitBy_append h back
    refine ⟨[], piece, ?_, forall_mem_nil _, hmem⟩
    rw [nil_append, hsplit]
    exact mem_cons_self
  | cons c front ih =>
    obtain ⟨a, b, hpiece, ha, hb⟩ := ih
    rw [cons_append, splitBy]
    split
    · exact ⟨a, b, mem_cons_of_mem _ hpiece, fun d hd => mem_cons_of_mem c (ha d hd), hb⟩
    · obtain ⟨piece, pieces, hsplit, -⟩ :=
        @splitBy_append p [] (forall_mem_nil _) (front ++ (word ++ back))
      rw [hsplit] at hpiece ⊢
      rcases mem_cons.mp hpiece with hfirst | hlater
      · refine ⟨c :: a, b, ?_, fun d hd => ?_, hb⟩
        · rw [cons_append, hfirst]
          exact mem_cons_self
        · rcases mem_cons.mp hd with rfl | hd
          · exact mem_cons_self
          · exact mem_cons_of_mem c (ha d hd)
      · exact ⟨a, b, mem_cons_of_mem _ hlater, fun d hd => mem_cons_of_mem c (ha d hd), hb⟩

/-- White space around a text is trimmed. -/
theorem trim_around {a b : Str} (ha : ∀ c ∈ a, isWhitespace c = true) (h : Ends text)
    (hb : ∀ c ∈ b, isWhitespace c = true) : trim (a ++ (text ++ b)) = text := by
  have hstart : trimStart (a ++ (text ++ b)) = text ++ b := by
    rw [trimStart, dropWhile_append_of_pos ha]
    obtain ⟨hne, hhead, -⟩ := h
    cases text with
    | nil => exact absurd rfl hne
    | cons c text => exact dropWhile_cons_of_neg (by simpa using hhead)
  rw [trim, hstart, trimEnd, trimEndMatches, List.rdropWhile, reverse_append,
    dropWhile_append_of_pos fun c hc => hb c (mem_reverse.mp hc)]
  exact (rdropWhile_eq_self_iff (p := isWhitespace) (l := text)).mpr fun hne => by
    simpa using h.last

/-- What is left of a text that is trimmed stands in it. -/
theorem exists_trim (s : Str) : ∃ a b, s = a ++ (trim s ++ b) ∧ (∀ c ∈ a, isWhitespace c = true) ∧
    ∀ c ∈ b, isWhitespace c = true := by
  refine ⟨s.takeWhile isWhitespace, (trimStart s).rtakeWhile isWhitespace, ?_, ?_, ?_⟩
  · have hend : trim s ++ (trimStart s).rtakeWhile isWhitespace = trimStart s :=
      rdropWhile_append_rtakeWhile
    rw [hend]
    exact (takeWhile_append_dropWhile (p := isWhitespace)).symm
  · exact fun c hc => mem_takeWhile_imp hc
  · exact fun c hc => mem_rtakeWhile_imp hc

/-- A value that is `auth` has the option. -/
theorem offersAuth_of_trim {qop : Str} (h : trim qop = "auth".toList) : OffersAuth qop := by
  obtain ⟨front, back, hqop, hfront, hback⟩ := exists_trim qop
  rw [h] at hqop
  have hletters : ("auth".toList.all fun c => !(c = ',' || c = ' ')) = true := by decide
  have hword : ∀ c ∈ "auth".toList, (decide (c = ',') || decide (c = ' ')) = false := fun c hc => by
    simpa using all_eq_true.mp hletters c hc
  obtain ⟨a, b, hpiece, ha, hb⟩ := exists_piece hword front back
  have hends : Ends "auth".toList := { ne_nil := by decide, head := by decide, last := by decide }
  refine ⟨a ++ ("auth".toList ++ b), hqop ▸ hpiece, ?_⟩
  rw [trim_around (fun c hc => hfront c (ha c hc)) hends fun c hc => hback c (hb c hc)]
  decide

/-! ## Reading a challenge -/

/-- The value of `stale`. -/
def staleValue : Option Str → Except ImsError Bool
  | none => .ok false
  | some value =>
    if eqIgnoreAsciiCase value "true".toList then .ok true
    else if eqIgnoreAsciiCase value "false".toList then .ok false
    else .error ⟨"digest_stale_invalid"⟩

/-- `parse_digest_challenge` once the parameters are read. -/
def challengeOf (map : List (Str × Str)) (proxy : Bool) : Except ImsError DigestChallenge := do
  let some realm := map.lookup "realm".toList | throw ⟨"digest_realm_missing"⟩
  let some nonce := map.lookup "nonce".toList | throw ⟨"digest_nonce_missing"⟩
  let algorithm := (map.lookup "algorithm".toList).getD "AKAv1-MD5".toList
  let stale ← staleValue (map.lookup "stale".toList)
  if realm.isEmpty then
    throw ⟨"digest_realm_missing"⟩
  if nonce.isEmpty then
    throw ⟨"digest_nonce_missing"⟩
  return { realm, nonce, algorithm, qop := selectQop map,
           opaqueValue := map.lookup "opaque".toList, proxy, stale }

variable {scheme : Token}

/-- Behind the name of the scheme and blanks the parameters are read. -/
theorem parseDigestChallenge_text (h : IsDigest scheme) (space : Space)
    (htext : Ends text) (proxy : Bool) :
    parseDigestChallenge (scheme.text ++ (space.text ++ text)) proxy =
      parseDigestParams text >>= fun map => challengeOf map proxy := by
  have htrim : trim (scheme.text ++ (space.text ++ text)) = scheme.text ++ (space.text ++ text) :=
    (scheme.ends.append space.text htext).trim
  have hstarts : startsWithDigestScheme (scheme.text ++ (space.text ++ text)) = true := by
    rw [startsWithDigestScheme_token scheme (not_token_of_stops (space.stops text)), h,
      Bool.true_and]
    cases hspace : space.text with
    | nil => exact absurd hspace space.ne_nil
    | cons d blanks => exact isWhitespace_of_isBlank (space.all d (hspace ▸ mem_cons_self))
  have hsix := (of_eqIgnoreAsciiCase_digest h).1
  have hparams : trimStart ((scheme.text ++ (space.text ++ text)).drop 6) = text := by
    rw [← hsix, drop_left, trimStart,
      dropWhile_append_of_pos fun c hc => isWhitespace_of_isBlank (space.all c hc)]
    obtain ⟨hne, hhead, -⟩ := htext
    cases text with
    | nil => exact absurd rfl hne
    | cons c text => exact dropWhile_cons_of_neg (by simpa using hhead)
  rw [parseDigestChallenge, htrim, hstarts, hparams]
  refine congrArg (parseDigestParams text >>= ·) (funext fun map => ?_)
  rw [challengeOf]
  cases map.lookup "realm".toList with
  | none => rfl
  | some realm =>
    cases map.lookup "nonce".toList with
    | none => rfl
    | some nonce =>
      cases map.lookup "stale".toList with
      | none => rfl
      | some value =>
        rw [staleValue]
        dsimp only
        by_cases htrue : eqIgnoreAsciiCase value "true".toList = true
        · rw [if_pos htrue, if_pos htrue]
          rfl
        · rw [if_neg htrue, if_neg htrue]
          by_cases hfalse : eqIgnoreAsciiCase value "false".toList = true
          · rw [if_pos hfalse, if_pos hfalse]
            rfl
          · rw [if_neg hfalse, if_neg hfalse]
            rfl

/-- The quality of protection is not refused just when `auth` is among the options. -/
theorem selectQop_refused (params : List (Str × Str)) :
    (selectQop params).any (· != "auth".toList) = true ↔
      ¬∀ qop ∈ params.lookup "qop".toList, OffersAuth qop := by
  rw [selectQop]
  cases params.lookup "qop".toList with
  | none => exact iff_of_false Bool.false_ne_true fun h => h nofun
  | some qop =>
    have hany : (splitBy (fun c => c = ',' || c = ' ') qop).any
        (fun option => eqIgnoreAsciiCase (trim option) "auth".toList) = true ↔ OffersAuth qop :=
      any_eq_true
    rw [Option.map_some, Option.any_some, bne_iff_ne]
    by_cases hauth : OffersAuth qop
    · rw [if_pos (hany.mpr hauth)]
      refine iff_of_false (fun h => h rfl) fun h => h fun other hother => ?_
      exact Option.some.inj hother ▸ hauth
    · rw [if_neg fun h => hauth (hany.mp h)]
      exact iff_of_true (fun h => hauth (offersAuth_of_trim h)) fun h => hauth (h qop rfl)

/-- Where `auth` is among the options it is taken. -/
theorem selectQop_eq {params : List (Str × Str)}
    (h : ∀ qop ∈ params.lookup "qop".toList, OffersAuth qop) :
    selectQop params = (params.lookup "qop".toList).map fun _ => "auth".toList := by
  rw [selectQop]
  cases hqop : params.lookup "qop".toList with
  | none => rfl
  | some qop =>
    have hany : (splitBy (fun c => c = ',' || c = ' ') qop).any
        (fun option => eqIgnoreAsciiCase (trim option) "auth".toList) = true :=
      any_eq_true.mpr (h qop hqop)
    rw [Option.map_some, if_pos hany]
    rfl

theorem supported_iff (allowPlainMd5 : Bool) (algorithm : Str) :
    (eqIgnoreAsciiCase algorithm "AKAv1-MD5".toList ||
      eqIgnoreAsciiCase algorithm "AKAv2-MD5".toList ||
      eqIgnoreAsciiCase algorithm "AKAv2-SHA-256".toList ||
      (allowPlainMd5 && eqIgnoreAsciiCase algorithm "MD5".toList)) = true ↔
    ∃ name ∈ supportedAlgorithms allowPlainMd5, eqIgnoreAsciiCase algorithm name = true := by
  rw [supportedAlgorithms]
  generalize "AKAv1-MD5".toList = v1
  generalize "AKAv2-MD5".toList = v2
  generalize "AKAv2-SHA-256".toList = sha
  generalize "MD5".toList = md5
  cases allowPlainMd5 <;> simp [or_assoc]

/-- The value of `stale` is refused, or it is whether `true` stands there. -/
theorem staleValue_eq (value : Option Str) : staleValue value =
      if eqIgnoreAsciiCase (value.getD "false".toList) "true".toList = true ∨
          eqIgnoreAsciiCase (value.getD "false".toList) "false".toList = true then
        .ok (eqIgnoreAsciiCase (value.getD "false".toList) "true".toList)
      else .error ⟨"digest_stale_invalid"⟩ := by
  cases value with
  | none => rfl
  | some value =>
    rw [staleValue, Option.getD_some]
    by_cases htrue : eqIgnoreAsciiCase value "true".toList = true
    · rw [if_pos htrue, if_pos (Or.inl htrue), htrue]
    · rw [if_neg htrue]
      by_cases hfalse : eqIgnoreAsciiCase value "false".toList = true
      · rw [if_pos hfalse, if_pos (Or.inr hfalse), Bool.eq_false_iff.mpr htrue]
      · rw [if_neg hfalse, if_neg fun h => h.elim htrue hfalse]

variable (allowPlainMd5 proxy : Bool)

/-- **Offers.** What is made of the parameters, if it is supported, is what they offer. -/
theorem toOption_challengeOf (params : List (Str × Str)) :
    (challengeOf params proxy >>= (validateDigestChallengeSupport · allowPlainMd5)).toOption =
      offer allowPlainMd5 proxy params := by
  have hrefused := selectQop_refused params
  have htaken := @selectQop_eq params
  have hsupported := supported_iff allowPlainMd5
  rw [challengeOf, offer]
  cases params.lookup "realm".toList with
  | none => rfl
  | some realm =>
  cases params.lookup "nonce".toList with
  | none => rfl
  | some nonce =>
  rw [staleValue_eq]
  simp only [guard, Option.bind_eq_bind, Option.bind_some]
  by_cases hempty : realm ≠ [] ∧ nonce ≠ []
  · rw [if_pos hempty]
    obtain ⟨hrealm, hnonce⟩ := hempty
    split
    · rw [ok_bind, if_neg (by simpa using hrealm), if_neg (by simpa using hnonce)]
      change (validateDigestChallengeSupport _ allowPlainMd5).toOption = _
      rw [validateDigestChallengeSupport]
      by_cases hname : ∃ name ∈ supportedAlgorithms allowPlainMd5,
          eqIgnoreAsciiCase ((params.lookup "algorithm".toList).getD "AKAv1-MD5".toList) name = true
      · rw [(hsupported _).mpr hname, if_neg (by decide), if_pos hname]
        by_cases hauth : ∀ qop ∈ params.lookup "qop".toList, OffersAuth qop
        · rw [if_neg fun h => hrefused.mp h hauth, if_pos hauth, htaken hauth]
          rfl
        · rw [if_pos (hrefused.mpr hauth), if_neg hauth]
          rfl
      · rw [Bool.eq_false_iff.mpr fun h => hname ((hsupported _).mp h), Bool.not_false, if_pos rfl,
          if_neg hname]
        rfl
    · rfl
  · rw [if_neg hempty]
    split
    · rw [ok_bind]
      by_cases hrealm : realm = []
      · rw [hrealm]
        rfl
      · have hnonce : nonce = [] := by
          by_contra hnonce
          exact hempty ⟨hrealm, hnonce⟩
        rw [if_neg (by simpa using hrealm), hnonce]
        rfl
    · rfl

/-! ## The text of a challenge -/

/-- What the text of a challenge is answered with. -/
def answer (allowPlainMd5 proxy : Bool) (value : Str) : Option DigestChallenge :=
  (parseDigestChallenge value proxy >>= (validateDigestChallengeSupport · allowPlainMd5)).toOption

variable {c : Char}

theorem isTextChar_of_toNat (h : 0x21 ≤ c.toNat ∧ c.toNat ≤ 0x7e) : isTextChar c = true := by
  rw [isTextChar, decide_eq_true (by omega : 0x20 ≤ c.toNat), Bool.true_and, Bool.or_eq_true]
  exact Or.inr (bne_iff_ne.mpr (by omega))

theorem isTextChar_of_isBlank (h : isBlank c = true) : isTextChar c = true := by
  rw [isBlank, Bool.or_eq_true, decide_eq_true_iff, decide_eq_true_iff] at h
  rcases h with rfl | rfl <;> decide

theorem ParamValue.isText (v : ParamValue) : ∀ c ∈ v.text, isTextChar c = true := by
  cases v with
  | plain text ne_nil all => exact fun c hc => isTextChar_of_toNat (toNat_of_isPlainChar (all c hc))
  | quoted chars =>
    intro c hc
    rw [ParamValue.text, mem_cons, mem_append, mem_flatMap, mem_singleton] at hc
    rcases hc with rfl | ⟨q, -, hq⟩ | rfl
    · decide
    · rw [QuotedChar.text] at hq
      split at hq
      · rcases mem_cons.mp hq with rfl | hchar
        · decide
        · exact mem_singleton.mp hchar ▸ q.isText
      · exact mem_singleton.mp hq ▸ q.isText
    · decide

theorem AuthParam.isText (p : AuthParam) : ∀ c ∈ p.text, isTextChar c = true := by
  intro c hc
  rw [AuthParam.text, mem_append, mem_append, mem_cons, mem_append] at hc
  rcases hc with hname | hbefore | rfl | hafter | hvalue
  · exact isTextChar_of_toNat (toNat_of_isTokenChar (p.name.all c hname))
  · exact isTextChar_of_isBlank (p.before.all c hbefore)
  · decide
  · exact isTextChar_of_isBlank (p.after.all c hafter)
  · exact p.value.isText c hvalue

theorem isText_paramsText (first : AuthParam) (rest : List (Separator × AuthParam)) :
    ∀ c ∈ paramsText first rest, isTextChar c = true := by
  intro c hc
  rw [paramsText, mem_append, mem_flatMap] at hc
  rcases hc with hfirst | ⟨⟨s, p⟩, -, hc⟩
  · exact first.isText c hfirst
  · have hc : c ∈ s.text ++ p.text := hc
    rw [Separator.text, mem_append, mem_append, mem_cons] at hc
    rcases hc with (hbefore | rfl | hafter) | hparam
    · exact isTextChar_of_isBlank (s.before.all c hbefore)
    · decide
    · exact isTextChar_of_isBlank (s.after.all c hafter)
    · exact p.isText c hparam

theorem clean_of_isText (h : ∀ c ∈ text, isTextChar c = true) :
    text.any (fun c => decide (c.toNat = 0x7f) || (decide (c.toNat < 0x20) && c != '\t')) =
      false := by
  rw [any_eq_false]
  intro c hc
  have htext := h c hc
  rw [isTextChar, Bool.or_eq_true, Bool.and_eq_true, decide_eq_true_iff, decide_eq_true_iff,
    bne_iff_ne] at htext
  rw [Bool.or_eq_true, Bool.and_eq_true, decide_eq_true_iff, decide_eq_true_iff, bne_iff_ne]
  rintro (hdel | ⟨hlow, htab⟩)
  · rcases htext with rfl | ⟨-, hother⟩
    · exact absurd hdel (by decide)
    · exact hother hdel
  · rcases htext with rfl | ⟨hhigh, -⟩
    · exact htab rfl
    · omega

/-- The parameters are read if they are bounded and no name stands twice. -/
theorem toOption_parseDigestParams (first : AuthParam) (rest : List (Separator × AuthParam)) :
    (parseDigestParams (paramsText first rest)).toOption =
      if Bounded first rest ∧ ((entries first rest).map Prod.fst).Nodup then
        some (entries first rest) else none := by
  have hloop := @toOption_loop first rest ⟨[], forall_mem_nil _⟩ 64 [] nodup_nil
  rw [append_nil, nil_append] at hloop
  rw [parseDigestParams, clean_of_isText (isText_paramsText first rest), Bool.or_false]
  by_cases hlength : 16 * 1024 < utf8Len (paramsText first rest)
  · rw [if_pos (decide_eq_true hlength), if_neg fun h => absurd h.1.length (not_le.mpr hlength)]
    rfl
  · rw [if_neg fun h => hlength (of_decide_eq_true h), hloop]
    refine if_congr (and_congr_left' ?_) rfl rfl
    exact ⟨fun h => ⟨not_lt.mp hlength, h⟩, Bounded.count⟩

/-- **The text of a challenge.** It is answered with what the challenge offers, if it is bounded. -/
theorem answer_text (h : IsDigest scheme)
    (space : Space) (first : AuthParam) (rest : List (Separator × AuthParam)) :
    answer allowPlainMd5 proxy (scheme.text ++ (space.text ++ paramsText first rest)) =
      if Bounded first rest then offerOf allowPlainMd5 proxy first rest else none := by
  have hparams := toOption_parseDigestParams first rest
  rw [answer, parseDigestChallenge_text h space (ends_paramsText first rest), offerOf]
  cases hread : parseDigestParams (paramsText first rest) with
  | error e =>
    rw [hread] at hparams
    by_cases hbounded : Bounded first rest
    · rw [if_pos hbounded, if_neg]
      · rfl
      · intro hnodup
        rw [if_pos ⟨hbounded, hnodup⟩] at hparams
        cases hparams
    · rw [if_neg hbounded]
      rfl
  | ok params =>
    rw [hread] at hparams
    by_cases hall : Bounded first rest ∧ ((entries first rest).map Prod.fst).Nodup
    · rw [if_pos hall] at hparams
      rw [if_pos hall.1, if_pos hall.2, ← Option.some.inj hparams]
      exact toOption_challengeOf allowPlainMd5 proxy params
    · rw [if_neg hall] at hparams
      cases hparams

/-- What no parameter can be read from behind a comma has the challenge refused. -/
theorem answer_refused (h : IsDigest scheme)
    (space : Space) (first : AuthParam) (rest : List (Separator × AuthParam)) (s : Separator)
    {more : Str} (hmore : Ends more) {e : ImsError} (hread : parameter more = .error e) :
    answer allowPlainMd5 proxy (scheme.text ++ (space.text ++
      (paramsText first rest ++ (s.text ++ more)))) = none := by
  have hends := (ends_paramsText first rest).append s.text hmore
  have hvisible := visible_of_ends hmore []
  rw [append_nil] at hvisible
  have hloop := loop_refused hvisible hread s first rest 64 []
  have hparams : (parseDigestParams (paramsText first rest ++ (s.text ++ more))).toOption =
      none := by
    rw [parseDigestParams]
    split
    · rfl
    · exact hloop
  rw [answer, parseDigestChallenge_text h space hends]
  cases hparse : parseDigestParams (paramsText first rest ++ (s.text ++ more)) with
  | error e => rfl
  | ok params =>
    rw [hparse] at hparams
    cases hparams

end SimMaster.Digest
