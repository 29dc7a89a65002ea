import SimMaster.DigestFields

/-!
# Verified responses

What a response says to the next request is taken from it only if its authentication fields are of
the request: of its scope, with each parameter once, with its qop, nc and cnonce, and with an
rspauth that is the digest of the request over `A2 = ":" uri` (`checkFields_sound`). How the
parameters are distributed over fields and lines makes no difference (`checkFields_carried`).
-/

namespace SimMaster.ResponseAuth

open Rust Digest List

/-! ## Digests in hexadecimal -/

theorem digitChar_hexDigitValue {c : Char} (h : isAsciiHexdigit c = true) :
    hexDigitValue c < 16 ∧ Nat.digitChar (hexDigitValue c) = c.toLower := by
  have hall : ((range 103).map Char.ofNat).all (fun c => !isAsciiHexdigit c ||
      decide (hexDigitValue c < 16 ∧ Nat.digitChar (hexDigitValue c) = c.toLower)) = true := by
    decide +kernel
  have hlt : c.toNat < 103 := by
    simp only [isAsciiHexdigit, Bool.or_eq_true, Bool.and_eq_true, decide_eq_true_iff,
      Char.le_def, UInt32.le_iff_toNat_le] at h
    have hf : 'f'.val.toNat = 102 := rfl
    have hF : 'F'.val.toNat = 70 := rfl
    have h9 : '9'.val.toNat = 57 := rfl
    have hc : c.toNat = c.val.toNat := rfl
    omega
  have hmem : c ∈ (range 103).map Char.ofNat :=
    mem_map.mpr ⟨c.toNat, mem_range.mpr hlt, Char.ofNat_toNat c⟩
  have hdigit := all_eq_true.mp hall c hmem
  rw [h, Bool.not_true, Bool.false_or, decide_eq_true_iff] at hdigit
  exact hdigit

variable {value : Str} {bytes : Bytes}

/-- What is decoded is written in small letters. -/
theorem hexLower_of_decodeHex
    (hvalue : ∀ c ∈ value, isAsciiHexdigit c = true) (h : decodeHex value = .ok bytes) :
    hexLower bytes = toAsciiLowercase value := by
  induction value using decodeHex.induct generalizing bytes with
  | case1 =>
    rw [← Except.ok.inj h]
    rfl
  | case2 c => cases h
  | case3 high low rest ih =>
    obtain ⟨hhigh, hlow, hrest⟩ :=
      (forall_mem_cons.mp hvalue).imp_right forall_mem_cons.mp
    obtain ⟨more, hmore, rfl⟩ := exists_of_map_eq_ok h
    obtain ⟨hhigh, hhighChar⟩ := digitChar_hexDigitValue hhigh
    obtain ⟨hlow, hlowChar⟩ := digitChar_hexDigitValue hlow
    have hoctet : (UInt8.ofNat (hexDigitValue high * 16 + hexDigitValue low)).toNat =
        hexDigitValue high * 16 + hexDigitValue low :=
      Nat.mod_eq_of_lt (by omega)
    have hdiv : (hexDigitValue high * 16 + hexDigitValue low) / 16 = hexDigitValue high := by omega
    have hmod : (hexDigitValue high * 16 + hexDigitValue low) % 16 = hexDigitValue low := by omega
    have hrest := ih hrest hmore
    rw [hexLower] at hrest
    rw [hexLower, flatMap_cons, hrest, hoctet, hdiv, hmod, hhighChar, hlowChar]
    rfl

/-- What is written in small letters stays so. -/
theorem toAsciiLowercase_hexLower (bytes : Bytes) :
    toAsciiLowercase (hexLower bytes) = hexLower bytes := by
  have hdigit : ∀ n < 16, (Nat.digitChar n).toLower = Nat.digitChar n := by decide
  rw [toAsciiLowercase]
  induction bytes with
  | nil => rfl
  | cons b bytes ih =>
    have hlt : b.toNat < 256 := UInt8.toNat_lt b
    rw [hexLower] at ih
    rw [hexLower, flatMap_cons, map_append, ih, map_cons, map_singleton,
      hdigit _ (by omega), hdigit _ (by omega)]

theorem of_decodeProofDigest {byteLen : ℕ} (h : decodeProofDigest value byteLen = .ok bytes) :
    hexLower bytes = toAsciiLowercase value := by
  rw [decodeProofDigest] at h
  split at h
  · cases h
  · next hvalid =>
    rw [Bool.or_eq_true, not_or, Bool.not_eq_true', Bool.not_eq_false, all_eq_true] at hvalid
    cases hdecode : decodeHex value with
    | error e =>
      rw [hdecode] at h
      cases h
    | ok decoded =>
      rw [hdecode] at h
      rw [← Except.ok.inj h]
      exact hexLower_of_decodeHex hvalid.2 hdecode

theorem of_verifyDigest {expected : Bytes}
    (h : verifyDigest value expected = .ok ()) : toAsciiLowercase value = hexLower expected := by
  rw [verifyDigest] at h
  cases hdecode : decodeProofDigest value expected.length with
  | error e =>
    rw [hdecode] at h
    cases h
  | ok decoded =>
    rw [hdecode] at h
    dsimp only at h
    split at h
    · next heq => rw [← heq, of_decodeProofDigest hdecode]
    · cases h

/-! ## The request -/

/-- A REGISTER with credentials, and the proof that is captured from it. -/
structure Request (c : Ciphers) where
  challenge : DigestChallenge
  username : Str
  password : Bytes
  digestUri : Str
  cnonce : Str
  nc : Str
  proof : DigestRequestProof
  captured : DigestRequestProof.new c challenge username password digestUri cnonce nc = .ok proof

namespace Request

variable {c : Ciphers}

/-- The rspauth that answers the request: with an empty method, so that `A2 = ":" uri`. -/
def rspauth (r : Request c) (hash : DigestHash) : Str :=
  let ha1 := hash.hex c
    (asBytes r.username ++ 0x3a :: (asBytes r.challenge.realm ++ 0x3a :: r.password))
  let ha2 := hash.hex c (asBytes (':' :: r.digestUri))
  match r.challenge.qop with
  | none => hash.hex c (asBytes (ha1 ++ ':' :: (r.challenge.nonce ++ ':' :: ha2)))
  | some _ => hash.hex c (asBytes (ha1 ++ ':' :: (r.challenge.nonce ++ ':' ::
      (r.nc ++ ':' :: (r.cnonce ++ (":auth:".toList ++ ha2))))))

/-- What the proof says of the request. -/
structure Kept (r : Request c) : Prop where
  proxy : r.proof.proxy = r.challenge.proxy
  qop : r.proof.qop = r.challenge.qop
  nc : r.proof.nc = r.challenge.qop.map fun _ => r.nc
  cnonce : r.proof.cnonce = r.challenge.qop.map fun _ => r.cnonce
  rspauth : ∃ hash, digestHashForAlgorithm r.challenge.algorithm = .ok hash ∧
    hexLower r.proof.responseDigest = r.rspauth hash

theorem kept (r : Request c) : r.Kept := by
  have h := r.captured
  obtain ⟨hash, hhash, h⟩ := bind_eq_ok.mp h
  dsimp only at h
  split at h
  · cases h
  next hqop =>
  split at h
  · cases h
  split at h
  · cases h
  obtain ⟨requestDigest, -, h⟩ := bind_eq_ok.mp h
  obtain ⟨responseDigest, hdigest, h⟩ := bind_eq_ok.mp h
  obtain ⟨text, htext, hdigest⟩ := bind_eq_ok.mp hdigest
  have hproof := Except.ok.inj h
  have hqop : r.challenge.qop = none ∨ r.challenge.qop = some "auth".toList := by
    cases hqopValue : r.challenge.qop with
    | none => exact Or.inl rfl
    | some qop =>
      rw [hqopValue, Option.any_some, bne_iff_ne, not_not] at hqop
      exact Or.inr (congrArg some hqop)
  refine ⟨?_, ?_, ?_, ?_, hash, hhash, ?_⟩
  · rw [← hproof]
  · rw [← hproof]
    rcases hqop with hqop | hqop <;> rw [hqop] <;> rfl
  · rw [← hproof]
  · rw [← hproof]
  · have hresponse : r.proof.responseDigest = responseDigest := by rw [← hproof]
    rw [hresponse, of_decodeProofDigest hdigest]
    rw [computeDigestResponse, hhash] at htext
    obtain ⟨hash', hhash', htext⟩ := bind_eq_ok.mp htext
    obtain rfl := Except.ok.inj hhash'
    obtain ⟨input, hinput, htext⟩ := bind_eq_ok.mp htext
    rw [← Except.ok.inj htext, DigestHash.hex, toAsciiLowercase_hexLower, Request.rspauth]
    rcases hqop with hqop | hqop
    · rw [hqop] at hinput ⊢
      rw [← Except.ok.inj hinput]
      rfl
    · rw [hqop, digestInput, if_pos rfl] at hinput
      rw [hqop, ← Except.ok.inj hinput]
      rfl

end Request

/-! ## What is exposed -/

variable {c : Ciphers}

/-- The response says something that counts as authenticated. -/
def VerifiedAuthenticationInfo.Exposes (info : VerifiedAuthenticationInfo) : Prop :=
  info.nextnonce.isSome = true ∨ info.rspauthVerified = true

/-- The parameters answer the request, and what is exposed is what they say. -/
structure Answers (r : Request c) (params : List AuthParam) (info : VerifiedAuthenticationInfo) :
    Prop where
  /-- no name occurs twice, in large or small letters -/
  nodup : (params.map fun p => toAsciiLowercase p.name.text).Nodup
  qop : ∀ p ∈ params, toAsciiLowercase p.name.text = "qop".toList →
    r.challenge.qop = some p.value.value
  nc : ∀ p ∈ params, toAsciiLowercase p.name.text = "nc".toList →
    r.challenge.qop.isSome = true ∧ p.value.value = r.nc
  cnonce : ∀ p ∈ params, toAsciiLowercase p.name.text = "cnonce".toList →
    r.challenge.qop.isSome = true ∧ p.value.value = r.cnonce
  rspauth : ∀ p ∈ params, toAsciiLowercase p.name.text = "rspauth".toList →
    ∃ hash, digestHashForAlgorithm r.challenge.algorithm = .ok hash ∧
      toAsciiLowercase p.value.value = r.rspauth hash
  nextnonce : ∀ value, info.nextnonce = some value →
    ∃ p ∈ params, toAsciiLowercase p.name.text = "nextnonce".toList ∧ p.value.value = value
  verified : info.rspauthVerified = true →
    ∃ p ∈ params, toAsciiLowercase p.name.text = "rspauth".toList

theorem param_eq_some {params : List AuthParam}
    (hnodup : (params.map fun p => p.entry.1).Nodup) {p : AuthParam} (hp : p ∈ params) :
    param (params.map AuthParam.entry) (toAsciiLowercase p.name.text) = some p.value.value := by
  induction params with
  | nil => cases hp
  | cons q params ih =>
    obtain ⟨hq, hnodup⟩ := nodup_cons.mp hnodup
    rw [param, map_cons]
    rcases mem_cons.mp hp with rfl | hp
    · exact lookup_cons_self
    · have hne : (toAsciiLowercase p.name.text == q.entry.1) = false := by
        rw [beq_eq_false_iff_ne]
        exact fun heq => hq (mem_map.mpr ⟨p, hp, heq⟩)
      rw [lookup_cons, hne]
      exact ih hnodup hp

theorem exists_of_param {params : List AuthParam} {name value : Str}
    (h : param (params.map AuthParam.entry) name = some value) :
    ∃ p ∈ params, toAsciiLowercase p.name.text = name ∧ p.value.value = value := by
  obtain ⟨front, back, heq, -⟩ := lookup_eq_some_iff.mp h
  have hmem : (name, value) ∈ params.map AuthParam.entry := by
    rw [heq]
    exact mem_append_right _ mem_cons_self
  obtain ⟨p, hp, hentry⟩ := mem_map.mp hmem
  obtain ⟨hname, hvalue⟩ := Prod.mk.inj hentry
  exact ⟨p, hp, hname, hvalue⟩

/-- What passes the comparison with the request. -/
theorem checkEcho_sound {proof : DigestRequestProof} {params : List (Str × Str)}
    (h : checkEcho proof params = .ok ()) :
    (∀ value, param params "qop".toList = some value → proof.qop = some value) ∧
      (∀ value, param params "nc".toList = some value →
        proof.qop.isSome = true ∧ proof.nc = some value) ∧
      ∀ value, param params "cnonce".toList = some value →
        proof.qop.isSome = true ∧ proof.cnonce = some value := by
  rw [checkEcho] at h
  cases hqop : proof.qop with
  | none =>
    rw [hqop] at h
    dsimp only at h
    split at h
    · cases h
    · next hnone =>
      simp only [Bool.or_eq_true, not_or, Bool.not_eq_true, Option.isSome_eq_false_iff,
        Option.isNone_iff_eq_none] at hnone
      obtain ⟨⟨hq, hnc⟩, hcnonce⟩ := hnone
      rw [hq, hnc, hcnonce]
      exact ⟨nofun, nofun, nofun⟩
  | some qop =>
    rw [hqop] at h
    dsimp only at h
    split at h
    · cases h
    · next hsame =>
      have hvalue : ∀ {value : Str} {found : Option Str} {p : Str → Bool},
          ¬found.any p = true → found = some value → p value = false := by
        rintro value found p hany rfl
        exact Bool.eq_false_iff.mpr hany
      rw [Bool.or_eq_true, not_or, Bool.or_eq_true, not_or] at hsame
      obtain ⟨⟨hq, hnc⟩, hcnonce⟩ := hsame
      refine ⟨fun value hfound => ?_, fun value hfound => ⟨rfl, ?_⟩, fun value hfound => ⟨rfl, ?_⟩⟩
      · have hsame := hvalue hq hfound
        rw [bne_eq_false_iff_eq] at hsame
        rw [hsame]
      · have hsame := hvalue hnc hfound
        rw [bne_eq_false_iff_eq] at hsame
        exact hsame.symm
      · have hsame := hvalue hcnonce hfound
        rw [bne_eq_false_iff_eq] at hsame
        exact hsame.symm

variable {info : VerifiedAuthenticationInfo}

/-- **One list.** What passes the checks answers the request. -/
theorem checkParams_sound (r : Request c) {params : List AuthParam} (haccepted : Accepted params)
    (h : checkParams r.proof (params.map AuthParam.entry) = .ok info) : Answers r params info := by
  have hkept := r.kept
  have hfound : ∀ p ∈ params, ∀ name, toAsciiLowercase p.name.text = name →
      param (params.map AuthParam.entry) name = some p.value.value := fun p hp name hname =>
    hname ▸ param_eq_some haccepted.nodup hp
  rw [checkParams] at h
  split at h
  · cases h
  split at h
  · cases h
  obtain ⟨_, hecho, h⟩ := bind_eq_ok.mp h
  obtain ⟨hqop, hnc, hcnonce⟩ := checkEcho_sound hecho
  have hdone : (∀ value, param (params.map AuthParam.entry) "rspauth".toList = some value →
      verifyDigest value r.proof.responseDigest = .ok ()) ∧
      (⟨param (params.map AuthParam.entry) "nextnonce".toList,
        (param (params.map AuthParam.entry) "rspauth".toList).isSome⟩ :
          VerifiedAuthenticationInfo) = info := by
    cases hvalue : param (params.map AuthParam.entry) "rspauth".toList with
    | none =>
      rw [hvalue] at h
      exact ⟨nofun, Except.ok.inj h⟩
    | some value =>
      rw [hvalue] at h
      obtain ⟨_, hverify, h⟩ := bind_eq_ok.mp h
      exact ⟨fun other hother => Option.some.inj hother ▸ hverify, Except.ok.inj h⟩
  obtain ⟨hrspauth, hinfo⟩ := hdone
  rw [hkept.qop] at hqop hnc hcnonce
  have hechoed : ∀ {kept : Str} {found : Option Str} {value : Str},
      found = r.challenge.qop.map (fun _ => kept) → found = some value → value = kept := by
    rintro kept found value rfl hvalue
    obtain ⟨_, -, hvalue⟩ := Option.map_eq_some_iff.mp hvalue
    exact hvalue.symm
  refine ⟨haccepted.nodup, fun p hp hname => hqop _ (hfound p hp _ hname), fun p hp hname => ?_,
    fun p hp hname => ?_, fun p hp hname => ?_, fun value hvalue => ?_, fun hverified => ?_⟩
  · obtain ⟨hsome, hvalue⟩ := hnc _ (hfound p hp _ hname)
    exact ⟨hsome, hechoed hkept.nc hvalue⟩
  · obtain ⟨hsome, hvalue⟩ := hcnonce _ (hfound p hp _ hname)
    exact ⟨hsome, hechoed hkept.cnonce hvalue⟩
  · obtain ⟨hash, hhash, hdigest⟩ := hkept.rspauth
    have hverified := hrspauth _ (hfound p hp _ hname)
    exact ⟨hash, hhash, (of_verifyDigest hverified).trans hdigest⟩
  · rw [← hinfo] at hvalue
    exact exists_of_param hvalue
  · rw [← hinfo] at hverified
    obtain ⟨value, hvalue⟩ := Option.isSome_iff_exists.mp hverified
    obtain ⟨p, hp, hname, -⟩ := exists_of_param hvalue
    exact ⟨p, hp, hname⟩

/-- The authentication fields are the request's, and whatever lists of parameters they are found to
carry, these answer the request. -/
structure Authentic (r : Request c) (fields : List (Bool × Str))
    (info : VerifiedAuthenticationInfo) : Prop where
  scope : ∀ field ∈ fields, field.1 = r.challenge.proxy
  read : ∃ lists, Carried fields lists
  answers : ∀ lists, Carried fields lists → Answers r lists.flatten info

variable {fields : List (Bool × Str)}

/-- **All fields.** Something is exposed of authentic fields only. -/
theorem checkFields_sound (r : Request c) (h : checkFields (some r.proof) fields = .ok info)
    (hexposes : info.Exposes) : Authentic r fields info := by
  rw [checkFields] at h
  split at h
  · rw [← Except.ok.inj h] at hexposes
    rcases hexposes with hexposes | hexposes <;> cases hexposes
  next hne =>
  rw [List.isEmpty_iff] at hne
  split at h
  · cases h
  next hscope =>
  obtain ⟨combined, hcombined, h⟩ := bind_eq_ok.mp h
  obtain ⟨entries, hread, h⟩ := bind_eq_ok.mp h
  refine ⟨fun field hfield => ?_, exists_carried hcombined, fun lists hlists => ?_⟩
  · by_contra hother
    refine hscope (any_eq_true.mpr ⟨field, hfield, ?_⟩)
    rw [bne_iff_ne, r.kept.proxy]
    exact hother
  · obtain ⟨haccepted, rfl⟩ := hlists.read hne hcombined hread
    exact checkParams_sound r haccepted h

/-! ## Distribution -/

/-- What fields of one scope come to that carry these parameters. -/
def checkList (proof : Option DigestRequestProof) (proxy : Bool) (params : List AuthParam) :
    Except ImsError VerifiedAuthenticationInfo :=
  if params = [] then .ok ⟨none, false⟩
  else match proof with
    | none => .error ⟨"digest_response_auth_context_missing"⟩
    | some proof =>
      if proxy != proof.proxy then .error ⟨"digest_response_auth_scope_mismatch"⟩
      else if Accepted params then checkParams proof (params.map AuthParam.entry)
      else .error invalid

/-- **Distribution.** How the parameters are distributed over the fields makes no difference. -/
theorem checkFields_carried (proof : Option DigestRequestProof) {proxy : Bool}
    (hscope : ∀ field ∈ fields, field.1 = proxy)
    {lists : List (List AuthParam)} (h : Carried fields lists)
    (hlength : joinedLen fields ≤ maxAuthBytes) :
    checkFields proof fields = checkList proof proxy lists.flatten := by
  cases h with
  | nil => rfl
  | @cons field list fields lists hfield hfields =>
    have hne : (list :: lists).flatten ≠ [] := by
      exact append_ne_nil_of_left_ne_nil hfield.ne_nil.1 _
    have hread := combineFields_read (.cons hfield hfields) (cons_ne_nil field fields) hlength
    rw [checkFields.eq_def, checkList.eq_def, if_neg hne, isEmpty_cons, if_neg Bool.false_ne_true]
    cases proof with
    | none => rfl
    | some proof =>
      have hscopes : ((field :: fields).any fun f => f.1 != proof.proxy) =
          (proxy != proof.proxy) := by
        cases hproxy : proxy != proof.proxy with
        | true =>
          refine any_eq_true.mpr ⟨field, mem_cons_self, ?_⟩
          rw [hscope field mem_cons_self, hproxy]
        | false =>
          rw [any_eq_false]
          intro f hf
          rw [hscope f hf, hproxy]
          exact Bool.false_ne_true
      dsimp only
      rw [hscopes]
      split
      · rfl
      · rw [← bind_assoc, hread]
        split
        · rfl
        · rfl

/-- A message whose authentication fields are of one scope and carry parameters. -/
structure Message where
  block : HeaderBlock
  text : Str
  body : Bytes
  wired : Wired block.lines text
  fits : Fits authenticationInfo proxyAuthenticationInfo block text
  proxy : Bool
  oneScope : ∀ field ∈ block.family authenticationInfo proxyAuthenticationInfo, field.1 = proxy
  lists : List (List AuthParam)
  carried : Carried (block.family authenticationInfo proxyAuthenticationInfo) lists

namespace Message

def frame (m : Message) : Bytes := asBytes m.text ++ m.body

/-- The parameters in order. -/
def params (m : Message) : List AuthParam := m.lists.flatten

theorem validate_frame (m : Message) (proof : Option DigestRequestProof) :
    validateResponseAuthentication proof m.frame =
      if statusLineValid m.block.start then checkList proof m.proxy m.params
      else .error invalid := by
  have hlength := (joinedLen_family_le m.block.fields).trans m.fits.auth
  rw [validateResponseAuthentication, frame, authHeaders_complete m.wired m.fits, ok_bind]
  rw [checkFields_carried proof m.oneScope m.carried hlength]
  cases statusLineValid m.block.start with
  | true => rfl
  | false => rfl

end Message

/-! ## Failing closed -/

/-- **Response authentication.** A response exposes something only if the fields of its header block
are authentic, and nothing to a request without credentials; a parameter list comes to the same
whether it is given in one field, in several, or cut at its commas and folded. -/
theorem response_authentication (c : Ciphers) :
    (∀ (r : Request c) (response : Bytes) (info : VerifiedAuthenticationInfo),
      validateResponseAuthentication (some r.proof) response = .ok info → info.Exposes →
      (∃ block, Begins response block) ∧ ∀ block, Begins response block →
        Authentic r (block.family authenticationInfo proxyAuthenticationInfo) info) ∧
    (∀ (response : Bytes) (info : VerifiedAuthenticationInfo),
      validateResponseAuthentication none response = .ok info → ¬info.Exposes) ∧
    (∀ (proof : Option DigestRequestProof) (m m' : Message), m.block.start = m'.block.start →
      m.proxy = m'.proxy → m.params = m'.params → validateResponseAuthentication proof m.frame =
        validateResponseAuthentication proof m'.frame) ∧
    ∀ (f : HeaderField) (params : List AuthParam), Folded f.content f.folds params →
      ParamList f.value params := by
  have hpeel : ∀ {proof : Option DigestRequestProof} {response : Bytes}
      {info : VerifiedAuthenticationInfo},
      validateResponseAuthentication proof response = .ok info →
      ∃ block, Begins response block ∧
        checkFields proof (block.family authenticationInfo proxyAuthenticationInfo) = .ok info := by
    intro proof response info h
    rw [validateResponseAuthentication] at h
    obtain ⟨headers, hheaders, h⟩ := bind_eq_ok.mp h
    obtain ⟨block, hblock, -, hfields⟩ := authHeaders_sound hheaders
    dsimp only at h
    split at h
    · cases h
    · exact ⟨block, hblock, hfields ▸ h⟩
  refine ⟨fun r response info h hexposes => ?_, fun response info h hexposes => ?_,
    fun proof m m' hstart hproxy hparams => ?_, fun f params h => h.paramList⟩
  · obtain ⟨block, hblock, h⟩ := hpeel h
    refine ⟨⟨block, hblock⟩, fun other hother => ?_⟩
    rw [hother.unique hblock]
    exact checkFields_sound r h hexposes
  · obtain ⟨block, -, h⟩ := hpeel h
    rw [checkFields.eq_def] at h
    split at h
    · rw [← Except.ok.inj h] at hexposes
      rcases hexposes with hexposes | hexposes <;> cases hexposes
    · cases h
  · rw [m.validate_frame, m'.validate_frame, hstart, hproxy, hparams]

/-! A REGISTER for `u` at `sip:h`, with a folded answer. -/

def registerRequestDigest : Bytes :=
  [0xbb, 0x81, 0x95, 0xd5, 0x32, 0xf4, 0x56, 0x24, 0x9c, 0x45, 0x88, 0x7b, 0xfc, 0x72, 0xdf, 0x9f]

def registerResponseDigest : Bytes :=
  [0x71, 0x0b, 0x42, 0x68, 0x6a, 0xdc, 0x6b, 0x94, 0xf1, 0x7f, 0x27, 0xb0, 0xc6, 0x72, 0xd0, 0xb8]

/-- MD5 of what is hashed for the REGISTER. -/
def registerDigests : Ciphers where
  aesCbcEncrypt _ _ data := data
  aesCbcDecrypt _ _ data := data
  hmac _ _ _ := []
  md5 data :=
    if data = asBytes "u:r:p".toList then
      [0x44, 0xad, 0xd2, 0x2b, 0x6f, 0x31, 0x79, 0xb7,
        0x51, 0xea, 0xfd, 0x68, 0xee, 0x37, 0x0f, 0x7d]
    else if data = asBytes "REGISTER:sip:h".toList then
      [0xbc, 0x64, 0x52, 0x3e, 0xe7, 0x72, 0x2d, 0x70,
        0xd5, 0xbc, 0x9f, 0xe7, 0xf3, 0x48, 0x1b, 0xc6]
    else if data = asBytes ":sip:h".toList then
      [0x48, 0x58, 0x70, 0xb5, 0x6c, 0x82, 0xdc, 0x6a,
        0xaf, 0x98, 0x3c, 0xfc, 0x16, 0x1c, 0x23, 0x7d]
    else if data = asBytes ("44add22b6f3179b751eafd68ee370f7d:n:00000001:c:auth:".toList ++
        "bc64523ee7722d70d5bc9fe7f3481bc6".toList) then
      registerRequestDigest
    else
      registerResponseDigest
  sha1 _ := []
  sha256 _ := []

def registerRequest : Request registerDigests where
  challenge :=
    { realm := "r".toList, nonce := "n".toList, algorithm := "MD5".toList
      qop := some "auth".toList, opaqueValue := none, proxy := false, stale := false }
  username := "u".toList
  password := asBytes "p".toList
  digestUri := "sip:h".toList
  cnonce := "c".toList
  nc := "00000001".toList
  proof :=
    { proxy := false, username := "u".toList, realm := "r".toList, nonce := "n".toList
      algorithm := "MD5".toList, digestUri := "sip:h".toList, qop := some "auth".toList
      opaqueValue := none, cnonce := some "c".toList, nc := some "00000001".toList
      requestDigest := registerRequestDigest
      responseDigest := registerResponseDigest }
  captured := by decide +kernel

def registerAnswer : Bytes :=
  asBytes ("SIP/2.0 200 OK\r\nAuthentication-Info: nextnonce=\"m\",\r\n qop=auth,\r\n".toList ++
    " nc=00000001, cnonce=\"c\"\r\nAuthentication-Info: ".toList ++
    "rspauth=\"710b42686adc6b94f17f27b0c672d0b8\"\r\n\r\n".toList)

/-- The parameter `x=y`. -/
def plainParam : AuthParam :=
  ⟨⟨['x'], cons_ne_nil _ _, forall_mem_singleton.mpr rfl⟩, .empty, .empty,
    .plain ['y'] (cons_ne_nil _ _) (forall_mem_singleton.mpr rfl)⟩

/-- The parameter `z=w`. -/
def otherParam : AuthParam :=
  ⟨⟨['z'], cons_ne_nil _ _, forall_mem_singleton.mpr rfl⟩, .empty, .empty,
    .plain ['w'] (cons_ne_nil _ _) (forall_mem_singleton.mpr rfl)⟩

/-- An Authentication-Info field. -/
def infoField (content : Str) (h : content.all isLineChar = true) : HeaderField where
  name := ⟨authenticationInfo, by decide, all_eq_true.mp (by decide +kernel)⟩
  gap := .empty
  content := content
  folds := []
  content_all := all_eq_true.mp h
  folds_all := nofun

def infoBlock (fields : List HeaderField) : HeaderBlock where
  start := "SIP/2.0 200 OK".toList
  start_ne_nil := by decide
  start_all := fun c hc => by
    have hclean : ("SIP/2.0 200 OK".toList.all fun c => !isControl c) = true := by decide +kernel
    exact (Bool.not_eq_true' _).mp (all_eq_true.mp hclean c hc)
  fields := fields

/-- Both parameters in one field. -/
def oneFieldBlock : HeaderBlock :=
  infoBlock [infoField "x=y,z=w".toList (by decide +kernel)]

def oneFieldText : Str := "SIP/2.0 200 OK\r\nAuthentication-Info:x=y,z=w\r\n\r\n".toList

-- The literal is made a list before anything is evaluated: decoding it is what takes time.
theorem oneField_wired : Wired oneFieldBlock.lines oneFieldText := by
  unfold oneFieldText
  rw [String.toList_ofList]
  exact .crlf (.crlf (.crlf .nil))

theorem oneField_fits :
    Fits authenticationInfo proxyAuthenticationInfo oneFieldBlock oneFieldText := by
  unfold oneFieldText
  rw [String.toList_ofList]
  exact ⟨by decide +kernel, by decide +kernel, by decide +kernel,
    _, Or.inr (take_append_drop 43 _).symm⟩

def oneField : Message where
  block := oneFieldBlock
  text := oneFieldText
  body := []
  wired := oneField_wired
  fits := oneField_fits
  proxy := false
  oneScope := forall_mem_singleton.mpr (by decide +kernel)
  lists := [[plainParam, otherParam]]
  carried := .cons ⟨.empty, .empty, plainParam,
    [(⟨.empty, .empty⟩, otherParam)], by decide +kernel, rfl⟩ .nil

/-- A field for each of the parameters. -/
def twoFieldsBlock : HeaderBlock :=
  infoBlock
    [infoField "x=y".toList (by decide +kernel), infoField "z=w".toList (by decide +kernel)]

def twoFieldsText : Str :=
  "SIP/2.0 200 OK\nAuthentication-Info:x=y\nAuthentication-Info:z=w\n\n".toList

theorem twoFields_wired : Wired twoFieldsBlock.lines twoFieldsText := by
  unfold twoFieldsText
  rw [String.toList_ofList]
  exact .lf (.lf (.lf (.lf .nil)))

theorem twoFields_fits :
    Fits authenticationInfo proxyAuthenticationInfo twoFieldsBlock twoFieldsText := by
  unfold twoFieldsText
  rw [String.toList_ofList]
  exact ⟨by decide +kernel, by decide +kernel, by decide +kernel,
    _, Or.inl (take_append_drop 62 _).symm⟩

def twoFields : Message where
  block := twoFieldsBlock
  text := twoFieldsText
  body := [0x0a]
  wired := twoFields_wired
  fits := twoFields_fits
  proxy := false
  oneScope := forall_mem_cons.mpr
    ⟨by decide +kernel, forall_mem_singleton.mpr (by decide +kernel)⟩
  lists := [[plainParam], [otherParam]]
  carried := .cons ⟨.empty, .empty, plainParam, [], by decide +kernel, rfl⟩
    (.cons ⟨.empty, .empty, otherParam, [], by decide +kernel, rfl⟩ .nil)

theorem response_authentication_registered : (∃ block, Begins registerAnswer block ∧
      Authentic registerRequest (block.family authenticationInfo proxyAuthenticationInfo)
        ⟨some "m".toList, true⟩) ∧ ¬(⟨none, false⟩ : VerifiedAuthenticationInfo).Exposes ∧
    (validateResponseAuthentication (some registerRequest.proof) oneField.frame =
      validateResponseAuthentication (some registerRequest.proof) twoFields.frame) ∧
    ParamList (infoField "x=y".toList (by decide +kernel)).value [plainParam] := by
  obtain ⟨hexposed, hnone, hspread, hfolded⟩ := response_authentication registerDigests
  obtain ⟨⟨block, hblock⟩, hauthentic⟩ :=
    hexposed registerRequest registerAnswer ⟨some "m".toList, true⟩ (by decide +kernel) (Or.inl rfl)
  refine ⟨⟨block, hblock, hauthentic block hblock⟩,
    hnone (asBytes "SIP/2.0 200 OK\r\n\r\n".toList) ⟨none, false⟩ (by decide +kernel),
    hspread _ oneField twoFields rfl rfl rfl, hfolded _ _ (.line ?_)⟩
  exact ⟨.empty, .empty, plainParam, [], by decide +kernel, rfl⟩

end SimMaster.ResponseAuth
