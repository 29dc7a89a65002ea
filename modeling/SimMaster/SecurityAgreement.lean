import SimMaster.RegisterContacts

/-!
# The security agreement of IMS

The client offers every algorithm of its policy that it can install, with one tuple of SPIs and
ports (`clientOffer`). The server list is split outside quoted strings; every offer of it is
checked, and the one with the highest preference is installed (`select`).

The client accepts its own offer: what it would install then is the tuple it wrote and the
algorithms of the first mechanism (`client_offer_accepted`).
-/

namespace SimMaster.SecurityAgreement

open Rust
open List hiding splitBy

/-- The client cannot write its offer. -/
def securityClientInvalid : ImsError := ⟨"cellular_ims_security_client_invalid"⟩
/-- The server list is malformed, or holds no offer that can be installed. -/
def securityServerInvalid : ImsError := ⟨"cellular_ims_security_server_invalid"⟩
/-- The text names no known algorithms, or no tuple. -/
def securityServerMissing : ImsError := ⟨"cellular_ims_security_server_missing"⟩

/-- Octets of a header, all its values together. -/
def maxHeaderBytes : ℕ := 16 * 1024
/-- Mechanisms of the policy, values of the header, and offers in them. -/
def maxOffers : ℕ := 16
/-- Parameters of an offer, behind its mechanism. -/
def maxParameters : ℕ := 32

/-- The SPIs and ports of one party. -/
structure SecAgree where
  spiC : UInt32
  spiS : UInt32
  portC : UInt16
  portS : UInt16
  deriving DecidableEq

/-- The algorithms under the names the kernel has for them. -/
structure XfrmAlgs where
  auth : String
  authTruncBits : ℕ
  enc : String
  deriving DecidableEq

/-- What is installed, and the list that `Security-Verify` repeats. -/
structure Agreement where
  binding : SecAgree
  algorithms : XfrmAlgs
  matchedMechanism : Option ℕ
  verify : Str

/-! ## Algorithms and tuples -/

/-- The parameters in these parts: names in lower case, values without blanks and quotes around
them. -/
def fields (parts : List Str) : List (Str × Str) :=
  parts.filterMap fun part => (splitOnce '=' part).map fun (name, raw) =>
    (toAsciiLowercase (trim name), trimMatches '"' (trim raw))

/-- The last value that a loop over the parameters keeps. -/
def lastField (name : String) (fields : List (Str × Str)) : Option Str :=
  fields.reverse.lookup name.toList

/-- The algorithms an offer names; of a repeated parameter the last one counts. -/
def xfrmAlgsFromSecurityServer (value : Str) : Except ImsError XfrmAlgs :=
  let fields := fields (splitBy (· = ';') value).tail
  let auth := ((lastField "alg" fields).map toAsciiLowercase).bind fun alg =>
    if alg = "hmac-md5-96".toList then some "hmac(md5)"
    else if alg = "hmac-sha-1-96".toList ∨ alg = "hmac-sha1-96".toList then some "hmac(sha1)"
    else none
  let enc := ((lastField "ealg" fields).map toAsciiLowercase).bind fun ealg =>
    if ealg = "null".toList then some "cipher_null"
    else if ealg = "aes-cbc".toList then some "cbc(aes)"
    else none
  match auth, enc with
  | some auth, some enc => .ok ⟨auth, 96, enc⟩
  | _, _ => .error securityServerMissing

/-- `u32::from_str_radix(s, 16)`. -/
def parseHex (s : Str) : Option ℕ :=
  let digits := stripPlus s
  let value := digits.foldl (fun n c => 16 * n + (toDigit 16 c).getD 0) 0
  if digits ≠ [] ∧ digits.all isAsciiHexdigit ∧ value ≤ u32Max then some value else none

/-- An SPI: hexadecimal behind `0x`, otherwise decimal. -/
def parseU32 : Str → Option UInt32
  | '0' :: 'x' :: hex | '0' :: 'X' :: hex => (parseHex hex).map UInt32.ofNat
  | value => (parseUnsigned u32Max value).map UInt32.ofNat

def parsePort (value : Str) : Option UInt16 := (parseUnsigned u16Max value).map UInt16.ofNat

/-- ESP SPI zero is reserved, UDP port zero is no endpoint. -/
def SecAgree.usable (binding : SecAgree) : Prop :=
  binding.spiC ≠ 0 ∧ binding.spiS ≠ 0 ∧ binding.portC ≠ 0 ∧ binding.portS ≠ 0

instance (binding : SecAgree) : Decidable binding.usable := inferInstanceAs (Decidable (_ ∧ _))

/-- `parse_security_server` with its `validate_binding`. -/
def parseSecurityServer (value : Str) : Except ImsError SecAgree :=
  let parts := (splitBy (· = ';') value).map trim
  let fields := fields parts.tail
  if parts.head?.map toAsciiLowercase ≠ some "ipsec-3gpp".toList then .error securityServerMissing
  else match (lastField "spi-c" fields).bind parseU32, (lastField "spi-s" fields).bind parseU32,
      (lastField "port-c" fields).bind parsePort, (lastField "port-s" fields).bind parsePort with
  | some spiC, some spiS, some portC, some portS =>
    let selected : SecAgree := ⟨spiC, spiS, portC, portS⟩
    if selected.usable then .ok selected else .error securityServerInvalid
  | _, _, _, _ => .error securityServerMissing

/-! ## The client -/

/-- The characters of a token of RFC 3261. -/
def isTokenChar (c : Char) : Bool := isAsciiAlphanumeric c || "-_.!%*+`'~".toList.contains c

def token (value : Str) : Bool := !value.isEmpty && value.all isTokenChar

/-- The parameters of an offer. -/
def offerParameters (binding : SecAgree) (alg ealg prot mode : Str) (compact : Bool) :
    List (Str × Str) :=
  [("alg".toList, alg), ("ealg".toList, ealg)] ++
    ((if compact then [] else [("prot".toList, prot), ("mod".toList, mode)]) ++
    [("spi-c".toList, decimal binding.spiC.toNat), ("spi-s".toList, decimal binding.spiS.toNat),
      ("port-c".toList, decimal binding.portC.toNat),
      ("port-s".toList, decimal binding.portS.toNat)])

def field (parameter : Str × Str) : Str := parameter.1 ++ '=' :: parameter.2

def offerFields (parameters : List (Str × Str)) : List Str :=
  "ipsec-3gpp".toList :: parameters.map field

/-- `ipsec-3gpp;alg={alg};ealg={ealg}`. -/
def algorithmValue (alg ealg : Str) : Str :=
  "ipsec-3gpp;alg=".toList ++ (alg ++ (";ealg=".toList ++ ealg))

/-- The text of the offer for a mechanism. -/
def offer (binding : SecAgree) (compact spaced : Bool) (mechanism : Str) : Except ImsError Str :=
  match splitBy (· = '/') mechanism with
  | [alg, ealg, prot, mode] =>
    if ([alg, ealg, prot, mode].any fun part => !token part) ∨
        eqIgnoreAsciiCase prot "esp".toList = false ∨
        eqIgnoreAsciiCase mode "trans".toList = false then
      .error securityClientInvalid
    else match xfrmAlgsFromSecurityServer (algorithmValue alg ealg) with
    | .error _ => .error securityClientInvalid
    | .ok _ => .ok ((if spaced then "; ".toList else ";".toList).intercalate
        (offerFields (offerParameters binding alg ealg prot mode compact)))
  | _ => .error securityClientInvalid

/-- The offers; a mechanism that was there before in any case is checked but not offered again. -/
def offers (binding : SecAgree) (compact spaced : Bool) : (seen : List Str) → List Str →
    Except ImsError (List Str)
  | _, [] => .ok []
  | seen, mechanism :: allowed => do
    let text ← offer binding compact spaced mechanism
    if toAsciiLowercase mechanism ∈ seen then offers binding compact spaced seen allowed
    else
      let others ← offers binding compact spaced (toAsciiLowercase mechanism :: seen) allowed
      return text :: others

/-- The value of `Security-Client`; empty when the policy has no mechanism. -/
def clientOffer (binding : SecAgree) (allowed : List Str) (compact spaced : Bool) :
    Except ImsError Str :=
  if maxOffers < allowed.length then .error securityClientInvalid
  else if allowed.isEmpty then .ok []
  else if ¬binding.usable then .error securityClientInvalid
  else do
    let offers ← offers binding compact spaced [] allowed
    let header := ", ".toList.intercalate offers
    if maxHeaderBytes < utf8Len header then throw securityClientInvalid
    return header

/-! ## The server list -/

/-- The scan of `split_quoted`; `part` is the text since the last delimiter. -/
def splitQuotedLoop (delimiter : Char) (limit : ℕ) (quoted escaped : Bool) (result : List Str)
    (part : Str) : Str → Except ImsError (List Str)
  | [] =>
    if quoted || escaped || (trim part).isEmpty || limit ≤ result.length then
      .error securityServerInvalid
    else .ok (result ++ [trim part])
  | c :: rest =>
    if escaped then splitQuotedLoop delimiter limit quoted false result (part ++ [c]) rest
    else if quoted && c = '\\' then
      splitQuotedLoop delimiter limit quoted true result (part ++ [c]) rest
    else if c = '"' then splitQuotedLoop delimiter limit (!quoted) false result (part ++ [c]) rest
    else if !quoted && c = delimiter then
      if (trim part).isEmpty || limit ≤ result.length + 1 then .error securityServerInvalid
      else splitQuotedLoop delimiter limit quoted false (result ++ [trim part]) [] rest
    else splitQuotedLoop delimiter limit quoted false result (part ++ [c]) rest

/-- The pieces between delimiters outside quoted strings; more than the limit are refused. -/
def splitQuoted (value : Str) (delimiter : Char) (limit : ℕ) : Except ImsError (List Str) :=
  splitQuotedLoop delimiter limit false false [] [] value

/-- `strip_prefix` and then `strip_suffix`. -/
def stripAround (front back : Char) : Str → Option Str
  | [] => none
  | c :: rest => if c = front ∧ rest.getLast? = some back then some rest.dropLast else none

def unquote (value : Str) : Str := (stripAround '"' '"' value).getD value

/-- The inside of a quoted string. -/
def quotedPairs : (escaped : Bool) → Str → Bool
  | escaped, [] => !escaped
  | true, _ :: rest => quotedPairs false rest
  | false, c :: rest => if c = '\\' then quotedPairs true rest else c ≠
      '"' && quotedPairs false rest

/-- A token, an IPv6 address in brackets or a quoted string. -/
def validParameterValue (value : Str) : Bool :=
  token value || (stripAround '[' ']' value).any isIpv6 ||
    (stripAround '"' '"' value).any (quotedPairs false)

/-- `q` in thousandths, with at most three decimals. -/
def quality (value : Str) : Option ℕ :=
  let (whole, fraction) := (splitOnce '.' value).getD (value, [])
  if 3 < utf8Len fraction ∨ fraction.all isAsciiDigit = false then none
  else if whole = "1".toList ∧ fraction.all (· = '0') then some 1000
  else if whole = "0".toList then some (digitsValue fraction * 10 ^ (3 - fraction.length))
  else none

/-- The parameters in order, with names in lower case; none may come twice. -/
def readParameters : (parameters : List (Str × Str)) → List Str → Except ImsError (List (Str × Str))
  | parameters, [] => .ok parameters
  | parameters, part :: parts => do
    let (name, value) ← match splitOnce '=' part with
      | some (name, value) =>
        if validParameterValue (trim value) then .ok (name, value) else .error securityServerInvalid
      | none => .ok (part, [])
    let name := toAsciiLowercase (trim name)
    if !token name then throw securityServerInvalid
    if (parameters.lookup name).isSome then throw securityServerInvalid
    readParameters (parameters ++ [(name, trim value)]) parts

/-- The preference of an offer; explicit ones must differ. -/
def preferenceOf (explicit : List ℕ) (parameters : List (Str × Str)) :
    Except ImsError (List ℕ × ℕ) :=
  match parameters.lookup "q".toList with
  | none => .ok (explicit, 1000)
  | some value => match quality value with
    | none => .error securityServerInvalid
    | some q => if q ∈ explicit then .error securityServerInvalid else .ok (q :: explicit, q)

/-- The legacy spelling names the same primitive. -/
def sameIntegrityAlgorithm (actual expected : Str) : Bool :=
  let sha1 (value : Str) :=
    eqIgnoreAsciiCase value "hmac-sha-1-96".toList || eqIgnoreAsciiCase value "hmac-sha1-96".toList
  eqIgnoreAsciiCase actual expected || (sha1 actual && sha1 expected)

/-- A mechanism of the policy is `alg/ealg/prot/mode`, in any case. -/
def matchesMechanism (alg ealg prot mode mechanism : Str) : Bool :=
  match splitBy (· = '/') mechanism with
  | [expectedAlg, expectedEalg, expectedProt, expectedMode] =>
    sameIntegrityAlgorithm alg expectedAlg && eqIgnoreAsciiCase ealg expectedEalg &&
      eqIgnoreAsciiCase prot expectedProt && eqIgnoreAsciiCase mode expectedMode
  | _ => false

structure Selected where
  preference : ℕ
  parameters : List (Str × Str)
  algorithms : XfrmAlgs

/-- A parameter without its quotes. -/
def get (parameters : List (Str × Str)) (name : String) : Option Str :=
  (parameters.lookup name.toList).map unquote

/-- The algorithms of an `ipsec-3gpp` offer; `none` when it is passed over. -/
def installable (allowed : List Str) (strict : Bool) (parameters : List (Str × Str)) :
    Except ImsError (Option XfrmAlgs) :=
  match get parameters "alg", get parameters "ealg" with
  | some alg, some ealg =>
    let prot := (get parameters "prot").getD "esp".toList
    let mode := (get parameters "mod").getD "trans".toList
    if [alg, ealg, prot, mode].any fun part => !token part then .error securityServerInvalid
    else if eqIgnoreAsciiCase prot "esp".toList = false ∨
      eqIgnoreAsciiCase mode "trans".toList = false then
      .ok none
    else if strict && !allowed.any (matchesMechanism alg ealg prot mode) then .ok none
    else .ok (xfrmAlgsFromSecurityServer (algorithmValue alg ealg)).toOption
  | _, _ => .error securityServerInvalid

/-- One turn of the loop over the offers. -/
def consider (allowed : List Str) (strict : Bool) (state : List ℕ × Option Selected) (offer : Str) :
    Except ImsError (List ℕ × Option Selected) := do
  let parts ← splitQuoted offer ';' (maxParameters + 1)
  if !token (parts.headD []) then throw securityServerInvalid
  let parameters ← readParameters [] parts.tail
  let (explicit, preference) ← preferenceOf state.1 parameters
  if !eqIgnoreAsciiCase (parts.headD []) "ipsec-3gpp".toList then return (explicit, state.2)
  let algorithms ← installable allowed strict parameters
  return (explicit, match algorithms with
    | some algorithms =>
      if state.2.all (·.preference < preference) then some ⟨preference, parameters, algorithms⟩
      else state.2
    | none => state.2)

/-- The offers of all values of the header. -/
def splitValues : (offers : List Str) → List Str → Except ImsError (List Str)
  | offers, [] => .ok offers
  | offers, value :: values => do
    let more ← splitQuoted value ',' maxOffers
    if maxOffers < (offers ++ more).length then throw securityServerInvalid
    splitValues (offers ++ more) values

/-- The text of the tuple, for `parseSecurityServer`. -/
def bindingValue (parameters : List (Str × Str)) : (value : Str) → List String → Except ImsError Str
  | value, [] => .ok value
  | value, name :: names =>
    match get parameters name with
    | none => .error securityServerInvalid
    | some raw =>
      if raw.all fun c => isAsciiHexdigit c || c = 'x' || c = 'X' then
        bindingValue parameters (value ++ ';' :: (name.toList ++ '=' :: raw)) names
      else .error securityServerInvalid

/-- What comes after the loop. -/
def agree (values allowed : List Str) (selected : Selected) : Except ImsError Agreement := do
  let text ← bindingValue selected.parameters "ipsec-3gpp".toList ["spi-c", "spi-s",
    "port-c", "port-s"]
  match parseSecurityServer text with
  | .error _ => throw securityServerInvalid
  | .ok binding =>
    return {
      binding, algorithms := selected.algorithms
      matchedMechanism := allowed.findIdx? (matchesMechanism
        ((get selected.parameters "alg").getD []) ((get selected.parameters "ealg").getD [])
        ((get selected.parameters "prot").getD "esp".toList)
        ((get selected.parameters "mod").getD "trans".toList))
      verify := ", ".toList.intercalate values }

/-- The offer with the highest preference, of equal ones the first; `none` without a header. -/
def select (values allowed : List Str) (strict : Bool) : Except ImsError (Option Agreement) :=
  if values.isEmpty then .ok none
  else if maxOffers < values.length ∨ maxHeaderBytes < (values.map utf8Len).sum ∨
      values.any (·.any fun c => isControl c && c ≠ '\t') then .error securityServerInvalid
  else do
    let offers ← splitValues [] values
    let (_, selected) ← offers.foldlM (consider allowed strict) ([], none)
    match selected with
    | none => throw securityServerInvalid
    | some selected =>
      let agreement ← agree values allowed selected
      return some agreement

/-! ## Texts -/

/-- The characters of a parameter. -/
def isPlain (c : Char) : Bool := isTokenChar c || c = '='

variable {c : Char}

theorem toNat_of_isPlain (h : isPlain c = true) : 0x21 ≤ c.toNat ∧ c.toNat ≤ 0x7e := by
  rw [isPlain, Bool.or_eq_true, decide_eq_true_iff] at h
  rcases h with htoken | rfl
  · apply Digest.toNat_of_isTokenChar
    rw [isTokenChar, Bool.or_eq_true] at htoken
    rw [Digest.isTokenChar, Bool.or_eq_true]
    have hmarks : "-_.!%*+`'~".toList ⊆ "!#$%&'*+-.^_`|~".toList := by decide
    exact htoken.imp_right fun hmark =>
      contains_iff_mem.mpr (hmarks (contains_iff_mem.mp hmark))
  · decide

theorem isWhitespace_of_isPlain (h : isPlain c = true) : isWhitespace c = false :=
  Digest.isWhitespace_eq_false (toNat_of_isPlain h).1 (toNat_of_isPlain h).2

variable {d : Char}

theorem ne_of_isPlain (h : isPlain c = true) (hd : isPlain d = false) : c ≠ d := by
  rintro rfl
  exact absurd h (by rw [hd]; exact Bool.false_ne_true)

/-- A nonempty text of plain characters. -/
def Plain (s : Str) : Prop := s ≠ [] ∧ ∀ c ∈ s, isPlain c = true

variable {s : Str}

theorem Plain.trim (h : Plain s) : trim s = s :=
  trim_of_all fun c hc => isWhitespace_of_isPlain (h.2 c hc)

theorem Plain.ends (h : Plain s) : Digest.Ends s :=
  ⟨h.1, isWhitespace_of_isPlain (h.2 _ (head_mem _)),
    isWhitespace_of_isPlain (h.2 _ (getLast_mem _))⟩

theorem plain_of_token (h : token s = true) : Plain s := by
  rw [token, Bool.and_eq_true, all_eq_true] at h
  refine ⟨?_, fun c hc => by rw [isPlain, h.2 c hc, Bool.true_or]⟩
  rintro rfl
  cases h.1

theorem not_mem_token {s : Str} {d : Char} (h : token s = true) (hd : isTokenChar d = false) :
    d ∉ s := by
  rw [token, Bool.and_eq_true, all_eq_true] at h
  exact fun hmem => absurd (h.2 d hmem) (by rw [hd]; exact Bool.false_ne_true)

theorem unquote_token (h : token s = true) : unquote s = s := by
  cases s with
  | nil => rfl
  | cons c s =>
    have hquote : c ≠ '"' := by
      rintro rfl
      exact not_mem_token h (by decide) mem_cons_self
    rw [unquote, stripAround, if_neg fun hboth => hquote hboth.1]
    rfl

theorem trimMatches_token (h : token s = true) : trimMatches '"' s = s := by
  have hquote := @not_mem_token s '"' h (by decide)
  have hfront : s.dropWhile (· = '"') = s := dropWhile_eq_self_iff.mpr fun hlt hfirst =>
    hquote (of_decide_eq_true hfirst ▸ getElem_mem hlt)
  rw [trimMatches, hfront]
  exact rdropWhile_eq_self_iff.mpr fun hne hlast =>
    hquote (of_decide_eq_true hlast ▸ getLast_mem hne)

/-! ## Joined texts -/

variable {sep : Str} {pieces : List Str}

theorem forall_mem_intercalate {P : Char → Prop}
    (hsep : ∀ c ∈ sep, P c) (h : ∀ p ∈ pieces, ∀ c ∈ p, P c) :
    ∀ c ∈ sep.intercalate pieces, P c := by
  induction pieces with
  | nil => exact forall_mem_nil _
  | cons p pieces ih =>
    obtain ⟨hp, hpieces⟩ := forall_mem_cons.mp h
    cases pieces with
    | nil => simpa using hp
    | cons q qs =>
      rw [intercalate_cons_cons]
      exact forall_mem_append.mpr ⟨forall_mem_append.mpr ⟨hp, hsep⟩, ih hpieces⟩

variable {p : Str}

theorem ends_intercalate (h : ∀ q ∈ p :: pieces, Digest.Ends q) :
    Digest.Ends (sep.intercalate (p :: pieces)) := by
  induction pieces generalizing p with
  | nil => simpa using h p mem_cons_self
  | cons q qs ih =>
    obtain ⟨hp, hpieces⟩ := forall_mem_cons.mp h
    exact hp.append sep (ih hpieces)

theorem splitQuotedLoop_append {d : Char} {limit : ℕ} {result : List Str} {text : Str}
    (h : ∀ c ∈ text, c ≠ '"' ∧ c ≠ d) (part rest : Str) :
    splitQuotedLoop d limit false false result part (text ++ rest) =
      splitQuotedLoop d limit false false result (part ++ text) rest := by
  induction text generalizing part with
  | nil => rw [nil_append, append_nil]
  | cons c text ih =>
    obtain ⟨⟨hquote, hd⟩, htext⟩ := forall_mem_cons.mp h
    rw [cons_append, splitQuotedLoop, if_neg Bool.false_ne_true, if_neg (by simp), if_neg hquote,
      if_neg (by simpa using hd), ih htext, append_assoc]
    rfl

/-- Joined pieces are split again. -/
theorem splitQuotedLoop_intercalate {limit : ℕ} {result : List Str} {blanks part : Str}
    (hblanks : ∀ c ∈ blanks, isWhitespace c = true) (hd : isWhitespace d = false ∧ d ≠ '"')
    (h : ∀ q ∈ p :: pieces, Digest.Ends q ∧ ∀ c ∈ q, c ≠ '"' ∧ c ≠ d)
    (hpart : ∀ c ∈ part, isWhitespace c = true) (hlimit : result.length + pieces.length < limit) :
    splitQuotedLoop d limit false false result part ((d :: blanks).intercalate (p :: pieces)) =
      .ok (result ++ p :: pieces) := by
  have hblank : ∀ c ∈ blanks, c ≠ '"' ∧ c ≠ d := by
    refine fun c hc => ⟨?_, ?_⟩ <;> rintro rfl
    · exact absurd (hblanks _ hc) (by decide)
    · exact absurd (hblanks _ hc) (by rw [hd.1]; exact Bool.false_ne_true)
  have htrim : ∀ {p part : Str}, Digest.Ends p → (∀ c ∈ part, isWhitespace c = true) →
      trim (part ++ p) = p := fun hends hpart => by
    simpa using Digest.trim_around hpart hends (forall_mem_nil _)
  induction pieces generalizing p part result with
  | nil =>
    obtain ⟨hends, hp⟩ := h p mem_cons_self
    have hloop := @splitQuotedLoop_append d limit result p hp part []
    rw [append_nil] at hloop
    rw [intercalate_singleton, hloop, splitQuotedLoop, htrim hends hpart, if_neg]
    simp [hends.ne_nil]
    omega
  | cons q qs ih =>
    obtain ⟨⟨hends, hp⟩, hpieces⟩ := forall_mem_cons.mp h
    rw [length_cons] at hlimit
    rw [intercalate_cons_cons, append_assoc, splitQuotedLoop_append hp, cons_append,
      splitQuotedLoop, if_neg Bool.false_ne_true, if_neg (by simp), if_neg hd.2, if_pos (by simp),
      htrim hends hpart, if_neg, splitQuotedLoop_append hblank, nil_append, ih hpieces hblanks]
    · simp
    · rw [length_append, length_singleton]
      omega
    · simp [hends.ne_nil]
      omega

theorem splitBy_intercalate (h : ∀ q ∈ p :: pieces, d ∉ q) :
    splitBy (· = d) ([d].intercalate (p :: pieces)) = p :: pieces := by
  have hsplit : ∀ {q : Str}, d ∉ q → ∀ rest, ∃ piece others,
      splitBy (· = d) rest = piece :: others ∧
      splitBy (· = d) (q ++ rest) = (q ++ piece) :: others := by
    intro q hq rest
    obtain ⟨piece, others, hrest, -, hwhole⟩ := @Digest.splitBy_append (fun c => decide (c = d)) q
      (fun c hc => decide_eq_false fun heq => hq (heq ▸ hc)) rest
    exact ⟨piece, others, hrest, hwhole⟩
  induction pieces generalizing p with
  | nil =>
    obtain ⟨piece, others, hnil, hwhole⟩ := hsplit (h p mem_cons_self) []
    obtain ⟨rfl, rfl⟩ := cons.inj hnil
    rw [append_nil] at hwhole
    rw [intercalate_singleton, hwhole]
  | cons q qs ih =>
    obtain ⟨hp, hpieces⟩ := forall_mem_cons.mp h
    obtain ⟨piece, others, hrest, hwhole⟩ := hsplit hp (d :: [d].intercalate (q :: qs))
    rw [splitBy, if_pos (by simp)] at hrest
    obtain ⟨rfl, rfl⟩ := cons.inj hrest
    rw [intercalate_cons_cons, append_assoc, singleton_append, hwhole, append_nil,
      ih hpieces]

/-! ## Parameters -/

/-- A parameter that is written as it is read. -/
structure Fine (parameter : Str × Str) : Prop where
  name : token parameter.1 = true
  lower : toAsciiLowercase parameter.1 = parameter.1
  value : token parameter.2 = true

variable {parameter : Str × Str}

theorem Fine.plain (h : Fine parameter) : Plain (field parameter) := by
  refine ⟨append_ne_nil_of_right_ne_nil _ (cons_ne_nil _ _), ?_⟩
  refine forall_mem_append.mpr ⟨(plain_of_token h.name).2, ?_⟩
  exact forall_mem_cons.mpr ⟨rfl, (plain_of_token h.value).2⟩

theorem Fine.splitOnce (h : Fine parameter) : splitOnce '=' (field parameter) = some parameter :=
  Register.splitOnce_append _ (not_mem_token h.name (by decide))

/-- Fine parameters are read as they are written. -/
theorem fields_map_field {parameters : List (Str × Str)} (h : ∀ p ∈ parameters, Fine p) :
    fields (parameters.map field) = parameters := by
  induction parameters with
  | nil => rfl
  | cons p parameters ih =>
    obtain ⟨hp, hparameters⟩ := forall_mem_cons.mp h
    rw [map_cons, fields, filterMap_cons, hp.splitOnce]
    dsimp only [Option.map_some]
    rw [(plain_of_token hp.name).trim, hp.lower, (plain_of_token hp.value).trim,
      trimMatches_token hp.value]
    exact congrArg _ (ih hparameters)

theorem readParameters_map_field {before parameters : List (Str × Str)}
    (h : ∀ p ∈ parameters, Fine p) (hnodup : ((before ++ parameters).map Prod.fst).Nodup) :
    readParameters before (parameters.map field) = .ok (before ++ parameters) := by
  induction parameters generalizing before with
  | nil => rw [append_nil]; rfl
  | cons p parameters ih =>
    obtain ⟨hp, hparameters⟩ := forall_mem_cons.mp h
    have hnew : before.lookup p.1 = none := by
      rw [lookup_eq_none_iff]
      intro q hq
      rw [map_append, map_cons] at hnodup
      have hne := (nodup_append.mp hnodup).2.2 _ (mem_map_of_mem hq) _ mem_cons_self
      simpa using hne.symm
    rw [map_cons, readParameters, hp.splitOnce]
    dsimp only
    rw [(plain_of_token hp.value).trim, validParameterValue, hp.value, Bool.true_or, Bool.true_or,
      if_pos rfl, ok_bind]
    rw [(plain_of_token hp.name).trim, hp.lower, hp.name, hnew, if_neg (by decide),
      if_neg (by decide), (plain_of_token hp.value).trim]
    have hrest := @ih (before ++ [p]) hparameters (by rwa [append_assoc])
    rw [append_assoc] at hrest
    exact hrest

theorem isTokenChar_of_isDigit (h : c.isDigit = true) : isTokenChar c = true := by
  have hdigit : isAsciiDigit c = true := h
  rw [isTokenChar, isAsciiAlphanumeric]
  rw [isAsciiDigit] at hdigit
  rw [hdigit, Bool.or_true, Bool.true_or]

variable {n : ℕ}

theorem token_decimal (n : ℕ) : token (decimal n) = true := by
  have hne : decimal n ≠ [] := Nat.toDigits_ne_nil
  rw [token, Bool.and_eq_true, all_eq_true, Bool.not_eq_true', isEmpty_eq_false_iff]
  exact ⟨hne, fun c hc => isTokenChar_of_isDigit (isDigit_of_mem_decimal hc)⟩

theorem parseUnsigned_decimal {max : ℕ} (h : n ≤ max) : parseUnsigned max (decimal n) = some n := by
  have hvalue : digitsValue (decimal n) = n := by
    have hdigits : Nat.ofDigitChars 10 (decimal n) 0 = n := by simp [decimal]
    exact hdigits
  have hplus : stripPlus (decimal n) = decimal n := by
    have hsign : '+' ∉ decimal n := fun hmem => absurd (isDigit_of_mem_decimal hmem) (by decide)
    generalize decimal n = digits at hsign ⊢
    match digits, hsign with
    | [], _ => rfl
    | c :: rest, hsign =>
      rw [stripPlus]
      rintro rest heq
      exact hsign (by rw [heq]; exact mem_cons_self)
  have hall : (decimal n).all isAsciiDigit = true :=
    all_eq_true.mpr fun c hc => isDigit_of_mem_decimal hc
  rw [parseUnsigned, hplus, hvalue, if_pos ⟨Nat.toDigits_ne_nil, hall, h⟩]

theorem parsePort_decimal (port : UInt16) : parsePort (decimal port.toNat) = some port := by
  have hbound : port.toNat ≤ u16Max := Nat.le_of_lt_succ port.toNat_lt
  rw [parsePort, parseUnsigned_decimal hbound, Option.map_some, UInt16.ofNat_toNat]

/-- A decimal number is not taken for a hexadecimal one. -/
theorem parseU32_decimal (spi : UInt32) : parseU32 (decimal spi.toNat) = some spi := by
  have hmark : ∀ c ∈ decimal spi.toNat, c ≠ 'x' ∧ c ≠ 'X' := by
    refine fun c hc => ⟨?_, ?_⟩ <;> rintro rfl <;>
      exact absurd (isDigit_of_mem_decimal hc) (by decide)
  have hbound : spi.toNat ≤ u32Max := Nat.le_of_lt_succ spi.toNat_lt
  rw [parseU32, parseUnsigned_decimal hbound, Option.map_some, UInt32.ofNat_toNat]
  · intro hex heq
    exact (hmark 'x' (by rw [heq]; simp)).1 rfl
  · intro hex heq
    exact (hmark 'X' (by rw [heq]; simp)).2 rfl

/-! ## The client offer, read back -/

/-- The mechanisms without those that were there before in any case. -/
def distinct : List Str → List Str
  | [] => []
  | mechanism :: allowed => mechanism ::
    (distinct allowed).filter fun other => toAsciiLowercase other ≠ toAsciiLowercase mechanism

/-- The algorithms of a mechanism. -/
def mechanismAlgorithms (mechanism : Str) : Except ImsError XfrmAlgs :=
  match splitBy (· = '/') mechanism with
  | alg :: ealg :: _ => xfrmAlgsFromSecurityServer (algorithmValue alg ealg)
  | _ => .error securityServerMissing

variable {texts : List Str} {compact spaced : Bool} {binding : SecAgree}

/-- One text for each mechanism that was not there before, in the order of the policy. -/
theorem offers_eq_ok {seen allowed : List Str}
    (h : offers binding compact spaced seen allowed = .ok texts) :
    Forall₂ (fun mechanism text => offer binding compact spaced mechanism = .ok text)
      ((distinct allowed).filter fun mechanism => toAsciiLowercase mechanism ∉ seen) texts := by
  induction allowed generalizing seen texts with
  | nil =>
    obtain rfl := Except.ok.inj h
    exact .nil
  | cons mechanism allowed ih =>
    obtain ⟨text, htext, h⟩ := bind_eq_ok.mp h
    rw [distinct]
    split at h
    case isTrue hseen =>
      rw [filter_cons_of_neg (by simpa using hseen), filter_filter]
      have hsame : ∀ other : Str, (decide (toAsciiLowercase other ∉ seen) &&
          decide (toAsciiLowercase other ≠ toAsciiLowercase mechanism)) =
          decide (toAsciiLowercase other ∉ seen) := by
        intro other
        rw [Bool.and_eq_left_iff_imp]
        simp only [decide_eq_true_eq]
        rintro hother heq
        exact hother (by rwa [heq])
      simp only [hsame]
      exact ih h
    case isFalse hnew =>
      obtain ⟨others, hothers, h⟩ := bind_eq_ok.mp h
      obtain rfl := Except.ok.inj h
      rw [filter_cons_of_pos (by simpa using hnew), filter_filter]
      refine .cons htext ?_
      have hrest := ih hothers
      simp only [mem_cons, not_or, Bool.decide_and] at hrest
      simpa only [Bool.and_comm] using hrest

theorem fine {name value : Str} (hname : token name = true ∧ toAsciiLowercase name = name)
    (hvalue : token value = true) : Fine (name, value) :=
  ⟨hname.1, hname.2, hvalue⟩

theorem fine_offerParameters {alg ealg prot mode : Str}
    (h : ∀ part ∈ [alg, ealg, prot, mode], token part = true) (binding : SecAgree)
    (compact : Bool) :
    (∀ p ∈ offerParameters binding alg ealg prot mode compact, Fine p) ∧
      ((offerParameters binding alg ealg prot mode compact).map Prod.fst).Nodup := by
  have hsub : (offerParameters binding alg ealg prot mode compact).Sublist
      (offerParameters binding alg ealg prot mode false) := by
    cases compact with
    | false => exact Sublist.refl _
    | true => exact ((nil_sublist _).append_right _).append_left _
  have hall : ∀ p ∈ offerParameters binding alg ealg prot mode false, Fine p := by
    simp only [forall_mem_cons] at h
    obtain ⟨halg, healg, hprot, hmode, -⟩ := h
    simp only [offerParameters, Bool.false_eq_true, if_false, cons_append, nil_append,
      forall_mem_cons]
    exact ⟨fine (by decide) halg, fine (by decide) healg, fine (by decide) hprot,
      fine (by decide) hmode, fine (by decide) (token_decimal _),
      fine (by decide) (token_decimal _), fine (by decide) (token_decimal _),
      fine (by decide) (token_decimal _), forall_mem_nil _⟩
  have hnodup : ((offerParameters binding alg ealg prot mode false).map Prod.fst).Nodup := by
    simp only [offerParameters, Bool.false_eq_true, if_false, cons_append, nil_append,
      map_cons, map_nil]
    decide
  exact ⟨fun p hp => hall p (hsub.subset hp), hnodup.sublist (hsub.map _)⟩

/-- What the text of an offer is made of. -/
structure Offered (binding : SecAgree) (compact spaced : Bool) (mechanism text : Str)
    (parameters : List (Str × Str)) (algorithms : XfrmAlgs) : Prop where
  intro ::
  parts : ∃ alg ealg prot mode, splitBy (· = '/') mechanism = [alg, ealg, prot, mode] ∧
    (∀ part ∈ [alg, ealg, prot, mode], token part = true) ∧
    eqIgnoreAsciiCase prot "esp".toList = true ∧ eqIgnoreAsciiCase mode "trans".toList = true ∧
    xfrmAlgsFromSecurityServer (algorithmValue alg ealg) = .ok algorithms ∧
    parameters = offerParameters binding alg ealg prot mode compact
  text_eq : text = (if spaced then "; ".toList else ";".toList).intercalate (offerFields parameters)

/-- A mechanism has four parts; they and the binding determine the text. -/
theorem offer_eq_ok {mechanism text : Str} (h : offer binding compact spaced mechanism = .ok text) :
    ∃ parameters algorithms,
    Offered binding compact spaced mechanism text parameters algorithms := by
  rw [offer] at h
  split at h
  case h_2 => cases h
  case h_1 alg ealg prot mode hparts =>
    split at h
    case isTrue => cases h
    case isFalse hvalid =>
      split at h
      case h_1 => cases h
      case h_2 algorithms halgorithms =>
        obtain ⟨htokens, hprot, hmode⟩ := not_or.mp hvalid |>.imp_right not_or.mp
        refine ⟨_, algorithms, ⟨alg, ealg, prot, mode, hparts, ?_, by simpa using hprot,
          by simpa using hmode, halgorithms, rfl⟩, (Except.ok.inj h).symm⟩
        simpa using htokens

namespace Offered

variable {binding : SecAgree} {compact spaced : Bool} {mechanism text : Str}
  {parameters : List (Str × Str)} {algorithms : XfrmAlgs}

section

variable (h : Offered binding compact spaced mechanism text parameters algorithms)
include h

theorem fine : (∀ p ∈ parameters, Fine p) ∧ (parameters.map Prod.fst).Nodup := by
  obtain ⟨alg, ealg, prot, mode, -, htokens, -, -, -, rfl⟩ := h.parts
  exact fine_offerParameters htokens binding compact

theorem plain : ∀ piece ∈ offerFields parameters, Plain piece := by
  refine forall_mem_cons.mpr ⟨plain_of_token (by decide), fun piece hpiece => ?_⟩
  obtain ⟨p, hp, rfl⟩ := mem_map.mp hpiece
  exact (h.fine.1 p hp).plain

/-- Nothing in an offer can be taken for a comma or a quote. -/
theorem text_facts : Digest.Ends text ∧ ∀ c ∈ text, c = ' ' ∨ c = ';' ∨ isPlain c = true := by
  rw [h.text_eq]
  refine ⟨ends_intercalate fun q hq => (h.plain q hq).ends, forall_mem_intercalate ?_ ?_⟩
  · split <;> simp
  · exact fun p hp c hc => Or.inr (Or.inr ((h.plain p hp).2 c hc))

/-- What `select` reads in the parameters. -/
theorem reads :
    ∃ alg ealg prot mode, get parameters "alg" = some alg ∧ get parameters "ealg" = some ealg ∧
      (get parameters "prot").getD "esp".toList = prot ∧
      (get parameters "mod").getD "trans".toList = mode ∧
      (∀ part ∈ [alg, ealg, prot, mode], token part = true) ∧
      eqIgnoreAsciiCase prot "esp".toList = true ∧ eqIgnoreAsciiCase mode "trans".toList = true ∧
      matchesMechanism alg ealg prot mode mechanism = true ∧
      xfrmAlgsFromSecurityServer (algorithmValue alg ealg) = .ok algorithms ∧
      parameters.lookup "q".toList = none := by
  obtain ⟨alg, ealg, prot, mode, hparts, htokens, hprot, hmode, halgorithms, rfl⟩ := h.parts
  have hunquote : ∀ part ∈ [alg, ealg, prot, mode], unquote part = part :=
    fun part hpart => unquote_token (htokens part hpart)
  simp only [forall_mem_cons] at hunquote
  obtain ⟨halg, healg, hprotText, hmodeText, -⟩ := hunquote
  have hself : ∀ s, eqIgnoreAsciiCase s s = true := fun s => beq_self_eq_true _
  have hmatches : ∀ prot' mode', eqIgnoreAsciiCase prot' prot = true →
      eqIgnoreAsciiCase mode' mode = true →
      matchesMechanism alg ealg prot' mode' mechanism = true := by
    intro prot' mode' hprot' hmode'
    rw [matchesMechanism, hparts]
    simp [sameIntegrityAlgorithm, hself, hprot', hmode']
  cases compact with
  | false =>
    exact ⟨alg, ealg, prot, mode, congrArg some halg, congrArg some healg, hprotText,
      hmodeText, htokens, hprot, hmode, hmatches _ _ (hself _) (hself _), halgorithms, rfl⟩
  | true =>
    -- the decoder's defaults stand for what the compact form leaves out
    refine ⟨alg, ealg, "esp".toList, "trans".toList, congrArg some halg,
      congrArg some healg, rfl, rfl, ?_, by decide, by decide, hmatches _ _ ?_ ?_, halgorithms, rfl⟩
    · simp only [forall_mem_cons] at htokens ⊢
      exact ⟨htokens.1, htokens.2.1, by decide, by decide, forall_mem_nil _⟩
    · rw [eqIgnoreAsciiCase, beq_iff_eq] at hprot ⊢
      exact hprot.symm
    · rw [eqIgnoreAsciiCase, beq_iff_eq] at hmode ⊢
      exact hmode.symm

end

variable {allowed : List Str}

theorem installable (hmem : mechanism ∈ allowed)
    (h : Offered binding compact spaced mechanism text parameters algorithms) :
    installable allowed true parameters = .ok (some algorithms) := by
  obtain ⟨alg, ealg, prot, mode, halg, healg, hprot, hmode, htokens, hesp, htrans, hmatches,
    halgorithms, -⟩ := h.reads
  have hallowed : allowed.any (matchesMechanism alg ealg prot mode) = true :=
    any_eq_true.mpr ⟨mechanism, hmem, hmatches⟩
  rw [SecurityAgreement.installable, halg, healg]
  dsimp only
  rw [hprot, hmode, if_neg, if_neg (by rw [hesp, htrans]; simp), hallowed, if_neg (by decide),
    halgorithms]
  · rfl
  · simpa using htokens

/-- An own offer is selected in its turn, unless something better came before. -/
theorem consider (hmem : mechanism ∈ allowed) (selected : Option Selected)
    (h : Offered binding compact spaced mechanism text parameters algorithms) :
    consider allowed true ([], selected) text = .ok ([],
      if selected.all (·.preference < 1000) then some ⟨1000, parameters,
        algorithms⟩ else selected) := by
  obtain ⟨-, -, -, -, -, -, -, -, -, -, -, -, -, hquality⟩ := h.reads
  have hlength : (parameters.map field).length < maxParameters + 1 := by
    obtain ⟨alg, ealg, prot, mode, -, -, -, -, -, rfl⟩ := h.parts
    rw [length_map, maxParameters]
    cases compact <;> simp [offerParameters]
  have hsplit : splitQuoted text ';' (maxParameters + 1) = .ok (offerFields parameters) := by
    have hpieces : ∀ q ∈ offerFields parameters, Digest.Ends q ∧ ∀ c ∈ q, c ≠ '"' ∧ c ≠ ';' :=
      fun q hq => ⟨(h.plain q hq).ends, fun c hc =>
        ⟨ne_of_isPlain ((h.plain q hq).2 c hc) (by decide),
        ne_of_isPlain ((h.plain q hq).2 c hc) (by decide)⟩⟩
    have hjoined : ∀ blanks : Str, (∀ c ∈ blanks, isWhitespace c = true) →
        splitQuoted ((';' :: blanks).intercalate (offerFields parameters)) ';' (maxParameters + 1) =
          .ok (offerFields parameters) := fun blanks hblanks =>
      splitQuotedLoop_intercalate hblanks (by decide) hpieces (forall_mem_nil _)
        (by rwa [length_nil, Nat.zero_add])
    rw [h.text_eq]
    cases spaced with
    | false => exact hjoined [] (forall_mem_nil _)
    | true => exact hjoined [' '] (by simp; decide)
  rw [SecurityAgreement.consider, hsplit, ok_bind]
  have hhead : (offerFields parameters).headD [] = "ipsec-3gpp".toList := rfl
  have htail : (offerFields parameters).tail = parameters.map field := rfl
  have htoken : token "ipsec-3gpp".toList = true := by decide
  have hname : eqIgnoreAsciiCase "ipsec-3gpp".toList "ipsec-3gpp".toList = true := by decide
  have hpreference : preferenceOf [] parameters = .ok ([], 1000) := by rw [preferenceOf, hquality]
  have hread : readParameters [] (parameters.map field) = .ok parameters :=
    @readParameters_map_field [] parameters h.fine.1 h.fine.2
  simp only [hhead, htail, htoken, hname, hread, ok_bind, hpreference, h.installable hmem,
    Bool.not_true, Bool.false_eq_true, if_false]
  rfl

/-- The parameters of the tuple. -/
def tuple (binding : SecAgree) : List (Str × Str) :=
  [("spi-c".toList, decimal binding.spiC.toNat), ("spi-s".toList, decimal binding.spiS.toNat),
    ("port-c".toList, decimal binding.portC.toNat), ("port-s".toList, decimal binding.portS.toNat)]

theorem bindingValue_offered
    (h : Offered binding compact spaced mechanism text parameters algorithms) :
    bindingValue parameters "ipsec-3gpp".toList ["spi-c", "spi-s", "port-c", "port-s"] =
      .ok ([';'].intercalate (offerFields (tuple binding))) := by
  obtain ⟨alg, ealg, prot, mode, -, -, -, -, -, rfl⟩ := h.parts
  have hdigits : ∀ n,
      ((decimal n).all fun c => isAsciiHexdigit c || c = 'x' || c = 'X') = true := by
    intro n
    refine all_eq_true.mpr fun c hc => ?_
    have hdigit : isAsciiDigit c = true := isDigit_of_mem_decimal hc
    rw [isAsciiDigit] at hdigit
    rw [isAsciiHexdigit, hdigit]
    simp
  have hget : ∀ name n, get (offerParameters binding alg ealg prot mode compact) name =
      some (unquote (decimal n)) → get (offerParameters binding alg ealg prot mode compact) name =
        some (decimal n) := fun name n h => by rw [h, unquote_token (token_decimal n)]
  have hnames : get (offerParameters binding alg ealg prot mode compact) "spi-c" =
        some (decimal binding.spiC.toNat) ∧
      get (offerParameters binding alg ealg prot mode compact) "spi-s" =
        some (decimal binding.spiS.toNat) ∧
      get (offerParameters binding alg ealg prot mode compact) "port-c" =
        some (decimal binding.portC.toNat) ∧
      get (offerParameters binding alg ealg prot mode compact) "port-s" =
        some (decimal binding.portS.toNat) := by
    cases compact <;> exact ⟨hget _ _ rfl, hget _ _ rfl, hget _ _ rfl, hget _ _ rfl⟩
  obtain ⟨hspiC, hspiS, hportC, hportS⟩ := hnames
  simp only [bindingValue, hspiC, hspiS, hportC, hportS, hdigits, if_true]
  simp [offerFields, tuple, field]

theorem parseSecurityServer_tuple (husable : binding.usable) :
    parseSecurityServer ([';'].intercalate (offerFields (tuple binding))) = .ok binding := by
  have hfine : ∀ p ∈ tuple binding, Fine p := by
    simp only [tuple, forall_mem_cons]
    exact ⟨SecurityAgreement.fine (by decide) (token_decimal _),
      SecurityAgreement.fine (by decide) (token_decimal _),
      SecurityAgreement.fine (by decide) (token_decimal _),
      SecurityAgreement.fine (by decide) (token_decimal _), forall_mem_nil _⟩
  have hplain : ∀ piece ∈ offerFields (tuple binding), Plain piece := by
    refine forall_mem_cons.mpr ⟨plain_of_token (by decide), fun piece hpiece => ?_⟩
    obtain ⟨p, hp, rfl⟩ := mem_map.mp hpiece
    exact (hfine p hp).plain
  have hsplit : splitBy (· = ';') ([';'].intercalate (offerFields (tuple binding))) =
      offerFields (tuple binding) :=
    splitBy_intercalate fun q hq hmem => ne_of_isPlain ((hplain q hq).2 _ hmem) (by decide) rfl
  have htrim : (offerFields (tuple binding)).map trim = offerFields (tuple binding) := by
    conv_rhs => rw [← map_id (offerFields (tuple binding))]
    exact map_congr_left fun piece hpiece => (hplain piece hpiece).trim
  have hfields : fields (offerFields (tuple binding)).tail = tuple binding := fields_map_field hfine
  have hlast : lastField "spi-c" (tuple binding) = some (decimal binding.spiC.toNat) ∧
      lastField "spi-s" (tuple binding) = some (decimal binding.spiS.toNat) ∧
      lastField "port-c" (tuple binding) = some (decimal binding.portC.toNat) ∧
      lastField "port-s" (tuple binding) = some (decimal binding.portS.toNat) :=
        ⟨rfl, rfl, rfl, rfl⟩
  obtain ⟨hspiC, hspiS, hportC, hportS⟩ := hlast
  have hhead : (offerFields (tuple binding)).head?.map toAsciiLowercase =
      some "ipsec-3gpp".toList := by
    rw [offerFields, List.head?_cons]
    decide
  rw [parseSecurityServer, hsplit, htrim, hfields, hhead, if_neg (by simp), hspiC, hspiS,
    hportC, hportS, Option.bind_some, Option.bind_some, Option.bind_some, Option.bind_some,
    parseU32_decimal, parseU32_decimal, parsePort_decimal, parsePort_decimal]
  exact if_pos husable

/-- The agreement on an own offer: the binding, and the first mechanism of the policy. -/
theorem agree {allowed values : List Str} (hfirst : allowed.head? = some mechanism)
    (husable : binding.usable) (preference : ℕ)
    (h : Offered binding compact spaced mechanism text parameters algorithms) :
    agree values allowed ⟨preference, parameters, algorithms⟩ =
      .ok ⟨binding, algorithms, some 0, ", ".toList.intercalate values⟩ := by
  obtain ⟨alg, ealg, prot, mode, halg, healg, hprot, hmode, -, -, -, hmatches, -, -⟩ := h.reads
  obtain ⟨rest, rfl⟩ := List.head?_eq_some_iff.mp hfirst
  rw [SecurityAgreement.agree, bindingValue_offered h, ok_bind, parseSecurityServer_tuple husable]
  rw [halg, healg, hprot, hmode, Option.getD_some, Option.getD_some, List.findIdx?_cons, hmatches]
  rfl

end Offered

theorem distinct_sublist (allowed : List Str) : (distinct allowed).Sublist allowed := by
  induction allowed with
  | nil => exact Sublist.refl _
  | cons mechanism allowed ih => exact (filter_sublist.trans ih).cons_cons mechanism

variable {binding : SecAgree} {compact spaced : Bool} {allowed : List Str}

variable {mechanisms : List Str}

/-- Once an offer is selected, the others do not displace it. -/
theorem foldlM_consider {selected : Selected}
    (hpreference : selected.preference = 1000) (hallowed : mechanisms ⊆ allowed)
    (h : Forall₂ (fun mechanism text => offer binding compact spaced mechanism = .ok text)
      mechanisms texts) :
    texts.foldlM (consider allowed true) ([], some selected) = .ok ([], some selected) := by
  induction h with
  | nil => rfl
  | cons hoffer _ ih =>
    obtain ⟨hmem, hrest⟩ := cons_subset.mp hallowed
    obtain ⟨parameters, algorithms, hoffered⟩ := offer_eq_ok hoffer
    rw [foldlM_cons, hoffered.consider hmem, ok_bind, Option.all_some, hpreference,
      if_neg (by decide)]
    exact ih hrest

/-- The texts of offers can be joined and split. -/
theorem characters_of_offers
    (h : Forall₂ (fun mechanism text => offer binding compact spaced mechanism = .ok text)
      mechanisms texts) :
    ∀ text ∈ texts, Digest.Ends text ∧ ∀ c ∈ text, c = ' ' ∨ c = ';' ∨ isPlain c = true := by
  induction h with
  | nil => exact forall_mem_nil _
  | cons hoffer _ ih =>
    obtain ⟨parameters, algorithms, hoffered⟩ := offer_eq_ok hoffer
    exact forall_mem_cons.mpr ⟨hoffered.text_facts, ih⟩

/-- **The client accepts its own offer.** It holds one text for each mechanism of the policy, in
order, and what is selected is the tuple of the client with the algorithms of the first one. -/
theorem client_offer_accepted {header : Str} (hne : allowed ≠ [])
    (h : clientOffer binding allowed compact spaced = .ok header) :
    (∃ agreement, select [header] allowed true = .ok (some agreement) ∧
      agreement.binding = binding ∧
      agreement.matchedMechanism = some 0 ∧
      mechanismAlgorithms (allowed.head hne) = .ok agreement.algorithms) ∧
    ∃ texts, splitQuoted header ',' maxOffers = .ok texts ∧ header = ", ".toList.intercalate texts ∧
      Forall₂ (fun mechanism text => offer binding compact spaced mechanism = .ok text)
        (distinct allowed) texts := by
  rw [clientOffer] at h
  split_ifs at h with hcount hempty husable
  · exact absurd (isEmpty_iff.mp hempty) hne
  obtain ⟨texts, htexts, h⟩ := bind_eq_ok.mp h
  dsimp only at h
  split at h
  case isTrue => cases h
  case isFalse hsize =>
    obtain rfl := Except.ok.inj h
    have hoffers := offers_eq_ok htexts
    simp only [not_mem_nil, not_false_eq_true, decide_true, List.filter_true] at hoffers
    have hcharacters := characters_of_offers hoffers
    obtain ⟨first, rest, rfl⟩ := List.exists_cons_of_ne_nil hne
    have hlength := hoffers.length_eq
    have hsublist := distinct_sublist (first :: rest)
    have hfits := hsublist.length_le
    obtain ⟨text, others, rfl⟩ := List.exists_cons_of_length_eq_add_one hlength.symm
    have hmany : (text :: others).length ≤ maxOffers := by omega
    have hsplit : splitQuoted (", ".toList.intercalate (text :: others)) ',' maxOffers =
        .ok (text :: others) := by
      refine splitQuotedLoop_intercalate (by simp; decide) (by decide) (fun q hq => ?_)
        (forall_mem_nil _) ?_
      · refine ⟨(hcharacters q hq).1, fun c hc => ?_⟩
        rcases (hcharacters q hq).2 c hc with rfl | rfl | hplain
        · decide
        · decide
        · exact ⟨ne_of_isPlain hplain (by decide), ne_of_isPlain hplain (by decide)⟩
      · exact (Nat.zero_add _).trans_lt (Nat.lt_of_succ_le hmany)
    refine ⟨?_, _, hsplit, rfl, hoffers⟩
    have hcontrol : ∀ c ∈ ", ".toList.intercalate (text :: others), isControl c = false := by
      refine forall_mem_intercalate (by simp; decide) fun q hq c hc => ?_
      rcases (hcharacters q hq).2 c hc with rfl | rfl | hplain
      · decide
      · decide
      · have := toNat_of_isPlain hplain
        rw [isControl, Bool.or_eq_false_iff, Bool.and_eq_false_iff]
        simp only [decide_eq_false_iff_not]
        omega
    have hvalues : splitValues [] [", ".toList.intercalate (text :: others)] =
        .ok (text :: others) := by
      rw [splitValues, hsplit, ok_bind, nil_append, if_neg (not_lt.mpr hmany)]
      rfl
    -- the first offer is selected, and no other one is better
    obtain ⟨hfirst, hothers⟩ := List.forall₂_cons.mp hoffers
    obtain ⟨parameters, algorithms, hoffered⟩ := offer_eq_ok hfirst
    have hloop : (text :: others).foldlM (consider (first :: rest) true) ([], none) =
        .ok ([], some ⟨1000, parameters, algorithms⟩) := by
      rw [List.foldlM_cons, hoffered.consider List.mem_cons_self, ok_bind]
      exact foldlM_consider rfl
        (List.Subset.trans (List.subset_cons_self _ _) hsublist.subset) hothers
    have halgorithms : mechanismAlgorithms first = .ok algorithms := by
      obtain ⟨alg, ealg, prot, mode, hparts, -, -, -, halgorithms, -⟩ := hoffered.parts
      rw [mechanismAlgorithms, hparts]
      exact halgorithms
    refine ⟨⟨binding, algorithms, some 0,
      ", ".toList.intercalate [", ".toList.intercalate (text :: others)]⟩, ?_, rfl, rfl,
        halgorithms⟩
    · rw [select, if_neg (by simp), if_neg, hvalues, ok_bind, hloop, ok_bind]
      · dsimp only
        rw [hoffered.agree rfl husable]
        rfl
      · rintro (hmany | hlarge | hcontrols)
        · exact absurd hmany (by simp [maxOffers])
        · rw [List.map_singleton, List.sum_singleton] at hlarge
          exact hsize hlarge
        · simp only [List.any_cons, List.any_nil, Bool.or_false, any_eq_true] at hcontrols
          obtain ⟨c, hc, hbad⟩ := hcontrols
          rw [hcontrol c hc] at hbad
          cases hbad

def documentation : List Str :=
  ["hmac-sha-1-96/aes-cbc/esp/trans".toList, "HMAC-SHA-1-96/AES-CBC/ESP/TRANS".toList,
    "hmac-md5-96/null/esp/trans".toList]

def documentationOffer : Str :=
  ("ipsec-3gpp; alg=hmac-sha-1-96; ealg=aes-cbc; spi-c=100; spi-s=101; port-c=5064; port-s=5062, "
    ++
    "ipsec-3gpp; alg=hmac-md5-96; ealg=null; spi-c=100; spi-s=101; port-c=5064; port-s=5062").toList

theorem client_offer_accepted_documentation :
    (∃ agreement, select [documentationOffer] documentation true = .ok (some agreement) ∧
      agreement.binding = ⟨100, 101, 5064, 5062⟩ ∧ agreement.matchedMechanism = some 0 ∧
      mechanismAlgorithms (documentation.head (by decide)) = .ok agreement.algorithms) ∧
    ∃ texts, splitQuoted documentationOffer ',' maxOffers = .ok texts ∧
      documentationOffer = ", ".toList.intercalate texts ∧
      Forall₂ (fun mechanism text =>
        offer ⟨100, 101, 5064, 5062⟩ true true mechanism = .ok text)
        (distinct documentation) texts :=
  client_offer_accepted (by decide) (toOption_eq_some.mp (by decide +kernel))

end SimMaster.SecurityAgreement
