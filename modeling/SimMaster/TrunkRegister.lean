import SimMaster.TrunkDriver

/-!
# When the trunk registers again

`register_transaction` asks for a lifetime and returns the one it takes to be granted;
`run_outbound_register` registers again after 85 % of it. The lifetime is read from the first
Contact field of the answer that has a number behind `expires=`, cut out at semicolons, and is at
least a minute.
-/

namespace SimMaster.Trunk

open Rust List Option

/-! ## The request -/

structure TrunkProfileConfig where
  username : Str
  asteriskHost : Str
  asteriskPort : ℕ
  secret : Str
  registerExpirySecs : ℕ

structure RegisterDialog where
  callId : Str
  fromTag : Str
  cseq : ℕ

/-- The number of the next request, and the dialog after it. -/
def RegisterDialog.nextCseq (dialog : RegisterDialog) : ℕ × RegisterDialog :=
  (dialog.cseq, { dialog with cseq := min (dialog.cseq + 1) u32Max })

def formatHost (host : Str) : Str :=
  let isBracket : Char → Bool := fun c => c = '[' || c = ']'
  let trimmed := trimEndMatches isBracket ((trim host).dropWhile isBracket)
  if ':' ∈ trimmed then '[' :: (trimmed ++ [']']) else trimmed

def registrarUri (host : Str) (port : ℕ) : Str :=
  if port = 5060 then "sip:".toList ++ formatHost host
  else "sip:".toList ++ formatHost host ++ ":".toList ++ decimal port

/-- Neither empty nor with a blank or a control character. -/
def validateToken (value : Str) (error : String) : Except String Unit :=
  if (trim value).isEmpty || value.any fun c => c.toNat < 32 || c.toNat = 127 || c = ' ' then
    .error error
  else .ok ()

/-- The address at which the trunk wants to be reached. -/
def contactAddress (username : Str) (localAddr : SocketAddr) : Str :=
  "sip:".toList ++ username ++ "@".toList ++ sipHost localAddr.ip ++ ":".toList ++
    decimal localAddr.port.toNat

/-- `sip::build_register`; `token` is the random part of the branch. -/
def buildRegister (profile : TrunkProfileConfig) (localAddr : SocketAddr) (token : Str)
    (dialog : RegisterDialog) (expires : ℕ) (authorization : Option Str) :
    Except String (Bytes × RegisterDialog) := do
  validateToken profile.username "trunk_username_invalid"
  validateToken profile.asteriskHost "trunk_asterisk_host_invalid"
  let identityUri :=
    "sip:".toList ++ profile.username ++ "@".toList ++ formatHost profile.asteriskHost
  let headers : List SipHeader := [
    ⟨"Contact".toList, '<' :: (contactAddress profile.username localAddr ++
      ";transport=udp>;expires=".toList ++ decimal expires)⟩,
    ⟨"Expires".toList, decimal expires⟩,
    ⟨"Allow".toList, "INVITE, ACK, CANCEL, BYE, INFO, REFER, NOTIFY, OPTIONS, MESSAGE".toList⟩,
    ⟨"Supported".toList, "outbound, path".toList⟩,
    ⟨"User-Agent".toList, userAgent⟩]
  let authorized ← match authorization with
    | none => pure []
    | some authorization => do
      let (name, value) ← okOr "trunk_digest_header_invalid" (splitOnce ':' authorization)
      pure [(⟨trim name, trim value⟩ : SipHeader)]
  let (cseq, dialog) := dialog.nextCseq
  let request : SipRequest := {
    method := "REGISTER".toList
    requestUri := registrarUri profile.asteriskHost profile.asteriskPort
    route := ⟨localAddr, localAddr, .udp⟩
    branch := "z9hG4bK".toList ++ token
    fromUri := identityUri
    fromTag := dialog.fromTag
    toValue := '<' :: (identityUri ++ ['>'])
    callId := dialog.callId
    cseq
    headers := headers ++ authorized
    body := [] }
  return (request.build, dialog)

/-! ## The answer -/

/-- The value of a parameter in a text cut at semicolons. -/
def parameterValue (input name : Str) : Option Str :=
  ((splitBy (· = ';') input).drop 1).findSome? fun part =>
    (splitOnce '=' (trim part)).bind fun (key, value) =>
      if eqIgnoreAsciiCase key name then some (trimMatches '"' (trim value)) else none

/-- The lifetime in a Contact field. -/
def contactLifetime (value : Str) : Option ℕ :=
  (parameterValue value "expires".toList).bind (parseUnsigned u32Max)

def responseExpiry (frame : Bytes) (fallback : ℕ) : ℕ :=
  (((headerValues frame "Contact".toList).findSome? contactLifetime).or
    ((headerValue frame "Expires".toList).bind (parseUnsigned u32Max))).getD fallback

def minExpires (frame : Bytes) : Option ℕ :=
  (headerValue frame "Min-Expires".toList).bind (parseUnsigned u32Max)

/-- `u32::clamp(60, 86_400)`. -/
def clampExpiry (expiry : ℕ) : ℕ := max 60 (min expiry 86400)

/-- What a 2xx answer to a request for some lifetime grants. -/
def grantedExpiry (response : Bytes) (requested : ℕ) : ℕ :=
  clampExpiry (responseExpiry response requested)

/-- The seconds until the trunk registers again. -/
def refreshAfter (expiry : ℕ) : ℕ := max (expiry * 85 / 100) 30

/-! ## The transaction -/

/-- What a transaction gets in one round: the random part of the branch, the time and the
receipts. -/
structure Round where
  token : Str
  begun : Instant
  receipts : List Receipt

/-- The variables of the transaction. -/
structure Registering where
  dialog : RegisterDialog
  expires : ℕ
  authorization : Option Str

/-- What an answer leads to: a lifetime, or another round. -/
def onAnswer (authorize : Str → (proxy : Bool) → (count : ℕ) → Except String Str)
    (profile : TrunkProfileConfig) (count : ℕ) (r : Registering) (response : Bytes) :
    Except String (ℕ ⊕ Registering) := do
  let status ← match parseStatus response with
    | .ok status => .ok status
    | .error error => .error error.code
  if 200 ≤ status ∧ status ≤ 299 then return .inl (grantedExpiry response r.expires)
  else if status = 401 ∨ status = 407 then
    if profile.secret.isEmpty then throw "trunk_digest_secret_missing"
    let proxy : Bool := status = 407
    let header := if proxy then "Proxy-Authenticate" else "WWW-Authenticate"
    let value ← okOr "trunk_digest_challenge_missing" (headerValue response header.toList)
    let authorization ← authorize value proxy (count + 1)
    return .inr { r with authorization := some authorization }
  else if status = 423 then
    let expires ← okOr "trunk_register_min_expires_invalid"
      ((minExpires response).filter (· ≤ 86400))
    return .inr { r with expires }
  else throw ("trunk_register_rejected:" ++ String.ofList (decimal status))

section Transaction

variable {σ : Type} (p : Parts σ)
  (authorize : Str → (proxy : Bool) → (count : ℕ) → Except String Str)
  (profile : TrunkProfileConfig) (localAddr : SocketAddr)

/-- The rounds from `count` on; `none` means that the transaction still waits. `authorize` is the
Digest answer to a challenge. -/
def registerRounds : List Round → ℕ → Registering → σ → Option (Except String ℕ) × σ
  | [], count, _, s =>
    if count < 3 then (none, s) else (some (.error "trunk_register_challenge_limit"), s)
  | round :: rounds, count, r, s =>
    if count < 3 then
      match buildRegister profile localAddr round.token r.dialog r.expires r.authorization with
      | .error error => (some (.error error), s)
      | .ok (request, dialog) =>
        let cseq := (headerValue request "CSeq".toList).bind fun value =>
          (splitWhitespace value).head?.bind (parseUnsigned u32Max)
        match cseq with
        | none => (some (.error "trunk_register_cseq_invalid"), s)
        | some expectedCseq =>
          let waited := sendRegisterAndReceive p request expectedCseq true round.begun
            round.receipts s
          match waited.result with
          | none => (none, waited.state)
          | some (.error error) => (some (.error error), waited.state)
          | some (.ok response) =>
            match onAnswer authorize profile count { r with dialog } response with
            | .error error => (some (.error error), waited.state)
            | .ok (.inl expiry) => (some (.ok expiry), waited.state)
            | .ok (.inr r) => registerRounds rounds (count + 1) r waited.state
    else (some (.error "trunk_register_challenge_limit"), s)

def registerTransaction (dialog : RegisterDialog) (rounds : List Round) (s : σ) :
    Option (Except String ℕ) × σ :=
  registerRounds p authorize profile localAddr rounds 0
    ⟨dialog, clampExpiry profile.registerExpirySecs, none⟩ s

/-- The wait of a round, for the request of what the rounds before have left, returned the answer,
and left the state behind. -/
def Answered (round : Round) (r : Registering) (next : RegisterDialog) (response : Bytes)
    (after : σ) : Prop :=
  ∃ request expectedCseq before,
    buildRegister profile localAddr round.token r.dialog r.expires r.authorization =
      .ok (request, next) ∧
    (sendRegisterAndReceive p request expectedCseq true round.begun round.receipts before).result =
      some (.ok response) ∧
    (sendRegisterAndReceive p request expectedCseq true round.begun round.receipts before).state =
      after

/-- A transaction that ends well returns what the answer leads to that its last wait has
returned. -/
theorem registerRounds_eq_ok {rounds : List Round} {count : ℕ} {r : Registering} {s : σ}
    {expiry : ℕ}
    (h : (registerRounds p authorize profile localAddr rounds count r s).1 = some (.ok expiry)) :
    ∃ round ∈ rounds, ∃ count' r' next response,
      Answered p profile localAddr round r' next response
        (registerRounds p authorize profile localAddr rounds count r s).2 ∧
      onAnswer authorize profile count' { r' with dialog := next } response =
        .ok (.inl expiry) := by
  generalize hresult : registerRounds p authorize profile localAddr rounds count r s = result at h ⊢
  induction rounds generalizing count r s with
  | nil =>
    rw [registerRounds] at hresult
    split at hresult <;> subst hresult <;> cases h
  | cons round rounds ih =>
    rw [registerRounds] at hresult
    split at hresult
    case isFalse =>
      subst hresult
      cases h
    case isTrue =>
      split at hresult
      case h_1 =>
        subst hresult
        cases h
      case h_2 request dialog hrequest =>
        dsimp only at hresult
        split at hresult
        case h_1 =>
          subst hresult
          cases h
        case h_2 expectedCseq _ =>
          split at hresult
          case h_1 =>
            subst hresult
            cases h
          case h_2 =>
            subst hresult
            cases h
          case h_3 response hwaited =>
            split at hresult
            case h_1 =>
              subst hresult
              cases h
            case h_2 granted hanswer =>
              subst hresult
              obtain rfl : granted = expiry := Except.ok.inj (some.inj h)
              exact ⟨round, mem_cons_self, count, r, dialog, response,
                ⟨request, expectedCseq, s, hrequest, hwaited, rfl⟩, hanswer⟩
            case h_3 =>
              obtain ⟨later, hmem, hlater⟩ := ih hresult
              exact ⟨later, mem_cons_of_mem _ hmem, hlater⟩

end Transaction

/-! ## The lifetime that is read -/

/-- A field cut at its semicolons, with a number in the first piece behind the first semicolon that
is named `expires`. -/
def HasLifetime (value : Str) (n : ℕ) : Prop :=
  ∃ before part after key text,
    (splitBy (· = ';') value).drop 1 = before ++ part :: after ∧
    (∀ piece ∈ before, ∀ key text, splitOnce '=' (trim piece) = some (key, text) →
      eqIgnoreAsciiCase key "expires".toList = false) ∧
    splitOnce '=' (trim part) = some (key, text) ∧
    eqIgnoreAsciiCase key "expires".toList = true ∧
    parseUnsigned u32Max (trimMatches '"' (trim text)) = some n

/-- What stands for the granted lifetime in an answer to a request for `requested` seconds. -/
inductive LifetimeRead (response : Bytes) (requested : ℕ) : ℕ → Prop
  | contact {before after : List Str} {value : Str} {n : ℕ}
      (hfields : headerValues response "Contact".toList = before ++ value :: after)
      (hbefore : ∀ field ∈ before, ∀ n, ¬HasLifetime field n) (h : HasLifetime value n) :
      LifetimeRead response requested n
  | header {value : Str} {n : ℕ}
      (hcontacts : ∀ field ∈ headerValues response "Contact".toList, ∀ n, ¬HasLifetime field n)
      (hheader : headerValue response "Expires".toList = some value)
      (h : parseUnsigned u32Max value = some n) : LifetimeRead response requested n
  | requested
      (hcontacts : ∀ field ∈ headerValues response "Contact".toList, ∀ n, ¬HasLifetime field n)
      (hheader : ∀ value, headerValue response "Expires".toList = some value →
        parseUnsigned u32Max value = none) : LifetimeRead response requested requested

variable {value : Str}

theorem parameterValue_eq_some {input name : Str} : parameterValue input name = some value ↔
      ∃ before part after key text, (splitBy (· = ';') input).drop 1 = before ++ part :: after ∧
        (∀ piece ∈ before, ∀ key text, splitOnce '=' (trim piece) = some (key, text) →
          eqIgnoreAsciiCase key name = false) ∧ splitOnce '=' (trim part) = some (key, text) ∧
        eqIgnoreAsciiCase key name = true ∧ trimMatches '"' (trim text) = value := by
  rw [parameterValue, findSome?_eq_some_iff]
  constructor
  · rintro ⟨before, part, after, hpieces, hpart, hbefore⟩
    obtain ⟨⟨key, text⟩, hsplit, hvalue⟩ := bind_eq_some_iff.mp hpart
    dsimp only at hvalue
    split at hvalue
    case isFalse => cases hvalue
    case isTrue hname =>
      refine ⟨before, part, after, key, text, hpieces, ?_, hsplit, hname, some.inj hvalue⟩
      intro piece hpiece key text hsplit
      have hnone := hbefore piece hpiece
      rw [hsplit] at hnone
      simpa using hnone
  · rintro ⟨before, part, after, key, text, hpieces, hbefore, hsplit, hname, hvalue⟩
    refine ⟨before, part, after, hpieces, ?_, ?_⟩
    · rw [hsplit, bind_some]
      simp [hname, hvalue]
    · intro piece hpiece
      refine bind_eq_none_iff.mpr fun ⟨key, text⟩ hsplit => ?_
      simp [hbefore piece hpiece key text hsplit]

variable {n : ℕ}

theorem contactLifetime_eq_some : contactLifetime value = some n ↔ HasLifetime value n := by
  rw [contactLifetime, bind_eq_some_iff]
  constructor
  · rintro ⟨text, htext, hn⟩
    obtain ⟨before, part, after, key, raw, hpieces, hbefore, hsplit, hname, rfl⟩ :=
      parameterValue_eq_some.mp htext
    exact ⟨before, part, after, key, raw, hpieces, hbefore, hsplit, hname, hn⟩
  · rintro ⟨before, part, after, key, raw, hpieces, hbefore, hsplit, hname, hn⟩
    exact ⟨_, parameterValue_eq_some.mpr
      ⟨before, part, after, key, raw, hpieces, hbefore, hsplit, hname, rfl⟩, hn⟩

theorem contactLifetime_eq_none : contactLifetime value = none ↔ ∀ n, ¬HasLifetime value n := by
  simp [eq_none_iff_forall_ne_some, contactLifetime_eq_some]

theorem lifetimeRead_iff {response : Bytes} {requested : ℕ} :
    LifetimeRead response requested n ↔ responseExpiry response requested = n := by
  rw [responseExpiry]
  constructor
  · intro h
    cases h with
    | contact hfields hbefore h =>
      have hcontact : (headerValues response "Contact".toList).findSome? contactLifetime = some n :=
        findSome?_eq_some_iff.mpr ⟨_, _, _, hfields, contactLifetime_eq_some.mpr h,
          fun field hfield => contactLifetime_eq_none.mpr (hbefore field hfield)⟩
      rw [hcontact]
      rfl
    | header hcontacts hheader h =>
      have hnone : (headerValues response "Contact".toList).findSome? contactLifetime = none :=
        findSome?_eq_none_iff.mpr fun field hfield =>
          contactLifetime_eq_none.mpr (hcontacts field hfield)
      rw [hnone, hheader, none_or, bind_some, h]
      rfl
    | requested hcontacts hheader =>
      have hnone : (headerValues response "Contact".toList).findSome? contactLifetime = none :=
        findSome?_eq_none_iff.mpr fun field hfield =>
          contactLifetime_eq_none.mpr (hcontacts field hfield)
      rw [hnone, none_or, bind_eq_none_iff.mpr hheader]
      rfl
  · intro h
    cases hcontact : (headerValues response "Contact".toList).findSome? contactLifetime with
    | some lifetime =>
      rw [hcontact] at h
      obtain rfl : lifetime = n := h
      obtain ⟨before, value, after, hfields, hvalue, hbefore⟩ := findSome?_eq_some_iff.mp hcontact
      exact .contact hfields (fun field hfield => contactLifetime_eq_none.mp (hbefore field hfield))
        (contactLifetime_eq_some.mp hvalue)
    | none =>
      have hcontacts : ∀ field ∈ headerValues response "Contact".toList, ∀ n,
          ¬HasLifetime field n := fun field hfield =>
        contactLifetime_eq_none.mp (findSome?_eq_none_iff.mp hcontact field hfield)
      rw [hcontact, none_or] at h
      cases hheader : (headerValue response "Expires".toList).bind (parseUnsigned u32Max) with
      | some lifetime =>
        rw [hheader] at h
        obtain rfl : lifetime = n := h
        obtain ⟨value, hvalue, hlifetime⟩ := bind_eq_some_iff.mp hheader
        exact .header hcontacts hvalue hlifetime
      | none =>
        rw [hheader] at h
        obtain rfl : requested = n := h
        exact .requested hcontacts (bind_eq_none_iff.mp hheader)

/-! ## The lease -/

/-- The URI of a binding, without its parameters. -/
def bindingUri (contact : Str) : Str :=
  let uri := match nameAddrRange contact with
    | some (start, stop) => (contact.take stop).drop (start + 1)
    | none => contact
  trim (uri.takeWhile (· ≠ ';'))

/-- A 2xx answer has the binding of the trunk, with a lease: that of its `expires` parameter or,
where it has none, that of the Expires header. -/
structure Granted (profile : TrunkProfileConfig) (localAddr : SocketAddr) (response : Bytes)
    (lease : ℕ) : Prop where
  status : ∃ status, parseStatus response = .ok status ∧ 200 ≤ status ∧ status ≤ 299
  binding : ∃ contact ∈ contactBindings response,
    bindingUri contact = contactAddress profile.username localAddr ∧
      (contactExpires contact = some lease ∨
        contactParameter contact "expires".toList = none ∧ headerExpires response = some lease)

theorem refreshAfter_clampExpiry_lt {lease : ℕ} :
    refreshAfter (clampExpiry n) < lease ↔ 51 < lease ∧ min n 86400 * 85 < 100 * lease := by
  rw [refreshAfter, clampExpiry]
  omega

/-- **Refreshing in time.** A transaction that ends well ends with what the answer grants that its
last wait has returned. Where a 2xx answer has the binding of the trunk with a lease of more than 35
seconds, the trunk registers again before its end just when the lease is longer than 51 seconds and
85 % of the number that is read from the answer, a day at most, are less than it. -/
theorem refresh_iff {σ : Type} (p : Parts σ)
    (authorize : Str → (proxy : Bool) → (count : ℕ) → Except String Str)
    (profile : TrunkProfileConfig) (localAddr : SocketAddr) :
    (∀ (dialog : RegisterDialog) (rounds : List Round) (s : σ) (expiry : ℕ),
      (registerTransaction p authorize profile localAddr dialog rounds s).1 = some (.ok expiry) →
        ∃ round ∈ rounds, ∃ count r next response,
          Answered p profile localAddr round r next response
            (registerTransaction p authorize profile localAddr dialog rounds s).2 ∧
          onAnswer authorize profile count { r with dialog := next } response =
            .ok (.inl expiry)) ∧
    ∀ (count : ℕ) (r : Registering) (response : Bytes) (lease : ℕ),
      Granted profile localAddr response lease → 35 < lease →
        ∃ expiry, onAnswer authorize profile count r response = .ok (.inl expiry) ∧
          (refreshAfter expiry < lease ↔ 51 < lease ∧
              ∀ n, LifetimeRead response r.expires n → min n 86400 * 85 < 100 * lease) := by
  constructor
  · intro dialog rounds s expiry h
    exact registerRounds_eq_ok p authorize profile localAddr h
  · intro count r response lease hgranted _
    obtain ⟨status, hstatus, hlower, hupper⟩ := hgranted.status
    refine ⟨grantedExpiry response r.expires, ?_, ?_⟩
    · rw [onAnswer, hstatus]
      dsimp only
      rw [ok_bind, if_pos ⟨hlower, hupper⟩]
      rfl
    · rw [grantedExpiry, refreshAfter_clampExpiry_lt]
      refine and_congr_right fun _ => ⟨fun h n hn => ?_, fun h => ?_⟩
      · rw [← lifetimeRead_iff.mp hn]
        exact h
      · exact h _ (lifetimeRead_iff.mpr rfl)

/-- A lease of forty seconds. -/
def fortySeconds : Bytes :=
  asBytes ("SIP/2.0 200 OK\r\nCSeq: 1 REGISTER\r\n" ++
    "Contact: <sip:u@127.0.0.1:5062>;expires=40\r\n\r\n").toList

def exampleProfile : TrunkProfileConfig := ⟨"u".toList, "pbx".toList, 5060, [], 3600⟩

def exampleAddr : SocketAddr := ⟨.v4 127 0 0 1, 5062⟩

theorem granted_fortySeconds : Granted exampleProfile exampleAddr fortySeconds 40 where
  status := ⟨200, by decide +kernel⟩
  binding := ⟨"<sip:u@127.0.0.1:5062>;expires=40".toList, by decide +kernel⟩

theorem refresh_fortySeconds : ∃ expiry, onAnswer (fun _ _ _ => .error "") exampleProfile 0
        ⟨⟨[], [], 1⟩, 3600, none⟩ fortySeconds = .ok (.inl expiry) ∧
      (refreshAfter expiry < 40 ↔
        51 < 40 ∧ ∀ n, LifetimeRead fortySeconds 3600 n → min n 86400 * 85 < 100 * 40) :=
  (refresh_iff idleParts (fun _ _ _ => .error "") exampleProfile exampleAddr).2 0
    ⟨⟨[], [], 1⟩, 3600, none⟩ fortySeconds 40 granted_fortySeconds (by decide)

/-- The trunk registers again after 51 seconds. -/
theorem fortySeconds_expires : Granted exampleProfile exampleAddr fortySeconds 40 ∧
      (registerTransaction idleParts (fun _ _ _ => .error "") exampleProfile exampleAddr ⟨[], [], 1⟩
        [⟨"t".toList, 0, [⟨0, .ok fortySeconds⟩]⟩] ()).1 = some (.ok 60) ∧
      ¬refreshAfter 60 < 40 :=
  ⟨granted_fortySeconds, by decide +kernel, by decide⟩

end SimMaster.Trunk
