import SimMaster.SipHeaders

/-!
# What a successful REGISTER says

`RegisterArtifacts` gathers the facts of a 200 answer: the lifetime of the bindings, whether the
registrar took part in the outbound procedure, the routes and the identities of the subscriber.
Contacts, routes and identities stand in comma lists whose commas do not count inside quotes and
angle brackets.

A REGISTER transaction is the Call-ID and the CSeq number of its request
(`RegisterTransactionKey`).
-/

namespace SimMaster

open Rust

/-! ## Lists and parameters -/

/-- `str::trim_matches` at a character. -/
def trimMatches (c : Char) (s : Str) : Str := trimEndMatches (· = c) (s.dropWhile (· = c))

/-- The pieces of a scan, with one more character at the front of the first. -/
def consPiece (c : Char) : List Str → List Str
  | [] => [[c]]
  | piece :: pieces => (c :: piece) :: pieces

/-- The scan of `split_sip_delimited`: a delimiter counts outside quotes and angle brackets. -/
def splitSipLoop (delimiter : Char) (inQuote escaped : Bool) (angleDepth : ℕ) : Str → List Str
  | [] => [[]]
  | c :: rest =>
    if escaped then consPiece c (splitSipLoop delimiter inQuote false angleDepth rest)
    else if c = '\\' && inQuote then
      consPiece c (splitSipLoop delimiter inQuote true angleDepth rest)
    else if c = '"' then consPiece c (splitSipLoop delimiter (!inQuote) false angleDepth rest)
    else if c = '<' && !inQuote then
      consPiece c (splitSipLoop delimiter inQuote false (min (angleDepth + 1) u16Max) rest)
    else if c = '>' && !inQuote then
      consPiece c (splitSipLoop delimiter inQuote false (angleDepth - 1) rest)
    else if c = delimiter && !inQuote && angleDepth = 0 then
      [] :: splitSipLoop delimiter inQuote false angleDepth rest
    else consPiece c (splitSipLoop delimiter inQuote false angleDepth rest)

def splitSipDelimited (value : Str) (delimiter : Char) : List Str :=
  splitSipLoop delimiter false false 0 value

/-- Split a comma-separated SIP header list. -/
def splitSipList (value : Str) : List Str := splitSipDelimited value ','

def splitSipParameters (value : Str) : List Str := splitSipDelimited value ';'

/-- The scan of `name_addr_range` from the character at `index`. -/
def nameAddrLoop (quoted escaped : Bool) (start : Option ℕ) (index : ℕ) : Str → Option (ℕ × ℕ)
  | [] => none
  | c :: rest =>
    if escaped then nameAddrLoop quoted false start (index + 1) rest
    else if c = '\\' && quoted then nameAddrLoop quoted true start (index + 1) rest
    else if c = '"' then nameAddrLoop (!quoted) false start (index + 1) rest
    else if c = '<' && !quoted then
      if start.isSome then none else nameAddrLoop quoted false (some index) (index + 1) rest
    else if c = '>' && !quoted then start.map fun start => (start, index)
    else nameAddrLoop quoted false start (index + 1) rest

/-- Where the angle brackets of the URI stand, not those of a quoted display name. -/
def nameAddrRange (value : Str) : Option (ℕ × ℕ) := nameAddrLoop false false none 0 value

/-- Contact parameters are outside the URI; a repeated one is no evidence. -/
def contactParameter (contact wanted : Str) : Option Str :=
  let parameters := match nameAddrRange contact with
    | some (_, stop) => contact.drop (stop + 1)
    | none => contact
  let values := ((splitSipParameters parameters).drop 1).filterMap fun parameter =>
    (splitOnce '=' parameter).bind fun (name, value) =>
      if eqIgnoreAsciiCase (trim name) wanted then
        some (trimEndMatches (· = '>') ((trimMatches '"' (trim value)).dropWhile (· = '<')))
      else none
  match values with
  | [value] => some value
  | _ => none

/-! ## The artifacts -/

/-- Common artifacts returned by a successful IMS REGISTER. -/
structure RegisterArtifacts where
  expiresSeconds : Option ℕ
  /-- Exact Require option-tag from the response. -/
  outboundRequired : Bool
  /-- Last Path URI has `ob`, or no Path. -/
  firstHopOutbound : Bool
  /-- Exact instance/reg-id binding found. -/
  ownBindingFound : Bool
  flowTimerSeconds : Option ℕ
  serviceRoute : Option Str
  serviceRouteCount : ℕ
  associatedUris : List Str
  contactBindingCount : ℕ
  wildcardContactPresent : Bool
  contactExpiryAmbiguous : Bool
  deriving DecidableEq

def contactBindings (response : Bytes) : List Str :=
  (headerValues response "Contact".toList ++ headerValues response "m".toList).flatMap fun value =>
    ((splitSipList value).map trim).filter fun contact => !contact.isEmpty

def contactExpires (contact : Str) : Option ℕ :=
  (contactParameter contact "expires".toList).bind (parseUnsigned u32Max)

/-- The lifetime all contacts share, and whether they disagree. -/
def commonContactExpires : List (Option ℕ) → Option ℕ × Bool
  | [] => (none, false)
  | first :: rest => if rest.all (· = first) then (first, false) else (none, true)

def uriFromHeaderValue (value : Str) : Option Str :=
  match splitOnce '<' value with
  | some (_, rest) => (splitOnce '>' rest).map Prod.fst
  | none => some ((trim value).takeWhile fun c => c ≠ ';' ∧ c ≠ ' ')

def pushSupportedUri (uri : Str) (uris : List Str) : List Str :=
  let uri := trim uri
  let lower := toAsciiLowercase uri
  if ("sip:".toList <+: lower ∨ "sips:".toList <+: lower ∨ "tel:".toList <+: lower) ∧
    uri ∉ uris then
    uris ++ [uri]
  else uris

def collectAssociatedUris (uris : List Str) (value : Str) : List Str :=
  (splitSipList value).foldl
    (fun uris entry =>
      let entry := trim entry
      let bracketed := (splitOnce '<' entry).bind fun (_, rest) =>
        (splitOnce '>' rest).map Prod.fst
      match bracketed.or (uriFromHeaderValue entry) with
      | some uri => pushSupportedUri uri uris
      | none => uris)
    uris

/-- Whether the first hop, the last Path URI, has the `ob` parameter; without a Path it is the
registrar. -/
def firstHopOutbound (response : Bytes) : Bool :=
  let paths := headerValues response "Path".toList
  if paths.isEmpty then true
  else match (paths.flatMap splitSipList).getLast? with
    | none => false
    | some last =>
      let uri := match nameAddrRange last with
        | some (start, stop) => (last.take stop).drop (start + 1)
        | none => trim last
      let uri := uri.takeWhile (· ≠ '?')
      ((splitBy (· = ';') uri).drop 1).any fun p => eqIgnoreAsciiCase (trim p) "ob".toList

/-- The `Expires` header of the answer. -/
def headerExpires (response : Bytes) : Option ℕ :=
  (headerValue response "Expires".toList).bind fun value => parseUnsigned u32Max (trim value)

namespace RegisterArtifacts

def parse (response : Bytes) : RegisterArtifacts :=
  let contacts := contactBindings response
  let contactExpiries := (contacts.filter fun contact => trim contact ≠ ['*']).map contactExpires
  let (contactExpires, contactExpiryAmbiguous) := commonContactExpires contactExpiries
  let serviceRoutes := ((headerValues response "Service-Route".toList).flatMap fun value =>
    (splitSipList value).map trim).filter fun route => !route.isEmpty
  let timers := headerValues response "Flow-Timer".toList
  { expiresSeconds := contactExpires.or (headerExpires response)
    outboundRequired := ((headerValues response "Require".toList).flatMap (splitBy (· = ','))).any
      fun tag => eqIgnoreAsciiCase (trim tag) "outbound".toList
    firstHopOutbound := SimMaster.firstHopOutbound response
    ownBindingFound := false
    flowTimerSeconds := match timers with
      | [value] => (parseUnsigned u32Max (trim value)).filter (0 < ·)
      | _ => none
    serviceRoute :=
      if serviceRoutes.isEmpty then none
      else some (serviceRoutes.intersperse ", ".toList).flatten
    serviceRouteCount := serviceRoutes.length
    associatedUris :=
      (headerValues response "P-Associated-URI".toList).foldl collectAssociatedUris []
    contactBindingCount := contactExpiries.length
    wildcardContactPresent := contacts.any fun contact => trim contact = ['*']
    contactExpiryAmbiguous := contactExpiryAmbiguous }

/-- The artifacts of the binding with our instance and reg-id: its lifetime is never that of
another contact. -/
def parseForBinding (response : Bytes) (inst : Str) (regId : ℕ) : RegisterArtifacts :=
  let artifacts := parse response
  let own := (contactBindings response).filter fun contact =>
    contactParameter contact "+sip.instance".toList = some inst ∧
      (contactParameter contact "reg-id".toList).bind (parseUnsigned u32Max) = some regId
  match own with
  | [contact] =>
    { artifacts with
      ownBindingFound := true
      contactExpiryAmbiguous := false
      expiresSeconds := (contactExpires contact).or (headerExpires response) }
  | _ =>
    { artifacts with
      contactExpiryAmbiguous := 1 < artifacts.contactBindingCount
      expiresSeconds := headerExpires response }

end RegisterArtifacts

/-! ## Transactions -/

/-- The identity of one REGISTER transaction. -/
structure RegisterTransactionKey where
  callId : Str
  cseq : ℕ
  deriving DecidableEq

def registerCallId (frame : Bytes) : Option Str :=
  (headerValue frame "Call-ID".toList).or (headerValue frame "i".toList)

/-- The number of a CSeq of exactly two fields, the second naming REGISTER. -/
def registerCseq (frame : Bytes) : Option ℕ :=
  (headerValue frame "CSeq".toList).bind fun value =>
    match splitWhitespace value with
    | [number, method] =>
      (parseUnsigned u32Max number).bind fun number =>
        if eqIgnoreAsciiCase method "REGISTER".toList then some number else none
    | _ => none

namespace RegisterTransactionKey

def fromRegisterRequest (request : Bytes) : Option RegisterTransactionKey :=
  if isRequest request "REGISTER".toList then
    (registerCallId request).bind fun callId =>
      (registerCseq request).map fun cseq => ⟨callId, cseq⟩
  else none

def matchesResponse (key : RegisterTransactionKey) (response : Bytes) : Bool :=
  startsWith response "SIP/2.0".toList && registerCallId response = some key.callId &&
    registerCseq response = some key.cseq

end RegisterTransactionKey

end SimMaster
