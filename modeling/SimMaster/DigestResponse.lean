import SimMaster.Ciphers
import SimMaster.DigestChallenge

/-!
# Digest response authentication

A `DigestRequestProof` belongs to one REGISTER with credentials: what the Authorization field says,
and the digests that the registrar is to see in it and to send back. `auth_headers` reads the
authentication fields of a message within bounds, and `validate_response_authentication` holds the
Authentication-Info fields of a response against the proof before a `nextnonce` is used.
-/

namespace SimMaster.ResponseAuth

open Rust Digest

def maxHeaderBytes : ℕ := 64 * 1024

def maxHeaderLines : ℕ := 256

def maxAuthBytes : ℕ := 16 * 1024

def maxParamValueBytes : ℕ := 4096

def maxParamNameBytes : ℕ := 128

def invalid : ImsError := ⟨"digest_response_auth_invalid"⟩

def mismatch : ImsError := ⟨"digest_response_auth_mismatch"⟩

def requestMismatch : ImsError := ⟨"digest_request_auth_mismatch"⟩

/-! ## Digests -/

inductive DigestHash where
  | md5
  | sha256
  deriving DecidableEq

namespace DigestHash

def digest (c : Ciphers) : DigestHash → Bytes → Bytes
  | md5 => c.md5
  | sha256 => c.sha256

def hex (c : Ciphers) (hash : DigestHash) (data : Bytes) : Str := hexLower (hash.digest c data)

/-- The octets of a digest. -/
def digestLen : DigestHash → ℕ
  | md5 => 16
  | sha256 => 32

end DigestHash

def digestHashForAlgorithm (algorithm : Str) : Except ImsError DigestHash :=
  if eqIgnoreAsciiCase algorithm "AKAv1-MD5".toList ||
      eqIgnoreAsciiCase algorithm "AKAv2-MD5".toList ||
      eqIgnoreAsciiCase algorithm "MD5".toList then .ok .md5
  else if eqIgnoreAsciiCase algorithm "AKAv2-SHA-256".toList then .ok .sha256
  else .error ⟨"digest_algorithm_unsupported"⟩

/-- What the response digest is taken over. -/
def digestInput (ha1 nonce : Str) (qop : Option Str) (nc cnonce ha2 : Str) : Except ImsError Str :=
  match qop with
  | none => .ok (ha1 ++ ':' :: (nonce ++ ':' :: ha2))
  | some qop =>
    if qop = "auth".toList then
      .ok (ha1 ++ ':' :: (nonce ++ ':' :: (nc ++ ':' :: (cnonce ++ (":auth:".toList ++ ha2)))))
    else .error ⟨"digest_qop_unsupported"⟩

/-- The digest response to a challenge. -/
def computeDigestResponse (c : Ciphers) (username realm : Str) (password : Bytes)
    (algorithm method digestUri nonce : Str) (qop : Option Str) (cnonce nc : Str) :
    Except ImsError Str := do
  let a1 := asBytes username ++ 0x3a :: (asBytes realm ++ 0x3a :: password)
  let hash ← digestHashForAlgorithm algorithm
  let ha1 := hash.hex c a1
  let ha2 := hash.hex c (asBytes (method ++ ':' :: digestUri))
  let proof ← digestInput ha1 nonce qop nc cnonce ha2
  return hash.hex c (asBytes proof)

/-- The value of a hexadecimal digit. -/
def hexDigitValue (ch : Char) : ℕ :=
  if isAsciiDigit ch then ch.toNat - 0x30 else ch.toLower.toNat - 0x57

/-- `decode_hex` of hexadecimal digits. -/
def decodeHex : Str → Except ImsError Bytes
  | [] => .ok []
  | [_] => .error ⟨"hex_invalid"⟩
  | high :: low :: rest =>
    (decodeHex rest).map fun bytes =>
      UInt8.ofNat (hexDigitValue high * 16 + hexDigitValue low) :: bytes

def decodeProofDigest (value : Str) (byteLen : ℕ) : Except ImsError Bytes :=
  if utf8Len value ≠ byteLen * 2 || !value.all isAsciiHexdigit then .error invalid
  else match decodeHex value with
    | .ok bytes => .ok bytes
    | .error _ => .error invalid

def verifyDigest (value : Str) (expected : Bytes) : Except ImsError Unit :=
  match decodeProofDigest value expected.length with
  | .error e => .error e
  | .ok decoded => if decoded = expected then .ok () else .error mismatch

/-! ## Values -/

def validParameterValue (value : Str) : Bool :=
  utf8Len value ≤ maxParamValueBytes && !value.any isControl

def validValue (value : Str) : Bool := !value.isEmpty && validParameterValue value

def validNc (value : Str) : Bool :=
  utf8Len value = 8 && value.all isAsciiHexdigit && value.any (· != '0')

def param (params : List (Str × Str)) (name : Str) : Option Str := params.lookup name

/-! ## Proofs -/

/-- Evidence for one REGISTER with credentials. -/
structure DigestRequestProof where
  proxy : Bool
  username : Str
  realm : Str
  nonce : Str
  algorithm : Str
  digestUri : Str
  qop : Option Str
  opaqueValue : Option Str
  cnonce : Option Str
  nc : Option Str
  requestDigest : Bytes
  responseDigest : Bytes
  deriving DecidableEq

/-- The digest of a response, as octets. -/
def computeProof (c : Ciphers) (challenge : DigestChallenge) (hash : DigestHash) (username : Str)
    (password : Bytes) (digestUri cnonce nc method : Str) : Except ImsError Bytes :=
  computeDigestResponse c username challenge.realm password challenge.algorithm method digestUri
    challenge.nonce challenge.qop cnonce nc >>= fun value => decodeProofDigest value hash.digestLen

/-- What the fields of a REGISTER with credentials must keep to. -/
def proofInputsInvalid (challenge : DigestChallenge) (username : Str) (password : Bytes)
    (digestUri : Str) : Bool :=
  (password.isEmpty && !eqIgnoreAsciiCase challenge.algorithm "MD5".toList) ||
    maxAuthBytes < password.length ||
    !([username, challenge.realm, challenge.nonce, digestUri].all validValue) ||
    digestUri.any isWhitespace ||
    challenge.opaqueValue.any (!validParameterValue ·)

/-- Capture a REGISTER proof from the inputs of its Authorization field. -/
def DigestRequestProof.new (c : Ciphers) (challenge : DigestChallenge) (username : Str)
    (password : Bytes) (digestUri cnonce nc : Str) : Except ImsError DigestRequestProof := do
  let hash ← digestHashForAlgorithm challenge.algorithm
  if challenge.qop.any (· != "auth".toList) then
    throw ⟨"digest_qop_unsupported"⟩
  if proofInputsInvalid challenge username password digestUri then
    throw requestMismatch
  if challenge.qop.isSome && (!validValue cnonce || !validNc nc) then
    throw requestMismatch
  let requestDigest ←
    computeProof c challenge hash username password digestUri cnonce nc "REGISTER".toList
  -- the digest that comes back hashes A2 = ":digest-uri", without a method
  let responseDigest ← computeProof c challenge hash username password digestUri cnonce nc []
  return {
    proxy := challenge.proxy
    username
    realm := challenge.realm
    nonce := challenge.nonce
    algorithm := challenge.algorithm
    digestUri
    qop := challenge.qop.map fun _ => "auth".toList
    opaqueValue := challenge.opaqueValue
    cnonce := challenge.qop.map fun _ => cnonce
    nc := challenge.qop.map fun _ => nc
    requestDigest
    responseDigest }

/-! ## Parameters -/

/-- The scan of `bounded_params`: outside quotes there are tokens, blanks and commas, and one equals
sign in each parameter. -/
def strictScan : (quoted escaped seenEquals : Bool) → Str → Bool
  | _, _, _, [] => true
  | quoted, escaped, seenEquals, ch :: rest =>
    if escaped then strictScan quoted false seenEquals rest
    else if quoted && ch = '\\' then strictScan quoted true seenEquals rest
    else if ch = '"' then strictScan (!quoted) false seenEquals rest
    else if quoted then strictScan quoted false seenEquals rest
    else if ch = '=' && !seenEquals then strictScan quoted false true rest
    else if ch = ',' then strictScan quoted false false rest
    else if ch = ' ' || ch = '\t' || isTokenChar ch then strictScan quoted false seenEquals rest
    else false

/-- The name or the value of a parameter is too long or has a control character. -/
def paramInvalid (entry : Str × Str) : Bool :=
  maxParamNameBytes < utf8Len entry.1 || !validParameterValue entry.2

/-- The parameters of a field, in the grammar of responses and within bounds. -/
def boundedParams (input : Str) : Except ImsError (List (Str × Str)) :=
  if !strictScan false false false input then .error invalid
  else match parseDigestParams input with
    | .error _ => .error invalid
    | .ok params =>
      if params.isEmpty || params.any paramInvalid then .error invalid else .ok params

/-! ## Header fields -/

structure AuthHeaders where
  startLine : Str
  /-- The authentication fields in order: whether one is of the proxy's name, and its value. -/
  fields : List (Bool × Str)
  deriving DecidableEq

/-- A line without the CR of its end. -/
def stripCr (line : Str) : Str := if line.getLast? = some '\r' then line.dropLast else line

/-- The lines after the start line: `current` is the authentication field being read, the last one
so far, `authBytes` what the authentication fields take up. -/
def headerLinesLoop (originName proxyName : Str) :
    (index : ℕ) → (current : Option (Bool × Str)) → (hasHeader : Bool) → (authBytes : ℕ) →
      List Str → Except ImsError (List (Bool × Str))
  | _, current, _, _, [] => .ok current.toList
  | index, current, hasHeader, authBytes, rawLine :: rest =>
    let line := stripCr rawLine
    if line.any (fun ch => isControl ch && ch != '\t') then .error invalid
    else if line.isEmpty then .ok current.toList
    else if maxHeaderLines ≤ index then .error invalid
    else if line.head?.any isBlank then
      if !hasHeader then .error invalid
      else match current with
        | none => headerLinesLoop originName proxyName (index + 1) none hasHeader authBytes rest
        | some (proxy, value) =>
          if maxAuthBytes < authBytes + (utf8Len line + 2) then .error invalid
          else headerLinesLoop originName proxyName (index + 1)
            (some (proxy, value ++ ' ' :: skipBlanks line)) hasHeader
            (authBytes + (utf8Len line + 2)) rest
    else match splitOnce ':' line with
      | none => .error invalid
      | some (rawName, value) =>
        let name := trimEndMatches isBlank rawName
        if name.isEmpty || !name.all isTokenChar then .error invalid
        else if eqIgnoreAsciiCase name originName || eqIgnoreAsciiCase name proxyName then
          if maxAuthBytes < authBytes + (utf8Len line + 2) then .error invalid
          else (headerLinesLoop originName proxyName (index + 1)
            (some (eqIgnoreAsciiCase name proxyName, skipBlanks value)) true
            (authBytes + (utf8Len line + 2)) rest).map (current.toList ++ ·)
        else (headerLinesLoop originName proxyName (index + 1) none true authBytes rest).map
          (current.toList ++ ·)

/-- Where the header block ends: behind the first empty line, if all lines end alike. -/
def headerStop (frame : Bytes) : Option ℕ :=
  match (findSub [0x0d, 0x0a, 0x0d, 0x0a] frame).map (· + 4),
      (findSub [0x0a, 0x0a] frame).map (· + 2) with
  | some crlfEnd, some lfEnd => some (min crlfEnd lfEnd)
  | some stop, none | none, some stop => some stop
  | none, none => none

/-- The start line and the authentication fields of a message. -/
def authHeaders (frame : Bytes) (originName proxyName : Str) : Except ImsError AuthHeaders :=
  let bounded := frame.take maxHeaderBytes
  match headerStop bounded with
  | none => .error invalid
  | some stop =>
    match fromUtf8 (bounded.take stop) with
    | none => .error invalid
    | some text =>
      match splitBy (· = '\n') text with
      | [] => .error invalid
      | rawStart :: lines =>
        let startLine := stripCr rawStart
        if startLine.isEmpty || startLine.any isControl then .error invalid
        else (headerLinesLoop originName proxyName 0 none false 0 lines).map fun fields =>
          ⟨startLine, fields⟩

/-! ## Requests -/

/-- The text after the scheme of a Digest value. -/
def stripDigestScheme (value : Str) : Option Str :=
  let value := trim value
  if startsWithDigestScheme value then some (trimStart (value.drop 6)) else none

def requestParamNames : List Str :=
  ["username".toList, "realm".toList, "nonce".toList, "uri".toList, "algorithm".toList,
    "response".toList, "qop".toList, "nc".toList, "cnonce".toList, "opaque".toList]

namespace DigestRequestProof

/-- The parameters of the credentials are those of the proof. -/
def paramsMatch (proof : DigestRequestProof) (params : List (Str × Str)) : Bool :=
  params.all (fun entry => requestParamNames.contains entry.1) &&
    param params "username".toList = some proof.username &&
    param params "realm".toList = some proof.realm &&
    param params "nonce".toList = some proof.nonce &&
    param params "uri".toList = some proof.digestUri &&
    (param params "algorithm".toList).any (eqIgnoreAsciiCase · proof.algorithm) &&
    param params "qop".toList = proof.qop &&
    param params "opaque".toList = proof.opaqueValue &&
    param params "nc".toList = proof.nc &&
    param params "cnonce".toList = proof.cnonce

/-- Fail closed if the final request differs from this proof. -/
def validateRequest (proof : DigestRequestProof) (request : Bytes) : Except ImsError Unit :=
  let validated := do
    let headers ← authHeaders request "Authorization".toList "Proxy-Authorization".toList
    if splitBy (· = ' ') headers.startLine ≠
        ["REGISTER".toList, proof.digestUri, "SIP/2.0".toList] then
      throw requestMismatch
    let [(proxy, value)] := headers.fields | throw requestMismatch
    if proxy != proof.proxy || !value[6]?.any isBlank then
      throw requestMismatch
    let some input := stripDigestScheme value | throw requestMismatch
    let params ← boundedParams input
    if !proof.paramsMatch params then
      throw requestMismatch
    let some response := param params "response".toList | throw requestMismatch
    verifyDigest response proof.requestDigest
  match validated with
  | .ok () => .ok ()
  | .error _ => .error requestMismatch

end DigestRequestProof

/-! ## Responses -/

/-- What a response is found to say; `rspauthVerified` is false where it has no rspauth. -/
structure VerifiedAuthenticationInfo where
  nextnonce : Option Str
  rspauthVerified : Bool
  deriving DecidableEq

/-- The first two words of a status line. -/
def statusLineValid (startLine : Str) : Bool :=
  let words := splitBy (· = ' ') startLine
  words.head? = some "SIP/2.0".toList &&
    words[1]?.any fun code => utf8Len code = 3 && code.all isAsciiDigit &&
      code.head?.any fun first => '1' ≤ first && first ≤ '6'

/-- All values joined by commas; each must be a parameter list in its own right. -/
def combineFields : Str → List (Bool × Str) → Except ImsError Str
  | combined, [] => .ok combined
  | combined, (_, value) :: rest =>
    let combined := if combined.isEmpty then combined else combined ++ [',']
    match boundedParams value with
    | .error e => .error e
    | .ok _ =>
      if maxAuthBytes < utf8Len combined + utf8Len value then .error invalid
      else combineFields (combined ++ value) rest

def criticalNames : List Str :=
  ["nextnonce".toList, "rspauth".toList, "qop".toList, "nc".toList, "cnonce".toList]

/-- qop, nc and cnonce are those of the request, and all there for an rspauth. -/
def checkEcho (proof : DigestRequestProof) (params : List (Str × Str)) : Except ImsError Unit :=
  let qop := param params "qop".toList
  let nc := param params "nc".toList
  let cnonce := param params "cnonce".toList
  match proof.qop with
  | some expectedQop =>
    if qop.any (· != expectedQop) || nc.any (some · != proof.nc) ||
        cnonce.any (some · != proof.cnonce) then .error mismatch
    else if (param params "rspauth".toList).isSome &&
        (qop.isNone || nc.isNone || cnonce.isNone) then .error invalid
    else .ok ()
  | none => if qop.isSome || nc.isSome || cnonce.isSome then .error mismatch else .ok ()

/-- The parameters of a response held against the proof. -/
def checkParams (proof : DigestRequestProof) (params : List (Str × Str)) :
    Except ImsError VerifiedAuthenticationInfo :=
  let rspauth := param params "rspauth".toList
  if params.any (fun entry => entry.2.isEmpty && criticalNames.contains entry.1) then
    .error invalid
  else if (param params "nc".toList).any (!validNc ·) then .error invalid
  else do
    checkEcho proof params
    match rspauth with
    | none => .ok ()
    | some value => verifyDigest value proof.responseDigest
    return ⟨param params "nextnonce".toList, rspauth.isSome⟩

/-- The authentication fields held against the proof. -/
def checkFields (proof : Option DigestRequestProof) (fields : List (Bool × Str)) :
    Except ImsError VerifiedAuthenticationInfo :=
  if fields.isEmpty then .ok ⟨none, false⟩
  else match proof with
    | none => .error ⟨"digest_response_auth_context_missing"⟩
    | some proof =>
      if fields.any (·.1 != proof.proxy) then .error ⟨"digest_response_auth_scope_mismatch"⟩
      else do
        let combined ← combineFields [] fields
        let params ← boundedParams combined
        checkParams proof params

def authenticationInfo : Str := "Authentication-Info".toList

def proxyAuthenticationInfo : Str := "Proxy-Authentication-Info".toList

/-- Validate both header families before any nextnonce is exposed. -/
def validateResponseAuthentication (proof : Option DigestRequestProof) (response : Bytes) :
    Except ImsError VerifiedAuthenticationInfo := do
  let headers ← authHeaders response authenticationInfo proxyAuthenticationInfo
  if !statusLineValid headers.startLine then
    throw invalid
  checkFields proof headers.fields

end SimMaster.ResponseAuth
