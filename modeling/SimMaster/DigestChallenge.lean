import SimMaster.RegEventSyntax

/-!
# Digest challenges

The part of the Digest-AKA code that reads `WWW-Authenticate` and `Proxy-Authenticate` values: a
field value is split into its challenges, each challenge into its parameters, and the first
challenge this stack can answer is selected.
-/

namespace SimMaster

open Rust

structure DigestChallenge where
  realm : Str
  nonce : Str
  algorithm : Str
  qop : Option Str
  opaqueValue : Option Str
  proxy : Bool
  stale : Bool
  deriving DecidableEq

namespace Digest

/-! ## Parameters -/

def isBlank (c : Char) : Bool := c = ' ' || c = '\t'

def skipBlanks (s : Str) : Str := s.dropWhile isBlank

def isTokenChar (c : Char) : Bool := isAsciiAlphanumeric c || "!#$%&'*+-.^_`|~".toList.contains c

def challengeInvalid : ImsError := ⟨"digest_challenge_invalid"⟩

/-- The text up to the closing quote, with escapes resolved, and what follows the quote. -/
def quotedValue : Str → Option (Str × Str)
  | [] => none
  | '"' :: rest => some ([], rest)
  | '\\' :: c :: rest => (quotedValue rest).map fun (value, rest) => (c :: value, rest)
  | ['\\'] => none
  | c :: rest => (quotedValue rest).map fun (value, rest) => (c :: value, rest)

/-- The text up to a comma or a blank. -/
def plainValue (s : Str) : Option (Str × Str) :=
  let value := s.takeWhile fun c => !(c = ',' || isBlank c)
  if value.isEmpty ||
      value.any (fun c => c.toNat < 0x21 || 0x7e < c.toNat || c = '"' || c = '\\') then none
  else some (value, s.drop value.length)

/-- One parameter at the front of `s`: its name in lower case, its value and the input after it. -/
def parameter (s : Str) : Except ImsError ((Str × Str) × Str) := do
  let key := s.takeWhile isTokenChar
  if key.isEmpty then
    throw challengeInvalid
  match skipBlanks (s.drop key.length) with
  | '=' :: rest =>
    let value := match skipBlanks rest with
      | '"' :: quoted => quotedValue quoted
      | plain => plainValue plain
    match value with
    | some (value, rest) => return ((toAsciiLowercase key, value), rest)
    | none => throw challengeInvalid
  | _ => throw challengeInvalid

/-- The loop over the parameters: `room` is how many more there may be, `out` holds those read. -/
def parseDigestParamsLoop : ℕ → List (Str × Str) → Str → Except ImsError (List (Str × Str))
  | room, out, s =>
    match skipBlanks s, room with
    | [], _ => .ok out
    | _ :: _, 0 => .error challengeInvalid
    | s, room + 1 => do
      let ((key, value), rest) ← parameter s
      if out.any (·.1 == key) then
        throw ⟨"digest_parameter_duplicate"⟩
      match skipBlanks rest with
      | [] => return out ++ [(key, value)]
      | ',' :: rest =>
        if rest.all isBlank then
          throw challengeInvalid
        parseDigestParamsLoop room (out ++ [(key, value)]) rest
      | _ => throw challengeInvalid

/-- Bounded auth-param parser: no duplicate fields, broken quoting or control characters. -/
def parseDigestParams (input : Str) : Except ImsError (List (Str × Str)) :=
  if 16 * 1024 < utf8Len input ||
      input.any (fun c => c.toNat = 0x7f || (c.toNat < 0x20 && c != '\t')) then
    .error challengeInvalid
  else parseDigestParamsLoop 64 [] input

/-! ## Challenges -/

/-- `Digest` followed by white space. -/
def startsWithDigestScheme (value : Str) : Bool :=
  eqIgnoreAsciiCase (value.take 6) "Digest".toList && (value.drop 6).head?.any isWhitespace

/-- The challenges of one field value: `item` is the challenge so far, its last character first.
A comma outside quotes ends it if another Digest scheme follows. -/
def splitDigestLoop : (escaped inQuote : Bool) → (item : Str) → Str → List Str
  | _, _, item, [] => [trim item.reverse]
  | true, inQuote, item, c :: rest => splitDigestLoop false inQuote (c :: item) rest
  | false, inQuote, item, c :: rest =>
    if c = '\\' && inQuote then splitDigestLoop true inQuote (c :: item) rest
    else if c = '"' then splitDigestLoop false (!inQuote) (c :: item) rest
    else if c = ',' && !inQuote && startsWithDigestScheme (trimStart rest) then
      trim item.reverse :: splitDigestLoop false inQuote [] rest
    else splitDigestLoop false inQuote (c :: item) rest

def splitDigestChallengeValues (value : Str) : List Str :=
  (splitDigestLoop false false [] (trim value)).filter fun item => !item.isEmpty

def selectQop (params : List (Str × Str)) : Option Str :=
  (params.lookup "qop".toList).map fun raw =>
    if (splitBy (fun c => c = ',' || c = ' ') raw).any
        fun s => eqIgnoreAsciiCase (trim s) "auth".toList then "auth".toList
    else trim raw

def parseDigestChallenge (value : Str) (proxy : Bool) : Except ImsError DigestChallenge := do
  let value := trim value
  if !startsWithDigestScheme value then
    throw ⟨"digest_challenge_missing"⟩
  let map ← parseDigestParams (trimStart (value.drop 6))
  let some realm := map.lookup "realm".toList | throw ⟨"digest_realm_missing"⟩
  let some nonce := map.lookup "nonce".toList | throw ⟨"digest_nonce_missing"⟩
  let algorithm := (map.lookup "algorithm".toList).getD "AKAv1-MD5".toList
  let stale ← match map.lookup "stale".toList with
    | none => pure false
    | some value =>
      if eqIgnoreAsciiCase value "true".toList then pure true
      else if eqIgnoreAsciiCase value "false".toList then pure false
      else throw ⟨"digest_stale_invalid"⟩
  if realm.isEmpty then
    throw ⟨"digest_realm_missing"⟩
  if nonce.isEmpty then
    throw ⟨"digest_nonce_missing"⟩
  return { realm, nonce, algorithm, qop := selectQop map,
           opaqueValue := map.lookup "opaque".toList, proxy, stale }

def validateDigestChallengeSupport (challenge : DigestChallenge) (allowPlainMd5 : Bool) :
    Except ImsError DigestChallenge :=
  let supported := eqIgnoreAsciiCase challenge.algorithm "AKAv1-MD5".toList ||
    eqIgnoreAsciiCase challenge.algorithm "AKAv2-MD5".toList ||
    eqIgnoreAsciiCase challenge.algorithm "AKAv2-SHA-256".toList ||
    (allowPlainMd5 && eqIgnoreAsciiCase challenge.algorithm "MD5".toList)
  if !supported then .error ⟨"digest_algorithm_unsupported"⟩
  else if challenge.qop.any (· != "auth".toList) then .error ⟨"digest_qop_unsupported"⟩
  else .ok challenge

/-- The first challenge that parses and is supported, else the error of the last one. -/
def selectFirst (allowPlainMd5 : Bool) : ImsError → List (Bool × Str) →
    Except ImsError DigestChallenge
  | lastError, [] => .error lastError
  | _, (proxy, value) :: values =>
    match parseDigestChallenge value proxy >>= (validateDigestChallengeSupport · allowPlainMd5) with
    | .ok challenge => .ok challenge
    | .error error => selectFirst allowPlainMd5 error values

/-- All WWW fields in their order, then all Proxy fields. -/
def selectDigestChallenge (wwwValues proxyValues : List Str) (allowPlainMd5 : Bool) :
    Except ImsError DigestChallenge :=
  selectFirst allowPlainMd5 ⟨"digest_challenge_missing"⟩
    ((wwwValues.flatMap splitDigestChallengeValues).map (false, ·) ++
      (proxyValues.flatMap splitDigestChallengeValues).map (true, ·))

end Digest

end SimMaster
