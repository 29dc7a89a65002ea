import SimMaster.IpAddr

/-!
# SIP syntax of the registration-event observer

The header values the observer reads: tokens, numbers, parameter lists, addresses, canonical URIs
and routes, each refused with the one error `ims_reg_event_invalid` unless it has the conservative
form the code insists on.
-/

namespace SimMaster

open Rust

/-- A neutral core error carrying a stable code. -/
structure ImsError where
  code : String
  deriving DecidableEq, Repr

namespace RegEvent

def maxBody : ℕ := 65536
def maxHeaders : ℕ := 16384

def invalid : ImsError := ⟨"ims_reg_event_invalid"⟩

/-- `ok_or_else(invalid)`. -/
def okOrInvalid {α : Type} : Option α → Except ImsError α
  | some a => .ok a
  | none => .error invalid

theorem okOrInvalid_eq_ok {α : Type} {x : Option α} {a : α} : okOrInvalid x = .ok a ↔
    x = some a := by
  cases x with
  | none => simp [okOrInvalid]
  | some b => simp [okOrInvalid]

def safeHeaderValue (value : Str) : Bool :=
  !value.isEmpty && utf8Len value ≤ 4096 && !value.any fun c => c.toNat < 32 || c.toNat = 127

def token (value : Str) : Bool :=
  !value.isEmpty && value.all fun c => isAsciiAlphanumeric c || "-.!%*_+`'~".toList.contains c

def validTag (value : Str) : Except ImsError Str :=
  if 256 < utf8Len value || !token value then .error invalid else .ok value

def unsigned (value : Str) : Except ImsError ℕ :=
  if value.isEmpty || 10 < utf8Len value || !value.all isAsciiDigit then .error invalid
  else okOrInvalid (parseUnsigned u32Max value)

def positive (value : Str) : Except ImsError ℕ := do
  let value ← unsigned value
  if value = 0 then .error invalid else .ok value

/-! ## URIs -/

/-- Every percent sign starts an escape of two hexadecimal digits. -/
def escapesComplete : Str → Bool
  | [] => true
  | c :: rest =>
    (if c = '%' then
      match rest with
      | a :: b :: _ => isAsciiHexdigit a && isAsciiHexdigit b
      | _ => false
    else true) && escapesComplete rest

/-- Distinct parameter names and no empty values; `seen` holds the names so far. -/
def uriParametersOk : List Str → List Str → Bool
  | _, [] => true
  | seen, param :: params =>
    let (name, value) := match splitOnce '=' param with
      | some (name, value) => (name, some value)
      | none => (param, none)
    token name && !seen.contains (toAsciiLowercase name) && value != some [] &&
      uriParametersOk (toAsciiLowercase name :: seen) params

/-- The host of a URI, in its brackets if it is an IPv6 address, and the port text after it. -/
def hostAndPort (hostPort : Str) : Except ImsError (Str × Option Str) :=
  match hostPort with
  | '[' :: inner =>
    match splitOnce ']' inner with
    | none => .error invalid
    | some (address, tail) =>
      if !isIpv6 address then .error invalid
      else match tail with
        | [] => .ok ('[' :: address ++ [']'], none)
        | ':' :: port => .ok ('[' :: address ++ [']'], some port)
        | _ => .error invalid
  | _ =>
    let (host, port) := match splitOnce ':' hostPort with
      | some (host, port) => (host, some port)
      | none => (hostPort, none)
    if host.isEmpty || !host.all (fun c => isAsciiAlphanumeric c || c = '.' || c = '-') then
      .error invalid
    else .ok (host, port)

/-- Intentionally conservative URI matching: fold scheme and host only, retaining the user, an
explicit port and every URI parameter in order. -/
def canonicalUri (value : Str) : Except ImsError Str := do
  if value.isEmpty || 2048 < utf8Len value || !value.all isAscii ||
      value.any (fun c => c.toNat ≤ 32 || c.toNat = 127 || "<>\"\\,?".toList.contains c) then
    throw invalid
  let (scheme, rest) ← okOrInvalid (splitOnce ':' value)
  if !eqIgnoreAsciiCase scheme "sip".toList then
    throw invalid
  let (authority, suffix) := (splitOnce ';' rest).getD (rest, [])
  let (user, hostPort) := match rsplitOnce '@' authority with
    | some (user, host) => (some user, host)
    | none => (none, authority)
  if user.any fun user : Str => user.isEmpty || user.contains ':' || user.contains '@' then
    throw invalid
  let (host, port) ← hostAndPort hostPort
  if let some port := port then
    if 65535 < (← positive port) then
      throw invalid
  if !escapesComplete value then
    throw invalid
  if !suffix.isEmpty then
    if !uriParametersOk [] (splitBy (· == ';') suffix) then
      throw invalid
  else if rest.getLast? = some ';' then
    throw invalid
  return "sip:".toList ++ user.elim [] (· ++ ['@']) ++ toAsciiLowercase host ++
    port.elim [] (':' :: ·) ++ if suffix.isEmpty then [] else ';' :: suffix

/-! ## Header values -/

/-- The pieces between semicolons outside quotes, `none` if there is a backslash or a quote stays
open. -/
def splitUnquoted : Bool → Str → Option (List Str)
  | quote, [] => if quote then none else some [[]]
  | quote, c :: rest =>
    if c = '\\' then none
    else
      let quote := if c = '"' then !quote else quote
      if c = ';' && !quote then (splitUnquoted quote rest).map ([] :: ·)
      else (splitUnquoted quote rest).map fun
        | [] => [[c]]
        | part :: parts => (c :: part) :: parts

/-- The parameters of a header value in order; `names` holds the names so far. -/
def parameterList : List Str → List Str → Except ImsError (List (Str × Option Str))
  | _, [] => .ok []
  | names, part :: parts =>
    let (name, value) := match splitOnce '=' (trim part) with
      | some (name, value) => (trim name, some (trim value))
      | none => (trim part, none)
    if !token name || names.contains (toAsciiLowercase name) || value == some [] then
      .error invalid
    else do
      let params ← parameterList (toAsciiLowercase name :: names) parts
      .ok ((toAsciiLowercase name, value) :: params)

/-- Strict quoted parameter splitting with uniqueness, no escaped delimiters. -/
def parameters (value : Str) : Except ImsError (Str × List (Str × Option Str)) := do
  if !safeHeaderValue value then
    throw invalid
  match ← okOrInvalid (splitUnquoted false value) with
  | [] => throw invalid
  | first :: parts =>
    if 32 < parts.length then
      throw invalid
    let params ← parameterList [] parts
    return (trim first, params)

structure Address where
  uri : Str
  params : List (Str × Option Str)

/-- The value of a parameter, `none` if it is missing or has no value. -/
def Address.param (address : Address) (name : String) : Option Str :=
  (address.params.find? (·.1 == name.toList)).bind (·.2)

/-- The URI text and what follows it. A bare address with parameters is ambiguous, so it has to be
in angle brackets. -/
def addressParts (value : Str) : Except ImsError (Str × Str) :=
  match splitOnce '<' value with
  | some (display, after) =>
    if (trim display).any fun c => c = ',' || c = '<' || c = '>' then .error invalid
    else okOrInvalid (splitOnce '>' after)
  | none => if value.contains ';' then .error invalid else .ok (value, [])

def address (value : Str) : Except ImsError Address := do
  if !safeHeaderValue value then
    throw invalid
  let (uri, tail) ← addressParts (trim value)
  if tail.contains ',' || (!(trim tail).isEmpty && (trimStart tail).head? != some ';') then
    throw invalid
  let (_, params) ← parameters ("address".toList ++ trim tail)
  let uri ← canonicalUri uri
  return { uri, params }

def instanceValue (value : Str) : Except ImsError Str :=
  let value := trim value
  let value := if value.head? = some '"' && value.getLast? = some '"' && 2 ≤ utf8Len value then
    value.tail.dropLast else value
  if 256 < utf8Len value || value.head? != some '<' || value.getLast? != some '>' ||
      !"urn:".toList.isPrefixOf value.tail.dropLast ||
      value.tail.dropLast.any (fun c => c.toNat ≤ 32 || 127 ≤ c.toNat ||
        "<>\"\\".toList.contains c) then
    .error invalid
  else .ok value

/-- Entries read so far are counted in `count`. -/
def routeEntries : ℕ → List Str → Except ImsError (List Str)
  | _, [] => .ok []
  | count, entry :: entries => do
    let parsed ← address (trim entry)
    if !parsed.params.isEmpty || !((splitBy (· == ';') parsed.uri).drop 1).any
        (eqIgnoreAsciiCase · "lr".toList) then
      throw invalid
    if 16 < count + 1 then
      throw invalid
    let routes ← routeEntries (count + 1) entries
    return (['<'] ++ parsed.uri ++ ['>']) :: routes

def routeList (value : Str) : Except ImsError (List Str) :=
  if !safeHeaderValue value then .error invalid else routeEntries 0 (splitBy (· == ',') value)

/-- Case is folded in the scheme and the host only. -/
example : canonicalUri "SIP:Case@EXAMPLE.test:5070;transport=udp;ob".toList =
    .ok "sip:Case@example.test:5070;transport=udp;ob".toList := by
  decide +kernel

end RegEvent

end SimMaster
