import SimMaster.RegisterResponse

/-!
# Who is calling

`resolve_caller_identity` reads the caller from the first of three headers that names one, unless
the caller asks not to be shown. The name and the URI of a header are cut out by the places of the
first `<` and the first `>`; a cut that ends before it begins is an outcome of its own, `none`.
-/

namespace SimMaster.Caller

open Rust

inductive IdentityPresentation where
  | allowed
  | restricted
  | unavailable
  deriving DecidableEq

inductive CallerIdentitySource where
  | assertedIdentity
  | fromHeader
  | remotePartyId
  | none
  deriving DecidableEq

structure CallerIdentity where
  presentation : IdentityPresentation
  source : CallerIdentitySource
  uri : Option Str
  displayName : Option Str
  deriving DecidableEq

def restrictedIdentity : CallerIdentity := ⟨.restricted, .none, none, none⟩

def unavailableIdentity : CallerIdentity := ⟨.unavailable, .none, none, none⟩

/-- `str::find` of a character. -/
def find (c : Char) (s : Str) : Option ℕ := s.findIdx? (· = c)

/-- `&s[i..j]`. -/
def range (s : Str) (i j : ℕ) : Option Str :=
  if i ≤ j ∧ j ≤ s.length then some ((s.drop i).take (j - i)) else none

def nonEmpty (s : Str) : Option Str := if s.isEmpty then none else some s

def isSipUri (uri : Str) : Bool :=
  "sip:".toList.isPrefixOf uri || "sips:".toList.isPrefixOf uri || "tel:".toList.isPrefixOf uri

/-- The display name and the URI. -/
def parseNameAddr (value : Str) : Option (Option Str × Option Str) :=
  let value := trim value
  match find '<' value, find '>' value with
  | some opening, some closing => do
    let display ← range value 0 opening
    let uri ← range value (opening + 1) closing
    return (nonEmpty (trim (trimMatches '"' (trim display))), nonEmpty (trim uri))
  | _, _ =>
    let uri := trim ((splitBy (· = ';') value).head?.getD [])
    some (none, if isSipUri uri then some uri else none)

/-- A Privacy value has the token `id`. -/
def hidesId (privacy : Str) : Bool :=
  (splitBy (fun c => c = ',' || c = ';') privacy).any fun token =>
    eqIgnoreAsciiCase (trim token) "id".toList

/-- A Remote-Party-ID value asks for full privacy. -/
def hidesParty (value : Str) : Bool :=
  (splitBy (· = ';') value).any fun parameter =>
    eqIgnoreAsciiCase (trim parameter) "privacy=full".toList

def privacyHeader : Str := "Privacy".toList

def remotePartyHeader : Str := "Remote-Party-ID".toList

def restricted (frame : Bytes) : Bool :=
  hidesId ((headerValue frame privacyHeader).getD []) ||
    (headerValue frame remotePartyHeader).any hidesParty

/-- The headers that may name the caller, in the order in which they are asked. -/
def identityHeaders (frame : Bytes) : List (CallerIdentitySource × Str) :=
  [("P-Asserted-Identity".toList, CallerIdentitySource.assertedIdentity),
    ("From".toList, .fromHeader), (remotePartyHeader, .remotePartyId)].filterMap
      fun (name, source) => (headerValue frame name).map fun value => (source, value)

/-- The first of some headers that names a caller. -/
def firstIdentity : List (CallerIdentitySource × Str) → Option CallerIdentity
  | [] => some unavailableIdentity
  | (source, value) :: rest => do
    let (displayName, uri) ← parseNameAddr value
    match uri with
    | some uri => return ⟨.allowed, source, some uri, displayName⟩
    | none => firstIdentity rest

/-- Caller presentation without leaking an asserted identity hidden by `Privacy: id`. -/
def resolveCallerIdentity (frame : Bytes) : Option CallerIdentity :=
  if restricted frame then some restrictedIdentity else firstIdentity (identityHeaders frame)

end SimMaster.Caller
