import SimMaster.Parse

/-!
# Voice codecs

The codec lists of calls. `buildCodecOfferWithParams` numbers the codecs of a profile's policies:
a policy may pin its payload type, other dynamic codecs get the first number from 96 to 127 that no
policy pins and no codec has, and a policy that cannot be numbered is left out.
`buildSdpAnswerWithParams` keeps those codecs of an offer that the local list has, under the
offerer's numbers.
-/

namespace SimMaster.Voice

open Rust

inductive AudioCodec where
  | evs
  | amr
  | amrWb
  | pcmu
  | pcma
  | opus
  deriving DecidableEq

namespace AudioCodec

/-- RTP clock rate in Hz. -/
def clockRate : AudioCodec → UInt32
  | amr | pcmu | pcma => 8000
  | evs | amrWb => 16000
  | opus => 48000

/-- Static RTP payload type, when the codec has one. -/
def staticPayloadType : AudioCodec → Option UInt8
  | pcmu => some 0
  | pcma => some 8
  | evs | amr | amrWb | opus => none

def isAmrFamily : AudioCodec → Bool
  | amr | amrWb => true
  | evs | pcmu | pcma | opus => false

def fromToken (token : Str) : Option AudioCodec :=
  let lower := toAsciiLowercase token
  if lower = "evs".toList then some evs
  else if lower = "amr".toList then some amr
  else if lower = "amr-wb".toList ∨ lower = "amr_wb".toList ∨ lower = "amrwb".toList then some amrWb
  else if lower = "pcmu".toList then some pcmu
  else if lower = "pcma".toList then some pcma
  else if lower = "opus".toList then some opus
  else none

end AudioCodec

inductive MediaDirection where
  | sendRecv
  | sendOnly
  | recvOnly
  | inactive
  deriving DecidableEq

namespace MediaDirection

def fromToken (token : Str) : Option MediaDirection :=
  if token = "sendrecv".toList then some sendRecv
  else if token = "sendonly".toList then some sendOnly
  else if token = "recvonly".toList then some recvOnly
  else if token = "inactive".toList then some inactive
  else none

/-- The direction which represents the opposite endpoint of this SDP leg. -/
def forPeer : MediaDirection → MediaDirection
  | sendRecv => sendRecv
  | sendOnly => recvOnly
  | recvOnly => sendOnly
  | inactive => inactive

end MediaDirection

inductive SdpAddrType where
  | ip4
  | ip6
  deriving DecidableEq

inductive MediaTransportKind where
  | rtpAvp
  | rtpSavp
  deriving DecidableEq

/-- An offered codec; no channel count means mono. -/
structure SdpCodec where
  codec : AudioCodec
  payloadType : UInt8
  clockRate : UInt32
  channels : Option UInt8
  fmtp : Option Str
  deriving DecidableEq

structure SdpAudioDescription where
  sessionId : UInt64
  sessionVersion : UInt64
  originUsername : Str
  connectionAddr : Str
  addrType : SdpAddrType
  mediaPort : UInt16
  transport : MediaTransportKind
  codecs : List SdpCodec
  direction : MediaDirection
  ptime : Option UInt16
  deriving DecidableEq

structure AudioCodecPolicy where
  codec : AudioCodec
  payloadType : Option UInt8
  sampleRate : Option UInt32
  fmtp : Option Str
  deriving DecidableEq

structure VoiceParams where
  preferredCodecs : List Str
  codecPolicies : List AudioCodecPolicy
  ptimeMs : UInt16
  amrOctetAlign : Bool

/-! ## Offers -/

/-- Default AMR fmtp parameters; other codecs get none. -/
def amrDefaultFmtp (codec : AudioCodec) (amrOctetAlign : Bool) : Option Str :=
  if codec.isAmrFamily then
    some ("octet-align=".toList ++ (if amrOctetAlign then '1' else '0') ::
      "; mode-change-capability=2; max-red=0".toList)
  else none

/-- The policies of the profile; without any, one for each preferred codec. -/
def VoiceParams.policies (params : VoiceParams) : List AudioCodecPolicy :=
  if params.codecPolicies.isEmpty then
    params.preferredCodecs.filterMap fun token =>
      (AudioCodec.fromToken token).map fun codec => ⟨codec, none, none, none⟩
  else params.codecPolicies

/-- The dynamic payload types. -/
def dynamicTypes : List UInt8 := (List.range' 96 32).map UInt8.ofNat

/-- The payload type for a policy when `reserved` are pinned and `used` are taken. -/
def AudioCodecPolicy.number (policy : AudioCodecPolicy) (reserved used : List UInt8) :
    Option UInt8 :=
  match policy.codec.staticPayloadType, policy.payloadType with
  | some pt, none => some pt
  | some pt, some configured => if configured = pt then some pt else none
  | none, some pt => if 96 ≤ pt ∧ pt ≤ 127 then some pt else none
  | none, none =>
    dynamicTypes.find? fun candidate => !reserved.contains candidate && !used.contains candidate

/-- The entry of a policy under a payload type. -/
def AudioCodecPolicy.entry (policy : AudioCodecPolicy) (amrOctetAlign : Bool)
    (payloadType : UInt8) : SdpCodec :=
  { codec := policy.codec
    payloadType
    clockRate := policy.sampleRate.getD policy.codec.clockRate
    channels := none
    fmtp := (policy.fmtp.filter fun value => !(trim value).isEmpty).or
      (amrDefaultFmtp policy.codec amrOctetAlign) }

/-- The loop over the policies. -/
def codecOffer (amrOctetAlign : Bool) (reserved : List UInt8) :
    List UInt8 → List AudioCodecPolicy → List SdpCodec
  | _, [] => []
  | used, policy :: rest =>
    if policy.sampleRate.getD policy.codec.clockRate ≠ policy.codec.clockRate then
      codecOffer amrOctetAlign reserved used rest
    else
      match policy.number reserved used with
      | none => codecOffer amrOctetAlign reserved used rest
      | some payloadType =>
        if used.contains payloadType then codecOffer amrOctetAlign reserved used rest
        else policy.entry amrOctetAlign payloadType ::
          codecOffer amrOctetAlign reserved (payloadType :: used) rest

/-- Produce the preferred codec offer list. -/
def buildCodecOfferWithParams (params : VoiceParams) : List SdpCodec :=
  codecOffer params.amrOctetAlign (params.policies.filterMap AudioCodecPolicy.payloadType) []
    params.policies

/-! ## Answers -/

inductive VoiceRuntimeError where
  | noCommonCodec
  deriving DecidableEq

/-- The same encoding, clock rate and number of channels. -/
def sameEncoding (a b : SdpCodec) : Bool :=
  a.codec == b.codec && a.clockRate == b.clockRate && a.channels.getD 1 == b.channels.getD 1

/-- Build an SDP answer by intersecting a received offer with local parameters; `session` is the
number of the session. -/
def buildSdpAnswerWithParams (params : VoiceParams) (offer : SdpAudioDescription)
    (connectionAddr : Str) (addrType : SdpAddrType) (mediaPort : UInt16) (session : UInt64) :
    Except VoiceRuntimeError SdpAudioDescription :=
  let localOffer := buildCodecOfferWithParams params
  let answerCodecs := offer.codecs.filter fun offered =>
    localOffer.any fun own => sameEncoding own offered
  if answerCodecs.isEmpty then .error .noCommonCodec
  else .ok
    { sessionId := session
      sessionVersion := session
      originUsername := "SimAdmin".toList
      connectionAddr
      addrType
      mediaPort
      transport := offer.transport
      codecs := answerCodecs
      direction := offer.direction.forPeer
      ptime := offer.ptime.or (some params.ptimeMs) }

end SimMaster.Voice
