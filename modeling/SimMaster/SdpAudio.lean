import SimMaster.SipHeaders
import SimMaster.VoiceCodecs

/-!
# Reading the audio of an SDP body

`parse_audio_sdp` goes through the lines of a body once. Two flags say whether a media section has
begun and whether it is an audio section; what the lines of audio sections say is put into one set
of accumulators.
-/

namespace SimMaster.Voice

open Rust

inductive VoiceEncodingError where
  | emptySdp
  | sdpMalformed
  | noAudioMedia
  | unsupportedCodec
  deriving DecidableEq

/-- `str::splitn(2, char::is_whitespace)` where there are two pieces. -/
def splitAtWhitespace : Str → Option (Str × Str)
  | [] => none
  | c :: rest =>
    if isWhitespace c then some ([], rest)
    else (splitAtWhitespace rest).map fun (a, b) => (c :: a, b)

def parseU8 (s : Str) : Option UInt8 := (parseUnsigned 255 s).map UInt8.ofNat

def parseU16 (s : Str) : Option UInt16 := (parseUnsigned u16Max s).map UInt16.ofNat

def parseU32 (s : Str) : Option UInt32 := (parseUnsigned u32Max s).map UInt32.ofNat

def parseU64 (s : Str) : Option UInt64 := (parseUnsigned usizeMax s).map UInt64.ofNat

structure RtpMap where
  payloadType : UInt8
  codec : AudioCodec
  clockRate : UInt32
  channels : Option UInt8
  deriving DecidableEq

abbrev Connection : Type := SdpAddrType × Str

def addrTypeOf (token : Str) : SdpAddrType :=
  if eqIgnoreAsciiCase token "IP6".toList then .ip6 else .ip4

/-- The address of an o= or c= line whose parts from the address type on are given. -/
def connectionOf : List Str → Option Connection
  | addrType :: addr :: _ => some (addrTypeOf addrType, addr)
  | _ => none

/-- The mapping of an `a=rtpmap` line: `<pt> <encoding>/<clock>[/<channels>]`. -/
def parseRtpmap (rtpmap : Str) : Option RtpMap :=
  match splitWhitespace rtpmap with
  | ptText :: enc :: _ => do
    let pt ← parseU8 ptText
    let encoding := splitBy (· = '/') enc
    let name := encoding.head?.getD []
    let clockRate ← encoding[1]?.bind parseU32
    let channels := encoding[2]?.bind parseU8
    let codec ← AudioCodec.fromToken name
    if clockRate = codec.clockRate ∧ channels.all (fun value => decide (0 < value)) then
      some ⟨pt, codec, clockRate, channels⟩
    else none
  | _ => none

/-- The payload type and the parameters of an `a=fmtp` line. -/
def parseFmtp (fmtp : Str) : Option (UInt8 × Str) := do
  let (ptText, params) ← splitAtWhitespace fmtp
  let pt ← parseU8 ptText
  return (pt, trim params)

/-- What the lines of audio sections say. -/
structure Audio where
  mediaPort : UInt16 := 0
  transport : MediaTransportKind := .rtpAvp
  payloadOrder : List UInt8 := []
  connection : Option Connection := none
  direction : MediaDirection := .sendRecv
  ptime : Option UInt16 := none
  rtpmaps : List RtpMap := []
  fmtps : List (UInt8 × Str) := []
  deriving DecidableEq

namespace Audio

/-- A payload type of an m= line; static ones resolve without a mapping. -/
def payload (audio : Audio) (pt : UInt8) : Audio :=
  { audio with
    payloadOrder := audio.payloadOrder ++ [pt]
    rtpmaps :=
      if pt = 0 then audio.rtpmaps ++ [⟨0, .pcmu, 8000, none⟩]
      else if pt = 8 then audio.rtpmaps ++ [⟨8, .pcma, 8000, none⟩]
      else audio.rtpmaps }

/-- An m= line of audio: `<media> <port> <proto> <fmt list>`. -/
def media (audio : Audio) (value : Str) : Audio :=
  let parts := splitWhitespace value
  let mediaPort := (parts[1]?.map fun port => (parseU16 port).getD 0).getD audio.mediaPort
  let transport := (parts[2]?.map fun proto : Str =>
    if (findSub "SAVP".toList (proto.map Char.toUpper)).isSome then MediaTransportKind.rtpSavp
    else .rtpAvp).getD audio.transport
  ((parts.drop 3).filterMap parseU8).foldl payload { audio with mediaPort, transport }

/-- An a= line of an audio section. -/
def attributeLine (audio : Audio) (value : Str) : Audio :=
  match stripPrefix "rtpmap:".toList value, stripPrefix "fmtp:".toList value,
    stripPrefix "ptime:".toList value with
  | some rtpmap, _, _ =>
    match parseRtpmap rtpmap with
    | some entry =>
      { audio with
        rtpmaps := (audio.rtpmaps.filter fun existing =>
          existing.payloadType != entry.payloadType) ++ [entry] }
    | none => audio
  | none, some fmtp, _ =>
    match parseFmtp fmtp with
    | some entry => { audio with fmtps := audio.fmtps ++ [entry] }
    | none => audio
  | none, none, some pt => { audio with ptime := parseU16 (trim pt) }
  | none, none, none =>
    match MediaDirection.fromToken (trim value) with
    | some found => { audio with direction := found }
    | none => audio

/-- The codecs, following the m= payload order. -/
def codecs (audio : Audio) : List SdpCodec :=
  audio.payloadOrder.filterMap fun pt =>
    (audio.rtpmaps.find? fun entry => entry.payloadType == pt).map fun entry =>
      { codec := entry.codec
        payloadType := pt
        clockRate := entry.clockRate
        channels := entry.channels
        fmtp := (audio.fmtps.find? fun fmtp => fmtp.1 == pt).map Prod.snd }

end Audio

/-- What the lines of a body say. -/
structure SdpState where
  originUsername : Str := "-".toList
  sessionId : UInt64 := 0
  sessionVersion : UInt64 := 0
  originConnection : Option Connection := none
  sessionConnection : Option Connection := none
  audio : Audio := {}
  inAudioMedia : Bool := false
  sawAudioMedia : Bool := false
  sawAnyMedia : Bool := false
  deriving DecidableEq

namespace SdpState

/-- An o= line. -/
def origin (state : SdpState) (value : Str) : SdpState :=
  match splitWhitespace value with
  | username :: id :: version :: _ :: addrType :: addr :: _ =>
    { state with
      originUsername := username
      sessionId := (parseU64 id).getD 0
      sessionVersion := (parseU64 version).getD 0
      originConnection := connectionOf [addrType, addr] }
  | _ => state

/-- A c= line. -/
def connection (state : SdpState) (value : Str) : SdpState :=
  match connectionOf (splitWhitespace value).tail with
  | none => state
  | some connection =>
    if !state.sawAnyMedia then { state with sessionConnection := some connection }
    else if state.inAudioMedia then
      { state with audio := { state.audio with connection := some connection } }
    else state

/-- An m= line. -/
def media (state : SdpState) (value : Str) : SdpState :=
  if (splitWhitespace value).head? = some "audio".toList then
    { state with
      sawAnyMedia := true
      inAudioMedia := true
      sawAudioMedia := true
      audio := state.audio.media value }
  else { state with sawAnyMedia := true, inAudioMedia := false }

/-- A line of a kind with a value. -/
def line (state : SdpState) (field : Str × Str) : SdpState :=
  if field.1 = ['o'] then state.origin field.2
  else if field.1 = ['c'] then state.connection field.2
  else if field.1 = ['m'] then state.media field.2
  else if field.1 = ['a'] ∧ state.inAudioMedia then
    { state with audio := state.audio.attributeLine field.2 }
  else state

/-- What is made of the lines. -/
def finish (state : SdpState) : Except VoiceEncodingError SdpAudioDescription :=
  if !state.sawAudioMedia then .error .noAudioMedia
  else
    let codecs := state.audio.codecs
    if codecs.isEmpty then .error .unsupportedCodec
    else
      match (state.audio.connection.or state.sessionConnection).or state.originConnection with
      | none => .error .sdpMalformed
      | some (addrType, connectionAddr) => .ok
        { sessionId := state.sessionId
          sessionVersion := state.sessionVersion
          originUsername := state.originUsername
          connectionAddr
          addrType
          mediaPort := state.audio.mediaPort
          transport := state.audio.transport
          codecs
          direction := state.audio.direction
          ptime := state.audio.ptime }

end SdpState

/-- The kind and the value of a line. -/
def fieldOfLine (line : Str) : Option (Str × Str) :=
  splitOnce '=' (trimEnd (trimEndMatches (· = '\r') line))

/-- The lines of a body that have a kind and a value. -/
def sdpFields (text : Str) : List (Str × Str) :=
  (splitBy (· = '\n') text).filterMap fieldOfLine

/-- Parse the audio media of an SDP body. -/
def parseAudioSdp (body : Bytes) : Except VoiceEncodingError SdpAudioDescription :=
  if body.isEmpty then .error .emptySdp
  else
    match fromUtf8 body with
    | none => .error .sdpMalformed
    | some text => ((sdpFields text).foldl SdpState.line {}).finish

end SimMaster.Voice
