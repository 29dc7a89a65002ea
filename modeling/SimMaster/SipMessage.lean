import SimMaster.IpAddr

/-!
# SIP requests

The request builder shared by all access legs: request line, Via, dialog identifiers, the given
headers in order, and a body of the announced length.
-/

namespace SimMaster

open Rust

/-- The transports of a SIP channel. -/
inductive SipTransport where
  | udp
  | tcp
  | tls
  deriving DecidableEq, Repr

/-- The protocol of a Via. -/
def SipTransport.asVia : SipTransport → Str
  | udp => "SIP/2.0/UDP".toList
  | tcp => "SIP/2.0/TCP".toList
  | tls => "SIP/2.0/TLS".toList

/-- An address with its port. -/
structure SocketAddr where
  ip : IpAddr
  port : UInt16
  deriving DecidableEq

/-- Local and P-CSCF addressing for one protected SIP channel. -/
structure ImsRoute where
  localAddr : SocketAddr
  pcscfAddr : SocketAddr
  transport : SipTransport
  deriving DecidableEq

/-- Bare IPv4, bracketed IPv6. -/
def sipHost : IpAddr → Str
  | .v4 a b c d => formatIpv4 a.toNat b.toNat c.toNat d.toNat
  | .v6 groups => ['['] ++ formatIpv6 (groups.toList.map UInt16.toNat) ++ [']']

/-- A field that the caller adds. -/
structure SipHeader where
  name : Str
  value : Str
  deriving DecidableEq

/-- The parts of a request. -/
structure SipRequest where
  method : Str
  requestUri : Str
  route : ImsRoute
  branch : Str
  fromUri : Str
  fromTag : Str
  toValue : Str
  callId : Str
  cseq : ℕ
  headers : List SipHeader
  body : Bytes

/-- A line end of SIP. -/
def crlf : Str := ['\r', '\n']

/-- `build`: the text of the request, and its body. -/
def SipRequest.build (request : SipRequest) : Bytes :=
  let text := request.method ++ " ".toList ++ request.requestUri ++ " SIP/2.0".toList ++ crlf ++
    "Via: ".toList ++ request.route.transport.asVia ++ " ".toList ++
      sipHost request.route.localAddr.ip ++ ":".toList ++
      decimal request.route.localAddr.port.toNat ++ ";branch=".toList ++ request.branch ++
      ";rport".toList ++ crlf ++
    "Max-Forwards: 70".toList ++ crlf ++
    "From: <".toList ++ request.fromUri ++ ">;tag=".toList ++ request.fromTag ++ crlf ++
    "To: ".toList ++ request.toValue ++ crlf ++
    "Call-ID: ".toList ++ request.callId ++ crlf ++
    "CSeq: ".toList ++ decimal request.cseq ++ " ".toList ++ request.method ++ crlf ++
    request.headers.flatMap (fun header => header.name ++ ": ".toList ++ header.value ++ crlf) ++
    "Content-Length: ".toList ++ decimal request.body.length ++ crlf ++ crlf
  asBytes text ++ request.body

end SimMaster
