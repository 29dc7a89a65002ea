import SimMaster.Clock
import SimMaster.Machine
import SimMaster.RegisterResponse
import SimMaster.Stun

/-!
# Outbound flows

The client side of the outbound procedure: a lease on the registered binding and the keepalive
probes that prove the flow under it. A lease is live until it expires or fails, and proven while an
acknowledged probe (or a path observed without NAT) vouches for it. The flow holds at most one lease
and at most one outstanding probe.

Operations that read the clock take the instant they read, those that draw a probe interval take the
interval, and `poll` takes what the random generator filled in. The coordinator of the line appears
as the reports it is sent; `attached` says whether its weak reference is to the lease of this flow.
-/

namespace SimMaster

open Rust

inductive ImsAccess where
  | cellular
  | wlan
  deriving DecidableEq

def ImsAccess.regId : ImsAccess → ℕ
  | .cellular => 1
  | .wlan => 2

def PONG_TIMEOUT : Duration := .fromSecs 10
def STUN_RTO : Duration := .fromMillis 500
def STUN_TIMEOUT : Duration := .fromSecs 8

/-! ## Leases -/

structure FlowLease where
  inst : Str
  expires : Instant
  offered : Bool
  negotiated : Bool
  healthy : Bool
  healthyUntil : Instant
  failed : Bool
  deriving DecidableEq

/-- Safe API evidence. -/
structure FlowLeaseStatus where
  bindingLive : Bool
  outboundOffered : Bool
  outboundNegotiated : Bool
  transportValidated : Bool
  expiresInSeconds : ℕ
  deriving DecidableEq

namespace FlowLease

def status (s : FlowLease) (now : Instant) : FlowLeaseStatus :=
  let bindingLive := !s.failed && now < s.expires
  { bindingLive := bindingLive
    outboundOffered := s.offered
    outboundNegotiated := bindingLive && s.negotiated
    transportValidated := bindingLive && s.negotiated && s.healthy && now < s.healthyUntil
    expiresInSeconds := s.expires.saturatingDurationSince now / 1000000000 }

def proven (s : FlowLease) (now : Instant) : Bool :=
  s.negotiated && s.healthy && !s.failed && now < s.expires && now < s.healthyUntil

def invalidate (s : FlowLease) : FlowLease := { s with failed := true, healthy := false }

def live (s : FlowLease) (now : Instant) : Bool := !s.failed && now < s.expires

def acknowledge (s : FlowLease) (healthyUntil : Instant) : FlowLease :=
  { s with healthy := true, healthyUntil := healthyUntil }

/-- A failed lease is neither live nor proven, at any time. -/
theorem dead_of_failed {s : FlowLease} (h : s.failed) (now : Instant) :
    s.live now = false ∧ s.proven now = false := by
  simp [live, proven, h]

end FlowLease

/-! ## Flows -/

structure Offer where
  access : ImsAccess
  inst : Str
  deriving DecidableEq

structure PendingProbe where
  id : Bytes
  packet : Bytes
  deadline : Instant
  retransmits : ℕ
  timeoutAt : Instant
  deriving DecidableEq

/-- What the coordinator of the line is told. -/
inductive LineReport where
  | observeResponse (requireOutbound : Bool) (flowTimerSeconds : Option ℕ)
  | rejectOutbound
  | invalidateOutboundFlows
  | attachFlow
  | flowHealthy
  | flowFailed
  deriving DecidableEq

structure OutboundFlow where
  offer : Option Offer
  lastRequest : Option Bytes
  lease : Option FlowLease
  tcp : Bool
  timer : Option ℕ
  nextProbe : Option Instant
  pending : Option PendingProbe
  mapped : Option Rust.SocketAddr
  failureReported : Bool
  noNat : Bool
  /-- The coordinator's weak reference for this access is to the lease held here. -/
  attached : Bool
  /-- The leases let go of: an `Arc` may outlive the flow's hold on it. -/
  retired : List FlowLease
  reports : List LineReport
  deriving DecidableEq

/-- `has_option`: a list header names the option; `Supported` has a compact form. -/
def hasOption (frame : Bytes) (header token : Str) : Bool :=
  let values := headerValues frame header ++
    if eqIgnoreAsciiCase header "Supported".toList then headerValues frame "k".toList else []
  (values.flatMap (splitBy (· = ','))).any fun v => eqIgnoreAsciiCase (trim v) token

namespace OutboundFlow

/-- A flow that is configured and has sent nothing. -/
def new (offer : Option Offer) (noNat : Bool) : OutboundFlow :=
  { offer := offer, lastRequest := none, lease := none, tcp := false, timer := none,
    nextProbe := none, pending := none, mapped := none, failureReported := false, noNat := noNat,
    attached := false, retired := [], reports := [] }

variable (f : OutboundFlow)

def report (report : LineReport) : OutboundFlow := { f with reports := f.reports ++ [report] }

/-- `PONG_TIMEOUT` over TCP, `STUN_TIMEOUT` over UDP. -/
def probeTimeout (tcp : Bool) : Duration := if tcp then PONG_TIMEOUT else STUN_TIMEOUT

/-- `FlowLease::invalidate` on the lease held. -/
def invalidate : OutboundFlow := { f with lease := f.lease.map FlowLease.invalidate }

def deadline : Option Instant := (f.pending.map PendingProbe.deadline).or f.nextProbe

def disable : OutboundFlow :=
  { f with
    lease := none
    retired := f.retired ++ (f.lease.map FlowLease.invalidate).toList
    pending := none
    nextProbe := none
    mapped := none }

def fail (code : String) : ImsError × OutboundFlow :=
  let f := f.invalidate
  if f.failureReported then (⟨code⟩, f)
  else
    let f := if f.offer.isSome then f.report .flowFailed else f
    (⟨code⟩, { f with failureReported := true })

/-! ### Registration -/

/-- The artifacts `registered` works with: those of our own binding once outbound is required. -/
def artifactsOf (offer : Offer) (request response : Bytes) : RegisterArtifacts :=
  let outboundRequired := hasOption request "Require".toList "outbound".toList ||
    hasOption response "Require".toList "outbound".toList
  let artifacts := RegisterArtifacts.parse response
  if hasOption request "Supported".toList "outbound".toList then
    let binding := RegisterArtifacts.parseForBinding response offer.inst offer.access.regId
    if outboundRequired then binding
    else { artifacts with ownBindingFound := binding.ownBindingFound }
  else artifacts

/-- The lease a refresh extends: the one held, else a new one. -/
def leaseOrNew (offer : Offer) (offered : Bool) (now : Instant) : FlowLease :=
  f.lease.getD
    { inst := offer.inst, expires := now, offered := offered, negotiated := false,
      healthy := false, healthyUntil := now, failed := false }

/-- The probes after a REGISTER that was accepted: none on a path without NAT whose registrar asks
for no timer, none without outbound; else the outstanding or scheduled probe stays, and a flow
without one probes at once. -/
def scheduleProbes (negotiated : Bool) (expires : Duration) (now : Instant) : OutboundFlow :=
  if negotiated && !f.tcp && f.noNat && f.timer.isNone then
    { f with
      nextProbe := none
      pending := none
      lease := f.lease.map (FlowLease.acknowledge · (now + expires)) }.report .flowHealthy
  else if negotiated then
    if f.nextProbe.isNone && f.pending.isNone then { f with nextProbe := some now } else f
  else { f with nextProbe := none, pending := none }

/-- The lease for an accepted answer with a positive lifetime. -/
def acceptLease (offer : Offer) (offered negotiated tcp : Bool) (timer : Option ℕ)
    (expires : Duration) (now : Instant) : Except ImsError Unit × OutboundFlow :=
  let lease := f.leaseOrNew offer offered now
  -- a refresh does not turn a failed flow back into a healthy flow
  if lease.failed then (.error ⟨"ims_outbound_flow_failed"⟩, { f with lease := some lease })
  else
    let lease :=
      { lease with expires := now + expires, offered := offered, negotiated := negotiated }
    let f := { f with lease := some lease, attached := true }.report .attachFlow
    (.ok (), { f with tcp := tcp, timer := timer }.scheduleProbes negotiated expires now)

/-- Called only after the REGISTER driver has accepted its matching 200. -/
def registered (response : Bytes) (tcp : Bool) (defaultExpires : ℕ) (now : Instant) :
    Except ImsError RegisterArtifacts × OutboundFlow :=
  match f.offer, f.lastRequest with
  | some offer, some request =>
    if !(RegisterTransactionKey.fromRegisterRequest request).any (·.matchesResponse response) ||
        (parseStatus response).toOption ≠ some 200 then
      (.error ⟨"ims_outbound_register_response_mismatch"⟩, f)
    else
      let offered := hasOption request "Supported".toList "outbound".toList
      let artifacts := artifactsOf offer request response
      let f := f.report
        (.observeResponse artifacts.outboundRequired artifacts.flowTimerSeconds)
      let negotiated := offered && artifacts.outboundRequired && artifacts.firstHopOutbound &&
        artifacts.ownBindingFound
      if (hasOption request "Require".toList "outbound".toList || artifacts.outboundRequired) &&
          !negotiated then
        let f := (f.report .rejectOutbound).report .invalidateOutboundFlows
        (.error ⟨"ims_outbound_negotiation_lost"⟩, if f.attached then f.invalidate else f)
      else
        let expires := artifacts.expiresSeconds.getD defaultExpires
        if expires = 0 then (.ok artifacts, f.disable)
        else
          let (accepted, f) := f.acceptLease offer offered negotiated tcp
            artifacts.flowTimerSeconds (.fromSecs expires) now
          (accepted.map fun _ => artifacts, f)
  | _, _ => (.ok (RegisterArtifacts.parse response), f)

/-! ### Probes -/

/-- A new probe with the transaction the generator filled in. -/
def startProbe (id : Bytes) (now : Instant) : Bytes × OutboundFlow :=
  let packet := if f.tcp then [0x0d, 0x0a, 0x0d, 0x0a] else bindingRequest id
  (packet,
    { f with
      pending := some
        { id := id, packet := packet, retransmits := 0,
          deadline := now + if f.tcp then PONG_TIMEOUT else STUN_RTO,
          timeoutAt := now + if f.tcp then PONG_TIMEOUT else STUN_TIMEOUT }
      nextProbe := none })

/-- An outstanding probe at its deadline: once more, or the flow has failed. -/
def pollPending (pending : PendingProbe) (now : Instant) :
    Except ImsError (Option Bytes) × OutboundFlow :=
  if now < pending.deadline then (.ok none, f)
  else if f.tcp || pending.timeoutAt ≤ now then
    let (e, f) := f.fail "ims_outbound_keepalive_timeout"
    (.error e, f)
  else if 7 ≤ pending.retransmits then
    (.ok none, { f with pending := some { pending with deadline := pending.timeoutAt } })
  else
    let retransmits := pending.retransmits + 1
    let deadline :=
      if retransmits = 7 then pending.timeoutAt else min (now + STUN_RTO * 2) pending.timeoutAt
    (.ok (some pending.packet),
      { f with
        pending := some { pending with retransmits := retransmits, deadline := deadline } })

/-- Channels send the packet of the answer on their original SIP socket. -/
def poll (now : Instant) (random : Option Bytes) : Except ImsError (Option Bytes) × OutboundFlow :=
  if f.lease.any FlowLease.failed then (.error ⟨"ims_outbound_flow_failed"⟩, f)
  else match f.pending with
    | some pending => f.pollPending pending now
    | none =>
      if f.nextProbe.all (now < ·) then (.ok none, f)
      else match random with
        | none => (.error ⟨"ims_outbound_random_failed"⟩, f)
        | some id =>
          let (packet, f) := f.startProbe id now
          (.ok (some packet), f)

/-- The next probe is an interval after the last one was sent; the lease is proven until that
probe has timed out. -/
def acknowledged (now : Instant) (interval : Duration) : OutboundFlow :=
  let timeout := probeTimeout f.tcp
  let next := match f.pending with
    | some p => max (p.timeoutAt + interval - timeout) now
    | none => now + interval
  let f := { f with
    pending := none
    lease := f.lease.map (FlowLease.acknowledge · (next + timeout))
    nextProbe := some next }
  if f.offer.isSome then f.report .flowHealthy else f

def pong (now : Instant) (interval : Duration) : OutboundFlow :=
  if f.tcp && f.pending.isSome then f.acknowledged now interval else f

/-- True for a STUN datagram even if malformed or unmatched. -/
def receiveStun (packet : Bytes) (now : Instant) (interval : Duration) :
    Except ImsError Bool × OutboundFlow :=
  if packet.head?.all (· &&& 0xc0 ≠ 0) then (.ok false, f)
  else if packet.all fun byte => byte = 0x0d || byte = 0x0a then (.ok false, f)
  else match f.pending with
    | none => (.ok true, f)
    | some pending =>
      if f.tcp then (.ok true, f)
      else match bindingResponse packet pending.id with
        | .ignore => (.ok true, f)
        | .error =>
          let (e, f) := f.fail "ims_outbound_stun_error"
          (.error e, f)
        | .mapped addr =>
          if f.mapped.any (· ≠ addr) then
            let (e, f) := f.fail "ims_outbound_mapping_changed"
            (.error e, f)
          else (.ok true, { f with mapped := some addr }.acknowledged now interval)

end OutboundFlow

/-! ## Runs -/

/-- What happens to a flow. -/
inductive FlowCall where
  /-- `prepare` has put together the REGISTER to send. -/
  | prepared (request : Bytes)
  /-- `received_sip` has observed the path. -/
  | observed (noNat : Bool)
  | registered (response : Bytes) (tcp : Bool) (defaultExpires : ℕ) (now : Instant)
  | poll (now : Instant) (random : Option Bytes)
  | pong (now : Instant) (interval : Duration)
  | receiveStun (packet : Bytes) (now : Instant) (interval : Duration)
  | fail (code : String)
  | disable
  /-- The coordinator invalidates the flows of the line. -/
  | invalidate
  /-- Another flow of the access has become the coordinator's. -/
  | superseded

inductive FlowAnswer where
  | done
  | artifacts (artifacts : RegisterArtifacts)
  | sent (packet : Option Bytes)
  | stun (seen : Bool)
  | error (e : ImsError)
  deriving DecidableEq

/-- The answer of a fallible operation. -/
def FlowAnswer.ofResult {α : Type} (ok : α → FlowAnswer) : Except ImsError α → FlowAnswer
  | .ok a => ok a
  | .error e => .error e

namespace FlowCall

/-- The instant a call reads. -/
def now? : FlowCall → Option Instant
  | .registered _ _ _ now | .poll now _ | .pong now _ | .receiveStun _ now _ => some now
  | _ => none

end FlowCall

def OutboundFlow.step (f : OutboundFlow) : FlowCall → FlowAnswer × OutboundFlow
  | .prepared request => (.done, { f with lastRequest := some request })
  | .observed noNat => (.done, { f with noNat := noNat })
  | .registered response tcp defaultExpires now =>
    (f.registered response tcp defaultExpires now).map (.ofResult .artifacts) id
  | .poll now random => (f.poll now random).map (.ofResult .sent) id
  | .pong now interval => (.done, f.pong now interval)
  | .receiveStun packet now interval =>
    (f.receiveStun packet now interval).map (.ofResult .stun) id
  | .fail code => (f.fail code).map .error id
  | .disable => (.done, f.disable)
  | .invalidate => (.done, f.invalidate)
  | .superseded => (.done, { f with attached := false })

end SimMaster
