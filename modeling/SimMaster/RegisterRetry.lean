import SimMaster.Clock
import SimMaster.IpAddr
import SimMaster.Machine
import SimMaster.RegisterFailure

/-!
# The REGISTER retry policy

The policy keeps, for every endpoint it was told about, when the endpoint may be tried again, and
three gates that hold back a new pass over all endpoints: the wait of the last exhausted pass, the
wait learned from a registration event and the wait learned from a deregistration. Every operation
is given the instant it runs at.

An answer of the policy is an *admission*. Admissions are compared by how long they hold the
caller back: an `Allowed` not at all, a `Deferred` until its instant, a `Stopped` for ever. So
`merge_admission` is the longer of its two arguments.
-/

open Rust

namespace SimMaster

/-- `canonical_endpoint`: one spelling for all spellings of an endpoint. -/
def canonicalEndpoint (endpoint : Rust.SocketAddr) : Rust.SocketAddr :=
  match endpoint with
  | .v6 groups port _ scopeId =>
    match Ipv6Addr.toIpv4Mapped groups with
    | some (a, b, c, d) => .v4 a b c d port
    | none => .v6 groups port 0 scopeId
  | endpoint => endpoint

/-! ## Admissions -/

/-- Why an endpoint is never tried again. -/
inductive RetryStopReason where
  | invalidRetryAfter
  | retryAfterTooLong
  | capacityExceeded
  | clockOverflow
  | ownershipUncertain
  deriving DecidableEq, Repr

/-- Whether the endpoint may be tried. -/
inductive RetryAdmission where
  | allowed
  | deferred (notBefore : Instant)
  /-- Only a new subscription may discard this latch. -/
  | stopped (reason : RetryStopReason)
  deriving DecidableEq, Repr

/-- `merge_admission`. -/
def mergeAdmission (first second : RetryAdmission) : RetryAdmission :=
  match first, second with
  | .stopped reason, _ => .stopped reason
  | _, .stopped reason => .stopped reason
  | .deferred old, .deferred new => .deferred (max old new)
  | .deferred old, .allowed => .deferred old
  | .allowed, .deferred new => .deferred new
  | .allowed, .allowed => .allowed

namespace RetryAdmission

/-- The wait is over. -/
def elapsed (admission : RetryAdmission) (now : Instant) : Bool :=
  match admission with
  | .deferred notBefore => notBefore ≤ now
  | _ => false

/-- The admission holds the caller back until `t`; until the end of time, only a `Stopped` does. -/
def WaitsUntil (t : WithTop Instant) : RetryAdmission → Prop
  | allowed => False
  | deferred notBefore => t ≤ notBefore
  | stopped _ => True

end RetryAdmission

/-! ## The state -/

def MAX_ENDPOINT_RETRY_ENTRIES : ℕ := 32
def MAX_ENDPOINT_RETRY_DELAY : Duration := .fromSecs 86400
def TEMPORARY_ENDPOINT_DELAY : Duration := .fromSecs 30
def TRANSPORT_RETRY_DELAY : Duration := .fromSecs 5
def MIN_ENDPOINT_RETRY_DELAY : Duration := .fromSecs 1

/-- What is known of one endpoint. -/
structure EndpointRetryEntry where
  endpoint : Rust.SocketAddr
  admission : RetryAdmission
  deriving DecidableEq

/-- The state of the policy. -/
structure EndpointRetryState where
  entries : List EndpointRetryEntry := []
  stopped : Option RetryStopReason := none
  restart : Option RetryAdmission := none
  registrationEventWait : Option RetryAdmission := none
  unregisterWait : Option RetryAdmission := none

/-- What is to be done about a refresh that failed. -/
inductive RefreshRetryDecision where
  | retryAfter (wait : Duration)
  /-- Wake to invalidate at the original expiry, never to send early or renew. -/
  | retainUntilExpiry (remaining : Duration)
  | invalidateBinding
  deriving DecidableEq, Repr

/-- `refresh_wait_decision`. -/
def refreshWaitDecision (admission : RetryAdmission) (now : Instant)
    (remainingOldLifetime : Duration) : Option RefreshRetryDecision :=
  if remainingOldLifetime = 0 then some .invalidateBinding
  else
    match admission with
    | .allowed => none
    | .deferred notBefore =>
      let wait := notBefore.saturatingDurationSince now
      if wait = 0 then none
      else if wait < remainingOldLifetime then some (.retryAfter wait)
      else some (.retainUntilExpiry remainingOldLifetime)
    | .stopped _ => some (.retainUntilExpiry remainingOldLifetime)

/-- The admission an entry keeps when another is recorded for its endpoint. -/
def mergeEntry (old new : RetryAdmission) : RetryAdmission :=
  match old, new with
  | .stopped reason, _ => .stopped reason
  | _, .stopped reason => .stopped reason
  | .deferred old, .deferred new => .deferred (max old new)
  | _, new => new

/-- Records an admission in the first entry of the endpoint, if there is one: the admission it
has now, with the entries. -/
def recordEntry (endpoint : Rust.SocketAddr) (admission : RetryAdmission) :
    List EndpointRetryEntry → Option (RetryAdmission × List EndpointRetryEntry)
  | [] => none
  | entry :: rest =>
    if entry.endpoint = endpoint then
      let merged := mergeEntry entry.admission admission
      some (merged, { entry with admission := merged } :: rest)
    else (recordEntry endpoint admission rest).map fun found => (found.1, entry :: found.2)

/-- A gate that is open again. -/
def clearElapsed (slot : Option RetryAdmission) (now : Instant) : Option RetryAdmission :=
  if slot.any fun admission => admission.elapsed now then none else slot

namespace EndpointRetryState

variable (s : EndpointRetryState) (endpoint : Rust.SocketAddr) (now : Instant)

def prune : EndpointRetryState :=
  { s with entries := s.entries.filter fun entry =>
      match entry.admission with
      | .deferred notBefore => now < notBefore
      | .stopped _ => true
      | .allowed => false }

def restartAdmission : RetryAdmission × EndpointRetryState :=
  let s := { s with
    restart := clearElapsed s.restart now
    registrationEventWait := clearElapsed s.registrationEventWait now
    unregisterWait := clearElapsed s.unregisterWait now }
  (mergeAdmission (mergeAdmission (s.restart.getD .allowed)
    (s.registrationEventWait.getD .allowed)) (s.unregisterWait.getD .allowed), s)

/-- `pause_restart`: a new pass waits for the first endpoint that may be tried again. -/
def pauseRestart : RetryAdmission × EndpointRetryState :=
  let s := s.prune now
  let waits := s.entries.filterMap fun entry =>
    match entry.admission with
    | .deferred notBefore => some notBefore
    | _ => none
  let admission := match s.stopped with
    | some reason => .stopped reason
    | none =>
      match waits.min? with
      | some notBefore => .deferred notBefore
      | none => (s.entries.head?.map (·.admission)).getD .allowed
  restartAdmission { s with restart := some admission } now

/-- `registered`: a success ends the pass. -/
def registered : EndpointRetryState := { s with restart := none }

def check : RetryAdmission × EndpointRetryState :=
  let endpoint := canonicalEndpoint endpoint
  let s := s.prune now
  match s.stopped with
  | some reason => (.stopped reason, s)
  | none =>
    (((s.entries.find? fun entry => entry.endpoint = endpoint).map (·.admission)).getD .allowed, s)

def record (admission : RetryAdmission) : RetryAdmission × EndpointRetryState :=
  let s := s.prune now
  match recordEntry endpoint admission s.entries with
  | some (merged, entries) => (merged, { s with entries })
  | none =>
    if MAX_ENDPOINT_RETRY_ENTRIES ≤ s.entries.length then
      (.stopped .capacityExceeded, { s with stopped := some .capacityExceeded })
    else (admission, { s with entries := s.entries ++ [{ endpoint, admission }] })

def deferDelay (delay : Duration) : RetryAdmission × EndpointRetryState :=
  let (current, s) := s.check endpoint now
  match current with
  | .stopped _ => (current, s)
  | _ =>
    if MAX_ENDPOINT_RETRY_DELAY < delay then
      s.record endpoint now (.stopped .retryAfterTooLong)
    else
      match now.checkedAdd (max delay MIN_ENDPOINT_RETRY_DELAY) with
      | none => (.stopped .clockOverflow, { s with stopped := some .clockOverflow })
      | some notBefore => s.record endpoint now (.deferred notBefore)

end EndpointRetryState

/-- What a failure asks for: nothing, to be waited for a time, or never to be retried. A saved
response is not a final response to a send that was lost. -/
def retryDelay (failure : RegisterFailureMetadata) : Option (Option Duration) :=
  match if failure.kind = .transport then .absent else failure.retryAfter with
  | .invalid _ => some none
  | .delaySeconds seconds => some (some (.fromSecs seconds.toNat))
  | .absent =>
    match failure.kind with
    | .temporaryEndpoint => some (some TEMPORARY_ENDPOINT_DELAY)
    | .transport => some (some TRANSPORT_RETRY_DELAY)
    | _ => none

/-- The delay a registration event asks for. -/
def eventDelay (retryAfterSeconds : Option UInt32) : Duration :=
  (retryAfterSeconds.map fun seconds => Duration.fromSecs seconds.toNat).getD
    TEMPORARY_ENDPOINT_DELAY

namespace EndpointRetryState

variable (s : EndpointRetryState) (endpoint : Rust.SocketAddr) (failure : RegisterFailureMetadata)
  (now : Instant)

def observeFailure : RetryAdmission × EndpointRetryState :=
  let endpoint := canonicalEndpoint endpoint
  let (current, s) := s.check endpoint now
  match current with
  | .stopped _ => (current, s)
  | _ =>
    match retryDelay failure with
    | some none => s.record endpoint now (.stopped .invalidRetryAfter)
    | some (some delay) => s.deferDelay endpoint now delay
    | none => (current, s)

def observeUnregisterFailure : RetryAdmission × EndpointRetryState :=
  let (admission, s) := s.observeFailure endpoint failure now
  let (previous, s) := s.restartAdmission now
  restartAdmission { s with unregisterWait := some (mergeAdmission previous admission) } now

def observeRegistrationEvent (retryAfterSeconds : Option UInt32) :
    RetryAdmission × EndpointRetryState :=
  let endpoint := canonicalEndpoint endpoint
  let (admission, s) := s.deferDelay endpoint now (eventDelay retryAfterSeconds)
  let (_, s) := s.restartAdmission now
  restartAdmission { s with
    registrationEventWait :=
      some (mergeAdmission (s.registrationEventWait.getD .allowed) admission) } now

def observeRefreshFailure (remainingOldLifetime : Duration) :
    RefreshRetryDecision × EndpointRetryState :=
  let (admission, s) := s.observeFailure endpoint failure now
  if !failure.isTemporary || remainingOldLifetime = 0 then (.invalidateBinding, s)
  else ((refreshWaitDecision admission now remainingOldLifetime).getD
    (.retainUntilExpiry remainingOldLifetime), s)

end EndpointRetryState

/-! ## Calls -/

/-- A call of the policy. -/
inductive RetryCall where
  | check (endpoint : Rust.SocketAddr) (now : Instant)
  | observeFailure (endpoint : Rust.SocketAddr) (failure : RegisterFailureMetadata) (now : Instant)
  | observeRefreshFailure (endpoint : Rust.SocketAddr) (failure : RegisterFailureMetadata)
      (now : Instant) (remainingOldLifetime : Duration)
  | observeUnregisterFailure (endpoint : Rust.SocketAddr) (failure : RegisterFailureMetadata)
      (now : Instant)
  | observeRegistrationEvent (endpoint : Rust.SocketAddr) (retryAfterSeconds : Option UInt32)
      (now : Instant)
  | pauseRestart (now : Instant)
  | restartAdmission (now : Instant)
  | registered

/-- An answer of the policy. -/
inductive RetryAnswer where
  | admission (admission : RetryAdmission)
  | decision (decision : RefreshRetryDecision)
  | done

namespace RetryCall

/-- The instant a call runs at. -/
def now? : RetryCall → Option Instant
  | check _ now => some now
  | observeFailure _ _ now => some now
  | observeRefreshFailure _ _ now _ => some now
  | observeUnregisterFailure _ _ now => some now
  | observeRegistrationEvent _ _ now => some now
  | pauseRestart now => some now
  | restartAdmission now => some now
  | registered => none

end RetryCall

/-- When a wait for a delay ends; no delay stands for a failure that must not be retried. -/
def askedWait (now : Instant) : Option Duration → WithTop Instant
  | none => ⊤
  | some delay =>
    if MAX_ENDPOINT_RETRY_DELAY < delay then ⊤
    else (now + max delay MIN_ENDPOINT_RETRY_DELAY : Instant)

namespace RetryCall

/-- The endpoint a call asks to wait for, with the end of the wait. -/
def asks : RetryCall → Option (Rust.SocketAddr × WithTop Instant)
  | observeFailure endpoint failure now
  | observeRefreshFailure endpoint failure now _
  | observeUnregisterFailure endpoint failure now =>
    (retryDelay failure).map fun delay => (endpoint, askedWait now delay)
  | observeRegistrationEvent endpoint retryAfterSeconds now =>
    some (endpoint, askedWait now (some (eventDelay retryAfterSeconds)))
  | _ => none

/-- The call's wait holds for all endpoints: a registration event or a deregistration taught
it. -/
def gatesRestart : RetryCall → Bool
  | observeUnregisterFailure _ _ _ | observeRegistrationEvent _ _ _ => true
  | _ => false

end RetryCall

/-- Runs one call. -/
def EndpointRetryState.step (s : EndpointRetryState) : RetryCall → RetryAnswer × EndpointRetryState
  | .check endpoint now => (s.check endpoint now).map .admission id
  | .observeFailure endpoint failure now =>
    (s.observeFailure endpoint failure now).map .admission id
  | .observeRefreshFailure endpoint failure now remaining =>
    (s.observeRefreshFailure endpoint failure now remaining).map .decision id
  | .observeUnregisterFailure endpoint failure now =>
    (s.observeUnregisterFailure endpoint failure now).map .admission id
  | .observeRegistrationEvent endpoint retryAfterSeconds now =>
    (s.observeRegistrationEvent endpoint now retryAfterSeconds).map .admission id
  | .pauseRestart now => (s.pauseRestart now).map .admission id
  | .restartAdmission now => (s.restartAdmission now).map .admission id
  | .registered => (.done, s.registered)

end SimMaster
