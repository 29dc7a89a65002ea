import Mathlib

/-!
# What is known of a failed REGISTER

The summary of a failed exchange that the retry policy and the access adapters decide on. It says
what kind of failure the last send met, and what the registrar asked for.
-/

namespace SimMaster

/-- Why a `Retry-After` field cannot be used. -/
inductive RetryAfterInvalid where
  | headersTooLarge
  | tooManyHeaders
  | valueTooLarge
  | duplicate
  | syntaxError
  | overflow
  deriving DecidableEq, Repr

/-- The `Retry-After` of a response. An invalid field is not an absent one. -/
inductive RetryAfter where
  | absent
  | delaySeconds (seconds : UInt32)
  | invalid (reason : RetryAfterInvalid)
  deriving DecidableEq, Repr

/-- What came of the lease negotiation. -/
inductive RegisterMinExpiresFailure where
  | invalid
  | unsupported
  | exhausted
  /-- A valid floor was negotiated before a later status or error. -/
  | negotiated
  deriving DecidableEq, Repr

/-- The stage within the exchange. -/
inductive RegisterFailureStage where
  | initial
  /-- The challenge failed before the next send. -/
  | authentication
  | authenticated
  deriving DecidableEq, Repr

/-- The kind of a failure. -/
inductive RegisterFailureKind where
  /-- A final 408, 500, 502, 503 or 504. -/
  | temporaryEndpoint
  /-- No final result from this send. -/
  | transport
  /-- The outbound flow is known to be unusable. -/
  | flowFailed
  | identityRejected
  | authenticationRejected
  | negotiation
  | terminalResponse
  | localFailure
  deriving DecidableEq, Repr

/-- The summary of a failure. The status is the last one observed, not necessarily the result of
the last send. -/
structure RegisterFailureMetadata where
  sipStatus : Option ℕ
  stage : RegisterFailureStage
  kind : RegisterFailureKind
  retryAfter : RetryAfter
  minExpires : Option RegisterMinExpiresFailure
  deriving DecidableEq, Repr

/-- `RegisterFailureMetadata::is_temporary`. -/
def RegisterFailureMetadata.isTemporary (failure : RegisterFailureMetadata) : Bool :=
  failure.kind = .temporaryEndpoint ∨ failure.kind = .transport

end SimMaster
