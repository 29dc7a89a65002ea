import SimMaster.Clock
import SimMaster.Machine
import SimMaster.RegisterResponse

/-!
# Waiting for the answer to a REGISTER

`recv_final_register_response_loop` reads frames until it has the final answer to a request, and
over UDP repeats the request meanwhile. The channel is shared: a frame that does not belong to the
transaction is handed back to it. Every turn of the loop reads the clock and then the deadline is
over, the request is due again, or a frame is read with the time that is left.

A run is the loop on what the clock and the channel give turn by turn; the answers of the turns are
what is done to the channel.
-/

namespace SimMaster

open Rust Machine

namespace RegisterWait

/-- `REGISTER_T1`. -/
def t1 : Duration := Duration.fromMillis 500

/-- `REGISTER_T2`. -/
def t2 : Duration := Duration.fromSecs 4

/-- `REGISTER_TIMEOUT`. -/
def registerTimeout : Duration := Duration.fromSecs 32

/-- `MAX_REGISTER_IGNORED_FRAMES`. -/
def maxIgnoredFrames : ℕ := 32

/-- `MAX_REGISTER_PROVISIONAL_RESPONSES`. -/
def maxProvisionalResponses : ℕ := 4

/-! ## Errors -/

/-- `preserve_flow_error`. -/
def preserveFlowError (error : ImsError) (fallback : String) : ImsError :=
  if "ims_outbound_".toList.isPrefixOf error.code.toList ∨
      "cellular_ims_tls_".toList.isPrefixOf error.code.toList ∨
      error.code ∈ ["cellular_ims_channel_stream_frame_invalid",
        "cellular_ims_channel_stream_response_owner_missing",
        "cellular_ims_channel_stream_budget_exhausted"] then error
  else ⟨fallback⟩

/-- `is_register_read_retryable`. -/
def isRegisterReadRetryable (error : ImsError) : Bool :=
  error.code ∈ ["ims_channel_read_timeout", "cellular_ims_channel_read_timeout",
    "ims_register_read_timeout", "ims_channel_read_failed", "cellular_ims_channel_read_retryable"]

/-! ## The loop -/

/-- The arguments of the loop. -/
structure Exchange where
  retransmitRequest : Option Bytes
  expectedTransaction : Option RegisterTransactionKey
  sendError : Option String
  receiveError : String
  provisionalExhaustedError : String
  timeoutBudget : Duration
  /-- what the clock showed first -/
  begun : Instant

/-- One absolute budget for the whole transaction. -/
def Exchange.deadline (x : Exchange) : Instant := x.begun + x.timeoutBudget

/-- The exchange of `send_register_and_receive` once the request is sent; only over UDP is it
repeated. -/
def sendRegisterAndReceive (udp : Bool) (request : Bytes)
    (sendError receiveError provisionalExhaustedError : String) (begun : Instant) : Exchange where
  retransmitRequest := if udp then some request else none
  expectedTransaction := RegisterTransactionKey.fromRegisterRequest request
  sendError := some sendError
  receiveError
  provisionalExhaustedError
  timeoutBudget := registerTimeout
  begun

/-- What the clock and the channel give in one turn, as far as the turn asks for it. -/
structure Turn where
  now : Instant
  sent : Except ImsError Unit
  received : Except ImsError Bytes
  /-- the clock after a read that failed -/
  failedAt : Instant

/-- What is done to the channel, and how long the loop sleeps. -/
inductive Action where
  | sent (request : Bytes) (now : Instant)
  | read (now : Instant) (timeout : Duration)
  | received (frame : Bytes)
  | requeued (frame : Bytes)
  | slept (wait : Duration)
  deriving DecidableEq

/-- The variables of the loop, and its result once it is over. -/
structure State where
  retransmitInterval : Duration
  nextRetransmit : Instant
  provisionalCount : ℕ
  ignoredFrames : ℕ
  result : Option (Except ImsError Bytes)

/-- `u8::saturating_add`. -/
def saturatingSucc (n : ℕ) : ℕ := min (n + 1) 255

/-- Whether a frame belongs to the transaction. Without a key every response does. -/
def Exchange.expects (x : Exchange) (frame : Bytes) : Bool :=
  match x.expectedTransaction with
  | some expected => expected.matchesResponse frame
  | none => startsWith frame "SIP/2.0".toList

/-- A frame that was read. -/
def receive (x : Exchange) (s : State) (frame : Bytes) : List Action × State :=
  if ¬x.expects frame then
    let ignoredFrames := saturatingSucc s.ignoredFrames
    ([.requeued frame], { s with
      ignoredFrames
      result := if maxIgnoredFrames < ignoredFrames then some (.error ⟨x.receiveError⟩) else none })
  else
    match parseStatus frame with
    | .error error => ([], { s with result := some (.error error) })
    | .ok status =>
      if ¬(100 ≤ status ∧ status ≤ 199) then ([], { s with result := some (.ok frame) })
      else
        let provisionalCount := saturatingSucc s.provisionalCount
        ([], { s with
          provisionalCount
          result := if maxProvisionalResponses < provisionalCount then
              some (.error ⟨x.provisionalExhaustedError⟩)
            else none })

/-- The end of a read: over UDP the request is repeated, else the deadline. -/
def readUntil (x : Exchange) (s : State) : Instant :=
  if x.retransmitRequest.isSome then min x.deadline s.nextRetransmit else x.deadline

/-- One turn of the loop. -/
def turn (x : Exchange) (s : State) (t : Turn) : List Action × State :=
  if x.deadline ≤ t.now then ([], { s with result := some (.error ⟨x.receiveError⟩) })
  else
    match x.retransmitRequest.filter fun _ => s.nextRetransmit ≤ t.now with
    | some request =>
      match t.sent with
      | .error error => ([.sent request t.now], { s with
          result := some (.error (preserveFlowError error (x.sendError.getD x.receiveError))) })
      | .ok () =>
        let retransmitInterval := min (s.retransmitInterval * 2) t2
        ([.sent request t.now], { s with
          retransmitInterval
          nextRetransmit := t.now + retransmitInterval })
    | none =>
      let remaining := (readUntil x s).saturatingDurationSince t.now
      if remaining = 0 then ([], s)
      else
        match t.received with
        | .ok frame =>
          let (actions, s) := receive x s frame
          (.read t.now remaining :: .received frame :: actions, s)
        | .error error =>
          if x.retransmitRequest.isSome ∧ isRegisterReadRetryable error then
            let wait := (min x.deadline s.nextRetransmit).saturatingDurationSince t.failedAt
            (.read t.now remaining :: if wait = 0 then [] else [.slept wait], s)
          else
            ([.read t.now remaining],
              { s with result := some (.error (preserveFlowError error x.receiveError)) })

/-- A turn of a loop that may be over. -/
def step (x : Exchange) (s : State) (t : Turn) : List Action × State :=
  if s.result.isSome then ([], s) else turn x s t

/-- The loop when the clock shows `now` for the first repetition. -/
def start (now : Instant) : State := ⟨t1, now + t1, 0, 0, none⟩

end RegisterWait

end SimMaster
