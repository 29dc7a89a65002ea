import SimMaster.Machine
import SimMaster.Method
import SimMaster.Octets
import SimMaster.SipHeaders
import SimMaster.TrunkOperator

/-!
# Transfers

A REFER asks the other side to call somebody else. The final response to it accepts the transfer,
and NOTIFY requests of the subscription that comes with it report how the transfer goes; either may
arrive first. `DialogTransfer` follows one such subscription.

Where the response arrives among the notifications makes no difference to the state in the end
(`run_events`), but a response behind a notification is refused, so a delivery is in order just when
the response comes first or after the end of the transfer (`ordered_iff`).
-/

namespace SimMaster

open Rust List Machine

/-- Everything after the header terminator. -/
def body (frame : Bytes) : Bytes :=
  match findHeaderEnd frame with
  | some offset => frame.drop offset
  | none => []

namespace Trunk

def DialogTransferState.isTerminal : DialogTransferState → Bool
  | .succeeded | .failed => true
  | _ => false

end Trunk

namespace Refer

open Trunk

/-! ## The state machine -/

structure DialogTransfer where
  state : DialogTransferState := .pending
  expectedEventId : Option ℕ := none
  deriving DecidableEq

namespace DialogTransfer

def forReferCseq (cseq : ℕ) : DialogTransfer where
  expectedEventId := some cseq

/-- The response to REFER. -/
def onReferResponse (transfer : DialogTransfer) (status : ℕ) :
    Except ImsError Unit × DialogTransfer :=
  if transfer.state ≠ .pending then (.error ⟨"ims_refer_response_unexpected"⟩, transfer)
  else if 100 ≤ status ∧ status ≤ 199 then (.ok (), transfer)
  else if 200 ≤ status ∧ status ≤ 299 then (.ok (), { transfer with state := .accepted })
  else if 300 ≤ status ∧ status ≤ 699 then (.ok (), { transfer with state := .failed })
  else (.error ⟨"ims_refer_response_status_invalid"⟩, transfer)

def onNotify (transfer : DialogTransfer) (notification : ReferNotification) :
    Except ImsError Unit × DialogTransfer :=
  if transfer.expectedEventId.isSome ∧ notification.eventId.isSome ∧
      transfer.expectedEventId ≠ notification.eventId then
    (.error ⟨"ims_refer_notify_event_id_mismatch"⟩, transfer)
  else if transfer.state.isTerminal then
    (.error ⟨"ims_refer_notify_after_terminal"⟩, transfer)
  else
    -- a NOTIFY before the response shows that the subscription was accepted
    let transfer := if transfer.state = .pending then { transfer with state :=
      .accepted } else transfer
    (.ok (), { transfer with state := notification.transferState })

end DialogTransfer

/-- What reaches a transfer. -/
inductive Event where
  | response (status : ℕ)
  | notify (notification : ReferNotification)

def DialogTransfer.step (transfer : DialogTransfer) : Event → Except ImsError Unit × DialogTransfer
  | .response status => transfer.onReferResponse status
  | .notify notification => transfer.onNotify notification

/-- The event is a NOTIFY that reports how the transfer ended. -/
def Event.isTerminal : Event → Bool
  | .response _ => false
  | .notify notification => notification.transferState.isTerminal

/-! ## Reading a NOTIFY -/

/-- The piece of a header value before the first semicolon. -/
def firstPiece (value : Str) : Str := trim ((splitBy (· = ';') value).head?.getD [])

/-- The id among the parameters of the event; `eventId` is the one read so far. -/
def readEventId : Option ℕ → List Str → Except ImsError (Option ℕ)
  | eventId, [] => .ok eventId
  | eventId, parameter :: rest =>
    match splitOnce '=' (trim parameter) with
    | none => readEventId eventId rest
    | some (name, value) =>
      if eqIgnoreAsciiCase (trim name) "id".toList then
        match parseUnsigned u32Max (trim value) with
        | none => .error ⟨"ims_refer_notify_event_id_invalid"⟩
        | some parsed =>
          if eventId.isSome then .error ⟨"ims_refer_notify_event_id_invalid"⟩
          else readEventId (some parsed) rest
      else readEventId eventId rest

def readSubscriptionState (value : Str) : Option ReferSubscriptionState :=
  let state := toAsciiLowercase (firstPiece value)
  if state = "pending".toList then some .pending
  else if state = "active".toList then some .active
  else if state = "terminated".toList then some .terminated
  else none

/-- The status in the first line of the body. -/
def sipfragStatus (text : Str) : Option ℕ := do
  let line ← (lines text).head?
  let remainder ← stripPrefix "SIP/2.0 ".toList (trim line)
  let value ← (splitWhitespace remainder).head?
  let status ← parseUnsigned u16Max value
  if 100 ≤ status ∧ status ≤ 699 then some status else none

def transferStateOf (status : ℕ) : DialogTransferState :=
  if 100 ≤ status ∧ status ≤ 199 then .trying
  else if 200 ≤ status ∧ status ≤ 299 then .succeeded
  else .failed

def isSipfrag (contentType : Str) : Bool :=
  let media := toAsciiLowercase (firstPiece contentType)
  media = "message/sipfrag".toList || media = "application/sipfrag".toList

/-- One refer-event NOTIFY and its progress body. -/
def parseReferNotify (frame : Bytes) : Except ImsError ReferNotification := do
  if !isRequest frame "NOTIFY".toList then throw ⟨"ims_refer_notify_request_required"⟩
  let event ← okOr ⟨"ims_refer_notify_event_missing"⟩ (headerValue frame "Event".toList)
  if !eqIgnoreAsciiCase (firstPiece event) "refer".toList then
    throw ⟨"ims_refer_notify_event_invalid"⟩
  let eventId ← readEventId none ((splitBy (· = ';') event).drop 1)
  let contentType ← okOr ⟨"ims_refer_notify_content_type_missing"⟩
    (headerValue frame "Content-Type".toList)
  if !isSipfrag contentType then throw ⟨"ims_refer_notify_content_type_invalid"⟩
  let subscription ← okOr ⟨"ims_refer_subscription_state_missing"⟩
    (headerValue frame "Subscription-State".toList)
  let subscriptionState ← okOr ⟨"ims_refer_subscription_state_invalid"⟩
    (readSubscriptionState subscription)
  let text ← okOr ⟨"ims_refer_sipfrag_not_utf8"⟩ (fromUtf8 (body frame))
  let status ← okOr ⟨"ims_refer_sipfrag_status_invalid"⟩ (sipfragStatus text)
  if subscriptionState = .terminated ∧ transferStateOf status = .trying then
    throw ⟨"ims_refer_terminated_without_final_status"⟩
  return ⟨subscriptionState, status, transferStateOf status, eventId⟩

/-- A parsed notification reports progress or an end. -/
theorem transferState_of_parse {frame : Bytes} {notification : ReferNotification}
    (h : parseReferNotify frame = .ok notification) :
    notification.transferState = transferStateOf notification.sipStatus := by
  obtain ⟨-, h⟩ := Method.guard_eq_ok h
  obtain ⟨event, -, h⟩ := bind_eq_ok.mp h
  obtain ⟨-, h⟩ := Method.guard_eq_ok h
  obtain ⟨eventId, -, h⟩ := bind_eq_ok.mp h
  obtain ⟨contentType, -, h⟩ := bind_eq_ok.mp h
  obtain ⟨-, h⟩ := Method.guard_eq_ok h
  obtain ⟨subscription, -, h⟩ := bind_eq_ok.mp h
  obtain ⟨subscriptionState, -, h⟩ := bind_eq_ok.mp h
  obtain ⟨text, -, h⟩ := bind_eq_ok.mp h
  obtain ⟨status, -, h⟩ := bind_eq_ok.mp h
  obtain ⟨-, h⟩ := Method.guard_eq_ok h
  obtain rfl := Except.ok.inj h
  rfl

theorem transferStateOf_ne_pending (status : ℕ) : transferStateOf status ≠ .pending := by
  rw [transferStateOf]
  split_ifs <;> decide

/-! ## Deliveries -/

/-- A NOTIFY of the subscription of the REFER with this number. -/
structure Notify (cseq : ℕ) where
  frame : Bytes
  notification : ReferNotification
  parsed : parseReferNotify frame = .ok notification
  ofSubscription : notification.eventId = none ∨ notification.eventId = some cseq

/-- The notifications of a transfer in their order, and how many of them come before the response
that accepts it. -/
structure Delivery (cseq : ℕ) where
  notifies : List (Notify cseq)
  status : ℕ
  success : 200 ≤ status ∧ status ≤ 299
  position : ℕ
  position_le : position ≤ notifies.length

variable {cseq : ℕ}

def Notify.event (n : Notify cseq) : Event := .notify n.notification

/-- What reaches the transfer when `position` notifications come before the response. -/
def Delivery.events (d : Delivery cseq) (position : ℕ) : List Event :=
  (d.notifies.take position).map Notify.event ++
    .response d.status :: (d.notifies.drop position).map Notify.event

/-- The state after some events. -/
def after (cseq : ℕ) (events : List Event) : DialogTransfer :=
  Machine.run DialogTransfer.step (.forReferCseq cseq) events

/-- The order in which the response and the notifications arrive does not matter. -/
structure Ordered (d : Delivery cseq) : Prop where
  /-- No call is rejected up to the first notification that ends the transfer. -/
  accepted : ∀ front event back, d.events d.position = front ++ event :: back →
    (∀ e ∈ front, e.isTerminal = false) → ((after cseq front).step event).1 = .ok ()
  /-- The transfer ends in one state for all positions of the response. -/
  final : ∀ position ≤ d.notifies.length,
    after cseq (d.events position) = after cseq (d.events d.position)
  /-- Nothing changes the state of a transfer that has ended. -/
  absorbed : ∀ front back, (after cseq front).state.isTerminal = true →
    (after cseq (front ++ back)).state = (after cseq front).state

/-! ## One event -/

variable (n : Notify cseq)

theorem Notify.state_ne_pending : n.notification.transferState ≠ .pending := by
  rw [transferState_of_parse n.parsed]
  exact transferStateOf_ne_pending _

/-- A transfer of the subscription, in a state. -/
def inState (cseq : ℕ) (state : DialogTransferState) : DialogTransfer := ⟨state, some cseq⟩

variable {transfer : DialogTransfer}

theorem step_terminal (h : transfer.state.isTerminal = true)
    (event : Event) : (transfer.step event).2 = transfer := by
  have hpending : transfer.state ≠ .pending := by
    intro heq
    rw [heq] at h
    cases h
  cases event with
  | response status => rw [DialogTransfer.step, DialogTransfer.onReferResponse, if_pos hpending]
  | notify notification =>
    rw [DialogTransfer.step, DialogTransfer.onNotify, if_pos h]
    split <;> rfl

variable {state : DialogTransferState}

theorem step_notify (h : state.isTerminal = false) :
    (inState cseq state).step n.event = (.ok (), inState cseq n.notification.transferState) := by
  have hid : ¬((inState cseq state).expectedEventId.isSome ∧ n.notification.eventId.isSome ∧
      (inState cseq state).expectedEventId ≠ n.notification.eventId) := by
    rintro ⟨-, hsome, hne⟩
    rcases n.ofSubscription with hnone | heq
    · rw [hnone] at hsome
      cases hsome
    · exact hne heq.symm
  have hlive : ¬(inState cseq state).state.isTerminal = true := by
    rw [inState, h]
    decide
  rw [Notify.event, DialogTransfer.step, DialogTransfer.onNotify, if_neg hid, if_neg hlive]
  cases state <;> rfl

theorem step_response_pending {status : ℕ} (h : 200 ≤ status ∧ status ≤ 299) :
    (inState cseq .pending).step (.response status) = (.ok (), inState cseq .accepted) := by
  have hpending : ¬(inState cseq .pending).state ≠ .pending := fun hne => hne rfl
  rw [DialogTransfer.step, DialogTransfer.onReferResponse, if_neg hpending, if_neg (by omega),
    if_pos h]
  rfl

/-- A response that comes late is refused. -/
theorem step_response_late (h : transfer.state ≠ .pending) (status : ℕ) :
    transfer.step (.response status) = (.error ⟨"ims_refer_response_unexpected"⟩, transfer) := by
  rw [DialogTransfer.step, DialogTransfer.onReferResponse, if_pos h]

/-! ## Whole deliveries -/

theorem run_terminal (h : transfer.state.isTerminal = true)
    (events : List Event) : run DialogTransfer.step transfer events = transfer := by
  induction events with
  | nil => rfl
  | cons event events ih => rw [run_cons, step_terminal h, ih]

/-- The state that notifications lead to from another one. -/
def reported : DialogTransferState → List (Notify cseq) → DialogTransferState
  | state, [] => state
  | state, n :: rest =>
    if state.isTerminal then state else reported n.notification.transferState rest

theorem run_notifies (state : DialogTransferState) (notifies : List (Notify cseq)) :
    run DialogTransfer.step (inState cseq state) (notifies.map Notify.event) =
      inState cseq (reported state notifies) := by
  induction notifies generalizing state with
  | nil => rfl
  | cons n rest ih =>
    rw [reported]
    split
    case isTrue h => exact run_terminal h _
    case isFalse h =>
      rw [map_cons, run_cons, step_notify n (Bool.eq_false_iff.mpr h), ih]

theorem reported_append (state : DialogTransferState) (front back : List (Notify cseq)) :
    reported state (front ++ back) = reported (reported state front) back := by
  induction front generalizing state with
  | nil => rfl
  | cons n front ih =>
    rw [cons_append, reported, reported]
    split
    case isTrue h => cases back <;> simp [reported, h]
    case isFalse => exact ih _

/-- Only the start of a transfer is pending. -/
theorem reported_ne_pending (rest : List (Notify cseq)) :
    (inState cseq (reported .pending (n :: rest))).state ≠ .pending := by
  change reported n.notification.transferState rest ≠ .pending
  induction rest generalizing n with
  | nil => exact n.state_ne_pending
  | cons m rest ih =>
    rw [reported]
    split
    · exact n.state_ne_pending
    · exact ih m

/-- **The end of a transfer.** It does not depend on where the response arrives. -/
theorem run_events (d : Delivery cseq) (position : ℕ) :
    after cseq (d.events position) = inState cseq (reported .accepted d.notifies) := by
  have hstart : DialogTransfer.forReferCseq cseq = inState cseq .pending := rfl
  rw [after, Delivery.events, run_append, hstart, run_notifies, run_cons]
  cases hfront : d.notifies.take position with
  | nil =>
    have hdrop : d.notifies.drop position = d.notifies := by
      rw [← nil_append (d.notifies.drop position), ← hfront, take_append_drop]
    rw [reported, step_response_pending d.success, run_notifies, hdrop]
  | cons n front =>
    have hsplit : d.notifies = n :: front ++ d.notifies.drop position := by
      rw [← hfront, take_append_drop]
    have hfirst : reported .pending (n :: front) = reported .accepted (n :: front) := rfl
    rw [step_response_late (reported_ne_pending n front), run_notifies, hfirst,
      ← reported_append, ← hsplit]

variable {notifies : List (Notify cseq)}

/-- A run of notifications that do not end the transfer. -/
theorem reported_live
    (h : ∀ n ∈ notifies, n.notification.transferState.isTerminal = false)
    (hstate : state.isTerminal = false) :
    (reported state notifies).isTerminal = false := by
  induction notifies generalizing state with
  | nil => exact hstate
  | cons n rest ih =>
    rw [reported, hstate, if_neg Bool.false_ne_true]
    obtain ⟨hn, hrest⟩ := forall_mem_cons.mp h
    exact ih hrest hn

variable {front back : List Event} {event : Event}

/-- A prefix of a row of notifications is the row of a prefix. -/
theorem notifies_of_prefix (h : notifies.map Notify.event = front ++ event :: back) :
    ∃ before n rest, notifies = before ++ n :: rest ∧ front = before.map Notify.event ∧
      event = n.event := by
  obtain ⟨before, rest, rfl, rfl, hrest⟩ := map_eq_append_iff.mp h
  obtain ⟨n, rest, rfl, rfl, -⟩ := map_eq_cons_iff.mp hrest
  exact ⟨before, n, rest, rfl, rfl, rfl⟩

/-- Notifications are accepted until one ends the transfer. -/
theorem step_notifies (hstate : state.isTerminal = false)
    (h : notifies.map Notify.event = front ++ event :: back)
    (hlive : ∀ e ∈ front, e.isTerminal = false) :
    ((run DialogTransfer.step (inState cseq state) front).step event).1 = .ok () := by
  obtain ⟨before, n, rest, -, rfl, rfl⟩ := notifies_of_prefix h
  have hbefore : ∀ m ∈ before, m.notification.transferState.isTerminal = false := fun m hm =>
    hlive m.event (mem_map_of_mem hm)
  rw [run_notifies, step_notify n (reported_live hbefore hstate)]

/-- **Transfers in order.** The order of the response and the notifications does not matter just
when the response comes first, or when a notification has ended the transfer before it. -/
theorem ordered_iff (d : Delivery cseq) : Ordered d ↔ d.position = 0 ∨
    ∃ n ∈ d.notifies.take d.position, n.notification.transferState.isTerminal = true := by
  have hstart : DialogTransfer.forReferCseq cseq = inState cseq .pending := rfl
  constructor
  · intro h
    by_contra hnot
    obtain ⟨hpos, hlive⟩ := not_or.mp hnot
    have hfront : ∀ e ∈ (d.notifies.take d.position).map Notify.event, e.isTerminal = false := by
      rintro e he
      obtain ⟨n, hn, rfl⟩ := mem_map.mp he
      exact Bool.eq_false_iff.mpr fun hterminal => hlive ⟨n, hn, hterminal⟩
    have hok := h.accepted _ _ _ rfl hfront
    rw [after, hstart, run_notifies] at hok
    cases htake : d.notifies.take d.position with
    | nil =>
      have hle := d.position_le
      have hlen := congrArg List.length htake
      rw [length_take, length_nil] at hlen
      omega
    | cons n front =>
      rw [htake, step_response_late (reported_ne_pending n front)] at hok
      cases hok
  · intro h
    refine ⟨fun front event back heq hlive => ?_, fun position _ => ?_,
      fun front back hterminal => ?_⟩
    · rw [after, hstart]
      rw [Delivery.events] at heq
      rcases h with hzero | ⟨n, hn, hterminal⟩
      · rw [hzero, take_zero, drop_zero, map_nil, nil_append] at heq
        cases front with
        | nil =>
          obtain ⟨rfl, -⟩ := cons.inj heq
          rw [Machine.run_nil, step_response_pending d.success]
        | cons first front =>
          obtain ⟨rfl, hrest⟩ := cons.inj heq
          rw [Machine.run_cons, step_response_pending d.success]
          exact step_notifies rfl hrest fun e he => hlive e (mem_cons_of_mem _ he)
      · -- the event comes before the response, as a notification that ends the transfer does
        rcases append_eq_append_iff.mp heq with ⟨between, hfront, -⟩ | ⟨between, hnotifies, htail⟩
        · have hmem : n.event ∈ front := by
            rw [hfront]
            exact mem_append_left _ (mem_map_of_mem hn)
          have hlast := hlive _ hmem
          rw [Notify.event, Event.isTerminal, hterminal] at hlast
          cases hlast
        · cases between with
          | nil =>
            rw [append_nil] at hnotifies
            have hlast := hlive n.event (hnotifies ▸ mem_map_of_mem hn)
            rw [Notify.event, Event.isTerminal, hterminal] at hlast
            cases hlast
          | cons first between =>
            obtain ⟨rfl, -⟩ := cons.inj htail
            exact step_notifies rfl hnotifies hlive
    · rw [run_events, run_events]
    · rw [after, Machine.run_append]
      exact congrArg DialogTransfer.state (run_terminal hterminal back)

/-- A NOTIFY that reports 100 Trying. -/
def tryingFrame : Bytes := asBytes
  ("NOTIFY sip:a SIP/2.0\r\nEvent: refer;id=7\r\nContent-Type: message/sipfrag\r\n" ++
    "Subscription-State: active\r\n\r\nSIP/2.0 100 Trying\r\n").toList

/-- A NOTIFY that overtakes the response to REFER 7. -/
theorem notifyFirst_not_ordered : ¬∀ d : Delivery 7, Ordered d := by
  intro h
  have hparsed : (parseReferNotify tryingFrame).toOption =
      some ⟨.active, 100, .trying, some 7⟩ := by decide +kernel
  let notify : Notify 7 := ⟨tryingFrame, _, toOption_eq_some.mp hparsed, Or.inr rfl⟩
  have hlive : ∀ e ∈ [notify.event], e.isTerminal = false := forall_mem_singleton.mpr rfl
  have hok := (h ⟨[notify], 202, by decide, 1, le_rfl⟩).accepted [notify.event] (.response 202) []
    rfl hlive
  cases hok

end Refer

end SimMaster
