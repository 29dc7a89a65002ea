import SimMaster.Machine
import SimMaster.Method
import SimMaster.Parse

/-!
# The private inbox of native PDUs

The tables behind the native modem path and the operations on them: PDUs are staged before they are
acknowledged, complete messages are promoted together with their dedup key, and outgoing submissions
are matched with the status reports that come back. A table is the list of its rows in the order of
their insertion, which is the order of their ids, as these are never reused. Every operation is one
transaction: a `Method` whose checks come before its writes. Readings of the clock are arguments of
the calls, and the calendar is a parameter, that of the time package.
-/

namespace SimMaster

open Rust

/-- The calendar of the time package: instants, their seconds since 1970, and their RFC 3339 text in
UTC with whole seconds. -/
structure Chrono where
  Instant : Type
  parseFromRfc3339 : Str → Option Instant
  timestamp : Instant → ℤ
  toRfc3339 : Instant → Str
  /-- The instant with the given local date and time, east of UTC by the given seconds. -/
  withYmdAndHms : (offset year : ℤ) → (month day hour minute second : ℕ) → Option Instant

namespace NativeInbox

def maxPendingPerLine : ℕ := 256
def maxPendingTotal : ℕ := 4096
def retentionSeconds : ℤ := 7 * 86400
/-- Finished rows of a line that are kept. -/
def maxDonePerLine : ℕ := 2048

/-! ## Tables -/

inductive DbError where
  | invalid (reason : String)
  | queryReturnedNoRows
  | constraintViolation
  deriving DecidableEq

inductive PduKind where
  | deliver
  | report
  deriving DecidableEq

inductive PduState where
  | pending
  | quarantined
  | done
  deriving DecidableEq

inductive Ack where
  | pending
  | confirmed
  | notRequired
  | unconfirmed
  | ambiguous
  | serviceUnconfirmed
  | stored
  deriving DecidableEq

structure ReportSummary where
  reference : UInt8
  status : UInt8
  candidates : ℕ
  correlated : Bool
  uncertainSubmission : Bool
  deliveredSmsId : Option ℕ
  deriving DecidableEq

inductive Summary where
  | unsupportedOrInvalidPdu
  | report (summary : ReportSummary)
  deriving DecidableEq

/-- A row of `native_sms_inbox`. -/
structure InboxRow where
  id : ℕ
  lineId : Str
  simKey : Str
  kind : PduKind
  fingerprint : Str
  pdu : Str
  state : PduState := .pending
  ack : Ack := .pending
  summary : Option Summary := none
  createdAt : ℤ
  deriving DecidableEq

/-- A row of `native_sms_received`. -/
structure ReceivedRow where
  lineId : Str
  simKey : Str
  dedupKey : Str
  smsId : ℕ
  deriving DecidableEq

inductive SendState where
  | sending
  | unconfirmed
  | sent
  | delivered
  deriving DecidableEq

/-- A row of `native_sms_sends`. -/
structure SendRow where
  smsId : ℕ
  lineId : Str
  simKey : Str
  recipientKey : Str
  partCount : ℤ
  startedAt : ℤ
  state : SendState := .sending
  deriving DecidableEq

/-- A row of `native_sms_submissions`. -/
structure SubmissionRow where
  smsId : ℕ
  part : ℤ
  reference : UInt8
  startedAt : ℤ
  finishedAt : ℤ
  reportStatus : Option UInt8 := none
  reportScts : Option Str := none
  deriving DecidableEq

inductive SmsDirection where
  | incoming
  | outgoing
  deriving DecidableEq

inductive SmsStatus where
  | received
  | pending
  | sent
  | delivered
  deriving DecidableEq

/-- A row of `sms_messages` with transport `modem`. -/
structure SmsMessage where
  id : ℕ
  direction : SmsDirection
  phoneNumber : Str
  content : Str
  timestamp : Str
  status : SmsStatus
  pdu : Option Str
  lineId : Str
  deriving DecidableEq

/-- An event broadcast when a transaction commits. -/
inductive AppEvent where
  | smsReceived (lineId : Str) (smsId : ℕ)
  | smsQueued (lineId : Str) (smsId : ℕ)
  | smsFinished (lineId : Str) (smsId : ℕ) (confirmed : Bool) (parts total : ℤ)
  | statusReport (lineId : Str) (summary : ReportSummary)
  deriving DecidableEq

/-- The tables, with the next id of the two that number their rows. -/
structure Database where
  inbox : List InboxRow := []
  nextInboxId : ℕ := 1
  received : List ReceivedRow := []
  sends : List SendRow := []
  submissions : List SubmissionRow := []
  messages : List SmsMessage := []
  nextSmsId : ℕ := 1
  events : List AppEvent := []
  deriving DecidableEq

/-! ## Checks -/

def hashValid (value : Str) : Bool := utf8Len value == 64 && value.all isAsciiHexdigit

def requiredLineId (lineId : Str) : Except DbError Str :=
  if (trim lineId).isEmpty then .error (.invalid "line_id must not be empty") else .ok (trim lineId)

def scopeValid (line sim : Str) : Except DbError Unit := do
  let _ ← requiredLineId line
  if !hashValid sim then
    throw (.invalid "native_sim_scope_invalid")

def PduKind.parse (kind : Str) : Option PduKind :=
  if kind = "deliver".toList then some .deliver
  else if kind = "report".toList then some .report
  else none

def Ack.parse (ack : Str) : Option Ack :=
  if ack = "confirmed".toList then some .confirmed
  else if ack = "not_required".toList then some .notRequired
  else if ack = "unconfirmed".toList then some .unconfirmed
  else if ack = "ambiguous".toList then some .ambiguous
  else if ack = "service_unconfirmed".toList then some .serviceUnconfirmed
  else if ack = "stored".toList then some .stored
  else none

def pduValid (pdu : Str) : Bool :=
  !pdu.isEmpty && utf8Len pdu ≤ 1024 && utf8Len pdu % 2 == 0 && pdu.all isAsciiHexdigit

/-- The arguments of a staging, with the kind they name. -/
def stageKind (kind fingerprint pdu : Str) : Except DbError PduKind :=
  match PduKind.parse kind with
  | some kind =>
    if hashValid fingerprint && pduValid pdu then .ok kind else .error
      (.invalid "native_pdu_invalid")
  | none => .error (.invalid "native_pdu_invalid")

/-- `usize as i64`. -/
def asI64 (n : ℕ) : ℤ := Int.bmod n (2 ^ 64)

/-! ## Staging -/

/-- The row belongs to the scope. -/
def InboxRow.inScope (row : InboxRow) (line sim : Str) : Bool :=
  row.lineId == line && row.simKey == sim

/-- The row keeps room: it is not finished. -/
def InboxRow.isOpen (row : InboxRow) : Bool := row.state != .done

/-- The finished rows of a line. -/
def InboxRow.doneOn (row : InboxRow) (line : Str) : Bool := row.lineId == line && row.state == .done

/-- The row with the unique key of the table. -/
def Database.findPdu (db : Database) (line sim : Str) (kind : PduKind) (fingerprint : Str) :
    Option InboxRow :=
  db.inbox.find? fun row =>
    row.inScope line sim && row.kind == kind && row.fingerprint == fingerprint

/-- The ids of the finished rows of a line that are kept: the newest. -/
def Database.keptDone (db : Database) (line : Str) : List ℕ :=
  (((db.inbox.filter (·.doneOn line)).map (·.id)).reverse).take maxDonePerLine

def Database.pruneDone (db : Database) (line : Str) : Database :=
  { db with inbox := db.inbox.filter fun row =>
      !(row.doneOn line && !(db.keptDone line).contains row.id) }

def Database.insertPdu (db : Database) (line sim : Str) (kind : PduKind) (fingerprint pdu : Str)
    (now : ℤ) : Database :=
  { db with
    inbox := db.inbox ++ [{
      id := db.nextInboxId, lineId := line, simKey := sim, kind, fingerprint
      pdu := pdu.map Char.toUpper, createdAt := now }]
    nextInboxId := db.nextInboxId + 1 }

/-- Open rows count whatever their scope; unpromoted bytes are never evicted to make room. -/
def Database.full (db : Database) (line : Str) : Bool :=
  maxPendingPerLine ≤ db.inbox.countP (fun row => row.isOpen && row.lineId == line) ||
    maxPendingTotal ≤ db.inbox.countP (·.isOpen)

def stageNativePdu (line sim kind fingerprint pdu : Str) (now : ℤ) : Method Database DbError ℕ := do
  scopeValid line sim
  let kind ← stageKind kind fingerprint pdu
  let db ← get
  match db.findPdu line sim kind fingerprint with
  | some row => return row.id
  | none =>
    if db.full line then
      throw (.invalid "native_pdu_inbox_full")
    modify fun db => (db.insertPdu line sim kind fingerprint pdu now).pruneDone line
    return db.nextInboxId

/-- Rewrite the rows that satisfy `p`. -/
def Database.updateInbox (db : Database) (p : InboxRow → Bool) (f : InboxRow → InboxRow) :
    Database :=
  { db with inbox := db.inbox.map fun row => if p row then f row else row }

def Database.setAck (db : Database) (line sim fingerprint : Str) (ack : Ack) : Database :=
  db.updateInbox (fun row => row.inScope line sim && row.fingerprint == fingerprint)
    fun row => { row with ack }

def markNativePduAck (line sim fingerprint ack : Str) : Method Database DbError Unit := do
  scopeValid line sim
  match Ack.parse ack with
  | none => throw (.invalid "native_ack_invalid")
  | some ack => modify fun db => db.setAck line sim fingerprint ack

structure InboxPdu where
  id : ℕ
  kind : PduKind
  hex : Str
  deriving DecidableEq

def InboxRow.toPdu (row : InboxRow) : InboxPdu := { id := row.id, kind := row.kind, hex := row.pdu }

/-- The row waits in the scope. -/
def InboxRow.waits (row : InboxRow) (line sim : Str) : Bool :=
  row.inScope line sim && row.state == .pending

def pendingNativePdus (line sim : Str) (db : Database) : Except DbError (List InboxPdu) := do
  scopeValid line sim
  return ((db.inbox.filter (·.waits line sim)).take 256).map (·.toPdu)

def Database.quarantine (db : Database) (id : ℕ) (line sim : Str) : Database :=
  db.updateInbox (fun row => row.id == id && row.waits line sim)
    fun row => { row with state := .quarantined, summary := some .unsupportedOrInvalidPdu }

def quarantineNativePdu (id : ℕ) (line sim : Str) : Method Database DbError Unit := do
  scopeValid line sim
  modify fun db => db.quarantine id line sim

/-! ## Promotion -/

structure InboxMessage where
  ids : List ℕ
  lineId : Str
  simKey : Str
  number : Str
  text : Str
  timestamp : Str
  marker : Str
  fingerprint : Option Str

section Chrono

variable (chrono : Chrono)

/-- The offset of a timestamp in a form RFC 3339 knows: `+08` and `+0800` as `+08:00`. It starts at
the last sign behind the date. -/
def normalizeOffset (timestamp : Str) : Option Str := do
  let start ← (List.range timestamp.length).reverse.find? fun i =>
    10 < utf8Len (timestamp.take i) && (timestamp[i]? == some '+' || timestamp[i]? == some '-')
  let datetime := timestamp.take start
  let offset := timestamp.drop start
  let offset := if utf8Len offset = 3 then offset ++ ":00".toList
    else if utf8Len offset = 5 ∧ ':' ∉ offset then offset.take 3 ++ [':'] ++ offset.drop 3
    else offset
  return datetime ++ offset

def parseSmsTimestampWithOffset (timestamp : Str) : Option chrono.Instant :=
  let timestamp := timestamp.map fun c => if c = ' ' then 'T' else c
  (chrono.parseFromRfc3339 timestamp).or
    ((normalizeOffset timestamp).bind chrono.parseFromRfc3339)

def normalizeSmsTimestampForDisplay (timestamp : Str) : Option Str :=
  let timestamp := trim timestamp
  if timestamp.isEmpty then none
  else (parseSmsTimestampWithOffset chrono timestamp).map chrono.toRfc3339

/-- Every id names a row that waits for promotion in the scope. -/
def Database.promotable (db : Database) (ids : List ℕ) (line sim : Str) : Bool :=
  ids.all fun id => db.inbox.any fun row =>
    row.id == id && row.waits line sim && row.kind == .deliver

/-- The dedup key was committed with a message before. -/
def Database.hasReceived (db : Database) (line sim dedupKey : Str) : Bool :=
  db.received.any fun row => row.lineId == line && row.simKey == sim && row.dedupKey == dedupKey

def InboxMessage.dedupKey (message : InboxMessage) : Str := message.fingerprint.getD message.marker

/-- The message stored for a promotion. -/
def Database.incomingSms (db : Database) (message : InboxMessage) (stamp : Str) : SmsMessage where
  id := db.nextSmsId
  direction := .incoming
  phoneNumber := message.number
  content := message.text
  timestamp := stamp
  status := .received
  pdu := some message.marker
  lineId := message.lineId

def Database.insertReceived (db : Database) (message : InboxMessage) (stamp : Str) : Database :=
  { db with
    messages := db.messages ++ [db.incomingSms message stamp]
    nextSmsId := db.nextSmsId + 1
    received := db.received ++ [{
      lineId := message.lineId, simKey := message.simKey, dedupKey := message.dedupKey
      smsId := db.nextSmsId }]
    events := db.events ++ [.smsReceived message.lineId db.nextSmsId] }

def Database.markDone (db : Database) (ids : List ℕ) : Database :=
  db.updateInbox (fun row => ids.contains row.id) fun row => { row with state := .done, pdu := [] }

/-- The messages of a line whose dedup keys are kept: the newest. -/
def Database.keptReceived (db : Database) (line : Str) : List ℕ :=
  (((db.received.filter (·.lineId == line)).map (·.smsId)).reverse).take maxDonePerLine

def Database.pruneReceived (db : Database) (line : Str) : Database :=
  { db with received := db.received.filter fun row =>
      !(row.lineId == line && !(db.keptReceived line).contains row.smsId) }

/-- The parts of a promoted message are finished, and old dedup keys go. -/
def Database.endParts (db : Database) (message : InboxMessage) : Database :=
  (db.markDone message.ids).pruneReceived message.lineId

/-- The transaction of a promotion that passed its checks: the message, unless its dedup key is
known, and the end of its parts either way. -/
def Database.promote (db : Database) (message : InboxMessage) (stamp : Str) :
    Option SmsMessage × Database :=
  if db.hasReceived message.lineId message.simKey message.dedupKey then (none, db.endParts message)
  else (some (db.incomingSms message stamp), (db.insertReceived message stamp).endParts message)

def promoteNativeSms (message : InboxMessage) : Method Database DbError (Option SmsMessage) := do
  scopeValid message.lineId message.simKey
  if message.ids.isEmpty || 255 < message.ids.length || !decide message.ids.Nodup then
    throw (.invalid "native_message_parts_invalid")
  match normalizeSmsTimestampForDisplay chrono message.timestamp with
  | none => throw (.invalid "native_message_time_invalid")
  | some stamp =>
    let db ← get
    if !db.promotable message.ids message.lineId message.simKey then
      throw (.invalid "native_message_scope_or_state_changed")
    modify fun db => (db.promote message stamp).2
    return (db.promote message stamp).1

/-! ## Submissions -/

structure NativeSend where
  lineId : Str
  simKey : Str
  recipientKey : Str
  number : Str
  text : Str
  partCount : ℕ
  startedAt : ℤ

/-- The outcome of the submission is open: it is under way or was not confirmed. -/
def SendState.isOpen (state : SendState) : Bool := state == .sending || state == .unconfirmed

def Database.insertSend (db : Database) (send : NativeSend) (stamp : Str) : Database :=
  { db with
    messages := db.messages ++ [{
      id := db.nextSmsId, direction := .outgoing, phoneNumber := send.number, content := send.text
      timestamp := stamp, status := .pending, pdu := none, lineId := send.lineId }]
    nextSmsId := db.nextSmsId + 1
    sends := db.sends ++ [{
      smsId := db.nextSmsId, lineId := send.lineId, simKey := send.simKey
      recipientKey := send.recipientKey, partCount := asI64 send.partCount
      startedAt := send.startedAt }]
    events := db.events ++ [.smsQueued send.lineId db.nextSmsId] }

/-- `stamp` is the text of the clock. -/
def beginNativeSmsSend (send : NativeSend) (stamp : Str) : Method Database DbError ℕ := do
  scopeValid send.lineId send.simKey
  if !hashValid send.recipientKey || !(1 ≤ send.partCount && send.partCount ≤ 255) then
    throw (.invalid "native_submission_invalid")
  let db ← get
  if 256 ≤ db.sends.countP fun row => row.lineId == send.lineId && row.state.isOpen then
    throw (.invalid "native_unconfirmed_submissions_full")
  modify fun db => db.insertSend send stamp
  return db.nextSmsId

/-- The submission is under way and has more parts than `part`. -/
def Database.acceptsPart (db : Database) (smsId : ℕ) (part : ℤ) : Bool :=
  db.sends.any fun row => row.smsId == smsId && row.state == .sending && part < row.partCount

def Database.insertPart (db : Database) (row : SubmissionRow) : Database :=
  { db with submissions := db.submissions ++ [row] }

/-- The difference of the two instants is one of `i64` numbers. -/
def rememberNativeSmsPart (smsId part : ℕ) (reference : UInt8) (started finished : ℤ) :
    Method Database DbError Unit := do
  if finished < started ∨ 120 < Int.bmod (finished - started) (2 ^ 64) then
    throw (.invalid "native_submission_interval_invalid")
  let db ← get
  if !db.acceptsPart smsId (asI64 part) then
    throw (.invalid "native_submission_state_invalid")
  -- the primary key of the table
  if db.submissions.any fun row => row.smsId == smsId && row.part == asI64 part then
    throw .constraintViolation
  modify fun db => db.insertPart {
    smsId, part := asI64 part, reference, startedAt := started, finishedAt := finished }

/-- Rewrite the sends of a message. -/
def Database.setSendState (db : Database) (smsId : ℕ) (state : SendState) : Database :=
  { db with sends := db.sends.map fun row =>
    if row.smsId == smsId then { row with state } else row }

/-- Rewrite the status of the messages that satisfy `p`. -/
def Database.setSmsStatus (db : Database) (p : SmsMessage → Bool) (status : SmsStatus) : Database :=
  { db with messages := db.messages.map fun row => if p row then { row with status } else row }

/-- A confirmed submission from before `cutoff`. -/
def SendRow.retires (row : SendRow) (cutoff : ℤ) : Bool :=
  (row.state == .sent || row.state == .delivered) && row.startedAt < cutoff

/-- Old confirmed history goes: first the parts, then the submissions, each at its own reading of
the clock. -/
def Database.retire (db : Database) (cutoff cutoff' : ℤ) : Database :=
  { db with
    submissions := db.submissions.filter fun row =>
      !db.sends.any fun send => send.retires cutoff && send.smsId == row.smsId
    sends := db.sends.filter fun row => !row.retires cutoff' }

def Database.finishSend (db : Database) (smsId : ℕ) (confirmed : Bool) (now now' : ℤ) : Database :=
  let db := db.setSendState smsId (if confirmed then .sent else .unconfirmed)
  let db := db.setSmsStatus (·.id == smsId) (if confirmed then .sent else .pending)
  db.retire (now - retentionSeconds) (now' - retentionSeconds)

def Database.partsOf (db : Database) (smsId : ℕ) : ℕ := db.submissions.countP (·.smsId == smsId)

/-- `now` and `now'` are the two readings of the clock. -/
def finishNativeSmsSend (smsId : ℕ) (confirmed : Bool) (now now' : ℤ) :
    Method Database DbError Unit := do
  let db ← get
  match db.sends.find? (·.smsId == smsId) with
  | none => throw .queryReturnedNoRows
  | some send =>
    if send.state ≠ .sending then
      throw (.invalid "native_submission_already_finished")
    if confirmed ∧ (db.partsOf smsId : ℤ) ≠ send.partCount then
      throw (.invalid "native_submission_parts_incomplete")
    modify fun db => { db.finishSend smsId confirmed now now' with
      events := db.events ++
        [.smsFinished send.lineId smsId confirmed (db.partsOf smsId) send.partCount] }

/-! ## Status reports -/

structure NativeReport where
  id : ℕ
  lineId : Str
  simKey : Str
  recipientKey : Str
  reference : UInt8
  scts : Str
  status : UInt8

/-- The submission is one to the recipient of the report. -/
def SendRow.concerns (row : SendRow) (report : NativeReport) : Bool :=
  row.lineId == report.lineId && row.simKey == report.simKey &&
    row.recipientKey == report.recipientKey

/-- The time of a report lies in the narrow window about the submission of the part. -/
def SubmissionRow.covers (row : SubmissionRow) (reportTime : ℤ) : Bool :=
  row.startedAt - 2 ≤ reportTime && reportTime ≤ row.finishedAt + 120

/-- The parts a report may be about, each with its submission. -/
def Database.candidates (db : Database) (report : NativeReport) (reportTime : ℤ) :
    List (SubmissionRow × SendRow) :=
  (db.submissions.filter fun part =>
    part.reference == report.reference && part.covers reportTime).flatMap
    fun part => (db.sends.filter fun send => send.smsId == part.smsId && send.concerns report).map
      fun send => (part, send)

/-- A submission to the recipient whose outcome is open may be the one reported. -/
def Database.uncertain (db : Database) (report : NativeReport) (reportTime : ℤ) : Bool :=
  db.sends.any fun send => send.concerns report && send.state.isOpen &&
    send.startedAt - 2 ≤ reportTime && reportTime ≤ send.startedAt + 300

/-- The part a report is about: the only candidate, of a confirmed submission, while no other one is
uncertain. -/
def Database.correlated (db : Database) (report : NativeReport) (reportTime : ℤ) :
    Option (SubmissionRow × SendRow) :=
  if db.uncertain report reportTime then none
  else match db.candidates report reportTime with
    | [(part, send)] => if send.state.isOpen then none else some (part, send)
    | _ => none

/-- The report is noted at its part, unless the part was reported delivered. -/
def Database.noteReport (db : Database) (part : SubmissionRow) (report : NativeReport) : Database :=
  { db with submissions := db.submissions.map fun row =>
      if row.smsId == part.smsId && row.part == part.part && row.reportStatus != some 0 then
        { row with reportStatus := some report.status, reportScts := some report.scts }
      else row }

/-- The row of an outgoing message that was sent on the line. -/
def SmsMessage.awaits (row : SmsMessage) (smsId : ℕ) (line : Str) : Bool :=
  row.id == smsId && row.lineId == line && row.direction == .outgoing && row.status == .sent

/-- The parts reported delivered. -/
def Database.deliveredParts (db : Database) (smsId : ℕ) : ℕ :=
  db.submissions.countP fun row => row.smsId == smsId && row.reportStatus == some 0

/-- A correlated report: noted, and the message is delivered once every part is. -/
def Database.applyReport (db : Database) (part : SubmissionRow) (send : SendRow)
    (report : NativeReport) : Option ℕ × Database :=
  let db := db.noteReport part report
  if (db.deliveredParts send.smsId : ℤ) = send.partCount ∧ report.status = 0 then
    (if db.messages.any (·.awaits send.smsId report.lineId) then some send.smsId else none,
      (db.setSmsStatus (·.awaits send.smsId report.lineId) .delivered).setSendState send.smsId
        .delivered)
  else (none, db)

/-- The end of a report's row: finished if it was correlated, else it waits, or is quarantined when
it waited too long. -/
def Database.settleReport (db : Database) (row : InboxRow) (correlated : Bool) (now : ℤ)
    (summary : ReportSummary) : Database :=
  db.updateInbox (·.id == row.id) fun row =>
    if correlated then { row with state := .done, pdu := [], summary := some (.report summary) }
    else { row with
      state := if retentionSeconds < now - row.createdAt then .quarantined else .pending
      summary := some (.report summary) }

/-- The update of the part a report is about, if there is one. -/
def Database.applyCorrelated (db : Database) (report : NativeReport) (reportTime : ℤ) :
    Option ℕ × Database :=
  match db.correlated report reportTime with
  | some (part, send) => db.applyReport part send report
  | none => (none, db)

def Database.reportSummary (db : Database) (report : NativeReport) (reportTime : ℤ) :
    ReportSummary where
  reference := report.reference
  status := report.status
  candidates := (db.candidates report reportTime).length
  correlated := (db.correlated report reportTime).isSome
  uncertainSubmission := db.uncertain report reportTime
  deliveredSmsId := (db.applyCorrelated report reportTime).1

/-- The transaction of a report whose row waits; its event is sent when the summary is new. -/
def Database.consumeReport (db : Database) (row : InboxRow) (report : NativeReport) (reportTime : ℤ)
    (now : ℤ) : Option ℕ × Database :=
  let (delivered, next) := db.applyCorrelated report reportTime
  let summary := db.reportSummary report reportTime
  let next := next.settleReport row summary.correlated now summary
  (delivered, { next with
    events := next.events ++ if row.summary = some (.report summary) then []
      else [.statusReport report.lineId summary] })

/-- A report's time is out of the range in which it can be matched. -/
def outOfRange (reportTime now : ℤ) : Bool :=
  now + 60 < reportTime || reportTime < now - retentionSeconds

/-- The row of the report waits in the scope. -/
def Database.waitingReport (db : Database) (report : NativeReport) : Option InboxRow :=
  db.inbox.find? fun row => row.id == report.id && row.waits report.lineId report.simKey &&
    row.kind == .report

def consumeNativeReport (report : NativeReport) (now : ℤ) : Method Database DbError (Option ℕ) := do
  scopeValid report.lineId report.simKey
  if !hashValid report.recipientKey then
    throw (.invalid "native_report_recipient_invalid")
  match chrono.parseFromRfc3339 report.scts with
  | none => throw (.invalid "native_report_time_invalid")
  | some time =>
    if outOfRange (chrono.timestamp time) now then
      modify fun db => db.quarantine report.id report.lineId report.simKey
      return none
    else
      let db ← get
      match db.waitingReport report with
      | none => throw .queryReturnedNoRows
      | some row =>
        modify fun db => (db.consumeReport row report (chrono.timestamp time) now).2
        return (db.consumeReport row report (chrono.timestamp time) now).1

end Chrono

/-! ## The machine -/

inductive Call where
  | stage (line sim kind fingerprint pdu : Str) (now : ℤ)
  | markAck (line sim fingerprint ack : Str)
  | quarantine (id : ℕ) (line sim : Str)
  | promote (message : InboxMessage)
  | beginSend (send : NativeSend) (stamp : Str)
  | rememberPart (smsId part : ℕ) (reference : UInt8) (started finished : ℤ)
  | finishSend (smsId : ℕ) (confirmed : Bool) (now now' : ℤ)
  | consumeReport (report : NativeReport) (now : ℤ)

inductive Reply where
  | id (id : ℕ)
  | done
  | message (message : Option SmsMessage)
  | delivered (smsId : Option ℕ)

/-- A result as the reply of a call. -/
def replied {α : Type} (reply : α → Reply) (result : Except DbError α × Database) :
    Except DbError Reply × Database := (result.1.map reply, result.2)

/-- One call on the database. -/
def step (chrono : Chrono) (db : Database) : Call → Except DbError Reply × Database
  | .stage line sim kind fingerprint pdu now =>
    replied .id ((stageNativePdu line sim kind fingerprint pdu now).call db)
  | .markAck line sim fingerprint ack =>
    replied (fun _ => .done) ((markNativePduAck line sim fingerprint ack).call db)
  | .quarantine id line sim => replied (fun _ => .done) ((quarantineNativePdu id line sim).call db)
  | .promote message => replied .message ((promoteNativeSms chrono message).call db)
  | .beginSend send stamp => replied .id ((beginNativeSmsSend send stamp).call db)
  | .rememberPart smsId part reference started finished =>
    replied (fun _ => .done) ((rememberNativeSmsPart smsId part reference started finished).call db)
  | .finishSend smsId confirmed now now' =>
    replied (fun _ => .done) ((finishNativeSmsSend smsId confirmed now now').call db)
  | .consumeReport report now =>
    replied .delivered ((consumeNativeReport chrono report now).call db)

end NativeInbox

end SimMaster
