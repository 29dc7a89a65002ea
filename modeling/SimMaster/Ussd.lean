import SimMaster.Clock
import SimMaster.HashMap
import SimMaster.Machine
import SimMaster.Parse

/-!
# USSD sessions

A USSD dialog with the network is a transaction that a start opens on a modem, and that the caller
continues or cancels by the id of its session. Two tables are shared by all requests: the sessions,
and the modems that are reserved, each by a start in flight or by a session. A request holds a
table only while it looks at it or changes it, and waits between these steps for the modem, for the
lock of the dialog or for the tables. So the requests in flight are tasks here that take turns, one
step of one task at a time (`Task.advance`).

A session that was not used for five minutes has expired. `reap_expired_sessions` takes the expired
sessions off the table first, and keeps the reservation of each until the modem has been told to
cancel its dialog. It is called by a continue and by a cancel, and by a start whose dialog goes on.
-/

namespace SimMaster

open Rust

namespace Ussd

/-! ## Responses of the modem -/

/-- Splits at commas outside quotes; a doubled quote within quotes is one. -/
def csvFieldsLoop : Str → Bool → Str → List Str
  | current, _, [] => [trim current]
  | current, true, '"' :: '"' :: rest => csvFieldsLoop (current ++ ['"']) true rest
  | current, quoted, '"' :: rest => csvFieldsLoop current (!quoted) rest
  | current, quoted, ch :: rest =>
    if ch = ',' ∧ quoted = false then trim current :: csvFieldsLoop [] quoted rest
    else csvFieldsLoop (current ++ [ch]) quoted rest

def csvFields (value : Str) : List Str := csvFieldsLoop [] false value

def looksLikeUcs2 (value : Str) : Bool :=
  4 ≤ utf8Len value && utf8Len value % 4 == 0 && value.all isAsciiHexdigit &&
    ("00".toList.isPrefixOf value || value.any isAsciiAlphabetic)

def hexDigit (c : Char) : ℕ :=
  if isAsciiDigit c then c.toNat - '0'.toNat else c.toLower.toNat - 'a'.toNat + 10

/-- The numbers of four hex digits each. -/
def hexUnits : Str → List ℕ
  | a :: b :: c :: d :: rest =>
    (((hexDigit a * 16 + hexDigit b) * 16 + hexDigit c) * 16 + hexDigit d) :: hexUnits rest
  | _ => []

/-- `String::from_utf16_lossy`. -/
def fromUtf16Lossy : List ℕ → Str
  | [] => []
  | [u] => [if 0xd800 ≤ u ∧ u ≤ 0xdfff then Char.ofNat 0xfffd else Char.ofNat u]
  | u :: v :: rest =>
    if (0xd800 ≤ u ∧ u ≤ 0xdbff) ∧ 0xdc00 ≤ v ∧ v ≤ 0xdfff then
      Char.ofNat (0x10000 + (u - 0xd800) * 0x400 + (v - 0xdc00)) :: fromUtf16Lossy rest
    else if 0xd800 ≤ u ∧ u ≤ 0xdfff then Char.ofNat 0xfffd :: fromUtf16Lossy (v :: rest)
    else Char.ofNat u :: fromUtf16Lossy (v :: rest)

def decodeUcs2 (value : Str) : Option Str :=
  if looksLikeUcs2 value then some (fromUtf16Lossy (hexUnits value)) else none

inductive Status where
  | final
  | awaitingInput
  | terminated
  | failed
  deriving DecidableEq, Repr

structure UssdTransaction where
  text : Str
  raw : Str
  status : Status
  deriving DecidableEq

/-- The `+CUSD` line of a transcript, wherever it stands. -/
def parseUssdResponse (raw : Str) : Except String UssdTransaction :=
  match findSub "+CUSD:".toList (raw.map Char.toUpper) with
  | none => .error "modem did not return a +CUSD response"
  | some start =>
    let line := trim ((raw.drop start).takeWhile fun c => c ≠ '\r' && c ≠ '\n')
    match splitOnce ':' line with
    | none => .error "+CUSD response is missing its colon"
    | some (_, fields) =>
      match csvFields fields with
      | code :: payload :: rest =>
        match parseUnsigned 255 (trim code) with
        | none => .error "invalid +CUSD status code"
        | some code =>
          let payload := trimEndMatches (· == '"') ((trim payload).dropWhile (· == '"'))
          let dcs := rest.head?.bind fun value => parseUnsigned 65535 (trim value)
          let text :=
            if dcs = some 72 ∨ looksLikeUcs2 payload then (decodeUcs2 payload).getD payload
            else payload
          .ok {
            text
            raw := line
            status := match code with
              | 0 => .final
              | 1 => .awaitingInput
              | 2 => .terminated
              | _ => .failed }
      | _ => .error "+CUSD response is missing status or text"

structure UssdResponse where
  lineId : Str
  text : Str
  raw : Str
  status : Status
  sessionId : Option Str
  continueable : Bool
  deriving DecidableEq

def toResponse (lineId : Str) (transaction : UssdTransaction) (sessionId : Option Str) :
    UssdResponse where
  lineId := lineId
  text := transaction.text
  raw := transaction.raw
  status := transaction.status
  sessionId := sessionId
  continueable := sessionId.isSome

/-! ## The tables -/

def sessionTtl : Duration := Duration.fromSecs (5 * 60)

/-- `operation` names the lock of the dialog, which its reservation shares. -/
structure UssdSession where
  lineId : Str
  modemPath : Str
  lastActivityAt : Instant
  operation : ℕ
  deriving DecidableEq

/-- A reserved modem: by a start in flight while `sessionId` is `none`, else by that session. -/
structure ActiveModem where
  sessionId : Option Str
  operation : ℕ
  deriving DecidableEq

/-- The statics of the module. `endedUnbound` lists the sessions that were taken off the table
before their start had bound them; the code keeps no such list. -/
structure Tables where
  sessions : HashMap Str UssdSession
  activeModems : HashMap Str ActiveModem
  nextSessionId : ℕ
  nextOperation : ℕ
  endedUnbound : List Str

namespace Tables

/-- `make_session_id`, at `millis` after 1970. -/
def makeSessionId (millis : ℕ) (sequence : ℕ) : Str :=
  "ussd-".toList ++ hex millis ++ ['-'] ++ hex sequence

/-- The modem is reserved by the session. -/
def boundTo (t : Tables) (modemPath sessionId : Str) : Bool :=
  (t.activeModems.lookup modemPath).any fun entry => entry.sessionId = some sessionId

def reserveModem (t : Tables) (modemPath : Str) : Option (ℕ × Tables) :=
  if (t.activeModems.lookup modemPath).isSome then none
  else some (t.nextOperation, { t with
    activeModems := t.activeModems.insert modemPath ⟨none, t.nextOperation⟩
    nextOperation := t.nextOperation + 1 })

def releaseStart (t : Tables) (modemPath : Str) : Tables :=
  match t.activeModems.lookup modemPath with
  | some ⟨none, _⟩ => { t with activeModems := t.activeModems.erase modemPath }
  | _ => t

def bindSession (t : Tables) (modemPath sessionId : Str) (operation : ℕ) : Option Tables :=
  match t.activeModems.lookup modemPath with
  | some ⟨none, owner⟩ =>
    if owner = operation then
      some { t with activeModems := t.activeModems.insert modemPath ⟨some sessionId, owner⟩ }
    else none
  | _ => none

def releaseSession (t : Tables) (modemPath sessionId : Str) : Tables :=
  if t.boundTo modemPath sessionId then
    { t with activeModems := t.activeModems.erase modemPath }
  else t

def insertSession (t : Tables) (sessionId : Str) (session : UssdSession) : Tables :=
  { t with sessions := t.sessions.insert sessionId session }

/-- The session is the one a request found. -/
def sameSession (current session : UssdSession) : Bool :=
  current.modemPath = session.modemPath && current.lineId = session.lineId

def touchSession (t : Tables) (now : Instant) (sessionId : Str) (session : UssdSession) :
    Option Tables :=
  match t.sessions.lookup sessionId with
  | none => none
  | some current =>
    if sameSession current session then
      some { t with sessions := t.sessions.insert sessionId { current with lastActivityAt := now } }
    else none

def sessionStillActive (t : Tables) (sessionId : Str) (session : UssdSession) : Bool :=
  (t.sessions.lookup sessionId).any fun current => sameSession current session

/-- The ids that are not bound, for `endedUnbound`. -/
def noteEnded (t : Tables) (ended : List (Str × Str)) : List Str :=
  t.endedUnbound ++ (ended.filter fun (id, modemPath) => !t.boundTo modemPath id).map (·.1)

/-- The first half of `remove_session`; `none` if there was nothing to remove. -/
def removeSession (t : Tables) (sessionId : Str) (session : UssdSession) : Option Tables :=
  match t.sessions.lookup sessionId with
  | none => none
  | some current =>
    if current.modemPath = session.modemPath then
      some { t with
        sessions := t.sessions.erase sessionId
        endedUnbound := t.noteEnded [(sessionId, session.modemPath)] }
    else none

end Tables

/-- A session that `reap_expired_sessions` has taken off the table. -/
structure Expired where
  id : Str
  modemPath : Str
  operation : ℕ
  deriving DecidableEq

namespace Tables

def hasExpired (now : Instant) (session : UssdSession) : Bool :=
  sessionTtl ≤ Instant.saturatingDurationSince now session.lastActivityAt

/-- The expired sessions, in some order. -/
def expired (t : Tables) (now : Instant) : List Expired :=
  (t.sessions.entries.filter fun entry => hasExpired now entry.2).map fun entry =>
    ⟨entry.1, entry.2.modemPath, entry.2.operation⟩

/-- Takes the expired sessions off the table. -/
def sweep (t : Tables) (now : Instant) : Tables :=
  { t with
    sessions := t.sessions.retain fun _ session => !hasExpired now session
    endedUnbound := t.noteEnded ((t.expired now).map fun e => (e.id, e.modemPath)) }

def stillReserved (t : Tables) (e : Expired) : Bool :=
  (t.activeModems.lookup e.modemPath).any fun entry =>
    entry.sessionId = some e.id && entry.operation = e.operation

end Tables

/-! ## Requests in flight -/

/-- Where `reap_expired_sessions` stands. From `rechecking` on it holds the lock of the first
dialog. -/
inductive Reap where
  | sweeping
  | checking (rest : List Expired)
  | locking (first : Expired) (rest : List Expired)
  | rechecking (first : Expired) (rest : List Expired)
  | cancelling (first : Expired) (rest : List Expired)
  | releasing (first : Expired) (rest : List Expired)

/-- A start that holds its reservation. -/
structure Start where
  lineId : Str
  modemPath : Str
  code : Str
  operation : ℕ

inductive Call where
  | continueSession (input : Str)
  | cancelSession

structure Request where
  call : Call
  lineId : Str
  modemPath : Str
  sessionId : Str

/-- What a request does after the expired sessions have been reaped. -/
inductive After where
  | insert (start : Start) (id : Str) (transaction : UssdTransaction)
  | find (request : Request)

abbrev Answer := Except String UssdResponse

/-- Where a request stands: what its next step is. From `checking` on, a continue or a cancel
holds the lock of its dialog. -/
inductive Task where
  | starting (start : Start)
  | releasingStart (start : Start) (answer : Answer)
  | reaping (reap : Reap) (after : After)
  | inserting (start : Start) (id : Str) (transaction : UssdTransaction)
  | binding (start : Start) (id : Str) (transaction : UssdTransaction)
  | unbinding (start : Start) (id : Str)
  | finding (request : Request)
  | locking (request : Request) (session : UssdSession)
  | checking (request : Request) (session : UssdSession)
  | commanding (request : Request) (session : UssdSession)
  | touching (request : Request) (session : UssdSession) (transaction : UssdTransaction)
  | removing (request : Request) (session : UssdSession) (answer : Answer)
  | releasing (request : Request) (session : UssdSession) (answer : Answer)

/-- The modem and the command that a task has sent to it and waits for. -/
def Task.command : Task → Option (Str × Str)
  | starting start =>
    some (start.modemPath, "AT+CUSD=1,\"".toList ++ start.code ++ "\",15".toList)
  | reaping (.cancelling first _) _ => some (first.modemPath, "AT+CUSD=2".toList)
  | commanding request _ =>
    some (request.modemPath, match request.call with
      | .continueSession input => "AT+CUSD=1,\"".toList ++ input ++ "\",15".toList
      | .cancelSession => "AT+CUSD=2".toList)
  | _ => none

structure State where
  tables : Tables
  /-- The locks of dialogs that are held. -/
  locked : List ℕ
  tasks : List Task
  now : Instant

namespace State

def lock (s : State) (operation : ℕ) : State := { s with locked := operation :: s.locked }

def unlock (s : State) (operation : ℕ) : State := { s with locked := s.locked.erase operation }

def withTables (s : State) (tables : Tables) : State := { s with tables := tables }

end State

/-- One step of `reap_expired_sessions`; `none` when it is done. The outcome of the command that
cancels a dialog does not matter. -/
def Reap.advance (s : State) : Reap → State × Option Reap
  | sweeping => (s.withTables (s.tables.sweep s.now), some (checking (s.tables.expired s.now)))
  | checking [] => (s, none)
  | checking (first :: rest) =>
    (s, some (if s.tables.stillReserved first then locking first rest else checking rest))
  | locking first rest =>
    if first.operation ∈ s.locked then (s, some (locking first rest))
    else (s.lock first.operation, some (rechecking first rest))
  | rechecking first rest =>
    if s.tables.stillReserved first then (s, some (cancelling first rest))
    else (s.unlock first.operation, some (checking rest))
  | cancelling first rest => (s, some (releasing first rest))
  | releasing first rest =>
    ((s.withTables (s.tables.releaseSession first.modemPath first.id)).unlock first.operation,
      some (checking rest))

/-- A request goes on or is answered. -/
inductive Next where
  | task (task : Task)
  | answer (answer : Answer)

def After.task : After → Task
  | insert start id transaction => .inserting start id transaction
  | find request => .finding request

def ensureSessionOwner (session : UssdSession) (request : Request) : Bool :=
  session.lineId = request.lineId && session.modemPath = request.modemPath

def notFound : Answer := .error "USSD session does not exist or has expired"

def cancelled (lineId raw : Str) : UssdResponse where
  lineId := lineId
  text := "USSD session cancelled".toList
  raw := raw
  status := .terminated
  sessionId := none
  continueable := false

/-- What a start makes of the modem's answer: an error, a transaction that is over, or a dialog that
goes on. -/
def startOutcome (start : Start) (command : Except String Str) : Except Answer UssdTransaction :=
  match command with
  | .error error => .error (.error error)
  | .ok raw =>
    if (trim raw).isEmpty then .error (.error "modem returned an empty USSD response")
    else match parseUssdResponse raw with
      | .error error => .error (.error error)
      | .ok transaction =>
        if transaction.status = .awaitingInput then .ok transaction
        else .error (.ok (toResponse start.lineId transaction none))

/-- The same for a continue and a cancel, after which no dialog goes on. -/
def requestOutcome (request : Request) (command : Except String Str) :
    Except Answer UssdTransaction :=
  match request.call, command with
  | _, .error error => .error (.error error)
  | .cancelSession, .ok raw => .error (.ok (cancelled request.lineId raw))
  | .continueSession _, .ok raw =>
    match parseUssdResponse raw with
    | .error error => .error (.error error)
    | .ok transaction =>
      if transaction.status = .awaitingInput then .ok transaction
      else .error (.ok (toResponse request.lineId transaction none))

/-- One step of a request. `command` is what a command to the modem comes back with, and `millis`
the time since 1970, where the step uses them. -/
def Task.advance (s : State) (millis : ℕ) (command : Except String Str) : Task → State × Next
  | starting start =>
    match startOutcome start command with
    | .error answer => (s, .task (releasingStart start answer))
    | .ok transaction =>
      (s.withTables { s.tables with nextSessionId := s.tables.nextSessionId + 1 },
        .task (reaping .sweeping (.insert start
          (Tables.makeSessionId millis s.tables.nextSessionId) transaction)))
  | releasingStart start answer =>
    (s.withTables (s.tables.releaseStart start.modemPath), .answer answer)
  | reaping reap after =>
    match reap.advance s with
    | (s, some reap) => (s, .task (reaping reap after))
    | (s, none) => (s, .task after.task)
  | inserting start id transaction =>
    (s.withTables (s.tables.insertSession id ⟨start.lineId, start.modemPath, s.now,
      start.operation⟩), .task (binding start id transaction))
  | binding start id transaction =>
    match s.tables.bindSession start.modemPath id start.operation with
    | none => (s, .task (unbinding start id))
    | some tables =>
      (s.withTables tables, .answer (.ok (toResponse start.lineId transaction (some id))))
  | unbinding start id =>
    (s.withTables { s.tables with sessions := s.tables.sessions.erase id },
      .task (releasingStart start (.error "USSD session could not reserve the modem")))
  | finding request =>
    match s.tables.sessions.lookup request.sessionId with
    | none => (s, .answer notFound)
    | some session =>
      if ensureSessionOwner session request then (s, .task (locking request session))
      else (s, .answer
        (.error "USSD session does not belong to the selected line or modem"))
  | locking request session =>
    if session.operation ∈ s.locked then (s, .task (locking request session))
    else (s.lock session.operation, .task (checking request session))
  | checking request session =>
    if s.tables.sessionStillActive request.sessionId session then
      (s, .task (commanding request session))
    else (s.unlock session.operation, .answer notFound)
  | commanding request session =>
    match requestOutcome request command with
    | .error answer => (s, .task (removing request session answer))
    | .ok transaction => (s, .task (touching request session transaction))
  | touching request session transaction =>
    match s.tables.touchSession s.now request.sessionId session with
    | none => (s.unlock session.operation, .answer notFound)
    | some tables =>
      ((s.withTables tables).unlock session.operation,
        .answer (.ok (toResponse request.lineId transaction (some request.sessionId))))
  | removing request session answer =>
    match s.tables.removeSession request.sessionId session with
    | none => (s.unlock session.operation, .answer answer)
    | some tables => (s.withTables tables, .task (releasing request session answer))
  | releasing request session answer =>
    ((s.withTables (s.tables.releaseSession session.modemPath request.sessionId)).unlock
      session.operation, .answer answer)

/-! ## All requests -/

def validateCode (code : Str) : Except String Str :=
  let code := trim code
  if code.isEmpty || 40 < utf8Len code then
    .error "USSD service code must be 1-40 characters"
  else if !code.all (fun ch => isAsciiDigit ch || ch == '*' || ch == '#' || ch == '+') then
    .error "USSD service code contains an invalid character"
  else .ok code

def validateInput (input : Str) : Except String Str :=
  let input := trim input
  if input.isEmpty || 182 < utf8Len input then
    .error "USSD input must be 1-182 characters"
  else if input.any fun ch => ch == '"' || ch == '\r' || ch == '\n' || isControl ch then
    .error "USSD input contains a control character or quote"
  else .ok input

def busy : String := "该 modem 当前正在处理其他 USSD/USSI 请求，请稍后重试"

/-- What happens to the service. That a request is dropped while it waits, as when its client goes
away, is no event, although its reservation would stay behind. -/
inductive Event where
  | start (lineId modemPath code : Str)
  | continueSession (lineId modemPath sessionId input : Str)
  | cancelSession (lineId modemPath sessionId : Str)
  /-- A task takes its next step. -/
  | proceed (index millis : ℕ) (command : Except String Str)
  | pass (elapsed : Duration)

/-- The beginning of a continue or a cancel: the request is checked before it looks at a table. -/
def enter (s : State) (call : Except String Call) (lineId modemPath sessionId : Str) :
    Option Answer × State :=
  match call with
  | .error error => (some (.error error), s)
  | .ok call =>
    let sessionId := trim sessionId
    if sessionId.isEmpty then (some (.error "USSD session id is required"), s)
    else
      (none, { s with
        tasks := s.tasks ++ [.reaping .sweeping (.find ⟨call, lineId, modemPath, sessionId⟩)] })

/-- The state after an event, and the answer of the request that has been answered. -/
def step (s : State) : Event → Option Answer × State
  | .start lineId modemPath code =>
    match validateCode code with
    | .error error => (some (.error error), s)
    | .ok code =>
      match s.tables.reserveModem modemPath with
      | none => (some (.error busy), s)
      | some (operation, tables) =>
        (none, { s with tables := tables
                        tasks := s.tasks ++ [.starting ⟨lineId, modemPath, code, operation⟩] })
  | .continueSession lineId modemPath sessionId input =>
    enter s ((validateInput input).map .continueSession) lineId modemPath sessionId
  | .cancelSession lineId modemPath sessionId =>
    enter s (.ok .cancelSession) lineId modemPath sessionId
  | .proceed index millis command =>
    match s.tasks[index]? with
    | none => (none, s)
    | some task =>
      match task.advance s millis command with
      | (s', .task next) => (none, { s' with tasks := s.tasks.set index next })
      | (s', .answer answer) => (some answer, { s' with tasks := s.tasks.eraseIdx index })
  | .pass elapsed => (none, { s with now := s.now + elapsed })

/-- The module when the process starts. -/
def initial (now : Instant) : State where
  tables := ⟨∅, ∅, 1, 0, []⟩
  locked := []
  tasks := []
  now := now

end Ussd

end SimMaster
