import SimMaster.AtUrc

/-!
# AT command sessions

One session holds the port of a device, the octets that were read but not yet taken out as lines,
and the router of the unsolicited indications. A command is written and the lines that follow are
its reply, up to a final line, but for those the router keeps.

What the outside does is given to the calls. The results of opening the port, of writing and of the
clock are those of the step they belong to; the steps a session takes are counted by its log, which
is not part of the program. A loop that reads is given what its readings find, until its deadline:
the end of the list is a deadline too.
-/

namespace SimMaster.At

open Rust NativeSms

/-- `READ_POLL`, `DRAIN_GRACE` and the timeouts are in the hands of the outside. -/
def MAX_BUFFER_BYTES : ℕ := 32 * 1024
def MAX_RESPONSE_BYTES : ℕ := 1024 * 1024
def MAX_DRAIN_READS : ℕ := 64

/-- A step of a session. -/
inductive Op where
  | opened
  | wrote (command : Str)
  | read (data : Bytes)
  | popped
  | routed (now : Instant) (line : Str) (command : Option Str)
  | faultTaken
  | eventsTaken
  | reset
  | simBound (simKey : Str)
  | ackBlocked
  | dataCleared
  | taken (now : Instant) (token : ℕ) (acknowledge : Bool)
  deriving DecidableEq

/-- What one turn of a reading loop finds. -/
inductive Poll where
  | read (data : Bytes)
  | failed (error : Str)
  | deadline
  deriving DecidableEq

/-- The outside, by the number of the step. -/
structure Outside where
  clock : ℕ → Instant
  /-- The error of opening and configuring the port, if there is one. -/
  openError : ℕ → Option Str := fun _ => none
  /-- The error of writing and flushing, if there is one. -/
  writeError : ℕ → Option Str := fun _ => none

structure AtSession where
  /-- The port is open. -/
  port : Bool := false
  readBuf : Bytes := []
  urcs : UrcRouter := {}
  /-- The steps taken so far. -/
  log : List Op := []
  deriving DecidableEq

/-! ## Lines -/

/-- The line that a line feed ends. -/
def lineText (data : Bytes) : Str :=
  let isBreak := fun c => c = '\r' || c = '\n'
  trimEndMatches isBreak ((fromUtf8Lossy data).dropWhile isBreak)

def errorLines : List String :=
  ["ERROR", "NO CARRIER", "BUSY", "NO ANSWER", "NO DIALTONE", "NO DIAL TONE"]

def isErrorLine (line : Str) : Bool :=
  errorLines.any (fun text => eqIgnoreAsciiCase line text.toList) ||
    UrcRouter.hasName (line.map Char.toUpper) ["+CME ERROR", "+CMS ERROR"]

def isFinalLine (line : Str) : Bool := eqIgnoreAsciiCase line "OK".toList || isErrorLine line

def lineBreak : Str := ['\r', '\n']

def linesWith (lines : List Str) (extra : Str) : Str := joinWith lineBreak (lines ++ [extra])

namespace AtSession

/-! ## Steps -/

/-- What a step does to the port, the buffer and the router. -/
def apply (s : AtSession) : Op → AtSession
  | .opened => { s with port := true }
  | .wrote _ => s
  | .read data => { s with readBuf := s.readBuf ++ data }
  | .popped => { s with readBuf := (s.readBuf.dropWhile (· ≠ 0x0a)).tail }
  | .routed now line command => { s with urcs := (s.urcs.route now line command).2 }
  | .faultTaken => { s with urcs := s.urcs.takeFramingFault.2 }
  | .eventsTaken => { s with urcs := s.urcs.take.2 }
  | .reset => { s with port := false, readBuf := [], urcs := s.urcs.transportReset }
  | .simBound simKey =>
    match s.urcs.bindSim simKey with
    | .ok urcs => { s with urcs }
    | .error _ => s
  | .ackBlocked => { s with urcs := s.urcs.blockAck }
  | .dataCleared => { s with urcs := s.urcs.clearPrivateData }
  | .taken now token acknowledge =>
    match s.urcs.takeDirect now token acknowledge with
    | some (_, urcs) => { s with urcs }
    | none => s

def perform (s : AtSession) (op : Op) : AtSession := { s.apply op with log := s.log ++ [op] }

def reset (s : AtSession) : AtSession := s.perform .reset

/-- The first complete line of the buffer. -/
def popLine (s : AtSession) : Option (Str × AtSession) :=
  if 0x0a ∈ s.readBuf then
    some (lineText (s.readBuf.takeWhile (· ≠ 0x0a) ++ [0x0a]), s.perform .popped)
  else none

def readAvailable (s : AtSession) (data : Bytes) : Except Str AtSession :=
  if !s.port then .error "AT port is not open".toList
  else if data.isEmpty then .ok s
  else if MAX_BUFFER_BYTES < s.readBuf.length + data.length then
    .error "AT frame exceeds size limit".toList
  else .ok (s.perform (.read data))

section Calls

variable (outside : Outside)

def route (s : AtSession) (line : Str) (command : Option Str) : Bool × AtSession :=
  let now := outside.clock s.log.length
  ((s.urcs.route now line command).1, s.perform (.routed now line command))

def takeDirect (s : AtSession) (token : ℕ) (acknowledge : Bool) : Option DirectPdu × AtSession :=
  let now := outside.clock s.log.length
  ((s.urcs.takeDirect now token acknowledge).map (·.1), s.perform (.taken now token acknowledge))

def ensureOpen (s : AtSession) : Except Str Unit × AtSession :=
  if s.port then (.ok (), s)
  else match outside.openError s.log.length with
    | some err => (.error err, s)
    | none => (.ok (), s.perform .opened)

def writeCommand (s : AtSession) (command : Str) : Except Str Unit × AtSession :=
  let command := trim command
  if command.isEmpty || command.any (fun c => c = '\r' || c = '\n') then
    (.error "AT command must be a single non-empty line".toList, s)
  else if !s.port then (.error "AT port is not open".toList, s)
  else match outside.writeError s.log.length with
    | some err => (.error err, s)
    | none => (.ok (), s.perform (.wrote command))

/-- A line that arrives while a command is out. -/
def routeCommand (s : AtSession) (line command : Str) : Except Str Bool × AtSession :=
  let (routed, s) := s.route outside line (some command)
  let (fault, s) := (s.urcs.framingFault, s.perform .faultTaken)
  if fault then (.error "AT unsolicited PDU framing lost".toList, s.reset) else (.ok routed, s)

/-! ## Reading loops -/

/-- The next line before the deadline. -/
def nextLine : List Poll → AtSession → Except Str (Option Str) × AtSession × List Poll
  | [], s =>
    match s.popLine with
    | some (line, s) => (.ok (some line), s, [])
    | none => (.ok none, s, [])
  | poll :: polls, s =>
    match s.popLine with
    | some (line, s) => (.ok (some line), s, poll :: polls)
    | none =>
      match poll with
      | .deadline => (.ok none, s, polls)
      | .failed err => (.error err, s, polls)
      | .read data =>
        match s.readAvailable data with
        | .error err => (.error err, s, polls)
        | .ok s => nextLine polls s

/-- The complete lines of the buffer are routed; as many as it has line feeds. -/
def routeLines (s : AtSession) : AtSession :=
  go (s.readBuf.count 0x0a) s
where
  go : ℕ → AtSession → AtSession
    | 0, s => s
    | n + 1, s =>
      match s.popLine with
      | some (line, s) => go n (s.route outside line none).2
      | none => s

/-- At most so many turns of routing what is complete and reading on. -/
def drainReads : ℕ → List Poll → AtSession → Except Str Unit × AtSession × List Poll
  | 0, polls, s => (.ok (), s, polls)
  | turns + 1, polls, s =>
    let s := s.routeLines outside
    match polls with
    | [] => (.ok (), s, [])
    | .deadline :: polls => (.ok (), s, polls)
    | .failed err :: polls => (.error err, s, polls)
    | .read data :: polls =>
      match s.readAvailable data with
      | .error err => (.error err, s, polls)
      | .ok s => if data.isEmpty then (.ok (), s, polls) else drainReads turns polls s

/-- A partial line is waited for until the deadline. -/
def finishPartial : List Poll → AtSession → Except Str Unit × AtSession × List Poll
  | [], s => (.ok (), s, [])
  | poll :: polls, s =>
    if s.readBuf.isEmpty then (.ok (), s, poll :: polls)
    else match poll with
      | .deadline => (.ok (), s, polls)
      | .failed err => (.error err, s, polls)
      | .read data =>
        match s.readAvailable data with
        | .error err => (.error err, s, polls)
        | .ok s => finishPartial polls (s.routeLines outside)

/-- Complete indications are kept before stale replies are thrown away. -/
def discardPending (polls : List Poll) (s : AtSession) : Except Str Unit × AtSession × List Poll :=
  match drainReads outside MAX_DRAIN_READS polls s with
  | (.error err, s, polls) => (.error err, s, polls)
  | (.ok (), s, polls) =>
    match finishPartial outside polls (s.routeLines outside) with
    | (.error err, s, polls) => (.error err, s, polls)
    | (.ok (), s, polls) =>
      if s.readBuf.isEmpty then (.ok (), s, polls)
      else (.error "AT partial frame before command".toList, s, polls)

def pumpEvents (polls : List Poll) (s : AtSession) : Except Str Unit × AtSession × List Poll :=
  match s.ensureOpen outside with
  | (.error err, s) => (.error err, s, polls)
  | (.ok (), s) =>
    match drainReads outside MAX_DRAIN_READS polls s with
    | (.error err, s, polls) => (.error err, s, polls)
    | (.ok (), s, polls) => (.ok (), s.routeLines outside, polls)

/-- How many lines a loop can still take out. -/
def lineBudget (polls : List Poll) (s : AtSession) : ℕ :=
  s.readBuf.count 0x0a + (polls.map fun poll =>
    match poll with
    | .read data => data.count 0x0a
    | _ => 0).sum

/-! ## Commands -/

/-- How the reading of a reply ends: with an error that has reset the session, at the deadline, or
with a line that completes the reply. -/
inductive ReplyEnd (σ ρ : Type) where
  | failed (error : Str)
  | expired (state : σ)
  | done (result : ρ)

/-- The lines after a command, as they come in: those that are not blank, the echo or an indication
are given to `accept`, which goes on or is done. Each turn takes a line out, and the first number is
how many there are; the last counts the octets of the reply. -/
def replyLoop {σ ρ : Type} (accept : σ → Str → σ ⊕ ρ) (command : Str) :
    ℕ → List Poll → AtSession → σ → ℕ → ReplyEnd σ ρ × AtSession × List Poll
  | lineCount, polls, s, state, responseBytes =>
    match s.nextLine polls with
    | (.error err, s, polls) => (.failed err, s.reset, polls)
    | (.ok none, s, polls) => (.expired state, s, polls)
    | (.ok (some line), s, polls) =>
      match lineCount with
      | 0 => (.failed [], s, polls)
      | lineCount + 1 =>
        let trimmed := trim line
        if trimmed.isEmpty || trimmed == command then
          replyLoop accept command lineCount polls s state responseBytes
        else match s.routeCommand outside trimmed command with
          | (.error err, s) => (.failed err, s, polls)
          | (.ok true, s) => replyLoop accept command lineCount polls s state responseBytes
          | (.ok false, s) =>
            let responseBytes := responseBytes + utf8Len line
            if MAX_RESPONSE_BYTES < responseBytes then
              (.failed "AT response exceeds size limit".toList, s.reset, polls)
            else match accept state line with
              | .inl state => replyLoop accept command lineCount polls s state responseBytes
              | .inr result => (.done result, s, polls)

/-- A reply goes up to its final line. -/
def acceptLine (lines : List Str) (line : Str) : List Str ⊕ List Str :=
  if isFinalLine (trim line) then .inr (lines ++ [line]) else .inl (lines ++ [line])

/-- The text of a reply. -/
def replyText (lines : List Str) : Except Str Str :=
  let output := joinWith lineBreak lines
  if lines.any fun line => isErrorLine (trim line) then .error output
  else .ok (if output.isEmpty then "ok".toList else output)

def exchangeReady (command : Str) (polls : List Poll) (s : AtSession) :
    Except Str Str × AtSession × List Poll :=
  match s.writeCommand outside command with
  | (.error err, s) => (.error err, s.reset, polls)
  | (.ok (), s) =>
    match replyLoop outside acceptLine command (s.lineBudget polls) polls s [] 0 with
    | (.failed err, s, polls) => (.error err, s, polls)
    | (.expired _, s, polls) =>
      (.error ("timed out waiting for AT response to ".toList ++ command), s.reset, polls)
    | (.done lines, s, polls) => (replyText lines, s, polls)

def executeCommand (command : Str) (polls : List Poll) (s : AtSession) :
    Except Str Str × AtSession × List Poll :=
  match s.ensureOpen outside with
  | (.error err, s) => (.error err, s, polls)
  | (.ok (), s) =>
    match discardPending outside polls s with
    | (.error err, s, polls) => (.error err, s.reset, polls)
    | (.ok (), s, polls) => exchangeReady outside command polls s

/-! ## USSD -/

def cancelUssdBestEffort (polls : List Poll) (s : AtSession) : AtSession × List Poll :=
  let (_, s, polls) := executeCommand outside "AT+CUSD=2".toList polls s
  (s.reset, polls)

/-- What a USSD transaction has seen. -/
structure Ussd where
  lines : List Str := []
  sawCusd : Bool := false
  sawFinal : Bool := false

/-- A transaction is rejected by an error before any answer of the network, or it is complete. -/
inductive UssdResult where
  | rejected (output : Str)
  | complete (ussd : Ussd)

/-- The answer of the network and the final line come in any order. -/
def acceptUssd (ussd : Ussd) (line : Str) : Ussd ⊕ UssdResult :=
  let trimmed := trim line
  let sawCusd := ussd.sawCusd || UrcRouter.hasName (trimmed.map Char.toUpper) ["+CUSD:"]
  let sawFinal := ussd.sawFinal || isFinalLine trimmed
  if isErrorLine trimmed && !sawCusd then .inr (.rejected (linesWith ussd.lines line))
  else
    let ussd := { lines := ussd.lines ++ [line], sawCusd, sawFinal }
    if sawCusd && sawFinal then .inr (.complete ussd) else .inl ussd

/-- Octets that are already on their way are given a short grace. -/
def graceReads : List Poll → AtSession → Except Str Unit × AtSession × List Poll
  | [], s => (.ok (), s, [])
  | .deadline :: polls, s => (.ok (), s, polls)
  | .failed err :: polls, s => (.error err, s, polls)
  | .read data :: polls, s =>
    match s.readAvailable data with
    | .error err => (.error err, s, polls)
    | .ok s => graceReads polls s

/-- The end of a USSD transaction: without an answer of the network it is cancelled. -/
def finishUssd (ussd : Ussd) (polls : List Poll) (s : AtSession) :
    Except Str Str × AtSession × List Poll :=
  let output := joinWith lineBreak ussd.lines
  if ussd.sawCusd then (.ok output, s, polls)
  else
    match if ussd.sawFinal then (.ok (), s, polls) else graceReads polls s with
    | (.error err, s, polls) => (.error err, s.reset, polls)
    | (.ok (), s, polls) =>
      let (s, polls) := cancelUssdBestEffort outside polls s
      let text := "timed out waiting for +CUSD response".toList
      (.error (if output.isEmpty then text else text ++ ": ".toList ++ output), s, polls)

def executeUssd (command : Str) (polls : List Poll) (s : AtSession) :
    Except Str Str × AtSession × List Poll :=
  match s.ensureOpen outside with
  | (.error err, s) => (.error err, s, polls)
  | (.ok (), s) =>
    match discardPending outside polls s with
    | (.error err, s, polls) => (.error err, s.reset, polls)
    | (.ok (), s, polls) =>
      match s.writeCommand outside command with
      | (.error err, s) => (.error err, s.reset, polls)
      | (.ok (), s) =>
        match replyLoop outside acceptUssd command (s.lineBudget polls) polls s {} 0 with
        | (.failed err, s, polls) => (.error err, s, polls)
        | (.done (.rejected output), s, polls) =>
          let (s, polls) := cancelUssdBestEffort outside polls s
          (.error output, s, polls)
        | (.done (.complete ussd), s, polls) => finishUssd outside ussd polls s
        | (.expired ussd, s, polls) => finishUssd outside ussd polls s

/-! ## Direct PDUs -/

def isAsciiWhitespace (b : UInt8) : Bool :=
  b = 0x20 || b = 0x09 || b = 0x0a || b = 0x0c || b = 0x0d

/-- The acknowledgement of a direct PDU. -/
def cnma : Str := "AT+CNMA=1".toList

/-- The PDU is retired, and acknowledged to the network if `ack` says so. -/
def retireDirect (token : ℕ) (ack : Option Bool) (polls : List Poll) (s : AtSession) :
    Except Str Str × AtSession × List Poll :=
  if ack ≠ some true then
    let s := if ack = none then s.perform .ackBlocked else s
    let (pdu, s) := s.takeDirect outside token false
    match pdu with
    | some _ => (.ok (if ack = some false then "not_required".toList
        else "service_unconfirmed".toList), s, polls)
    | none => (.error "AT direct PDU token expired".toList, s, polls)
  else
    let blocked := fun (s : AtSession) =>
      ((.ok "ambiguous".toList : Except Str Str),
        ((s.perform .ackBlocked).takeDirect outside token false).2, polls)
    if s.readBuf.any fun b => !isAsciiWhitespace b then blocked s
    else
      let (pdu, s) := s.takeDirect outside token true
      match pdu with
      | none => blocked s
      | some _ =>
        -- the token is gone before the acknowledgement is written
        match exchangeReady outside cnma polls s with
        | (.ok _, s, polls) => (.ok "confirmed".toList, s, polls)
        | (.error _, s, polls) => (.ok "unconfirmed".toList, s, polls)

def completeDirect (token : ℕ) (ack : Option Bool) (polls : List Poll) (s : AtSession) :
    Except Str Str × AtSession × List Poll :=
  match pumpEvents outside polls s with
  | (.error err, s, polls) => (.error err, s.reset, polls)
  | (.ok (), s, polls) =>
    match retireDirect outside token ack polls s with
    | (.ok result, s, polls) => (.ok result, s, polls)
    | (.error err, s, polls) => (.error err, s.reset, polls)

end Calls

end AtSession

end SimMaster.At
