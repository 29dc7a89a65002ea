import SimMaster.BTreeMap
import SimMaster.DedupWindow
import SimMaster.Method
import SimMaster.Octets

/-!
# The batch scheduler

Client requests and the results of server requests wait in a working bucket. `prepare` takes a
snapshot of the bucket together with all batches that the peer has not acknowledged, and
`commitSubmission` makes the bucket a batch of its own, under the next number. A reply acknowledges
batches with a bitmap that counts down from a number, brings results of client requests and new
server requests, and announces batches of the peer, which are acknowledged in turn by the words of
the next snapshot.

A method that fails either leaves everything as it was or closes the scheduler for good (`Stop`).
Additions, subtractions and shifts that could leave their type are checked, with `Stop.panic`.
-/

namespace SimMaster.Jegotrip

open Rust

def i32Max : ℕ := 2 ^ 31 - 1
def maxStreamBytes : ℕ := 128 * 1024
def maxFieldBytes : ℕ := 64 * 1024
def maxMapEntries : ℕ := 128
def maxBatchEpochs : ℕ := 32
def batchRetentionMs : ℕ := 45000
def maxRetainedBytes : ℕ := maxStreamBytes

inductive CodecError where
  | tooLarge
  | duplicateKey
  | invalidField
deriving DecidableEq

inductive BatchError where
  | codec (e : CodecError)
  | scope
  | closed
  | epoch
  | retention
  | backpressure
  | clock
deriving DecidableEq

/-- How a method ends early. -/
inductive Stop where
  | panic
  /-- an error that leaves the scheduler as it is -/
  | refuse (e : BatchError)
  /-- an error that closes it -/
  | fail (e : BatchError)
deriving DecidableEq

/-! ## Checked arithmetic -/

def checkedSub (a b : ℕ) : Except Stop ℕ := if b ≤ a then .ok (a - b) else .error .panic

def checkedAdd (a b : ℕ) : Except Stop ℕ := if a + b < 2 ^ 32 then .ok (a + b) else .error .panic

def checkedShl (x : BitVec 32) (n : ℕ) : Except Stop (BitVec 32) :=
  if n < 32 then .ok (x <<< n) else .error .panic

def checkedShr (x : BitVec 32) (n : ℕ) : Except Stop (BitVec 32) :=
  if n < 32 then .ok (x >>> n) else .error .panic

variable {a b : ℕ}

theorem checkedSub_eq (h : b ≤ a) : checkedSub a b = .ok (a - b) := if_pos h

theorem checkedAdd_eq (h : a + b < 2 ^ 32) : checkedAdd a b = .ok (a + b) := if_pos h

variable {n : ℕ}

theorem checkedShl_eq (x : BitVec 32) (h : n < 32) : checkedShl x n = .ok (x <<< n) := if_pos h

theorem checkedShr_eq (x : BitVec 32) (h : n < 32) : checkedShr x n = .ok (x >>> n) := if_pos h

/-! ## Requests and results -/

structure RpcProperty where
  key : Bytes
  value : Bytes
deriving DecidableEq

structure BatchRequest where
  method : Bytes
  arguments : Bytes
  metadata : List RpcProperty
deriving DecidableEq

structure BatchResult where
  resultCode : ℕ
  resultStream : Bytes
deriving DecidableEq

/-- A request that is kept, with its size. -/
structure RequestData where
  method : Bytes
  arguments : Bytes
  metadata : List (Bytes × Bytes)
  bytes : ℕ
deriving DecidableEq

namespace RequestData

/-- The loop over the metadata; `earlier` are the keys before. -/
def measureMetadata (earlier : List Bytes) : List RpcProperty → ℕ → Except CodecError ℕ
  | [], bytes => .ok bytes
  | property :: rest, bytes =>
    if maxFieldBytes < property.key.length ∨ maxFieldBytes < property.value.length then
      .error .tooLarge
    else if property.key ∈ earlier then .error .duplicateKey
    else measureMetadata (earlier ++ [property.key]) rest
      (bytes + (8 + property.key.length + property.value.length))

def measure (request : BatchRequest) : Except CodecError ℕ := do
  if request.method = [] then throw .invalidField
  if maxFieldBytes < request.method.length ∨ maxFieldBytes < request.arguments.length ∨
      maxMapEntries < request.metadata.length then
    throw .tooLarge
  let bytes ← measureMetadata [] request.metadata
    (16 + request.method.length + request.arguments.length)
  if maxRetainedBytes < bytes then throw .tooLarge
  return bytes

def capture (request : BatchRequest) : Except CodecError RequestData := do
  let bytes ← measure request
  return ⟨request.method, request.arguments, request.metadata.map fun p => (p.key, p.value), bytes⟩

def borrowed (data : RequestData) : BatchRequest :=
  ⟨data.method, data.arguments, data.metadata.map fun (key, value) => ⟨key, value⟩⟩

end RequestData

structure ResultData where
  code : ℕ
  stream : Bytes
deriving DecidableEq

namespace ResultData

def borrowed (data : ResultData) : BatchResult := ⟨data.code, data.stream⟩

def bytes (data : ResultData) : ℕ := 12 + data.stream.length

end ResultData

structure Bucket where
  requests : BTreeMap ℤ RequestData
  results : BTreeMap ℤ ResultData
deriving DecidableEq

def Bucket.empty : Bucket := ⟨∅, ∅⟩

/-- `extend` of both maps. -/
def Bucket.extend (bucket other : Bucket) : Bucket :=
  ⟨bucket.requests ∪ other.requests, bucket.results ∪ other.results⟩

structure Epoch where
  createdAtMs : ℕ
  bucket : Bucket

/-! ## Words and snapshots -/

/-- The six words of a batch: the sender's batches that it still keeps, as bits that count down from
`nextBatch`, and in the same way the batches it has received. -/
structure BatchWords where
  incarnation : ℕ
  nextBatch : ℕ
  batches : BitVec 32
  ackIncarnation : ℕ
  ackNextBatch : ℕ
  ackBatches : BitVec 32
deriving DecidableEq

structure BatchPayload where
  fields : BatchWords
  requests : BTreeMap ℤ BatchRequest
  results : BTreeMap ℤ BatchResult

/-- A snapshot. Its flags `active` and `encoded` are shared with the scheduler, which keeps them
under the number `flags`. -/
structure ScheduledBatch where
  owner : ℕ
  connection : ℕ
  scheduler : ℕ
  flags : ℕ
  serial : ℕ
  words : BatchWords
  bucket : Bucket
deriving DecidableEq

def ScheduledBatch.payload (batch : ScheduledBatch) : BatchPayload :=
  ⟨batch.words, batch.bucket.requests.map fun _ => RequestData.borrowed,
    batch.bucket.results.map fun _ => ResultData.borrowed⟩

structure Flags where
  active : Bool
  encoded : Bool
deriving DecidableEq

structure PreparedHostingCall where
  sequence : ℤ
  submissionSequence : ℤ
  owner : ℕ
  connection : ℕ
  arguments : Bytes

/-- `UPDATE_STATUS_METHOD`. -/
def updateStatusMethod : Bytes := "updateStatus.SipGatewayPub.SipGateway".toUTF8.toList

def PreparedHostingCall.asBatchRequest (call : PreparedHostingCall) (metadata : List RpcProperty) :
    BatchRequest :=
  ⟨updateStatusMethod, call.arguments, metadata⟩

structure ServerRequestTicket where
  owner : ℕ
  connection : ℕ
  scheduler : ℕ
  peerIncarnation : ℕ
  sequence : ℤ

structure IncomingBatchRequest where
  ticket : ServerRequestTicket
  request : RequestData

/-- Which server sequences have been acknowledged by the peer: all up to `through`, and those
listed. -/
structure BatchReplayRetirement where
  peerIncarnation : ℕ
  through : ℤ
  acknowledged : List ℤ

structure BatchDelivery where
  requests : List IncomingBatchRequest
  matchedResultSequences : List ℤ
  retirement : Option BatchReplayRetirement
  results : BTreeMap ℤ ResultData

/-- An authenticated reply, of the scheduler whose token it carries. The sequences of its payload
are 32-bit numbers. -/
structure OwnedBatchReply where
  owner : ℕ
  connection : ℕ
  scheduler : Option ℕ
  success : Bool
  reason : Bytes
  payload : BatchPayload
  fits : ∀ sequence ∈ payload.requests, sequence ≤ i32Max

/-! ## The scheduler -/

structure BatchScheduler where
  owner : ℕ
  connection : ℕ
  identity : ℕ
  localIncarnation : ℕ
  nextBatch : ℕ
  nextSerial : Option ℕ
  /-- the serial of the snapshot that is out, and the number of its flags -/
  prepared : Option (ℕ × ℕ)
  clockMs : ℕ
  history : BTreeMap ℕ Epoch
  working : Bucket
  pendingClient : BTreeSet ℤ
  submittedClient : BTreeSet ℤ
  lastClientSequence : ℤ
  pendingServer : BTreeMap ℤ ℕ
  peerIncarnation : Option ℕ
  peerNext : ℕ
  peerBatches : BitVec 32
  dedup : DedupWindow
  retiredThrough : ℤ
  closed : Bool
  /-- the flag of the connection, which others hold too -/
  connectionOpen : Bool
  /-- the flags of the snapshots that were taken -/
  flags : List Flags

namespace BatchScheduler

/-- A scheduler of an open connection before any call. -/
def new (owner connection identity incarnation : ℕ) : BatchScheduler where
  owner := owner
  connection := connection
  identity := identity
  localIncarnation := incarnation
  nextBatch := 0
  nextSerial := some 1
  prepared := none
  clockMs := 0
  history := ∅
  working := .empty
  pendingClient := ∅
  submittedClient := ∅
  lastClientSequence := 0
  pendingServer := ∅
  peerIncarnation := none
  peerNext := 0
  peerBatches := 0
  dedup := .default
  retiredThrough := 0
  closed := false
  connectionOpen := true
  flags := []

def forArcSession (owner connection identity : ℕ) (connectionOpen : Bool) (incarnation : ℕ) :
    Except BatchError BatchScheduler :=
  if incarnation = 0 then .error .epoch
  else if connectionOpen = false then .error .closed
  else .ok (new owner connection identity incarnation)

def isOpen (s : BatchScheduler) : Bool := !s.closed && s.connectionOpen

/-- `active.store(false)` for the flags under a number. -/
def deactivate (flags : List Flags) (n : ℕ) : List Flags :=
  flags.modify n fun f => { f with active := false }

def close (s : BatchScheduler) : BatchScheduler :=
  { s with
    closed := true
    connectionOpen := false
    history := ∅
    working := .empty
    pendingClient := ∅
    submittedClient := ∅
    pendingServer := ∅
    dedup := .default
    prepared := none
    flags := match s.prepared with
      | some (_, n) => deactivate s.flags n
      | none => s.flags }

/-- The result of a method and the state it leaves. -/
def finish {α : Type} (s : BatchScheduler) : Except Stop (α × BatchScheduler) →
    Except Stop α × BatchScheduler
  | .ok (a, s') => (.ok a, s')
  | .error (.fail e) => (.error (.fail e), s.close)
  | .error stop => (.error stop, s)

/-- `require_open`, and then the rest of the method. -/
def whileOpen {α : Type} (s : BatchScheduler) (body : Except Stop (α × BatchScheduler)) :
    Except Stop α × BatchScheduler :=
  s.finish (if s.isOpen then body else .error (.fail .closed))

/-- `clock`, and then the rest of the method. -/
def timed {α : Type} (s : BatchScheduler) (now : ℕ)
    (body : BatchScheduler → Except Stop (α × BatchScheduler)) : Except Stop α × BatchScheduler :=
  if s.isOpen = false then s.finish (.error (.fail .closed))
  else if now < s.clockMs then s.finish (.error (.fail .clock))
  else { s with clockMs := now }.finish (body { s with clockMs := now })

/-- Whether one of the epochs has been kept for too long. -/
def overdue (now : ℕ) : List Epoch → Except Stop Bool
  | [] => .ok false
  | epoch :: rest => do
    let age ← checkedSub now epoch.createdAtMs
    if batchRetentionMs ≤ age then return true
    overdue now rest

def ensureRetention (history : BTreeMap ℕ Epoch) (now : ℕ) : Except Stop Unit := do
  if ← overdue now history.vals then throw (.fail .retention)

/-- Everything that is kept. -/
def retained (s : BatchScheduler) : Bucket :=
  s.history.vals.foldl (fun bucket epoch => bucket.extend epoch.bucket) s.working

/-- How many requests and results are kept, and their size with that of the open server requests. -/
def totals (s : BatchScheduler) : ℕ × ℕ × ℕ :=
  (s.retained.requests.size, s.retained.results.size,
    (s.retained.requests.vals.map RequestData.bytes).sum +
      (s.retained.results.vals.map ResultData.bytes).sum + s.pendingServer.vals.sum)

/-- A codec error as the error of a method. -/
def ofCodec {α : Type} (stop : BatchError → Stop) : Except CodecError α → Except Stop α
  | .ok a => .ok a
  | .error e => .error (stop (.codec e))

/-! ### Client requests -/

def queueHosting (s : BatchScheduler) (call : PreparedHostingCall) (metadata : List RpcProperty) :
    Except Stop Unit × BatchScheduler :=
  s.whileOpen do
    if ¬(call.sequence = call.submissionSequence ∧ call.owner = s.owner ∧
        call.connection = s.connection) then
      throw (.refuse .scope)
    if call.sequence ≤ s.lastClientSequence then throw (.refuse .epoch)
    if s.prepared.isSome then throw (.refuse .backpressure)
    let size ← ofCodec .refuse (RequestData.measure (call.asBatchRequest metadata))
    if maxMapEntries ≤ s.pendingClient.size ∨ maxMapEntries ≤ s.totals.1 ∨
        maxRetainedBytes < s.totals.2.2 + size then
      throw (.refuse .backpressure)
    let request ← ofCodec .refuse (RequestData.capture (call.asBatchRequest metadata))
    return ((), { s with
      lastClientSequence := call.sequence
      pendingClient := s.pendingClient.insert call.sequence
      working := { s.working with requests := s.working.requests.insert call.sequence request } })

def retireClientRequest (s : BatchScheduler) (sequence : ℤ) : BatchScheduler :=
  if s.prepared.isSome then s.close
  else
    { s with
      pendingClient := s.pendingClient.erase sequence
      submittedClient := s.submittedClient.erase sequence
      working := { s.working with requests := s.working.requests.erase sequence }
      history := s.history.map fun _ epoch =>
        { epoch with
          bucket := { epoch.bucket with requests := epoch.bucket.requests.erase sequence } } }

/-! ### Snapshots -/

def hasWork (s : BatchScheduler) : Bool :=
  !s.working.requests.isEmpty || !s.working.results.isEmpty

/-- The number after the batches of the snapshot. -/
def nextOfSnapshot (s : BatchScheduler) : Except Stop ℕ :=
  if s.hasWork then
    if maxBatchEpochs ≤ s.history.size then .error (.fail .retention)
    else if s.nextBatch + 1 ≤ i32Max then .ok (s.nextBatch + 1)
    else .error (.fail .epoch)
  else .ok s.nextBatch

/-- The loop that adds the batches that are kept to the bitmap and to the bucket. -/
def addRetained (next : ℕ) : List (ℕ × Epoch) → BitVec 32 → Bucket →
    Except Stop (BitVec 32 × Bucket)
  | [], mask, bucket => .ok (mask, bucket)
  | (epoch, retained) :: rest, mask, bucket => do
    let after ← checkedAdd epoch 1
    if next < after then throw (.refuse .epoch)
    if 32 ≤ next - after then throw (.fail .retention)
    let bit ← checkedShl 1#32 (next - after)
    addRetained next rest (mask ||| bit) (bucket.extend retained.bucket)

def prepare (s : BatchScheduler) (now : ℕ) : Except Stop ScheduledBatch × BatchScheduler :=
  s.timed now fun s => do
    ensureRetention s.history now
    if s.prepared.isSome then throw (.refuse .backpressure)
    let serial ← okOr (.fail .epoch) s.nextSerial
    let next ← s.nextOfSnapshot
    let (mask, bucket) ← addRetained next s.history.toList (if s.hasWork then 1 else 0) s.working
    let words := ⟨s.localIncarnation, next, mask, s.peerIncarnation.getD 0, s.peerNext,
      s.peerBatches⟩
    return (⟨s.owner, s.connection, s.identity, s.flags.length, serial, words, bucket⟩,
      { s with prepared := some (serial, s.flags.length), flags := s.flags ++ [⟨true, false⟩] })

def flagsOf (s : BatchScheduler) (batch : ScheduledBatch) : Flags :=
  s.flags.getD batch.flags ⟨false, false⟩

/-- `ScheduledBatch::mark_encoded`. -/
def markEncoded (s : BatchScheduler) (batch : ScheduledBatch) : BatchScheduler :=
  { s with flags := s.flags.modify batch.flags fun f => { f with encoded := true } }

def cancelPrepared (s : BatchScheduler) : BatchScheduler :=
  match s.prepared with
  | none => s
  | some (_, n) =>
    let cancelled := { s with prepared := none, flags := deactivate s.flags n }
    if (s.flags.getD n ⟨false, false⟩).encoded then cancelled.close else cancelled

/-- The working bucket becomes a batch, if the snapshot had it as one. -/
def commitWorking (s : BatchScheduler) (batch : ScheduledBatch) (now : ℕ) :
    Except Stop BatchScheduler := do
  if batch.words.nextBatch = s.nextBatch then return s
  let next ← checkedAdd s.nextBatch 1
  if batch.words.nextBatch ≠ next then throw (.fail .epoch)
  return { s with
    working := .empty
    submittedClient := s.submittedClient.insertMany s.working.requests.keys
    history := s.history.insert s.nextBatch ⟨now, s.working⟩
    nextBatch := batch.words.nextBatch }

def commitSubmission (s : BatchScheduler) (batch : ScheduledBatch) (now : ℕ) :
    Except Stop Unit × BatchScheduler :=
  s.timed now fun s => do
    ensureRetention s.history now
    if ¬(batch.owner = s.owner ∧ batch.connection = s.connection ∧ (s.flagsOf batch).active ∧
        s.identity = batch.scheduler ∧ (s.flagsOf batch).encoded ∧
        s.prepared.map Prod.fst = some batch.serial) then
      throw (.refuse .scope)
    let s ← s.commitWorking batch now
    return ((), { s with
      prepared := none
      flags := deactivate s.flags batch.flags
      nextSerial := if batch.serial + 1 < 2 ^ 64 then some (batch.serial + 1) else none })

/-! ### Replies -/

def validBitmap (next : ℕ) (bits : BitVec 32) : Except Stop Bool :=
  if 32 ≤ next then .ok true else do
    let rest ← checkedShr bits next
    return rest == 0

/-- The word and the bitmap of two announcements. -/
def mergeBitmap (next : ℕ) (bits : BitVec 32) (incomingNext : ℕ) (incomingBits : BitVec 32) :
    Except Stop (ℕ × BitVec 32) :=
  if next ≤ incomingNext then do
    let delta ← checkedSub incomingNext next
    let kept ← if 32 ≤ delta then pure 0#32 else checkedShl bits delta
    return (incomingNext, kept ||| incomingBits)
  else do
    let delta ← checkedSub next incomingNext
    if delta < 32 then
      let shifted ← checkedShl incomingBits delta
      return (next, bits ||| shifted)
    else return (next, bits)

def validBitmaps (words : BatchWords) : Except Stop Bool := do
  let valid ← validBitmap words.nextBatch words.batches
  if valid then validBitmap words.ackNextBatch words.ackBatches else return false

/-- The words of a reply are in order. -/
def checkWords (s : BatchScheduler) (words : BatchWords) : Except Stop Unit := do
  let valid ← validBitmaps words
  if valid = false ∨ words.incarnation = 0 ∨ i32Max < words.nextBatch ∨
      (words.ackIncarnation ≠ 0 ∧ words.ackIncarnation ≠ s.localIncarnation) ∨
      (words.ackIncarnation = 0 ∧ (words.ackNextBatch ≠ 0 ∨ words.ackBatches ≠ 0)) ∨
      s.nextBatch < words.ackNextBatch then
    throw (.fail .epoch)
  if s.peerIncarnation.any (fun epoch => epoch != words.incarnation) then throw (.fail .epoch)
  if words.nextBatch < s.peerNext then
    let behind ← checkedSub s.peerNext words.nextBatch
    if 32 ≤ behind then throw (.fail .epoch)

/-- The size of the requests of a reply. -/
def measureAll : List BatchRequest → ℕ → Except CodecError ℕ
  | [], sum => .ok sum
  | request :: rest, sum => do
    let bytes ← RequestData.measure request
    measureAll rest (sum + bytes)

/-- The requests of a reply that are fresh, and the window with all of them. -/
def takeFresh : List (ℤ × BatchRequest) → DedupWindow →
    Except Stop (List (ℤ × RequestData) × DedupWindow)
  | [], dedup => .ok ([], dedup)
  | (sequence, request) :: rest, dedup =>
    if (dedup.insert sequence.toNat).1 then do
      let captured ← ofCodec .fail (RequestData.capture request)
      let (fresh, dedup) ← takeFresh rest (dedup.insert sequence.toNat).2
      return ((sequence, captured) :: fresh, dedup)
    else takeFresh rest (dedup.insert sequence.toNat).2

/-- What is left of the history, and the server sequences whose results were acknowledged. -/
def acknowledgeBits (words : BatchWords) : List ℕ → BTreeMap ℕ Epoch → BTreeSet ℤ →
    Except Stop (BTreeMap ℕ Epoch × BTreeSet ℤ)
  | [], history, acknowledged => .ok (history, acknowledged)
  | bit :: rest, history, acknowledged => do
    let mask ← checkedShl 1#32 bit
    if words.ackBatches &&& mask = 0 then acknowledgeBits words rest history acknowledged
    else
      let last ← checkedSub words.ackNextBatch 1
      let number ← checkedSub last bit
      match history[number]? with
      | none => acknowledgeBits words rest history acknowledged
      | some epoch =>
        acknowledgeBits words rest (history.erase number)
          (acknowledged.insertMany epoch.bucket.results.keys)

def acknowledge (s : BatchScheduler) (words : BatchWords) :
    Except Stop (BTreeMap ℕ Epoch × BTreeSet ℤ) :=
  if words.ackIncarnation = s.localIncarnation then
    acknowledgeBits words (List.range 32) s.history ∅
  else .ok (s.history, ∅)

/-- The sequence below which nothing is open or unacknowledged. -/
def retirementBound (s : BatchScheduler) : ℤ :=
  let blocking := (s.pendingServer.keys ++ s.working.results.keys ++
    s.history.vals.flatMap fun epoch => epoch.bucket.results.keys).min?
  min (Int.bmod ((s.dedup.base - 1 : ℕ) : ℤ) (2 ^ 32))
    (match blocking with
      | none => i32Max
      | some sequence => max (sequence - 1) (-2 ^ 31))

/-- The proof of what is retired by a reply, if there is news. -/
def retire (s : BatchScheduler) (incarnation : ℕ) (acknowledged : BTreeSet ℤ) :
    Option BatchReplayRetirement × BatchScheduler :=
  let through := s.retirementBound
  if s.retiredThrough < through ∨ acknowledged.isEmpty = false then
    (some ⟨incarnation, max s.retiredThrough through, acknowledged.toList⟩,
      { s with retiredThrough := max s.retiredThrough through })
  else (none, s)

/-- What the scheduler is after the reply, and what the reply delivers. -/
def deliver (s : BatchScheduler) (reply : OwnedBatchReply) (fresh : List (ℤ × RequestData)) :
    (List IncomingBatchRequest × BTreeMap ℤ ResultData) × BatchScheduler :=
  let requests := fresh.map fun (sequence, request) =>
    ⟨⟨s.owner, s.connection, s.identity, reply.payload.fields.incarnation, sequence⟩, request⟩
  let results := (reply.payload.results.filter fun sequence _ =>
    s.pendingClient.contains sequence && s.submittedClient.contains sequence).map
      fun _ result => ⟨result.resultCode, result.resultStream⟩
  ((requests, results),
    { s with
      pendingServer := fresh.foldl (fun pending (sequence, request) =>
        pending.insert sequence request.bytes) s.pendingServer
      submittedClient := results.keys.foldl (fun set key => set.erase key) s.submittedClient
      pendingClient := results.keys.foldl (fun set key => set.erase key) s.pendingClient })

def onReply (s : BatchScheduler) (reply : OwnedBatchReply) (now : ℕ) :
    Except Stop (Option BatchDelivery) × BatchScheduler :=
  if s.isOpen = false then s.finish (.error (.fail .closed))
  else if ¬(reply.owner = s.owner ∧ reply.connection = s.connection ∧
      reply.scheduler = some s.identity) then
    (.ok none, s)
  else s.timed now fun s => do
    if s.prepared.isSome then throw (.refuse .backpressure)
    if reply.success = false ∨ reply.reason ≠ [] then throw (.fail .epoch)
    let words := reply.payload.fields
    s.checkWords words
    if (reply.payload.requests.keys ++ reply.payload.results.keys).any (· ≤ 0) ∨
        ((reply.payload.requests.isEmpty = false ∨ reply.payload.results.isEmpty = false) ∧
          words.batches = 0) then
      throw (.fail .epoch)
    let incoming ← ofCodec .fail (measureAll reply.payload.requests.vals 0)
    if maxRetainedBytes < s.totals.2.2 + incoming then throw (.fail .backpressure)
    let (fresh, dedup) ← takeFresh reply.payload.requests.toList s.dedup
    if maxMapEntries < s.pendingServer.size + fresh.length ∨
        fresh.any (fun (sequence, _) => s.pendingServer.contains sequence) then
      throw (.fail .backpressure)
    let (history, acknowledged) ← s.acknowledge words
    ensureRetention history now
    let (peerNext, peerBatches) ← mergeBitmap s.peerNext s.peerBatches words.nextBatch words.batches
    let s := { s with
      history := history
      peerIncarnation := some words.incarnation
      peerNext := peerNext
      peerBatches := peerBatches
      dedup := dedup }
    let ((requests, results), s) := s.deliver reply fresh
    let (retirement, s) := s.retire words.incarnation acknowledged
    return (some ⟨requests, results.keys, retirement, results⟩, s)

def completeServerRequest (s : BatchScheduler) (ticket : ServerRequestTicket) (code : ℕ)
    (stream : Bytes) : Except Stop Bool × BatchScheduler :=
  s.whileOpen do
    if s.prepared.isSome then throw (.refuse .backpressure)
    if ¬(ticket.owner = s.owner ∧ ticket.connection = s.connection ∧ s.identity = ticket.scheduler ∧
        s.peerIncarnation = some ticket.peerIncarnation) then
      throw (.refuse .scope)
    match s.pendingServer[ticket.sequence]? with
    | none => return (false, s)
    | some pendingBytes =>
      if maxFieldBytes < stream.length then throw (.fail .backpressure)
      let bytes ← checkedSub s.totals.2.2 pendingBytes
      if maxMapEntries ≤ s.totals.2.1 ∨ maxRetainedBytes < bytes + (12 + stream.length) then
        throw (.fail .backpressure)
      return (true, { s with
        pendingServer := s.pendingServer.erase ticket.sequence
        working := { s.working with
          results := s.working.results.insert ticket.sequence ⟨code, stream⟩ } })

end BatchScheduler

end SimMaster.Jegotrip
