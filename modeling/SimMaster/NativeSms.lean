import SimMaster.SmsDeliver

/-!
# Replaying the inbox into messages

The pending PDUs of a scope are read, reports go to the submissions and parts to their groups, and
every group that is complete is promoted: one segment alone, or the segments of a window of five
minutes. The hash functions are parameters. A clock reading is a function of the row that is being
consumed.
-/

namespace SimMaster

open Rust

/-- The hash functions of the ring and md5 packages. -/
structure Hashes where
  sha256 : Bytes → Bytes
  md5 : Bytes → Bytes
  sha256_length : ∀ data, (sha256 data).length = 32

namespace NativeSms

open NativeInbox

def assemblyWindowSeconds : ℤ := 300

structure Part where
  id : ℕ
  hex : Str
  decoded : ModemDeliver
  scts : ℤ
  deriving DecidableEq

def Part.message (part : Part) : MtSmsDeliver := part.decoded.message

def Part.sequence (part : Part) : UInt8 := part.message.segmentSequence

/-! ## Reading rows -/

/-- The value of a hexadecimal digit. -/
def hexValue (c : Char) : ℕ :=
  if '0' ≤ c ∧ c ≤ '9' then c.toNat - '0'.toNat
  else if 'a' ≤ c ∧ c ≤ 'f' then c.toNat - 'a'.toNat + 10
  else c.toNat - 'A'.toNat + 10

/-- The octets of pairs of hexadecimal digits. -/
def hexPairs : Str → Bytes
  | high :: low :: rest => UInt8.ofNat (hexValue high * 16 + hexValue low) :: hexPairs rest
  | _ => []

def unhex (text : Str) : Option Bytes :=
  if text.isEmpty ∨ 1024 < utf8Len text ∨ utf8Len text % 2 ≠ 0 ∨ !text.all isAsciiHexdigit then none
  else some (hexPairs text)

def digest (hashes : Hashes) (data : Bytes) : Str := hexLower (hashes.sha256 data)

/-- National and international numbers are not equivalent: the type of the number is kept. -/
def recipientKey (hashes : Hashes) (number : Str) : Option Str :=
  let digits := match number with
    | '+' :: rest => rest
    | _ => number
  if digits.isEmpty ∨ 20 < utf8Len digits ∨ !digits.all isAsciiDigit then none
  else some (digest hashes (asBytes number))

/-- What a pending row holds. -/
inductive Reading where
  | part (part : Part)
  | report (report : ModemStatusReport) (recipient : Str)
  | invalid

section Read

variable (chrono : Chrono) (hashes : Hashes)

def readReport (bytes : Bytes) : Reading :=
  match parseModemStatusReport chrono bytes with
  | .ok report =>
    match recipientKey hashes report.recipient with
    | some recipient => .report report recipient
    | none => .invalid
  | .error _ => .invalid

def readDeliver (id : ℕ) (hex : Str) (bytes : Bytes) : Reading :=
  match parseModemDeliver chrono bytes with
  | .ok decoded =>
    match chrono.parseFromRfc3339 decoded.message.serviceCenterTimestamp with
    | some stamp => .part { id, hex, decoded, scts := chrono.timestamp stamp }
    | none => .invalid
  | .error _ => .invalid

def readRow (row : InboxPdu) : Reading :=
  match unhex row.hex with
  | some bytes =>
    match row.kind with
    | .report => readReport chrono hashes bytes
    | .deliver => readDeliver chrono row.id row.hex bytes
  | none => .invalid

/-- The rows in order: parts are gathered, reports consumed, and what is neither is quarantined. -/
def collectParts (clock : ℕ → ℤ) (line sim : Str) :
    List InboxPdu → Method Database DbError (List Part)
  | [] => pure []
  | row :: rows =>
    match readRow chrono hashes row with
    | .part part => do
      let parts ← collectParts clock line sim rows
      return part :: parts
    | .report report recipient => do
      let _ ← consumeNativeReport chrono {
        id := row.id, lineId := line, simKey := sim, recipientKey := recipient
        reference := report.reference, scts := report.serviceCenterTimestamp
        status := report.status } (clock row.id)
      collectParts clock line sim rows
    | .invalid => do
      quarantineNativePdu row.id line sim
      collectParts clock line sim rows

end Read

/-! ## Groups -/

/-- What the segments of one message share. -/
structure GroupKey where
  originator : Str
  assemblyKey : Str
  reference : UInt16
  total : UInt8
  deriving DecidableEq

/-- The order of the groups. -/
def GroupKey.before (a b : GroupKey) : Bool :=
  a.originator < b.originator || (a.originator == b.originator &&
    (a.assemblyKey < b.assemblyKey || (a.assemblyKey == b.assemblyKey &&
      (a.reference < b.reference || (a.reference == b.reference && a.total < b.total)))))

/-- The group of a segment that is not alone. -/
def Part.groupKey (part : Part) : Option GroupKey :=
  if part.message.segmentTotal = 1 then none
  else part.message.segmentReference.map fun reference => {
    originator := part.message.originator, assemblyKey := part.decoded.assemblyKey, reference
    total := part.message.segmentTotal }

/-- A new group at its place in the order. -/
def placeGroup (group : GroupKey × List Part) :
    List (GroupKey × List Part) → List (GroupKey × List Part)
  | [] => [group]
  | other :: groups =>
    if group.1.before other.1 then group :: other :: groups else other :: placeGroup group groups

/-- The entry of a map of groups, with the part at its end. -/
def pushPart (key : GroupKey) (part : Part) (groups : List (GroupKey × List Part)) :
    List (GroupKey × List Part) :=
  if groups.any (·.1 == key) then
    groups.map fun group => if group.1 = key then (group.1, group.2 ++ [part]) else group
  else placeGroup (key, [part]) groups

/-- A segment that is alone belongs to no group. -/
def addPart (groups : List (GroupKey × List Part)) (part : Part) : List (GroupKey × List Part) :=
  match part.groupKey with
  | some key => pushPart key part groups
  | none => groups

/-- The groups of the parts, in the order of their keys. -/
def groupParts (parts : List Part) : List (GroupKey × List Part) := parts.foldl addPart []

/-- `assemble`: the segments seen, each with the last part that has it. A repetition has to be a
duplicate delivery. -/
def sequences : List (UInt8 × MtSmsDeliver) → List Part → Option (List (UInt8 × MtSmsDeliver))
  | seen, [] => some seen
  | seen, part :: parts =>
    match seen.lookup part.sequence with
    | some previous =>
      if previous.isDuplicateDelivery part.message then
        sequences ((part.sequence, part.message) :: seen.filter (·.1 != part.sequence)) parts
      else none
    | none => sequences ((part.sequence, part.message) :: seen) parts

def assemble (parts : List Part) : Option (List Part) :=
  match parts with
  | [] => none
  | first :: _ =>
    let total := first.message.segmentTotal
    if 255 < parts.length then none
    else
      match sequences [] parts with
      | none => none
      | some seen =>
        if seen.length = total.toNat ∧
            (List.range' 1 total.toNat).all (fun n => (seen.lookup (UInt8.ofNat n)).isSome) then
          some parts
        else none

/-- The order in which a group is cut. -/
def Part.earlier (part other : Part) : Prop :=
  part.scts < other.scts ∨ part.scts = other.scts ∧ part.id ≤ other.id

instance : DecidableRel Part.earlier := fun part other =>
  inferInstanceAs (Decidable (part.scts < other.scts ∨ part.scts = other.scts ∧ part.id ≤ other.id))

/-- The windows of a group: a part that is later than the first of the window by more than the
window's length opens the next one. -/
def windows : (window parts : List Part) → List (List Part)
  | window, [] => [window]
  | [], part :: parts => windows [part] parts
  | first :: window, part :: parts =>
    if assemblyWindowSeconds < part.scts - first.scts then
      (first :: window) :: windows [part] parts
    else windows (first :: window ++ [part]) parts

/-- The groups that are complete: segments that are alone, and complete windows. -/
def completeGroups (parts : List Part) : List (List Part) :=
  ((parts.filter fun part => part.message.segmentTotal = 1).map fun part => [part]) ++
    (groupParts parts).flatMap fun group =>
      (windows [] (group.2.insertionSort Part.earlier)).filterMap assemble

/-! ## Messages -/

/-- The order in which the segments are joined. -/
def Part.precedes (part other : Part) : Prop :=
  part.sequence < other.sequence ∨ part.sequence = other.sequence ∧ part.id ≤ other.id

instance : DecidableRel Part.precedes := fun part other =>
  inferInstanceAs
    (Decidable (part.sequence < other.sequence ∨ part.sequence = other.sequence ∧
      part.id ≤ other.id))

/-- The text of the parts, one for each sequence number. -/
def joinedText : Option UInt8 → List Part → Str
  | _, [] => []
  | last, part :: parts =>
    if last = some part.sequence then joinedText last parts
    else part.message.text ++ joinedText (some part.sequence) parts

/-- `message_fingerprint` of a message that was put together. -/
def messageFingerprint (hashes : Hashes) (timestamp originator text : Str) : Str :=
  "smsfp1:".toList ++ originator ++ ":".toList ++ timestamp ++ ":".toList ++
    hexLower (hashes.md5 (asBytes text)) ++ ":none:1:1".toList

/-- The texts with `separator` between them. -/
def joinWith (separator : Str) (texts : List Str) : Str := (texts.intersperse separator).flatten

/-- The identity of the PDUs of a message. -/
def messageMarker (hashes : Hashes) (sim : Str) (parts : List Part) : Str :=
  "nativefp:".toList ++
    digest hashes (asBytes (sim ++ ":".toList ++ joinWith ":".toList (parts.map (·.hex))))

/-- The message of parts in the order of their sequence numbers. -/
def inboxMessage (hashes : Hashes) (line sim : Str) (dedupe : Bool) (first : Part)
    (parts : List Part) : InboxMessage where
  ids := parts.map (·.id)
  lineId := line
  simKey := sim
  number := first.message.originator
  text := joinedText none parts
  timestamp := first.message.serviceCenterTimestamp
  marker := messageMarker hashes sim parts
  fingerprint :=
    if dedupe then
      some (messageFingerprint hashes first.message.serviceCenterTimestamp first.message.originator
        (joinedText none parts))
    else none

/-- A group that was promoted, with the message stored for it unless its dedup key was known. -/
structure Promotion where
  parts : List Part
  message : InboxMessage
  stored : Option SmsMessage

section Consume

variable (chrono : Chrono) (hashes : Hashes)

/-- Promote the groups in order. -/
def promoteGroups (line sim : Str) (dedupe : Bool) :
    List (List Part) → Method Database DbError (List Promotion)
  | [] => pure []
  | group :: groups =>
    match group.insertionSort Part.precedes with
    | [] => promoteGroups line sim dedupe groups
    | first :: parts => do
      let message := inboxMessage hashes line sim dedupe first (first :: parts)
      let stored ← promoteNativeSms chrono message
      let promotions ← promoteGroups line sim dedupe groups
      return { parts := first :: parts, message, stored } :: promotions

/-- The promotions of a replay. -/
def promotePending (clock : ℕ → ℤ) (line sim : Str) (dedupe : Bool) :
    Method Database DbError (List Promotion) := do
  let rows ← pendingNativePdus line sim (← get)
  let parts ← collectParts chrono hashes clock line sim rows
  promoteGroups chrono hashes line sim dedupe (completeGroups parts)

/-- `consume_pending`: the messages stored. -/
def consumePending (clock : ℕ → ℤ) (line sim : Str) (dedupe : Bool) :
    Method Database DbError (List SmsMessage) := do
  let promotions ← promotePending chrono hashes clock line sim dedupe
  return promotions.filterMap (·.stored)

end Consume

end NativeSms

end SimMaster
