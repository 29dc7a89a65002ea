import SimMaster.NativeInbox

/-!
# What a call on the inbox can do

`Transition` lists every outcome of a call on the database: a call that fails leaves it as it was,
and one that succeeds passed its checks and commits one update. `step_transition` says that the list
is complete; the invariants of the tables are proved from it.
-/

namespace SimMaster

namespace NativeInbox

open Rust Method

variable {chrono : Chrono} {db next : Database}

/-- Every outcome of a call: the reply and the database it leaves. -/
inductive Transition (chrono : Chrono) (db : Database) :
    Call → Except DbError Reply → Database → Prop
  | refused {call : Call} {e : DbError} : Transition chrono db call (.error e) db
  | restaged {line sim kind fingerprint pdu : Str} {now : ℤ} {parsed : PduKind} {row : InboxRow} :
      stageKind kind fingerprint pdu = .ok parsed →
      db.findPdu line sim parsed fingerprint = some row →
      Transition chrono db (.stage line sim kind fingerprint pdu now) (.ok (.id row.id)) db
  | staged {line sim kind fingerprint pdu : Str} {now : ℤ} {parsed : PduKind} :
      scopeValid line sim = .ok () → stageKind kind fingerprint pdu = .ok parsed →
      db.findPdu line sim parsed fingerprint = none → db.full line = false →
      Transition chrono db (.stage line sim kind fingerprint pdu now) (.ok (.id db.nextInboxId))
        ((db.insertPdu line sim parsed fingerprint pdu now).pruneDone line)
  | acked {line sim fingerprint ack : Str} {parsed : Ack} :
      Transition chrono db (.markAck line sim fingerprint ack) (.ok .done)
        (db.setAck line sim fingerprint parsed)
  | quarantined {id : ℕ} {line sim : Str} :
      Transition chrono db (.quarantine id line sim) (.ok .done) (db.quarantine id line sim)
  | promoted {message : InboxMessage} {stamp : Str} :
      message.ids ≠ [] → message.ids.length ≤ 255 → message.ids.Nodup →
      normalizeSmsTimestampForDisplay chrono message.timestamp = some stamp →
      db.promotable message.ids message.lineId message.simKey = true →
      Transition chrono db (.promote message) (.ok (.message (db.promote message stamp).1))
        (db.promote message stamp).2
  | begun {send : NativeSend} {stamp : Str} :
      1 ≤ send.partCount → send.partCount ≤ 255 →
      Transition chrono db (.beginSend send stamp) (.ok (.id db.nextSmsId))
        (db.insertSend send stamp)
  | remembered {smsId part : ℕ} {reference : UInt8} {started finished : ℤ} :
      db.acceptsPart smsId (asI64 part) = true →
      (∀ row ∈ db.submissions, row.smsId = smsId → row.part ≠ asI64 part) →
      Transition chrono db (.rememberPart smsId part reference started finished) (.ok .done)
        (db.insertPart {
          smsId, part := asI64 part, reference, startedAt := started, finishedAt := finished })
  | finished {smsId : ℕ} {confirmed : Bool} {now now' : ℤ} {send : SendRow} {events :
      List AppEvent} :
      db.sends.find? (·.smsId == smsId) = some send → send.state = .sending →
      (confirmed = true → (db.partsOf smsId : ℤ) = send.partCount) →
      Transition chrono db (.finishSend smsId confirmed now now') (.ok .done)
        { db.finishSend smsId confirmed now now' with events }
  | reportDropped {report : NativeReport} {now : ℤ} :
      Transition chrono db (.consumeReport report now) (.ok (.delivered none))
        (db.quarantine report.id report.lineId report.simKey)
  | reportConsumed {report : NativeReport} {now : ℤ} {time : chrono.Instant} {row : InboxRow} :
      chrono.parseFromRfc3339 report.scts = some time →
      outOfRange (chrono.timestamp time) now = false → db.waitingReport report = some row →
      Transition chrono db (.consumeReport report now)
        (.ok (.delivered (db.consumeReport row report (chrono.timestamp time) now).1))
        (db.consumeReport row report (chrono.timestamp time) now).2

variable {now : ℤ}

theorem stage_transition {line sim kind fingerprint pdu : Str} :
    Transition chrono db (.stage line sim kind fingerprint pdu now)
      (step chrono db (.stage line sim kind fingerprint pdu now)).1
      (step chrono db (.stage line sim kind fingerprint pdu now)).2 := by
  rw [step, stageNativePdu, call_lift_bind]
  split
  next hscope =>
    rw [call_lift_bind]
    split
    next parsed hparsed =>
      rw [call_get_bind]
      split
      next row hrow => exact .restaged hparsed hrow
      next hnone =>
        rw [call_guard]
        split
        · exact .refused
        next hroom => exact .staged hscope hparsed hnone (by simpa using hroom)
    next => exact .refused
  next => exact .refused

theorem promote_transition {message : InboxMessage} :
    Transition chrono db (.promote message) (step chrono db (.promote message)).1
      (step chrono db (.promote message)).2 := by
  rw [step, promoteNativeSms, call_lift_bind]
  split
  next hscope =>
    rw [call_guard]
    split
    · exact .refused
    next hids =>
      simp only [Bool.or_eq_true, List.isEmpty_iff, decide_eq_true_iff, Bool.not_eq_true',
        decide_eq_false_iff_not, not_or, Nat.not_lt, not_not] at hids
      split
      · exact .refused
      next stamp hstamp =>
        rw [call_get_bind, call_guard]
        split
        · exact .refused
        next hready => exact .promoted hids.1.1 hids.1.2 hids.2 hstamp (by simpa using hready)
  next => exact .refused

theorem beginSend_transition {send : NativeSend} {stamp : Str} :
    Transition chrono db (.beginSend send stamp) (step chrono db (.beginSend send stamp)).1
      (step chrono db (.beginSend send stamp)).2 := by
  rw [step, beginNativeSmsSend, call_lift_bind]
  split
  next hscope =>
    rw [call_guard]
    split
    · exact .refused
    next hvalid =>
      simp only [Bool.or_eq_true, Bool.not_eq_true', Bool.and_eq_false_iff, decide_eq_false_iff_not,
        not_or, not_not] at hvalid
      rw [call_get_bind, call_guard]
      split
      · exact .refused
      · exact .begun hvalid.2.1 hvalid.2.2
  next => exact .refused

variable {smsId : ℕ}

theorem rememberPart_transition {part : ℕ} {reference : UInt8} {started finished : ℤ} :
    Transition chrono db (.rememberPart smsId part reference started finished)
      (step chrono db (.rememberPart smsId part reference started finished)).1
      (step chrono db (.rememberPart smsId part reference started finished)).2 := by
  rw [step, rememberNativeSmsPart, call_guard]
  split
  · exact .refused
  rw [call_get_bind, call_guard]
  split
  · exact .refused
  next haccepts =>
    rw [call_guard]
    split
    · exact .refused
    next hfresh =>
      refine .remembered (by simpa using haccepts) fun row hrow hid hpart => hfresh ?_
      exact List.any_eq_true.2 ⟨row, hrow, by simp [hid, hpart]⟩

theorem finishSend_transition {confirmed : Bool} {now' : ℤ} :
    Transition chrono db (.finishSend smsId confirmed now now')
      (step chrono db (.finishSend smsId confirmed now now')).1
      (step chrono db (.finishSend smsId confirmed now now')).2 := by
  rw [step, finishNativeSmsSend, call_get_bind]
  split
  · exact .refused
  next send hsend =>
    rw [call_guard]
    split
    · exact .refused
    next hstate =>
      rw [call_guard]
      split
      · exact .refused
      next hparts =>
        refine .finished hsend (not_not.1 hstate) fun hconfirmed => ?_
        exact not_not.1 fun hne => hparts ⟨hconfirmed, hne⟩

theorem consumeReport_transition {report : NativeReport} :
    Transition chrono db (.consumeReport report now) (step chrono db (.consumeReport report now)).1
      (step chrono db (.consumeReport report now)).2 := by
  rw [step, consumeNativeReport, call_lift_bind]
  split
  next hscope =>
    rw [call_guard]
    split
    · exact .refused
    split
    · exact .refused
    next time htime =>
      split
      · exact .reportDropped
      next hrange =>
        rw [call_get_bind]
        split
        · exact .refused
        next row hrow => exact .reportConsumed htime (by simpa using hrange) hrow
  next => exact .refused

/-- **The list of outcomes is complete.** -/
theorem step_transition (call : Call) :
    Transition chrono db call (step chrono db call).1 (step chrono db call).2 := by
  cases call with
  | stage line sim kind fingerprint pdu now => exact stage_transition
  | markAck line sim fingerprint ack =>
    rw [step, markNativePduAck, call_lift_bind]
    split
    next =>
      split
      · exact .refused
      · exact .acked
    next => exact .refused
  | quarantine id line sim =>
    rw [step, quarantineNativePdu, call_lift_bind]
    split
    next => exact .quarantined
    next => exact .refused
  | promote message => exact promote_transition
  | beginSend send stamp => exact beginSend_transition
  | rememberPart smsId part reference started finished => exact rememberPart_transition
  | finishSend smsId confirmed now now' => exact finishSend_transition
  | consumeReport report now => exact consumeReport_transition

end NativeInbox

end SimMaster
