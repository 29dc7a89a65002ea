import SimMaster.NativeInboxStep

/-!
# A delivered message was reported delivered part by part

A submission is numbered by its parts, confirmed when all of them are recorded, and delivered when a
status report affirmed each of them. `SendInvariant` ties the three tables together; it is stated
over the events it needs, the confirmations and affirmations so far, and `delivered_affirmed` reads
them off the history. The parts recorded are numbers of `usize` stored as `i64`, and the pruning
reads the clock twice, so the runs are those of `Call.Regular` calls; `delivered_negative_part` is
the run that goes wrong without it.
-/

namespace SimMaster

namespace NativeInbox

open Rust Method List Machine Bool

variable {chrono : Chrono} {db next : Database} {call : Call} {reply : Except DbError Reply}
  {confirmed confirmed' : ℕ → Prop} {affirmed affirmed' : ℕ → ℤ → Prop}

/-! ## The invariant -/

/-- The tables of the submissions agree with each other and with the events before: the messages
that were confirmed, and their parts that were affirmed. -/
structure SendInvariant (confirmed : ℕ → Prop) (affirmed : ℕ → ℤ → Prop) (db : Database) :
    Prop where
  ids : (db.sends.map (·.smsId)).Nodup
  sendIds : ∀ send ∈ db.sends, send.smsId < db.nextSmsId
  partIds : ∀ row ∈ db.submissions, row.smsId < db.nextSmsId
  messageIds : ∀ message ∈ db.messages, message.id < db.nextSmsId
  parts : (db.submissions.map fun row => (row.smsId, row.part)).Nodup
  range : ∀ send ∈ db.sends, ∀ row ∈ db.submissions, row.smsId = send.smsId →
    0 ≤ row.part ∧ row.part < send.partCount
  complete : ∀ send ∈ db.sends, send.state.isOpen = false →
    (db.partsOf send.smsId : ℤ) = send.partCount
  confirmed : ∀ send ∈ db.sends, send.state.isOpen = false → confirmed send.smsId
  affirmed : ∀ row ∈ db.submissions, row.reportStatus = some 0 → affirmed row.smsId row.part
  delivered : ∀ send ∈ db.sends, send.state = .delivered →
    ∀ row ∈ db.submissions, row.smsId = send.smsId → row.reportStatus = some 0
  messages : ∀ message ∈ db.messages, message.status = .delivered →
    ∀ send ∈ db.sends, send.smsId = message.id → send.state = .delivered

theorem SendInvariant.mono (h : SendInvariant confirmed affirmed db)
    (hconfirmed : ∀ smsId, confirmed smsId → confirmed' smsId)
    (haffirmed : ∀ smsId part, affirmed smsId part → affirmed' smsId part) :
    SendInvariant confirmed' affirmed' db :=
  { h with
    confirmed := fun send hsend hclosed => hconfirmed _ (h.confirmed send hsend hclosed)
    affirmed := fun row hrow hstatus => haffirmed _ _ (h.affirmed row hrow hstatus) }

variable {send : SendRow}

/-- A message has one submission. -/
theorem SendInvariant.unique (h : SendInvariant confirmed affirmed db) {send' : SendRow}
    (hsend : send ∈ db.sends) (hsend' : send' ∈ db.sends) (hid : send.smsId = send'.smsId) :
    send = send' := inj_on_of_nodup_map h.ids hsend hsend' hid

theorem SendInvariant.initial : SendInvariant confirmed affirmed {} where
  ids := nodup_nil
  sendIds := by intro send hsend; cases hsend
  partIds := by intro row hrow; cases hrow
  messageIds := by intro message hmessage; cases hmessage
  parts := nodup_nil
  range := by intro send hsend; cases hsend
  complete := by intro send hsend; cases hsend
  confirmed := by intro send hsend; cases hsend
  affirmed := by intro row hrow; cases hrow
  delivered := by intro send hsend; cases hsend
  messages := by intro message hmessage; cases hmessage

section

variable (h : SendInvariant confirmed affirmed db)
include h

/-- Operations on the inbox alone keep it. -/
theorem SendInvariant.of_same (hsends : next.sends = db.sends)
    (hparts : next.submissions = db.submissions) (hmessages : next.messages = db.messages)
    (hnext : next.nextSmsId = db.nextSmsId) : SendInvariant confirmed affirmed next := by
  obtain ⟨inbox, nextInboxId, received, sends, submissions, messages, nextSmsId, events⟩ := next
  obtain rfl := hsends
  obtain rfl := hparts
  obtain rfl := hmessages
  obtain rfl := hnext
  exact ⟨h.ids, h.sendIds, h.partIds, h.messageIds, h.parts, h.range, h.complete, h.confirmed,
    h.affirmed, h.delivered, h.messages⟩

/-- A new message that is not delivered. -/
theorem SendInvariant.insertMessage (message : SmsMessage)
    (hid : message.id = db.nextSmsId) (hstatus : message.status ≠ .delivered) :
    SendInvariant confirmed affirmed
      { db with messages := db.messages ++ [message], nextSmsId := db.nextSmsId + 1 } where
  ids := h.ids
  sendIds send hsend := (h.sendIds send hsend).trans (Nat.lt_succ_self _)
  partIds row hrow := (h.partIds row hrow).trans (Nat.lt_succ_self _)
  messageIds := by
    intro message' hmessage
    rcases mem_append.1 hmessage with hmessage | hmessage
    · exact (h.messageIds message' hmessage).trans (Nat.lt_succ_self _)
    · rw [mem_singleton.1 hmessage, hid]
      exact Nat.lt_succ_self _
  parts := h.parts
  range := h.range
  complete := h.complete
  confirmed := h.confirmed
  affirmed := h.affirmed
  delivered := h.delivered
  messages := by
    intro message' hmessage hdelivered
    rcases mem_append.1 hmessage with hmessage | hmessage
    · exact h.messages message' hmessage hdelivered
    · rw [mem_singleton.1 hmessage] at hdelivered
      exact absurd hdelivered hstatus

/-- A new submission has no parts. -/
theorem SendInvariant.insertSend (send : NativeSend)
    (stamp : Str) : SendInvariant confirmed affirmed (db.insertSend send stamp) := by
  have hmessage := h.insertMessage {
    id := db.nextSmsId, direction := .outgoing, phoneNumber := send.number, content := send.text
    timestamp := stamp, status := .pending, pdu := none, lineId := send.lineId } rfl (by simp)
  have hfresh : ∀ row ∈ db.submissions, row.smsId ≠ db.nextSmsId :=
    fun row hrow => Nat.ne_of_lt (h.partIds row hrow)
  have hsplit : ∀ row ∈ (db.insertSend send stamp).sends,
      row ∈ db.sends ∨ row.smsId = db.nextSmsId ∧ row.state = .sending := by
    intro row hrow
    rcases mem_append.1 hrow with hrow | hrow
    · exact Or.inl hrow
    · rw [mem_singleton.1 hrow]
      exact Or.inr ⟨rfl, rfl⟩
  refine ⟨?_, ?_, hmessage.partIds, hmessage.messageIds, h.parts, ?_, ?_, ?_, h.affirmed, ?_, ?_⟩
  · rw [Database.insertSend, map_append]
    refine nodup_append.2 ⟨h.ids, nodup_singleton _, ?_⟩
    intro id hid id' hid'
    obtain ⟨row, hrow, rfl⟩ := mem_map.1 hid
    rw [map_singleton, mem_singleton] at hid'
    rw [hid']
    exact Nat.ne_of_lt (h.sendIds row hrow)
  · intro row hrow
    rcases hsplit row hrow with hrow | ⟨hid, -⟩
    · exact (h.sendIds row hrow).trans (Nat.lt_succ_self _)
    · rw [hid]
      exact Nat.lt_succ_self _
  · intro row hrow part hpart hid
    rcases hsplit row hrow with hrow | ⟨hnew, -⟩
    · exact h.range row hrow part hpart hid
    · exact absurd (hid.trans hnew) (hfresh part hpart)
  · intro row hrow hclosed
    rcases hsplit row hrow with hrow | ⟨-, hstate⟩
    · exact h.complete row hrow hclosed
    · rw [hstate] at hclosed
      cases hclosed
  · intro row hrow hclosed
    rcases hsplit row hrow with hrow | ⟨-, hstate⟩
    · exact h.confirmed row hrow hclosed
    · rw [hstate] at hclosed
      cases hclosed
  · intro row hrow hdelivered
    rcases hsplit row hrow with hrow | ⟨-, hstate⟩
    · exact h.delivered row hrow hdelivered
    · rw [hstate] at hdelivered
      cases hdelivered
  · intro message hmem hdelivered row hrow hid
    rcases hsplit row hrow with hrow | ⟨hnew, -⟩
    · exact hmessage.messages message hmem hdelivered row hrow hid
    · -- the message of the new submission is pending, and no other has its id
      rcases mem_append.1 hmem with hmem | hmem
      · exact absurd (hid.symm.trans hnew) (Nat.ne_of_lt (h.messageIds message hmem))
      · rw [mem_singleton.1 hmem] at hdelivered
        cases hdelivered

end

/-! ## Recording parts -/

variable {row : SubmissionRow}

/-- A submission that takes parts is not closed, so its count of parts may still grow. -/
theorem SendInvariant.insertPart (h : SendInvariant confirmed affirmed db)
    (haccepts : db.acceptsPart row.smsId row.part = true) (hnonneg : 0 ≤ row.part)
    (hfresh : ∀ part ∈ db.submissions, part.smsId = row.smsId → part.part ≠ row.part)
    (hstatus : row.reportStatus = none) : SendInvariant confirmed affirmed (db.insertPart row) := by
  obtain ⟨target, htarget, haccepts⟩ := any_eq_true.1 haccepts
  simp only [and_eq_true, beq_iff_eq, decide_eq_true_iff] at haccepts
  obtain ⟨⟨hid, hsending⟩, hcount⟩ := haccepts
  have hsplit : ∀ part ∈ (db.insertPart row).submissions, part ∈ db.submissions ∨ part = row := by
    intro part hpart
    rcases mem_append.1 hpart with hpart | hpart
    · exact Or.inl hpart
    · exact Or.inr (mem_singleton.1 hpart)
  -- the part belongs to no submission but the one under way
  have howner : ∀ send ∈ db.sends, send.smsId = row.smsId → send = target :=
    fun send hsend hsame => h.unique hsend htarget (hsame.trans hid.symm)
  refine ⟨h.ids, h.sendIds, ?_, h.messageIds, ?_, ?_, ?_, h.confirmed, ?_, ?_, h.messages⟩
  · intro part hpart
    rcases hsplit part hpart with hpart | rfl
    · exact h.partIds part hpart
    · rw [← hid]
      exact h.sendIds target htarget
  · rw [Database.insertPart, map_append]
    refine nodup_append.2 ⟨h.parts, nodup_singleton _, ?_⟩
    intro key hkey key' hkey' heq
    obtain ⟨part, hpart, rfl⟩ := mem_map.1 hkey
    rw [map_singleton, mem_singleton] at hkey'
    obtain ⟨hsame, hnumber⟩ := Prod.mk.inj (heq.trans hkey')
    exact hfresh part hpart hsame hnumber
  · intro send hsend part hpart hsame
    rcases hsplit part hpart with hpart | rfl
    · exact h.range send hsend part hpart hsame
    · rw [howner send hsend hsame.symm]
      exact ⟨hnonneg, hcount⟩
  · intro send hsend hclosed
    have hother : row.smsId ≠ send.smsId := by
      intro hsame
      rw [howner send hsend hsame.symm, hsending] at hclosed
      cases hclosed
    rw [← h.complete send hsend hclosed, Database.partsOf, Database.partsOf, Database.insertPart,
      countP_append, countP_singleton, if_neg (by simpa using hother), Nat.add_zero]
  · intro part hpart hreported
    rcases hsplit part hpart with hpart | rfl
    · exact h.affirmed part hpart hreported
    · rw [hstatus] at hreported
      cases hreported
  · intro send hsend hdelivered part hpart hsame
    rcases hsplit part hpart with hpart | rfl
    · exact h.delivered send hsend hdelivered part hpart hsame
    · rw [howner send hsend hsame.symm, hsending] at hdelivered
      cases hdelivered

/-! ## Changing states -/

variable {smsId : ℕ} {state : SendState}

theorem mem_setSendState (h : send ∈ (db.setSendState smsId state).sends) : ∃ before ∈ db.sends,
      before.smsId = send.smsId ∧ before.partCount = send.partCount ∧
      (send.smsId = smsId ∧ send.state = state ∨ send.smsId ≠ smsId ∧ send = before) := by
  obtain ⟨before, hbefore, rfl⟩ := mem_map.1 h
  refine ⟨before, hbefore, ?_⟩
  by_cases hid : before.smsId = smsId
  · rw [if_pos (beq_iff_eq.2 hid)]
    exact ⟨rfl, rfl, Or.inl ⟨hid, rfl⟩⟩
  · rw [if_neg (by simpa using hid)]
    exact ⟨rfl, rfl, Or.inr ⟨hid, rfl⟩⟩

section

variable (h : SendInvariant confirmed affirmed db)
include h

/-- A submission enters a state whose conditions it meets. -/
theorem SendInvariant.setSendState
    (hcomplete : state.isOpen = false → ∀ send ∈ db.sends, send.smsId = smsId →
      (db.partsOf smsId : ℤ) = send.partCount) (hconfirmed : state.isOpen = false → confirmed smsId)
    (hdelivered : state = .delivered → ∀ row ∈ db.submissions, row.smsId = smsId →
      row.reportStatus = some 0)
    (hmessages : ∀ message ∈ db.messages, message.status = .delivered → message.id = smsId →
      state = .delivered) : SendInvariant confirmed affirmed (db.setSendState smsId state) := by
  refine ⟨?_, ?_, h.partIds, h.messageIds, h.parts, ?_, ?_, ?_, h.affirmed, ?_, ?_⟩
  · have hids : (db.setSendState smsId state).sends.map (·.smsId) = db.sends.map (·.smsId) := by
      rw [Database.setSendState, map_map]
      refine map_congr_left fun send _ => ?_
      rw [Function.comp_apply]
      split
      · rfl
      · rfl
    rw [hids]
    exact h.ids
  · intro send hsend
    obtain ⟨before, hbefore, hid, -, -⟩ := mem_setSendState hsend
    rw [← hid]
    exact h.sendIds before hbefore
  · intro send hsend row hrow hsame
    obtain ⟨before, hbefore, hid, hcount, -⟩ := mem_setSendState hsend
    rw [← hcount]
    exact h.range before hbefore row hrow (hsame.trans hid.symm)
  · intro send hsend hclosed
    obtain ⟨before, hbefore, hid, hcount, ⟨htarget, hstate⟩ | ⟨-, rfl⟩⟩ := mem_setSendState hsend
    · rw [htarget, ← hcount]
      exact hcomplete (hstate ▸ hclosed) before hbefore (hid.trans htarget)
    · exact h.complete _ hbefore hclosed
  · intro send hsend hclosed
    obtain ⟨before, hbefore, -, -, ⟨htarget, hstate⟩ | ⟨-, rfl⟩⟩ := mem_setSendState hsend
    · rw [htarget]
      exact hconfirmed (hstate ▸ hclosed)
    · exact h.confirmed _ hbefore hclosed
  · intro send hsend hstate' row hrow hsame
    obtain ⟨before, hbefore, -, -, ⟨htarget, hstate⟩ | ⟨-, rfl⟩⟩ := mem_setSendState hsend
    · exact hdelivered (hstate.symm.trans hstate') row hrow (hsame.trans htarget)
    · exact h.delivered _ hbefore hstate' row hrow hsame
  · intro message hmessage hstatus send hsend hsame
    obtain ⟨before, hbefore, -, -, ⟨htarget, hstate⟩ | ⟨-, rfl⟩⟩ := mem_setSendState hsend
    · rw [hstate]
      exact hmessages message hmessage hstatus (hsame.symm.trans htarget)
    · exact h.messages message hmessage hstatus _ hbefore hsame

/-- Messages enter a state; they are delivered only if their submissions are. -/
theorem SendInvariant.setSmsStatus (p : SmsMessage → Bool) (status : SmsStatus)
    (hstatus : status = .delivered → ∀ message ∈ db.messages, p message = true →
      ∀ send ∈ db.sends, send.smsId = message.id → send.state = .delivered) :
    SendInvariant confirmed affirmed (db.setSmsStatus p status) := by
  refine ⟨h.ids, h.sendIds, h.partIds, ?_, h.parts, h.range, h.complete, h.confirmed, h.affirmed,
    h.delivered, ?_⟩
  · intro message hmessage
    obtain ⟨before, hbefore, rfl⟩ := mem_map.1 hmessage
    split
    · exact h.messageIds before hbefore
    · exact h.messageIds before hbefore
  · intro message hmessage hdelivered send hsend hsame
    obtain ⟨before, hbefore, rfl⟩ := mem_map.1 hmessage
    by_cases hp : p before = true
    · rw [if_pos hp] at hdelivered hsame
      exact hstatus hdelivered before hbefore hp send hsend hsame
    · rw [if_neg hp] at hdelivered hsame
      exact h.messages before hbefore hdelivered send hsend hsame

/-- Pruning takes the parts of a submission only together with the submission, when its second
reading of the clock is not the earlier one. -/
theorem SendInvariant.retire {cutoff cutoff' : ℤ}
    (hle : cutoff ≤ cutoff') : SendInvariant confirmed affirmed (db.retire cutoff cutoff') := by
  have hsends : (db.retire cutoff cutoff').sends.Sublist db.sends := filter_sublist
  have hparts : (db.retire cutoff cutoff').submissions.Sublist db.submissions := filter_sublist
  have hkept : ∀ send ∈ (db.retire cutoff cutoff').sends, ∀ row ∈ db.submissions,
      row.smsId = send.smsId →
        (!db.sends.any fun old => old.retires cutoff && old.smsId == row.smsId) = true := by
    intro send hsend row hrow hsame
    obtain ⟨hmem, hstays⟩ := mem_filter.1 hsend
    rw [not_eq_true', any_eq_false]
    intro old hold hretires
    rw [and_eq_true, beq_iff_eq] at hretires
    obtain rfl := h.unique hold hmem (hretires.2.trans hsame)
    rw [not_eq_true', SendRow.retires] at hstays
    obtain ⟨hretires, -⟩ := hretires
    rw [SendRow.retires, and_eq_true, decide_eq_true_iff] at hretires
    rw [hretires.1, Bool.true_and, decide_eq_false_iff_not] at hstays
    omega
  refine ⟨h.ids.sublist (hsends.map _), fun send hsend => h.sendIds send (hsends.subset hsend),
    fun row hrow => h.partIds row (hparts.subset hrow), h.messageIds,
      h.parts.sublist (hparts.map _),
    fun send hsend row hrow => h.range send (hsends.subset hsend) row (hparts.subset hrow), ?_,
    fun send hsend => h.confirmed send (hsends.subset hsend),
    fun row hrow => h.affirmed row (hparts.subset hrow),
    fun send hsend hstate row hrow =>
      h.delivered send (hsends.subset hsend) hstate row (hparts.subset hrow),
    fun message hmessage hstatus send hsend =>
      h.messages message hmessage hstatus send (hsends.subset hsend)⟩
  intro send hsend hclosed
  rw [← h.complete send (hsends.subset hsend) hclosed, Database.partsOf, Database.partsOf,
    Database.retire, countP_filter]
  congr 1
  refine countP_congr fun row hrow => ?_
  rw [and_eq_true, beq_iff_eq]
  exact ⟨fun hboth => hboth.1, fun hsame => ⟨hsame, hkept send hsend row hrow hsame⟩⟩

/-- The end of a submission that is under way: sent with all its parts, or unconfirmed. -/
theorem SendInvariant.finishSend {isConfirmed : Bool} {now now' : ℤ} {events : List AppEvent}
    (hsend : send ∈ db.sends) (hid : send.smsId = smsId) (hstate : send.state = .sending)
    (hparts : isConfirmed = true → (db.partsOf smsId : ℤ) = send.partCount)
    (hconfirmed : isConfirmed = true → confirmed smsId) (hle : now ≤ now') :
    SendInvariant confirmed affirmed { db.finishSend smsId isConfirmed now now' with events } := by
  have hsent : (if isConfirmed then SendState.sent else .unconfirmed).isOpen = false →
      isConfirmed = true := by
    cases isConfirmed with
    | true => exact fun _ => rfl
    | false => nofun
  have hstates : SendInvariant confirmed affirmed
      (db.setSendState smsId (if isConfirmed then .sent else .unconfirmed)) := by
    refine h.setSendState ?_ (fun hopen => hconfirmed (hsent hopen)) ?_ ?_
    · intro hopen send' hsend' hid'
      rw [h.unique hsend' hsend (hid'.trans hid.symm)]
      exact hparts (hsent hopen)
    · intro hdelivered
      cases isConfirmed with
      | true => cases hdelivered
      | false => cases hdelivered
    · intro message hmessage hdelivered hsame
      have hsending := h.messages message hmessage hdelivered send hsend (hid.trans hsame.symm)
      rw [hstate] at hsending
      cases hsending
  have hmessages := hstates.setSmsStatus (·.id == smsId)
    (if isConfirmed then .sent else .pending) (by
      intro hdelivered
      cases isConfirmed with
      | true => cases hdelivered
      | false => cases hdelivered)
  exact (hmessages.retire (Int.sub_le_sub_right hle _)).of_same rfl rfl rfl rfl

end

/-! ## Reports -/

variable {report : NativeReport} {reportTime : ℤ} {part : SubmissionRow}

theorem mem_candidates (h : (part, send) ∈ db.candidates report reportTime) :
    part ∈ db.submissions ∧ send ∈ db.sends ∧ send.smsId = part.smsId := by
  obtain ⟨part', hpart, hmem⟩ := mem_flatMap.1 h
  obtain ⟨send', hsend, heq⟩ := mem_map.1 hmem
  obtain ⟨rfl, rfl⟩ := Prod.mk.inj heq
  obtain ⟨hsend, hmatch⟩ := mem_filter.1 hsend
  rw [and_eq_true, beq_iff_eq] at hmatch
  exact ⟨(mem_filter.1 hpart).1, hsend, hmatch.1⟩

/-- A correlated part is the only candidate, of a closed submission, and no submission to the
recipient is uncertain. -/
theorem correlated_eq_some (h : db.correlated report reportTime = some (part, send)) :
    db.uncertain report reportTime = false ∧ db.candidates report reportTime = [(part, send)] ∧
      send.state.isOpen = false := by
  rw [Database.correlated] at h
  split at h
  · cases h
  next hcertain =>
    split at h
    next part' send' hcandidates =>
      split at h
      · cases h
      next hclosed =>
        obtain ⟨rfl, rfl⟩ := Prod.mk.inj (Option.some.inj h)
        exact ⟨by simpa using hcertain, hcandidates, by simpa using hclosed⟩
    · cases h

/-- The call reports success, and of all the parts recorded it can only be about this one: the part
has the reference of the report and was submitted about its time, by a confirmed submission on the
line and SIM to the recipient, and no other submission to the recipient has an open outcome. -/
def Affirms (chrono : Chrono) (db : Database) (call : Call) (smsId : ℕ) (part : ℤ) : Prop :=
  ∃ report now time row send, call = .consumeReport report now ∧ report.status = 0 ∧
    chrono.parseFromRfc3339 report.scts = some time ∧ (db.waitingReport report).isSome ∧
    db.uncertain report (chrono.timestamp time) = false ∧
    db.candidates report (chrono.timestamp time) = [(row, send)] ∧ send.state.isOpen = false ∧
    row.smsId = smsId ∧ row.part = part

theorem mem_noteReport
    (h : row ∈ (db.noteReport part report).submissions) : ∃ before ∈ db.submissions,
      before.smsId = row.smsId ∧ before.part = row.part ∧
      (row = before ∨ before.reportStatus ≠ some 0 ∧ row.reportStatus = some report.status ∧
        row.smsId = part.smsId ∧ row.part = part.part) := by
  obtain ⟨before, hbefore, rfl⟩ := mem_map.1 h
  refine ⟨before, hbefore, ?_⟩
  split
  next hnoted =>
    simp only [and_eq_true, beq_iff_eq, bne_iff_ne] at hnoted
    exact ⟨rfl, rfl, Or.inr ⟨hnoted.2, rfl, hnoted.1⟩⟩
  next => exact ⟨rfl, rfl, Or.inl rfl⟩

/-- Noting a report keeps the parts, and no part loses its success. -/
theorem SendInvariant.noteReport (h : SendInvariant confirmed affirmed db)
    (haffirmed : report.status = 0 → affirmed part.smsId part.part) :
    SendInvariant confirmed affirmed (db.noteReport part report) := by
  have hkey : ∀ row : SubmissionRow,
      (fun row : SubmissionRow => (row.smsId, row.part))
        (if row.smsId == part.smsId && row.part == part.part && row.reportStatus != some 0 then
          { row with reportStatus := some report.status, reportScts := some report.scts }
        else row) = (row.smsId, row.part) := by
    intro row
    split
    · rfl
    · rfl
  have hcount : ∀ smsId, (db.noteReport part report).partsOf smsId = db.partsOf smsId := by
    intro smsId
    rw [Database.partsOf, Database.noteReport, countP_map]
    refine countP_congr fun row _ => ?_
    have hid := congrArg Prod.fst (hkey row)
    dsimp only at hid
    rw [Function.comp_apply, hid]
  refine ⟨h.ids, h.sendIds, ?_, h.messageIds, ?_, ?_, ?_, h.confirmed, ?_, ?_, h.messages⟩
  · intro row hrow
    obtain ⟨before, hbefore, hid, -⟩ := mem_noteReport hrow
    rw [← hid]
    exact h.partIds before hbefore
  · rw [Database.noteReport, map_map]
    exact (congrArg Nodup (map_congr_left fun row _ => hkey row)).mpr h.parts
  · intro send hsend row hrow hsame
    obtain ⟨before, hbefore, hid, hnumber, -⟩ := mem_noteReport hrow
    rw [← hnumber]
    exact h.range send hsend before hbefore (hid.trans hsame)
  · intro send hsend hclosed
    rw [hcount]
    exact h.complete send hsend hclosed
  · intro row hrow hstatus
    obtain ⟨before, hbefore, -, -, rfl | ⟨-, hnoted, hid, hnumber⟩⟩ := mem_noteReport hrow
    · exact h.affirmed row hbefore hstatus
    · rw [hid, hnumber]
      exact haffirmed (Option.some.inj (hnoted.symm.trans hstatus))
  · intro send hsend hdelivered row hrow hsame
    obtain ⟨before, hbefore, hid, -, rfl | ⟨hopen, -⟩⟩ := mem_noteReport hrow
    · exact h.delivered send hsend hdelivered row hbefore hsame
    · exact absurd (h.delivered send hsend hdelivered before hbefore (hid.trans hsame)) hopen

/-- As many parts are reported delivered as the submission has: all of them are. -/
theorem reported_of_deliveredParts (h : db.deliveredParts smsId = db.partsOf smsId) :
    ∀ row ∈ db.submissions, row.smsId = smsId → row.reportStatus = some 0 := by
  have hcount : (db.submissions.filter (·.smsId == smsId)).countP (·.reportStatus == some 0) =
      (db.submissions.filter (·.smsId == smsId)).length := by
    rw [countP_filter, ← countP_eq_length_filter]
    refine (countP_congr fun row _ => ?_).trans h
    rw [Bool.and_comm]
  intro row hrow hid
  have hmem : row ∈ db.submissions.filter (·.smsId == smsId) :=
    mem_filter.2 ⟨hrow, beq_iff_eq.2 hid⟩
  exact beq_iff_eq.1 (countP_eq_length.1 hcount row hmem)

theorem SendInvariant.deliver (h : SendInvariant confirmed affirmed db) {line : Str}
    (hsend : send ∈ db.sends) (hclosed : send.state.isOpen = false)
    (hcount : (db.deliveredParts send.smsId : ℤ) = send.partCount) :
    SendInvariant confirmed affirmed
      ((db.setSmsStatus (·.awaits send.smsId line) .delivered).setSendState send.smsId
        .delivered) := by
  have hcomplete := h.complete send hsend hclosed
  have hstates : SendInvariant confirmed affirmed (db.setSendState send.smsId .delivered) := by
    refine h.setSendState ?_ (fun _ => h.confirmed send hsend hclosed) (fun _ => ?_)
      fun _ _ _ _ => rfl
    · intro _ send' hsend' hid
      rw [h.unique hsend' hsend hid]
      exact hcomplete
    · exact reported_of_deliveredParts (Int.ofNat.inj (hcount.trans hcomplete.symm))
  refine hstates.setSmsStatus _ _ fun _ message _ hawaits send' hsend' hid => ?_
  simp only [SmsMessage.awaits, and_eq_true, beq_iff_eq] at hawaits
  obtain ⟨before, -, -, -, ⟨-, hstate⟩ | ⟨hother, -⟩⟩ := mem_setSendState hsend'
  · exact hstate
  · exact absurd (hid.trans hawaits.1.1.1) hother

theorem SendInvariant.applyCorrelated (h : SendInvariant confirmed affirmed db)
    (haffirmed : ∀ part send, db.correlated report reportTime = some (part, send) →
      report.status = 0 → affirmed part.smsId part.part) :
    SendInvariant confirmed affirmed (db.applyCorrelated report reportTime).2 := by
  rw [Database.applyCorrelated]
  split
  next part send hcorrelated =>
    obtain ⟨-, hcandidates, hclosed⟩ := correlated_eq_some hcorrelated
    obtain ⟨-, hsend, -⟩ := mem_candidates (by rw [hcandidates]; exact mem_singleton_self _)
    have hnoted := h.noteReport (haffirmed part send hcorrelated)
    rw [Database.applyReport]
    split
    next hall => exact hnoted.deliver hsend hclosed hall.1
    next => exact hnoted
  next => exact h

/-! ## Runs -/

/-- The arguments for which the arithmetic of the tables is that of the numbers: the part is one of
`i64`, and the clock does not go back while old history is pruned. -/
def Call.Regular : Call → Prop
  | .rememberPart _ part _ _ _ => part < 2 ^ 63
  | .finishSend _ _ now now' => now ≤ now'
  | _ => True

theorem asI64_nonneg {n : ℕ} (h : n < 2 ^ 63) : 0 ≤ asI64 n := by
  have hsame : asI64 n = n := Int.bmod_eq_of_le (by norm_num) (by norm_num; omega)
  rw [hsame]
  exact Int.natCast_nonneg n

theorem SendInvariant.step (h : SendInvariant confirmed affirmed db)
    (htransition : Transition chrono db call reply next) (hregular : call.Regular)
    (hconfirmed : ∀ smsId now now', call = .finishSend smsId true now now' → reply = .ok .done →
      confirmed smsId)
    (haffirmed : ∀ smsId part, Affirms chrono db call smsId part → affirmed smsId part) :
    SendInvariant confirmed affirmed next := by
  cases htransition with
  | promoted =>
    rw [Database.promote]
    split
    · exact h.of_same rfl rfl rfl rfl
    · refine (h.insertMessage (db.incomingSms _ _) rfl ?_).of_same rfl rfl rfl rfl
      rintro ⟨⟩
  | begun => exact h.insertSend _ _
  | remembered haccepts hfresh =>
    refine h.insertPart ?_ ?_ ?_ rfl
    · dsimp only
      exact haccepts
    · dsimp only
      exact asI64_nonneg hregular
    · dsimp only
      exact hfresh
  | finished hfind hstate hparts =>
    have hid := find?_some hfind
    refine h.finishSend (mem_of_find?_eq_some hfind) (beq_iff_eq.1 hid) hstate hparts ?_ hregular
    rintro rfl
    exact hconfirmed _ _ _ rfl rfl
  | reportConsumed htime _ hrow =>
    refine (h.applyCorrelated fun part send hcorrelated hstatus => haffirmed _ _ ?_).of_same
      rfl rfl rfl rfl
    obtain ⟨hcertain, hcandidates, hclosed⟩ := correlated_eq_some hcorrelated
    exact ⟨_, _, _, part, send, rfl, hstatus, htime, Option.isSome_of_eq_some hrow, hcertain,
      hcandidates, hclosed, rfl, rfl⟩
  | _ => exact h.of_same rfl rfl rfl rfl

/-- One of the calls confirmed the submission. -/
def Confirmed (chrono : Chrono) (calls : List Call) (smsId : ℕ) : Prop :=
  ∃ before now now', before ++ [Call.finishSend smsId true now now'] <+: calls ∧
    (step chrono (Machine.run (step chrono) {} before) (.finishSend smsId true now now')).1 =
      .ok .done

/-- One of the calls affirmed the part. -/
def Affirmed (chrono : Chrono) (calls : List Call) (smsId : ℕ) (part : ℤ) : Prop :=
  ∃ before call, before ++ [call] <+: calls ∧
    Affirms chrono (Machine.run (step chrono) {} before) call smsId part

variable {calls : List Call}

theorem sendInvariant_run (chrono : Chrono) (hregular : ∀ call ∈ calls, call.Regular) :
    SendInvariant (Confirmed chrono calls) (Affirmed chrono calls)
      (run (step chrono) {} calls) := by
  induction calls using reverseRecOn with
  | nil => exact .initial
  | append_singleton calls call ih =>
    have hmore : calls <+: calls ++ [call] := prefix_append _ _
    have hbefore : SendInvariant (Confirmed chrono (calls ++ [call]))
        (Affirmed chrono (calls ++ [call])) (run (step chrono) {} calls) :=
      (ih fun call hcall => hregular call (mem_append_left _ hcall)).mono
        (fun smsId ⟨before, now, now', hmem, hreply⟩ =>
          ⟨before, now, now', hmem.trans hmore, hreply⟩)
        fun smsId part ⟨before, call', hmem, haffirms⟩ =>
          ⟨before, call', hmem.trans hmore, haffirms⟩
    rw [run_concat]
    refine hbefore.step (step_transition call)
      (hregular call (mem_append_right _ (mem_singleton_self _))) ?_ ?_
    · rintro smsId now now' rfl hreply
      exact ⟨calls, now, now', prefix_refl _, hreply⟩
    · exact fun smsId part haffirms => ⟨calls, call, prefix_refl _, haffirms⟩

/-- The parts of a submission that is complete are numbered without a gap. -/
theorem SendInvariant.parts_exact (h : SendInvariant confirmed affirmed db)
    (hsend : send ∈ db.sends) (hclosed : send.state.isOpen = false) (part : ℤ) :
    (∃ row ∈ db.submissions, row.smsId = send.smsId ∧ row.part = part) ↔
      0 ≤ part ∧ part < send.partCount := by
  constructor
  · rintro ⟨row, hrow, hid, rfl⟩
    exact h.range send hsend row hrow hid
  rintro ⟨hnonneg, hlt⟩
  -- as many different numbers below the total as the total
  set own : List SubmissionRow := db.submissions.filter (·.smsId == send.smsId) with hown
  have hmem : ∀ row ∈ own, row ∈ db.submissions ∧ row.smsId = send.smsId := fun row hrow =>
    ⟨(mem_filter.1 hrow).1, beq_iff_eq.1 (mem_filter.1 hrow).2⟩
  have hnodup : (own.map (·.part)).Nodup := by
    have hkeys : (own.map fun row => (row.smsId, row.part)).Nodup :=
      h.parts.sublist (filter_sublist.map _)
    refine Nodup.map_on (fun row hrow row' hrow' hsame => ?_) hkeys.of_map
    exact inj_on_of_nodup_map hkeys hrow hrow'
      (Prod.ext ((hmem row hrow).2.trans (hmem row' hrow').2.symm) hsame)
  have hlength : ((own.map (·.part)).length : ℤ) = send.partCount := by
    rw [length_map, ← h.complete send hsend hclosed, Database.partsOf, countP_eq_length_filter]
  have hsubset : (own.map (·.part)).toFinset ⊆ Finset.Ico 0 send.partCount := by
    intro number hnumber
    obtain ⟨row, hrow, rfl⟩ := mem_map.1 (mem_toFinset.1 hnumber)
    exact Finset.mem_Ico.2 (h.range send hsend row (hmem row hrow).1 (hmem row hrow).2)
  have hall : (own.map (·.part)).toFinset = Finset.Ico 0 send.partCount := by
    refine Finset.eq_of_subset_of_card_le hsubset ?_
    rw [toFinset_card_of_nodup hnodup, Int.card_Ico]
    omega
  have hpart : part ∈ (own.map (·.part)).toFinset := by
    rw [hall]
    exact Finset.mem_Ico.2 ⟨hnonneg, hlt⟩
  obtain ⟨row, hrow, rfl⟩ := mem_map.1 (mem_toFinset.1 hpart)
  exact ⟨row, (hmem row hrow).1, (hmem row hrow).2, rfl⟩

/-! ## Delivered is final -/

variable {message : SmsMessage}

theorem mem_setSmsStatus {p : SmsMessage → Bool} {status : SmsStatus}
    (h : message ∈ db.messages) (hp : p message = false) :
    message ∈ (db.setSmsStatus p status).messages :=
  mem_map.2 ⟨message, h, by rw [hp]; rfl⟩

/-- A delivered message stays as it is. -/
theorem SendInvariant.keeps_message (h : SendInvariant confirmed affirmed db)
    (htransition : Transition chrono db call reply next)
    (hmessage : message ∈ db.messages) (hdelivered : message.status = .delivered) :
    message ∈ next.messages := by
  cases htransition with
  | promoted =>
    rw [Database.promote]
    split
    · exact hmessage
    · exact mem_append_left _ hmessage
  | begun => exact mem_append_left _ hmessage
  | finished hfind hstate =>
    refine mem_setSmsStatus hmessage (beq_eq_false_iff_ne.2 fun hid => ?_)
    have hsent := find?_some hfind
    have hfinal := h.messages message hmessage hdelivered _ (mem_of_find?_eq_some hfind)
      ((beq_iff_eq.1 hsent).trans hid.symm)
    rw [hstate] at hfinal
    cases hfinal
  | reportConsumed =>
    change message ∈ (db.applyCorrelated _ _).2.messages
    rw [Database.applyCorrelated]
    split
    · rw [Database.applyReport]
      split
      · exact mem_setSmsStatus hmessage (by simp [SmsMessage.awaits, hdelivered])
      · exact hmessage
    · exact hmessage
  | _ => exact hmessage

/-- The submission of an id that was given away is the one given, or pruned. -/
def Settled (send : SendRow) (db : Database) : Prop :=
  send.smsId < db.nextSmsId ∧ ∀ send' ∈ db.sends, send'.smsId = send.smsId → send' = send

/-- A delivered submission stays as it is until it is pruned. -/
theorem Transition.settled (htransition : Transition chrono db call reply next)
    (h : Settled send db) (hdelivered : send.state = .delivered) : Settled send next := by
  obtain ⟨hlt, honly⟩ := h
  cases htransition with
  | promoted =>
    rw [Database.promote]
    split
    · exact ⟨hlt, honly⟩
    · exact ⟨hlt.trans (Nat.lt_succ_self _), honly⟩
  | begun =>
    refine ⟨hlt.trans (Nat.lt_succ_self _), fun send' hsend' hid => ?_⟩
    rcases mem_append.1 hsend' with hsend' | hsend'
    · exact honly send' hsend' hid
    · rw [mem_singleton.1 hsend'] at hid
      exact absurd hid (Nat.ne_of_gt hlt)
  | finished hfind hstate =>
    refine ⟨hlt, fun send' hsend' hid => ?_⟩
    obtain ⟨before, hbefore, hsame, -, ⟨htarget, -⟩ | ⟨-, rfl⟩⟩ :=
      mem_setSendState (mem_of_mem_filter hsend')
    · -- the one that ends is under way
      have hsent := find?_some hfind
      have hfinal := honly _ (mem_of_find?_eq_some hfind)
        ((beq_iff_eq.1 hsent).trans (htarget.symm.trans hid))
      rw [hfinal, hdelivered] at hstate
      cases hstate
    · exact honly _ hbefore hid
  | reportConsumed =>
    change Settled send (db.applyCorrelated _ _).2
    rw [Database.applyCorrelated]
    split
    · rw [Database.applyReport]
      split
      · refine ⟨hlt, fun send' hsend' hid => ?_⟩
        obtain ⟨before, hbefore, rfl⟩ := mem_map.1 hsend'
        split at hid
        next hp =>
          rw [if_pos hp]
          obtain rfl := honly before hbefore hid
          rw [← hdelivered]
        next hp =>
          rw [if_neg hp]
          exact honly before hbefore hid
      · exact ⟨hlt, honly⟩
    · exact ⟨hlt, honly⟩
  | _ => exact ⟨hlt, honly⟩

theorem settled_run (h : Settled send db) (hdelivered : send.state = .delivered)
    (more : List Call) : Settled send (run (step chrono) db more) :=
  run_invariant _ h
    (fun _ call hsettled => (step_transition call).settled hsettled hdelivered) more

theorem keeps_message_run {more : List Call} (hregular : ∀ call ∈ calls ++ more, call.Regular)
    (hmessage : message ∈ (run (step chrono) {} calls).messages)
    (hdelivered : message.status = .delivered) :
    message ∈ (run (step chrono) {} (calls ++ more)).messages := by
  induction more using reverseRecOn with
  | nil => rwa [append_nil]
  | append_singleton more call ih =>
    rw [← append_assoc] at hregular ⊢
    have hbefore : ∀ call ∈ calls ++ more, call.Regular :=
      fun call hcall => hregular call (mem_append_left _ hcall)
    rw [run_concat]
    exact (sendInvariant_run chrono hbefore).keeps_message (step_transition call) (ih hbefore)
      hdelivered

/-- **Delivered means every part was affirmatively reported.** In a run of regular calls the parts
recorded for a delivered submission are numbered without a gap, one of the calls confirmed the
submission, and each part was affirmed by a report. No later calls change it, or its message. -/
theorem delivered_affirmed (chrono : Chrono) {calls more : List Call}
    (hregular : ∀ call ∈ calls ++ more, call.Regular) :
    let db : Database := Machine.run (step chrono) {} calls
    let later : Database := Machine.run (step chrono) db more
    (∀ send ∈ db.sends, send.state = .delivered →
      (∀ part, (∃ row ∈ db.submissions, row.smsId = send.smsId ∧ row.part = part) ↔
        0 ≤ part ∧ part < send.partCount) ∧
      Confirmed chrono calls send.smsId ∧
      (∀ part, 0 ≤ part → part < send.partCount → Affirmed chrono calls send.smsId part) ∧
      ∀ send' ∈ later.sends, send'.smsId = send.smsId → send' = send) ∧
    ∀ message ∈ db.messages, message.status = .delivered → message ∈ later.messages := by
  intro db later
  have hinv := sendInvariant_run chrono fun call hcall => hregular call (mem_append_left _ hcall)
  refine ⟨fun send hsend hdelivered => ?_, fun message hmessage hdelivered => ?_⟩
  · have hclosed : send.state.isOpen = false := by rw [hdelivered]; rfl
    have hexact := hinv.parts_exact hsend hclosed
    refine ⟨hexact, hinv.confirmed send hsend hclosed, fun part hnonneg hlt => ?_, ?_⟩
    · obtain ⟨row, hrow, hid, rfl⟩ := (hexact part).2 ⟨hnonneg, hlt⟩
      rw [← hid]
      exact hinv.affirmed row hrow (hinv.delivered send hsend hdelivered row hrow hid)
    · have hsettled : Settled send db := ⟨hinv.sendIds send hsend,
        fun send' hsend' hid => hinv.unique hsend' hsend hid⟩
      exact (settled_run hsettled hdelivered more).2
  · have hlater := keeps_message_run hregular hmessage hdelivered
    rwa [Machine.run_append] at hlater

/-! ## A run -/

/-- A calendar that knows the start of 1970. -/
def epoch : Chrono where
  Instant := ℤ
  parseFromRfc3339 text := if text = "1970-01-01T00:00:00+00:00".toList then some 0 else none
  timestamp := id
  toRfc3339 _ := "1970-01-01T00:00:00+00:00".toList
  withYmdAndHms _ _ _ _ _ _ _ := none

/-- A submission of one part, recorded under the given number, confirmed and reported delivered. -/
def oneReport (part : ℕ) : List Call :=
  let line := "line".toList
  let sim := replicate 64 'a'
  let recipient := replicate 64 'b'
  [.beginSend { lineId := line, simKey := sim, recipientKey := recipient, number := "5".toList
                text := "hi".toList, partCount := 1, startedAt := 0 } [],
    .rememberPart 1 part 7 0 0, .finishSend 1 true 0 0,
    .stage line sim "report".toList recipient "00".toList 0,
    .consumeReport { id := 1, lineId := line, simKey := sim, recipientKey := recipient, reference :=
      7
                     scts := "1970-01-01T00:00:00+00:00".toList, status := 0 } 0]

/-- A part numbered from 2^63 on is recorded under a negative number, which the comparison with the
total lets through: the submission is delivered without its part 0. -/
theorem delivered_negative_part :
    let db : Database := Machine.run (step epoch) {} (oneReport (2 ^ 64 - 1))
    ∃ send ∈ db.sends, send.state = .delivered ∧ send.partCount = 1 ∧
      (∀ row ∈ db.submissions, row.smsId = send.smsId → row.part ≠ 0) ∧
      ∃ row ∈ db.submissions, row.smsId = send.smsId ∧ row.part = -1 := by
  decide +kernel

theorem oneReport_regular : ∀ call ∈ oneReport 0 ++ [], Call.Regular call := by
  simp [oneReport, Call.Regular]

theorem delivered_affirmed_sample : let db : Database := Machine.run (step epoch) {} (oneReport 0)
    ∃ send ∈ db.sends, send.state = .delivered ∧ Affirmed epoch (oneReport 0) send.smsId 0 := by
  have hrun : ∃ send ∈ (Machine.run (step epoch) {} (oneReport 0)).sends,
      send.state = .delivered ∧ send.partCount = 1 := by decide +kernel
  obtain ⟨send, hsend, hdelivered, hcount⟩ := hrun
  have h := (delivered_affirmed epoch oneReport_regular).1 send hsend hdelivered
  exact ⟨send, hsend, hdelivered, h.2.2.1 0 le_rfl (by rw [hcount]; exact Int.one_pos)⟩

end NativeInbox

end SimMaster
