import SimMaster.NativeInboxStep
import SimMaster.NativeSmsGroups

/-!
# Unrelated segments are never merged

Reading the rows of a replay stores no message, and every message stored afterwards is that of one
complete group of parts, each read from a row that waited. With what a complete group is, a message
of several parts is one message of the network (`consumePending_unmixed`).
-/

namespace SimMaster

namespace NativeSms

open Rust Method NativeInbox List

variable {chrono : Chrono} {hashes : Hashes} {clock : ℕ → ℤ} {line sim : Str} {dedupe : Bool}
  {db next : Database}

/-! ## What the calls of a replay leave -/

/-- A promotion refuses and changes nothing, or is the transaction. -/
theorem promoteNativeSms_call (chrono : Chrono) (message : InboxMessage) (db : Database) :
    (∃ e, (promoteNativeSms chrono message).call db = (.error e, db)) ∨
      ∃ stamp, normalizeSmsTimestampForDisplay chrono message.timestamp = some stamp ∧
        (promoteNativeSms chrono message).call db =
          (.ok (db.promote message stamp).1, (db.promote message stamp).2) := by
  rw [promoteNativeSms, call_lift_bind]
  split
  next =>
    rw [call_guard]
    split
    · exact Or.inl ⟨_, rfl⟩
    split
    · exact Or.inl ⟨_, rfl⟩
    next stamp hstamp =>
      rw [call_get_bind, call_guard]
      split
      · exact Or.inl ⟨_, rfl⟩
      · exact Or.inr ⟨stamp, hstamp, rfl⟩
  next => exact Or.inl ⟨_, rfl⟩

/-- The messages received are those of before. -/
def KeepsIncoming (db next : Database) : Prop :=
  ∀ sms ∈ next.messages, sms.direction = .incoming → sms ∈ db.messages

theorem keepsIncoming_setSmsStatus {p : SmsMessage → Bool} {status : SmsStatus}
    (hp : ∀ sms, p sms = true → sms.direction = .outgoing) :
    KeepsIncoming db (db.setSmsStatus p status) := by
  intro sms hsms hincoming
  obtain ⟨before, hbefore, rfl⟩ := mem_map.1 hsms
  split at hincoming
  next hset =>
    rw [hp before hset] at hincoming
    cases hincoming
  next hset =>
    rw [if_neg hset]
    exact hbefore

theorem keepsIncoming_applyCorrelated (report : NativeReport) (reportTime : ℤ) :
    KeepsIncoming db (db.applyCorrelated report reportTime).2 := by
  rw [Database.applyCorrelated]
  split
  · rw [Database.applyReport]
    split
    · refine fun sms => keepsIncoming_setSmsStatus (fun sms hawaits => ?_) sms
      simp only [SmsMessage.awaits, Bool.and_eq_true, beq_iff_eq] at hawaits
      exact hawaits.1.2
    · exact fun sms hsms _ => hsms
  · exact fun sms hsms _ => hsms

theorem keepsIncoming_consumeReport (chrono : Chrono) (report : NativeReport) (now : ℤ)
    (db : Database) : KeepsIncoming db ((consumeNativeReport chrono report now).call db).2 := by
  have htransition : Transition chrono db (.consumeReport report now)
      (step chrono db (.consumeReport report now)).1
        (step chrono db (.consumeReport report now)).2 :=
    step_transition _
  generalize (step chrono db (.consumeReport report now)).1 = reply at htransition
  change Transition _ _ _ _ ((consumeNativeReport chrono report now).call db).2 at htransition
  generalize ((consumeNativeReport chrono report now).call db).2 = next at htransition
  cases htransition with
  | refused => exact fun sms hsms _ => hsms
  | reportDropped => exact fun sms hsms _ => hsms
  | reportConsumed => exact keepsIncoming_applyCorrelated report _

theorem quarantineNativePdu_messages (id : ℕ) (line sim : Str) (db : Database) :
    ((quarantineNativePdu id line sim).call db).2.messages = db.messages := by
  rw [quarantineNativePdu, call_lift_bind]
  split
  · rfl
  · rfl

/-! ## Reading the rows -/

/-- The part a row holds. -/
def readPart (chrono : Chrono) (hashes : Hashes) (row : InboxPdu) : Option Part :=
  match readRow chrono hashes row with
  | .part part => some part
  | _ => none

/-- Reading the rows stores no message, and the parts gathered are those the rows hold. -/
theorem collectParts_call (chrono : Chrono) (hashes : Hashes) (clock : ℕ → ℤ) (line sim : Str)
    (rows : List InboxPdu) (db : Database) :
    KeepsIncoming db ((collectParts chrono hashes clock line sim rows).call db).2 ∧
      ∀ parts next, (collectParts chrono hashes clock line sim rows).call db = (.ok parts, next) →
        parts = rows.filterMap (readPart chrono hashes) := by
  induction rows generalizing db with
  | nil =>
    refine ⟨fun sms hsms _ => hsms, ?_⟩
    rintro parts next ⟨⟩
    rfl
  | cons row rows ih =>
    rw [collectParts, filterMap_cons, readPart]
    split
    next part hrow =>
      rw [call_bind]
      obtain ⟨hkeeps, hparts⟩ := ih db
      split
      next parts next hcall =>
        rw [hcall] at hkeeps
        refine ⟨hkeeps, ?_⟩
        rintro parts' next' ⟨⟩
        rw [hrow, hparts parts next hcall]
      next e next hcall =>
        rw [hcall] at hkeeps
        exact ⟨hkeeps, nofun⟩
    next report recipient hrow =>
      rw [call_bind]
      have hreport := keepsIncoming_consumeReport chrono {
        id := row.id, lineId := line, simKey := sim, recipientKey := recipient
        reference := report.reference, scts := report.serviceCenterTimestamp
        status := report.status } (clock row.id) db
      split
      next delivered next hcall =>
        rw [hcall] at hreport
        obtain ⟨hkeeps, hparts⟩ := ih next
        refine ⟨fun sms hsms hincoming => hreport sms (hkeeps sms hsms hincoming) hincoming, ?_⟩
        rw [hrow]
        exact hparts
      next e next hcall =>
        rw [hcall] at hreport
        exact ⟨hreport, nofun⟩
    next hrow =>
      rw [call_bind]
      have hmessages := quarantineNativePdu_messages row.id line sim db
      split
      next done next hcall =>
        rw [hcall] at hmessages
        obtain ⟨hkeeps, hparts⟩ := ih next
        refine ⟨fun sms hsms hincoming => ?_, ?_⟩
        · rw [← hmessages]
          exact hkeeps sms hsms hincoming
        · rw [hrow]
          exact hparts
      next e next hcall =>
        rw [hcall] at hmessages
        refine ⟨fun sms hsms _ => ?_, nofun⟩
        rw [← hmessages]
        exact hsms

/-! ## Promoting the groups -/

/-- The message stored for a group. -/
structure StoredFor (hashes : Hashes) (line sim : Str) (dedupe : Bool) (parts : List Part)
    (sms : SmsMessage) : Prop where
  content : sms.content = joinedText none parts
  number : ∀ first ∈ parts.head?, sms.phoneNumber = first.message.originator
  marker : sms.pdu = some (messageMarker hashes sim parts)
  line : sms.lineId = line

/-- Promoting groups only adds their messages. -/
theorem promoteGroups_messages (groups : List (List Part)) (db : Database) :
    ∀ sms ∈ ((promoteGroups chrono hashes line sim dedupe groups).call db).2.messages,
      sms ∈ db.messages ∨ ∃ group ∈ groups,
        StoredFor hashes line sim dedupe (group.insertionSort Part.precedes) sms := by
  induction groups generalizing db with
  | nil => exact fun sms hsms => Or.inl hsms
  | cons group groups ih =>
    have hlater : ∀ db : Database, ∀ sms ∈
        ((promoteGroups chrono hashes line sim dedupe groups).call db).2.messages,
        sms ∈ db.messages ∨ ∃ group' ∈ group :: groups,
          StoredFor hashes line sim dedupe (group'.insertionSort Part.precedes) sms := by
      intro db sms hsms
      rcases ih db sms hsms with hsms | ⟨group', hgroup', hstored⟩
      · exact Or.inl hsms
      · exact Or.inr ⟨group', mem_cons_of_mem _ hgroup', hstored⟩
    rw [promoteGroups]
    split
    next => exact hlater db
    next first parts hsorted =>
      rw [call_bind]
      rcases promoteNativeSms_call chrono
        (inboxMessage hashes line sim dedupe first (first :: parts)) db with
        ⟨e, hcall⟩ | ⟨stamp, -, hcall⟩
      · rw [hcall]
        exact fun sms hsms => Or.inl hsms
      · rw [hcall]
        dsimp only
        rw [call_bind]
        -- the promotion itself adds at most the message of this group
        have hpromoted : ∀ sms ∈ (db.promote
            (inboxMessage hashes line sim dedupe first (first :: parts)) stamp).2.messages,
            sms ∈ db.messages ∨ ∃ group' ∈ group :: groups,
              StoredFor hashes line sim dedupe (group'.insertionSort Part.precedes) sms := by
          intro sms hsms
          rw [Database.promote] at hsms
          split at hsms
          · exact Or.inl hsms
          · rcases mem_append.1 hsms with hsms | hsms
            · exact Or.inl hsms
            · refine Or.inr ⟨group, mem_cons_self, ?_⟩
              rw [hsorted, mem_singleton.1 hsms]
              refine ⟨rfl, ?_, rfl, rfl⟩
              rintro first' ⟨⟩
              rfl
        have hrest : ∀ sms ∈ ((promoteGroups chrono hashes line sim dedupe groups).call (db.promote
            (inboxMessage hashes line sim dedupe first (first :: parts)) stamp).2).2.messages,
            sms ∈ db.messages ∨ ∃ group' ∈ group :: groups,
              StoredFor hashes line sim dedupe (group'.insertionSort Part.precedes) sms := by
          intro sms hsms
          rcases hlater _ sms hsms with hsms | hsms
          · exact hpromoted sms hsms
          · exact Or.inr hsms
        split
        next promotions next hcall' =>
          rw [hcall'] at hrest
          exact hrest
        next e next hcall' =>
          rw [hcall'] at hrest
          exact hrest

/-- The groups promoted are the ones given. -/
theorem promoteGroups_parts (groups : List (List Part)) (db : Database) :
    ∀ promotions next, (promoteGroups chrono hashes line sim dedupe groups).call db =
      (.ok promotions, next) → ∀ promotion ∈ promotions, ∃ group ∈ groups,
        promotion.parts = group.insertionSort Part.precedes := by
  induction groups generalizing db with
  | nil =>
    rintro promotions next ⟨⟩
    nofun
  | cons group groups ih =>
    intro promotions next hcall promotion hpromotion
    rw [promoteGroups] at hcall
    split at hcall
    next =>
      obtain ⟨group', hgroup', hparts⟩ := ih db promotions next hcall promotion hpromotion
      exact ⟨group', mem_cons_of_mem _ hgroup', hparts⟩
    next first parts hsorted =>
      rw [call_bind] at hcall
      split at hcall
      next stored promoted hpromote =>
        rw [call_bind] at hcall
        split at hcall
        next later next' hlater =>
          obtain rfl := Except.ok.inj (congrArg Prod.fst hcall)
          rcases mem_cons.1 hpromotion with rfl | hpromotion
          · exact ⟨group, mem_cons_self, hsorted.symm⟩
          · obtain ⟨group', hgroup', hparts⟩ := ih promoted later next' hlater promotion hpromotion
            exact ⟨group', mem_cons_of_mem _ hgroup', hparts⟩
        next e next' hlater => cases hcall
      next e promoted hpromote => cases hcall

/-- A row waits in the scope and holds the part. -/
def Holds (chrono : Chrono) (hashes : Hashes) (line sim : Str) (db : Database) (part : Part) :
    Prop :=
  ∃ row ∈ db.inbox, row.waits line sim = true ∧ readRow chrono hashes row.toPdu = .part part

theorem holds_of_mem {rows : List InboxPdu} (hrows : pendingNativePdus line sim db = .ok rows)
    {part : Part} (hpart : part ∈ rows.filterMap (readPart chrono hashes)) :
    Holds chrono hashes line sim db part := by
  obtain ⟨row, hrow, hread⟩ := mem_filterMap.1 hpart
  obtain ⟨-, -, hrows⟩ := bind_eq_ok.1 hrows
  obtain rfl := Except.ok.inj hrows
  obtain ⟨source, hsource, rfl⟩ := mem_map.1 hrow
  obtain ⟨hmem, hwaits⟩ := mem_filter.1 (mem_of_mem_take hsource)
  refine ⟨source, hmem, hwaits, ?_⟩
  rw [readPart] at hread
  split at hread
  next part' hpart' =>
    obtain rfl := Option.some.inj hread
    exact hpart'
  next => cases hread

/-- The parts of a replay, when reading the rows got that far. -/
theorem promotePending_call (chrono : Chrono) (hashes : Hashes) (clock : ℕ → ℤ) (line sim : Str)
    (dedupe : Bool) (db : Database) :
    let promoted := (promotePending chrono hashes clock line sim dedupe).call db
    ((∃ e, promoted.1 = .error e) ∧ KeepsIncoming db promoted.2) ∨ ∃ parts collected,
      (∀ part ∈ parts, Holds chrono hashes line sim db part) ∧ KeepsIncoming db collected ∧
      promoted = (promoteGroups chrono hashes line sim dedupe (completeGroups parts)).call
        collected := by
  intro promoted
  have hpromoted : promoted = (promotePending chrono hashes clock line sim dedupe).call db := rfl
  rw [promotePending, call_get_bind, call_lift_bind] at hpromoted
  split at hpromoted
  next rows hrows =>
    rw [call_bind] at hpromoted
    obtain ⟨hkeeps, hparts⟩ := collectParts_call chrono hashes clock line sim rows db
    split at hpromoted
    next parts collected hcall =>
      rw [hcall] at hkeeps
      refine Or.inr ⟨parts, collected, fun part hpart => ?_, hkeeps, hpromoted⟩
      rw [hparts parts collected hcall] at hpart
      exact holds_of_mem hrows hpart
    next e collected hcall =>
      rw [hcall] at hkeeps
      rw [hpromoted]
      exact Or.inl ⟨⟨e, rfl⟩, hkeeps⟩
  next =>
    rw [hpromoted]
    exact Or.inl ⟨⟨_, rfl⟩, fun sms hsms _ => hsms⟩

/-- The parts of one message: read from rows that waited in the scope, and if there are several, the
segments of one message of the network. -/
structure Unmixed (chrono : Chrono) (hashes : Hashes) (line sim : Str) (db : Database)
    (parts : List Part) : Prop where
  nonempty : parts ≠ []
  held : ∀ part ∈ parts, Holds chrono hashes line sim db part
  one : 1 < parts.length → OneMessage parts

theorem unmixed_of_complete {parts group : List Part}
    (hheld : ∀ part ∈ parts, Holds chrono hashes line sim db part)
    (hgroup : group ∈ completeGroups parts) :
    Unmixed chrono hashes line sim db (group.insertionSort Part.precedes) := by
  obtain ⟨hsubset, hne, hone⟩ := completeGroups_unmixed hgroup
  have hperm := perm_insertionSort Part.precedes group
  refine ⟨?_, fun part hpart => ?_, fun hlength => ?_⟩
  · exact fun hnil => hne (perm_nil.1 (hnil ▸ hperm.symm))
  · exact hheld part (hsubset (hperm.mem_iff.1 hpart))
  · exact (hone (by rwa [hperm.length_eq] at hlength)).perm hperm.symm

/-- **Unrelated segments are never merged.** Every group a replay promotes is read from rows that
waited in the scope, and if it has several parts these are one message: one originator, assembly
key, reference and total, with every sequence number, repeated only by duplicates, within five
minutes of the earliest. No message is stored but those of such groups, also when the replay
fails. -/
theorem consumePending_unmixed (chrono : Chrono) (hashes : Hashes) (clock : ℕ → ℤ) (line sim : Str)
    (dedupe : Bool) (db : Database) :
    let next : Database := ((consumePending chrono hashes clock line sim dedupe).call db).2
    (∀ sms ∈ next.messages, sms.direction = .incoming → sms ∈ db.messages ∨ ∃ parts,
      Unmixed chrono hashes line sim db parts ∧ StoredFor hashes line sim dedupe parts sms) ∧
    ∀ promotions next, (promotePending chrono hashes clock line sim dedupe).call db =
      (.ok promotions, next) →
      ∀ promotion ∈ promotions, Unmixed chrono hashes line sim db promotion.parts := by
  intro next
  have hnext : next = ((promotePending chrono hashes clock line sim dedupe).call db).2 := by
    change ((consumePending chrono hashes clock line sim dedupe).call db).2 = _
    rw [consumePending, call_bind]
    split
    next promotions next hcall => rw [hcall]; rfl
    next e next hcall => rw [hcall]
  rw [hnext]
  obtain ⟨⟨e, herror⟩, hkeeps⟩ | ⟨parts, collected, hheld, hkeeps, hcall⟩ :=
    promotePending_call chrono hashes clock line sim dedupe db
  · refine ⟨fun sms hsms hincoming => Or.inl (hkeeps sms hsms hincoming), ?_⟩
    intro promotions next hcall
    rw [hcall] at herror
    cases herror
  · rw [hcall]
    refine ⟨fun sms hsms hincoming => ?_, fun promotions next hpromoted promotion hpromotion => ?_⟩
    · rcases promoteGroups_messages _ _ sms hsms with hsms | ⟨group, hgroup, hstored⟩
      · exact Or.inl (hkeeps sms hsms hincoming)
      · exact Or.inr ⟨_, unmixed_of_complete hheld hgroup, hstored⟩
    · obtain ⟨group, hgroup, hparts⟩ :=
        promoteGroups_parts _ _ promotions next hpromoted promotion hpromotion
      rw [hparts]
      exact unmixed_of_complete hheld hgroup

end NativeSms

end SimMaster
