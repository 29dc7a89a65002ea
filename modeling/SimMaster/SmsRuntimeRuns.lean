import SimMaster.SmsRuntime

/-!
# Which parts are acknowledged as complete

The list of parts holds, for each reference and number, the first part that came with them
(`Stores.step`), so as long as only parts of one text come the list is complete just when the text
is. The list is shared, so parts of another text in it are counted for the first or held against it:
the answers are right in a run in which every part meets only parts of its own text
(`receives_run`). The record never contradicts itself, in any run (`consistent_run`).
-/

namespace SimMaster.SmsRuntime

open Machine List

open SmsRuntimeStateMachine (storePart)

/-! ## Complete lists -/

theorem all_numbers_iff {total : UInt8} {P : UInt8 → Prop} :
    (∀ number ∈ range' 1 total.toNat, P (UInt8.ofNat number)) ↔
      ∀ sequence, sequence ≠ 0 → sequence ≤ total → P sequence := by
  constructor
  · intro h sequence hzero hle
    have hle := UInt8.le_iff_toNat_le.mp hle
    have hpos : sequence.toNat ≠ 0 := fun heq => hzero (UInt8.toNat_inj.mp heq)
    rw [← UInt8.ofNat_toNat (x := sequence)]
    exact h sequence.toNat (mem_range'_1.mpr ⟨by omega, by omega⟩)
  · intro h number hmem
    have hbounds := mem_range'_1.mp hmem
    have hlt := total.toNat_lt
    have hnat : (UInt8.ofNat number).toNat = number :=
      UInt8.toNat_ofNat_of_lt' (lt_of_lt_of_le (by omega) (by decide : 256 ≤ UInt8.size))
    refine h _ (fun heq => ?_) (UInt8.le_iff_toNat_le.mpr (by omega))
    rw [heq, UInt8.toNat_zero] at hnat
    omega

/-- **Complete lists.** -/
theorem partsComplete_iff (record : SmsDeliveryRecord) :
    record.partsComplete = true ↔ record.parts ≠ [] ∧ ∃ total, total ≠ 0 ∧
      (∀ part ∈ record.parts, part.total = total) ∧ ∀ sequence, sequence ≠ 0 → sequence ≤ total →
        ∃ part ∈ record.parts, part.sequence = sequence ∧ part.received = true := by
  rw [SmsDeliveryRecord.partsComplete]
  cases hparts : record.parts with
  | nil => exact ⟨fun h => (by cases h), fun h => absurd rfl h.1⟩
  | cons first rest =>
    rw [Bool.and_eq_true, Bool.and_eq_true, bne_iff_ne, all_eq_true, all_eq_true]
    have hnumbers := @all_numbers_iff first.total
      fun sequence => ∃ part ∈ first :: rest, part.sequence = sequence ∧ part.received = true
    simp only [any_eq_true, Bool.and_eq_true, beq_iff_eq]
    constructor
    · rintro ⟨⟨hzero, htotal⟩, hall⟩
      exact ⟨cons_ne_nil _ _, first.total, hzero, htotal, hnumbers.mp hall⟩
    · rintro ⟨-, total, hzero, htotal, hall⟩
      obtain rfl := htotal first mem_cons_self
      exact ⟨⟨hzero, htotal⟩, hnumbers.mpr hall⟩

/-! ## The list of a run -/

/-- The number and the total of a part that is taken. -/
def Valid (sequence total : UInt8) : Prop := sequence ≠ 0 ∧ total ≠ 0 ∧ sequence ≤ total

instance (sequence total : UInt8) : Decidable (Valid sequence total) :=
  inferInstanceAs (Decidable (sequence ≠ 0 ∧ total ≠ 0 ∧ sequence ≤ total))

variable {sequence total : UInt8}

theorem not_valid_iff : (sequence = 0 ∨ total = 0 ∨ total < sequence) ↔ ¬Valid sequence total := by
  rw [Valid, ← UInt8.not_lt]
  tauto

/-- A part with these has come. -/
def Came (calls : List SmsCall) (reference : UInt16) (sequence total : UInt8) : Prop :=
  Valid sequence total ∧
    ∃ userDataBytes, .receiveMtPart reference sequence total userDataBytes ∈ calls

/-- Every part of the text has come. -/
def Whole (calls : List SmsCall) (reference : UInt16) (total : UInt8) : Prop :=
  ∀ sequence, sequence ≠ 0 → sequence ≤ total → Came calls reference sequence total

variable {calls : List SmsCall} {reference : UInt16}

theorem Came.mono {more : List SmsCall}
    (h : Came calls reference sequence total) (hsub : calls ⊆ more) :
    Came more reference sequence total :=
  ⟨h.1, h.2.imp fun _ hmem => hsub hmem⟩

/-- What the list of parts says about the calls. -/
structure Stores (calls : List SmsCall) (parts : List SmsPartState) : Prop where
  came : ∀ part ∈ parts, part.received = true ∧ Came calls part.reference part.sequence part.total
  stored : ∀ reference sequence total, Came calls reference sequence total →
    ∃ part ∈ parts, part.reference = reference ∧ part.sequence = sequence

variable {parts : List SmsPartState}

/-- A call that is no part that is taken leaves the list as it is. -/
theorem Stores.keep (h : Stores calls parts)
    {call : SmsCall} (hcall : ∀ reference sequence total userDataBytes,
      call = .receiveMtPart reference sequence total userDataBytes → ¬Valid sequence total) :
    Stores (calls ++ [call]) parts := by
  refine ⟨fun part hpart => ?_, fun reference sequence total hcame => ?_⟩
  · exact (h.came part hpart).imp_right fun hcame =>
      hcame.mono (subset_append_left calls [call])
  · obtain ⟨hvalid, userDataBytes, hmem⟩ := hcame
    refine h.stored reference sequence total ⟨hvalid, userDataBytes, ?_⟩
    rcases mem_append.mp hmem with hmem | hmem
    · exact hmem
    · have heq := (mem_singleton.mp hmem).symm
      exact absurd hvalid (hcall _ _ _ _ heq)

/-- The list keeps the part that was there, or gets the new one. -/
theorem mem_storePart {reference : UInt16} {sequence total : UInt8} :
    (∃ part ∈ storePart parts reference sequence total,
      part.reference = reference ∧ part.sequence = sequence) ∧
    ∀ part, part ∈ storePart parts reference sequence total →
      part ∈ parts ∨ part = ⟨reference, sequence, total, true⟩ := by
  rw [storePart]
  split
  · next hany =>
    obtain ⟨part, hpart, heq⟩ := any_eq_true.mp hany
    rw [Bool.and_eq_true, beq_iff_eq, beq_iff_eq] at heq
    exact ⟨⟨part, hpart, heq⟩, fun part hpart => Or.inl hpart⟩
  · refine ⟨⟨_, mem_append_right _ mem_cons_self, rfl, rfl⟩, fun part hpart => ?_⟩
    exact (mem_append.mp hpart).imp_right mem_singleton.mp

theorem subset_storePart (parts : List SmsPartState) (reference : UInt16) (sequence total : UInt8) :
    parts ⊆ storePart parts reference sequence total := by
  rw [storePart]
  split
  · exact fun part hpart => hpart
  · exact subset_append_left _ _

/-- **A part that is taken.** -/
theorem Stores.store {calls : List SmsCall} (h : Stores calls parts)
    {reference : UInt16} {sequence total : UInt8} (hvalid : Valid sequence total)
    (userDataBytes : ℕ) :
    Stores (calls ++ [SmsCall.receiveMtPart reference sequence total userDataBytes])
      (storePart parts reference sequence total) := by
  obtain ⟨hnew, hmem⟩ := @mem_storePart parts reference sequence total
  refine ⟨fun part hpart => ?_, fun reference' sequence' total' hcame => ?_⟩
  · rcases hmem part hpart with hpart | rfl
    · exact (h.came part hpart).imp_right fun hcame => hcame.mono (subset_append_left _ _)
    · exact ⟨rfl, hvalid, userDataBytes, mem_append_right _ mem_cons_self⟩
  · obtain ⟨hvalid', bytes, hcalls⟩ := hcame
    rcases mem_append.mp hcalls with hcalls | hcalls
    · obtain ⟨part, hpart, heq⟩ := h.stored reference' sequence' total' ⟨hvalid', bytes, hcalls⟩
      exact ⟨part, subset_storePart _ _ _ _ hpart, heq⟩
    · obtain ⟨rfl, rfl, -, -⟩ := SmsCall.receiveMtPart.inj (mem_singleton.mp hcalls)
      exact hnew

/-! ## What a call does -/

theorem receiveMtPart_invalid (machine : SmsRuntimeStateMachine) (h : ¬Valid sequence total)
    (userDataBytes : ℕ) :
    machine.receiveMtPart reference sequence total userDataBytes =
      (.error (.invalidPart sequence total), machine) :=
  if_pos (not_valid_iff.mpr h)

/-- What becomes of a part that is taken. -/
structure Receives (machine next : SmsRuntimeStateMachine) (ack : SmsAckPlan) (reference : UInt16)
    (sequence total : UInt8) : Prop where
  mo : next.mo = machine.mo
  mt : next.mt = { machine.mt with
    sipState := .accepted
    rpduAck := .acked
    parts := storePart machine.mt.parts reference sequence total }
  ack : ack.ackKind = if next.mt.partsComplete then "rp_ack_complete" else "rp_ack_part"
  reassembly : ∃ reassembly, next.reassembly = some reassembly ∧
    reassembly.reference = reference ∧ reassembly.complete = next.mt.partsComplete

theorem receiveMtPart_valid (machine : SmsRuntimeStateMachine) {reference : UInt16}
    {sequence total : UInt8} (h : Valid sequence total) (userDataBytes : ℕ) :
    ∃ ack next, machine.receiveMtPart reference sequence total userDataBytes = (.ok ack, next) ∧
      Receives machine next ack reference sequence total :=
  ⟨_, _, if_neg fun hnot => not_valid_iff.mp hnot h, rfl, rfl, rfl, _, rfl, rfl, rfl⟩

/-- What every call keeps. -/
structure Consistent (machine : SmsRuntimeStateMachine) : Prop where
  mo : machine.mo.direction = .mobileOriginated
  mt : machine.mt.direction = .mobileTerminated
  cause : machine.mt.failureCause = none
  state : machine.mt.sipState ≠ .rejected ∧ machine.mt.sipState ≠ .timeout
  ack : machine.mt.rpduAck ≠ .error

variable {machine : SmsRuntimeStateMachine}

theorem Consistent.step (h : Consistent machine)
    (call : SmsCall) : Consistent (step machine call).2 := by
  obtain ⟨hmo, hmt, hcause, hstate, hack⟩ := h
  cases call with
  | acceptMoSipResponse sipStatus =>
    change Consistent (machine.acceptMoSipResponse sipStatus).2
    rw [SmsRuntimeStateMachine.acceptMoSipResponse]
    split <;> exact ⟨hmo, hmt, hcause, hstate, hack⟩
  | receiveMtPart reference sequence total userDataBytes =>
    change Consistent (machine.receiveMtPart reference sequence total userDataBytes).2
    by_cases hvalid : Valid sequence total
    · obtain ⟨ack, next, heq, hreceives⟩ :=
        @receiveMtPart_valid machine reference _ _ hvalid userDataBytes
      rw [heq]
      have hnext := hreceives.mt
      refine ⟨by rw [hreceives.mo, hmo], by rw [hnext, hmt], by rw [hnext, hcause], ?_, ?_⟩
      · rw [hnext]
        exact ⟨fun heq => (by cases heq), fun heq => (by cases heq)⟩
      · rw [hnext]
        exact fun heq => by cases heq
    · rw [receiveMtPart_invalid machine hvalid]
      exact ⟨hmo, hmt, hcause, hstate, hack⟩
  | _ => exact ⟨hmo, hmt, hcause, hstate, hack⟩

variable {record : SmsDeliveryRecord}

/-- An acknowledged text is not pending. -/
theorem apiStatus_of_acked
    (hdirection : record.direction = .mobileOriginated) (hacked : record.rpduAck = .acked) :
    record.apiStatus ≠ "pending" := by
  have hstate : record.aggregateState = .failed ∨ record.aggregateState = .delivered ∨
      record.aggregateState = .accepted := by
    rw [SmsDeliveryRecord.aggregateState, hdirection, hacked]
    split
    · exact Or.inl rfl
    · rw [if_neg (by decide)]
      split
      · exact Or.inr (Or.inl rfl)
      · exact Or.inr (Or.inr (if_pos (Or.inl rfl)))
  rcases hstate with h | h | h <;> rw [SmsDeliveryRecord.apiStatus, h] <;> decide

/-- **The record does not contradict itself.** -/
theorem Consistent.check (h : Consistent machine) : machine.assertStateConsistency = .ok () := by
  rw [SmsRuntimeStateMachine.assertStateConsistency,
    if_neg fun hcheck => apiStatus_of_acked h.mo hcheck.1 hcheck.2]
  refine if_neg fun ⟨hcomplete, hstatus⟩ => hstatus ?_
  have hstate : machine.mt.aggregateState = .received := by
    rw [SmsDeliveryRecord.aggregateState, if_neg, if_pos h.mt, if_pos (Or.inl hcomplete)]
    rintro (hcause | hrejected | htimeout | hack)
    · rw [h.cause] at hcause
      cases hcause
    · exact h.state.1 hrejected
    · exact h.state.2 htimeout
    · exact h.ack hack
  rw [SmsDeliveryRecord.apiStatus, hstate]

/-! ## Runs -/

/-- After every run, whatever is called and in whatever order, the record does not contradict
itself. -/
theorem consistent_run (receiverTransport : String) (calls : List SmsCall) :
    (run step (.new receiverTransport) calls).assertStateConsistency = .ok () :=
  Consistent.check (@run_invariant _ _ _ step Consistent (.new receiverTransport)
    ⟨rfl, rfl, rfl, ⟨fun h => (by cases h), fun h => (by cases h)⟩, fun h => (by cases h)⟩
    (fun _ call h => h.step call) calls)

/-- The list of parts after any calls. -/
theorem stores_run (receiverTransport : String) (calls : List SmsCall) :
    Stores calls (run step (.new receiverTransport) calls).mt.parts := by
  -- the calls grow at the end, as the list does
  induction calls using reverseRecOn with
  | nil =>
    refine ⟨fun part hpart => absurd hpart not_mem_nil, fun _ _ _ hcame => ?_⟩
    exact absurd hcame.2.choose_spec not_mem_nil
  | append_singleton calls call ih =>
    rw [run_concat]
    generalize run step (.new receiverTransport) calls = machine at ih ⊢
    cases call with
    | receiveMtPart reference sequence total userDataBytes =>
      change Stores _ (machine.receiveMtPart reference sequence total userDataBytes).2.mt.parts
      by_cases hvalid : Valid sequence total
      · obtain ⟨ack, next, heq, hreceives⟩ :=
          @receiveMtPart_valid machine reference _ _ hvalid userDataBytes
        rw [heq]
        rw [hreceives.mt]
        exact ih.store hvalid userDataBytes
      · rw [receiveMtPart_invalid machine hvalid]
        refine ih.keep fun _ _ _ _ heq => ?_
        obtain ⟨-, rfl, rfl, -⟩ := SmsCall.receiveMtPart.inj heq
        exact hvalid
    | acceptMoSipResponse sipStatus =>
      have hparts : (step machine (.acceptMoSipResponse sipStatus)).2.mt = machine.mt := by
        change (machine.acceptMoSipResponse sipStatus).2.mt = machine.mt
        rw [SmsRuntimeStateMachine.acceptMoSipResponse]
        split <;> rfl
      rw [hparts]
      exact ih.keep fun _ _ _ _ heq => by cases heq
    | _ => exact ih.keep fun _ _ _ _ heq => by cases heq

/-- A part meets only parts of its own text: those in the list have its reference and its total. -/
def Alone (machine : SmsRuntimeStateMachine) : SmsCall → Prop
  | .receiveMtPart reference sequence total _ =>
    Valid sequence total →
      ∀ part ∈ machine.mt.parts, part.reference = reference ∧ part.total = total
  | _ => True

instance (machine : SmsRuntimeStateMachine) (call : SmsCall) : Decidable (Alone machine call) :=
  match call with
  | .receiveMtPart reference sequence total _ =>
    inferInstanceAs (Decidable (Valid sequence total →
      ∀ part ∈ machine.mt.parts, part.reference = reference ∧ part.total = total))
  | .markSubscribeRegReady | .queueMoText _ | .submitMoSipMessage | .acceptMoSipResponse _
  | .acceptMoRpAck | .markMoDeliveryReported => inferInstanceAs (Decidable True)

/-- The answer to a part is right: one that is no part is refused and changes nothing, and another
completes its text just when every part of the text has come. -/
structure Answers (machine : SmsRuntimeStateMachine) (calls : List SmsCall) (reference : UInt16)
    (sequence total : UInt8) (userDataBytes : ℕ) : Prop where
  refuses : ¬Valid sequence total →
    machine.receiveMtPart reference sequence total userDataBytes =
      (.error (.invalidPart sequence total), machine)
  acknowledges : Valid sequence total → ∃ ack next reassembly,
    machine.receiveMtPart reference sequence total userDataBytes = (.ok ack, next) ∧
    next.reassembly = some reassembly ∧
    (ack.ackKind = "rp_ack_complete" ↔
      Whole (calls ++ [SmsCall.receiveMtPart reference sequence total userDataBytes])
        reference total) ∧
    (reassembly.complete = true ↔
      Whole (calls ++ [SmsCall.receiveMtPart reference sequence total userDataBytes])
        reference total)

/-- The list of one text is complete just when the text is. -/
theorem Stores.complete_iff (h : Stores calls record.parts)
    (hcame : Came calls reference sequence total)
    (halone : ∀ part ∈ record.parts, part.reference = reference ∧ part.total = total) :
    record.partsComplete = true ↔ Whole calls reference total := by
  obtain ⟨part, hpart, -⟩ := h.stored reference sequence total hcame
  rw [partsComplete_iff]
  constructor
  · rintro ⟨-, total', -, htotal, hall⟩ number hzero hle
    rw [← (halone part hpart).2, htotal part hpart] at hle
    obtain ⟨found, hfound, rfl, -⟩ := hall number hzero hle
    obtain ⟨hreference, htotal'⟩ := halone found hfound
    have hcame' := (h.came found hfound).2
    rw [hreference, htotal'] at hcame'
    exact hcame'
  · intro hwhole
    refine ⟨ne_nil_of_mem hpart, total, hcame.1.2.1, fun p hp => (halone p hp).2, ?_⟩
    intro number hzero hle
    have hcame' := hwhole number hzero hle
    obtain ⟨found, hfound, -, hsequence⟩ := h.stored reference number total hcame'
    exact ⟨found, hfound, hsequence, (h.came found hfound).1⟩

/-- **Parts of a text.** After every run the record does not contradict itself, and in every run in
which each part meets only parts of its own text every answer is right. -/
theorem receives_run (receiverTransport : String) (calls : List SmsCall) :
    (run step (.new receiverTransport) calls).assertStateConsistency = .ok () ∧
      (Along step Alone (.new receiverTransport) calls →
        ∀ front reference sequence total userDataBytes back,
          calls = front ++ SmsCall.receiveMtPart reference sequence total userDataBytes :: back →
            Answers (run step (.new receiverTransport) front) front reference sequence total
              userDataBytes) := by
  refine ⟨consistent_run receiverTransport calls, ?_⟩
  rintro halong front reference sequence total userDataBytes back rfl
  have halone := halong.at
  have hstores := stores_run receiverTransport front
  generalize run step (.new receiverTransport) front = machine at halone hstores ⊢
  refine ⟨fun hinvalid => receiveMtPart_invalid machine hinvalid userDataBytes, fun hvalid => ?_⟩
  obtain ⟨ack, next, heq, hreceives⟩ :=
    @receiveMtPart_valid machine reference _ _ hvalid userDataBytes
  obtain ⟨reassembly, hreassembly, -, hcomplete⟩ := hreceives.reassembly
  have hnext : next.mt.parts = storePart machine.mt.parts reference sequence total := by
    rw [hreceives.mt]
  have hstores' := @Stores.store _ _ hstores reference _ _ hvalid userDataBytes
  rw [← hnext] at hstores'
  have halone' : ∀ part ∈ next.mt.parts, part.reference = reference ∧ part.total = total := by
    intro part hpart
    rw [hnext] at hpart
    rcases mem_storePart.2 part hpart with hpart | rfl
    · exact halone hvalid part hpart
    · exact ⟨rfl, rfl⟩
  have hiff := hstores'.complete_iff
    ⟨hvalid, userDataBytes, mem_append_right front mem_cons_self⟩ halone'
  refine ⟨ack, next, reassembly, heq, hreassembly, ?_, by rw [hcomplete, hiff]⟩
  rw [hreceives.ack, ← hiff]
  cases next.mt.partsComplete <;> decide

/-- The second of two parts, after the first. -/
theorem receives_run_twoParts :
    Answers (run step (.new "udp") [.receiveMtPart 42 1 2 134]) [.receiveMtPart 42 1 2 134] 42 2 2
      118 :=
  (receives_run "udp" [.receiveMtPart 42 1 2 134, .receiveMtPart 42 2 2 118]).2 (by decide)
    [.receiveMtPart 42 1 2 134] 42 2 2 118 [] rfl

/-- The first part of one text and the second part of another complete the other. -/
theorem twoTexts_not_answers :
    ¬Answers (run step (.new "udp") [.receiveMtPart 1 1 2 134]) [.receiveMtPart 1 1 2 134] 2 2 2
      118 := by
  intro h
  obtain ⟨ack, next, -, heq, -, hiff, -⟩ := h.acknowledges (by decide)
  have hkind : ((run step (.new "udp") [.receiveMtPart 1 1 2 134]).receiveMtPart 2 2 2
      118).1.toOption.map SmsAckPlan.ackKind = some "rp_ack_complete" := by decide
  rw [heq] at hkind
  obtain ⟨-, userDataBytes, hmem⟩ := hiff.mp (Option.some.inj hkind) 1 (by decide) (by decide)
  rcases mem_cons.mp hmem with hmem | hmem
  · cases hmem
  · cases mem_singleton.mp hmem

end SimMaster.SmsRuntime
