import SimMaster.BatchScheduler

/-!
# Steps of the batch scheduler

What each method does when it succeeds, with all that it checked, and what a failure leaves: the
scheduler as it was but for the clock, or a closed one (`Halted`). The buckets are seen as places:
the working bucket and the batches by their numbers (`bucketAt`). The runs of a scheduler are those
of `System.step`, where a snapshot can be committed only after `prepare` handed it out.
-/

namespace SimMaster.Jegotrip

open Rust Method List

namespace BatchScheduler

/-! ## Failures -/

/-- The state after a failure. -/
def Halted (s s' : BatchScheduler) : Prop :=
  ∃ now, s.clockMs ≤ now ∧ (s' = { s with clockMs := now } ∨ s' = { s with clockMs := now }.close)

theorem Halted.close (s : BatchScheduler) : Halted s s.close := ⟨s.clockMs, le_refl _, Or.inr rfl⟩

variable {α : Type} {s s' : BatchScheduler} {now : ℕ}

variable {r : Except Stop (α × BatchScheduler)} {a : α}

theorem finish_eq_ok (h : s.finish r = (.ok a, s')) : r = .ok (a, s') := by
  rw [finish.eq_def] at h
  split at h <;> cases h
  rfl

variable {stop : Stop}

theorem finish_eq_error
    (h : s.finish r = (.error stop, s')) : r = .error stop ∧ (s' = s ∨ s' = s.close) := by
  rw [finish.eq_def] at h
  split at h <;> cases h
  · exact ⟨rfl, Or.inr rfl⟩
  · exact ⟨rfl, Or.inl rfl⟩

variable {body : Except Stop (α × BatchScheduler)}

theorem whileOpen_eq_ok
    (h : s.whileOpen body = (.ok a, s')) : s.isOpen = true ∧ body = .ok (a, s') := by
  have h := finish_eq_ok h
  split at h
  case isTrue hopen => exact ⟨hopen, h⟩
  case isFalse => cases h

theorem whileOpen_eq_error (h : s.whileOpen body = (.error stop, s')) :
    Halted s s' ∧ (stop = .panic → body = .error .panic) := by
  obtain ⟨h, hs'⟩ := finish_eq_error h
  refine ⟨⟨s.clockMs, le_refl _, hs'⟩, ?_⟩
  rintro rfl
  split at h
  case isTrue => exact h
  case isFalse => cases h

variable {body : BatchScheduler → Except Stop (α × BatchScheduler)}

theorem timed_eq_ok (h : s.timed now body = (.ok a, s')) :
    s.isOpen = true ∧ s.clockMs ≤ now ∧ body { s with clockMs := now } = .ok (a, s') := by
  rw [timed] at h
  split at h
  case isTrue => cases h
  case isFalse hopen =>
  split at h
  case isTrue => cases h
  case isFalse hclock => exact ⟨Bool.not_eq_false _ ▸ hopen, not_lt.mp hclock, finish_eq_ok h⟩

theorem timed_eq_error (h : s.timed now body = (.error stop, s')) :
    Halted s s' ∧ (stop = .panic → s.isOpen = true ∧ s.clockMs ≤ now ∧
      body { s with clockMs := now } = .error .panic) := by
  rw [timed] at h
  split at h
  case isTrue =>
    cases h
    exact ⟨.close s, nofun⟩
  case isFalse hopen =>
  split at h
  case isTrue =>
    cases h
    exact ⟨.close s, nofun⟩
  case isFalse hclock =>
    obtain ⟨h, hs'⟩ := finish_eq_error h
    refine ⟨⟨now, not_lt.mp hclock, hs'⟩, ?_⟩
    rintro rfl
    exact ⟨Bool.not_eq_false _ ▸ hopen, not_lt.mp hclock, h⟩

/-! ## Places -/

/-- The bucket at a place: the working bucket, or that of a batch. -/
def bucketAt (s : BatchScheduler) : Option ℕ → Bucket
  | none => s.working
  | some n => (s.history[n]?).elim .empty Epoch.bucket

variable {n : ℕ}

theorem bucketAt_of_get {epoch : Epoch} (h : s.history[n]? = some epoch) :
    s.bucketAt (some n) = epoch.bucket := by
  rw [bucketAt, h]
  rfl

theorem bucketAt_of_not_mem (h : n ∉ s.history) : s.bucketAt (some n) = .empty := by
  rw [bucketAt, Std.ExtTreeMap.getElem?_eq_none h]
  rfl

@[simp] theorem not_mem_results_empty (x : ℤ) : x ∉ Bucket.empty.results :=
  Std.ExtTreeMap.not_mem_empty

@[simp] theorem bucketAt_close (p : Option ℕ) : s.close.bucketAt p = .empty := by
  cases p with
  | none => rfl
  | some n => exact bucketAt_of_not_mem Std.ExtTreeMap.not_mem_empty

/-! ## Successes -/

theorem queueHosting_eq_ok {call : PreparedHostingCall} {metadata : List RpcProperty}
    (h : s.queueHosting call metadata = (.ok (), s')) :
    s.isOpen = true ∧ s.lastClientSequence < call.sequence ∧ s.prepared = none ∧
      ∃ request, RequestData.capture (call.asBatchRequest metadata) = .ok request ∧ s' = { s with
          lastClientSequence := call.sequence
          pendingClient := s.pendingClient.insert call.sequence
          working := { s.working with
            requests := s.working.requests.insert call.sequence request } } := by
  obtain ⟨hopen, h⟩ := whileOpen_eq_ok h
  obtain ⟨-, h⟩ := guard_eq_ok h
  obtain ⟨hsequence, h⟩ := guard_eq_ok h
  obtain ⟨hprepared, h⟩ := guard_eq_ok h
  obtain ⟨size, -, h⟩ := bind_eq_ok.mp h
  obtain ⟨-, h⟩ := guard_eq_ok h
  obtain ⟨request, hrequest, h⟩ := bind_eq_ok.mp h
  cases h
  refine ⟨hopen, not_le.mp hsequence, by simpa using hprepared, request, ?_, rfl⟩
  cases hcapture : RequestData.capture (call.asBatchRequest metadata) with
  | error e =>
    rw [hcapture] at hrequest
    cases hrequest
  | ok data =>
    rw [hcapture] at hrequest
    exact congrArg Except.ok (Except.ok.inj hrequest)

variable {batch : ScheduledBatch}

theorem prepare_eq_ok (h : s.prepare now = (.ok batch, s')) :
    s.isOpen = true ∧ s.clockMs ≤ now ∧ s.prepared = none ∧ ∃ serial next mask bucket,
      s.nextSerial = some serial ∧ s.nextOfSnapshot = .ok next ∧
      addRetained next s.history.toList (if s.hasWork then 1 else 0) s.working =
        .ok (mask, bucket) ∧
      batch = ⟨s.owner, s.connection, s.identity, s.flags.length, serial,
        ⟨s.localIncarnation, next, mask, s.peerIncarnation.getD 0, s.peerNext, s.peerBatches⟩,
        bucket⟩ ∧ s' = { s with
        clockMs := now
        prepared := some (serial, s.flags.length)
        flags := s.flags ++ [⟨true, false⟩] } := by
  obtain ⟨hopen, hclock, h⟩ := timed_eq_ok h
  obtain ⟨-, -, h⟩ := bind_eq_ok.mp h
  obtain ⟨hprepared, h⟩ := guard_eq_ok h
  obtain ⟨serial, hserial, h⟩ := bind_eq_ok.mp h
  obtain ⟨next, hnext, h⟩ := bind_eq_ok.mp h
  obtain ⟨⟨mask, bucket⟩, hretained, h⟩ := bind_eq_ok.mp h
  cases h
  exact ⟨hopen, hclock, by simpa using hprepared, serial, next, mask, bucket, okOr_eq_ok.mp hserial,
    hnext, hretained, rfl, rfl⟩

theorem commitSubmission_eq_ok (h : s.commitSubmission batch now = (.ok (), s')) :
    s.isOpen = true ∧ s.clockMs ≤ now ∧ (s.flagsOf batch).active = true ∧
      s.identity = batch.scheduler ∧ s.prepared.map Prod.fst = some batch.serial ∧
      ∃ t, t = (if batch.words.nextBatch = s.nextBatch then { s with clockMs := now } else
          { s with
            clockMs := now
            working := .empty
            submittedClient := s.submittedClient.insertMany s.working.requests.keys
            history := s.history.insert s.nextBatch ⟨now, s.working⟩
            nextBatch := batch.words.nextBatch }) ∧
        (batch.words.nextBatch ≠ s.nextBatch → batch.words.nextBatch = s.nextBatch + 1) ∧
        s' = { t with
          prepared := none
          flags := deactivate s.flags batch.flags
          nextSerial := if batch.serial + 1 < 2 ^ 64 then some (batch.serial + 1) else none } := by
  obtain ⟨hopen, hclock, h⟩ := timed_eq_ok h
  obtain ⟨-, -, h⟩ := bind_eq_ok.mp h
  obtain ⟨hguard, h⟩ := guard_eq_ok h
  obtain ⟨-, -, hactive, hidentity, -, hserial⟩ := not_not.mp hguard
  obtain ⟨t, ht, h⟩ := bind_eq_ok.mp h
  rw [commitWorking] at ht
  refine ⟨hopen, hclock, hactive, hidentity, hserial, t, ?_⟩
  split at ht
  case isTrue hsame =>
    cases ht
    cases h
    exact ⟨(if_pos hsame).symm, fun hne => absurd hsame hne, rfl⟩
  case isFalse hnew =>
    obtain ⟨next, hnext, ht⟩ := bind_eq_ok.mp ht
    obtain ⟨hnext', ht⟩ := guard_eq_ok ht
    cases ht
    cases h
    rw [checkedAdd] at hnext
    split at hnext
    case isFalse => cases hnext
    case isTrue =>
      cases hnext
      exact ⟨(if_neg hnew).symm, fun _ => not_not.mp hnext', rfl⟩

theorem completeServerRequest_eq_ok {ticket : ServerRequestTicket} {code : ℕ} {stream : Bytes}
    {completed : Bool} (h : s.completeServerRequest ticket code stream = (.ok completed, s')) :
    s.isOpen = true ∧ s.prepared = none ∧ (completed = false ∧ s' = s ∨
        completed = true ∧ ticket.sequence ∈ s.pendingServer ∧ s' = { s with
            pendingServer := s.pendingServer.erase ticket.sequence
            working := { s.working with
              results := s.working.results.insert ticket.sequence ⟨code, stream⟩ } }) := by
  obtain ⟨hopen, h⟩ := whileOpen_eq_ok h
  obtain ⟨hprepared, h⟩ := guard_eq_ok h
  obtain ⟨-, h⟩ := guard_eq_ok h
  refine ⟨hopen, by simpa using hprepared, ?_⟩
  cases hpending : s.pendingServer[ticket.sequence]? with
  | none =>
    rw [hpending] at h
    cases h
    exact Or.inl ⟨rfl, rfl⟩
  | some bytes =>
    rw [hpending] at h
    obtain ⟨-, h⟩ := guard_eq_ok h
    obtain ⟨rest, -, h⟩ := bind_eq_ok.mp h
    obtain ⟨-, h⟩ := guard_eq_ok h
    cases h
    exact Or.inr ⟨rfl, (BTreeMap.mem_iff _ _).mpr ⟨bytes, hpending⟩, rfl⟩

/-- What the scheduler becomes by a reply before the delivery. -/
def settle (s : BatchScheduler) (now : ℕ) (words : BatchWords) (history : BTreeMap ℕ Epoch)
    (peerNext : ℕ) (peerBatches : BitVec 32) (dedup : DedupWindow) : BatchScheduler :=
  { s with
    clockMs := now
    history := history
    peerIncarnation := some words.incarnation
    peerNext := peerNext
    peerBatches := peerBatches
    dedup := dedup }

variable {reply : OwnedBatchReply}

theorem onReply_eq_ok {delivery : BatchDelivery}
    (h : s.onReply reply now = (.ok (some delivery), s')) :
    s.isOpen = true ∧ s.clockMs ≤ now ∧ s.prepared = none ∧
      s.checkWords reply.payload.fields = .ok () ∧
      (∀ x, x ∈ reply.payload.requests ∨ x ∈ reply.payload.results → 0 < x) ∧
      ∃ fresh dedup history acknowledged peerNext peerBatches,
        takeFresh reply.payload.requests.toList s.dedup = .ok (fresh, dedup) ∧
        (∀ p ∈ fresh, p.1 ∉ s.pendingServer) ∧
        s.acknowledge reply.payload.fields = .ok (history, acknowledged) ∧
        mergeBitmap s.peerNext s.peerBatches reply.payload.fields.nextBatch
          reply.payload.fields.batches = .ok (peerNext, peerBatches) ∧
        (let delivered :=
          (s.settle now reply.payload.fields history peerNext peerBatches dedup).deliver
            reply fresh
          let retired := delivered.2.retire reply.payload.fields.incarnation acknowledged
          delivery = ⟨delivered.1.1, delivered.1.2.keys, retired.1, delivered.1.2⟩ ∧
          s' = retired.2) := by
  rw [onReply] at h
  split at h
  case isTrue => cases h
  case isFalse =>
  split at h
  case isTrue => cases h
  case isFalse =>
  obtain ⟨hopen, hclock, h⟩ := timed_eq_ok h
  obtain ⟨hprepared, h⟩ := guard_eq_ok h
  obtain ⟨-, h⟩ := guard_eq_ok h
  obtain ⟨_, hwords, h⟩ := bind_eq_ok.mp h
  obtain ⟨hpositive, h⟩ := guard_eq_ok h
  obtain ⟨incoming, -, h⟩ := bind_eq_ok.mp h
  obtain ⟨-, h⟩ := guard_eq_ok h
  obtain ⟨⟨fresh, dedup⟩, hfresh, h⟩ := bind_eq_ok.mp h
  obtain ⟨hroom, h⟩ := guard_eq_ok h
  obtain ⟨⟨history, acknowledged⟩, hacknowledge, h⟩ := bind_eq_ok.mp h
  obtain ⟨-, -, h⟩ := bind_eq_ok.mp h
  obtain ⟨⟨peerNext, peerBatches⟩, hmerge, h⟩ := bind_eq_ok.mp h
  refine ⟨hopen, hclock, by simpa using hprepared, hwords, fun x hx => ?_, fresh, dedup, history,
    acknowledged, peerNext, peerBatches, hfresh, fun p hp => ?_, hacknowledge, hmerge, ?_⟩
  · have hkey : x ∈ reply.payload.requests.keys ++ reply.payload.results.keys := by
      rw [mem_append, Std.ExtTreeMap.mem_keys, Std.ExtTreeMap.mem_keys]
      exact hx
    by_contra hle
    exact hpositive (Or.inl (any_eq_true.mpr ⟨x, hkey, by simpa using hle⟩))
  · intro hpending
    refine hroom (Or.inr (any_eq_true.mpr ⟨p, hp, ?_⟩))
    exact Std.ExtTreeMap.contains_iff_mem.mpr hpending
  · obtain ⟨hdelivery, hs'⟩ := Prod.mk.inj (Except.ok.inj h)
    exact ⟨(Option.some.inj hdelivery).symm, hs'.symm⟩

/-- A reply that is answered and delivers nothing is that of another scheduler. -/
theorem onReply_eq_none (h : s.onReply reply now = (.ok none, s')) : s' = s := by
  rw [onReply] at h
  split at h
  case isTrue => cases h
  case isFalse =>
  split at h
  case isTrue =>
    cases h
    rfl
  case isFalse =>
  obtain ⟨-, -, h⟩ := timed_eq_ok h
  obtain ⟨-, h⟩ := guard_eq_ok h
  obtain ⟨-, h⟩ := guard_eq_ok h
  obtain ⟨_, _, h⟩ := bind_eq_ok.mp h
  obtain ⟨-, h⟩ := guard_eq_ok h
  obtain ⟨_, _, h⟩ := bind_eq_ok.mp h
  obtain ⟨-, h⟩ := guard_eq_ok h
  obtain ⟨_, _, h⟩ := bind_eq_ok.mp h
  obtain ⟨-, h⟩ := guard_eq_ok h
  obtain ⟨_, _, h⟩ := bind_eq_ok.mp h
  obtain ⟨_, _, h⟩ := bind_eq_ok.mp h
  obtain ⟨_, _, h⟩ := bind_eq_ok.mp h
  cases h

theorem onReply_eq_error (h : s.onReply reply now = (.error stop, s')) : Halted s s' := by
  rw [onReply] at h
  split at h
  case isTrue =>
    cases h
    exact .close s
  case isFalse =>
  split at h
  case isTrue => cases h
  case isFalse => exact (timed_eq_error h).1

/-! ## Bitmaps -/

/-- The bitmap that counts down from `next` names the batch. -/
def Named (next : ℕ) (bits : BitVec 32) (n : ℕ) : Prop :=
  ∃ b < 32, bits.getLsbD b = true ∧ n + b + 1 = next

theorem validBitmap_eq (next : ℕ) (bits : BitVec 32) : ∃ valid, validBitmap next bits = .ok valid ∧
      (valid = true → ∀ b, bits.getLsbD b = true → b < next) := by
  by_cases hlong : 32 ≤ next
  · exact ⟨true, if_pos hlong, fun _ b hb => (BitVec.lt_of_getLsbD hb).trans_le hlong⟩
  · refine ⟨bits >>> next == 0, ?_, fun hvalid b hb => ?_⟩
    · rw [validBitmap, if_neg hlong, checkedShr_eq _ (not_le.mp hlong)]
      rfl
    · by_contra hle
      have hbit : (bits >>> next).getLsbD (b - next) = true := by
        rw [BitVec.getLsbD_ushiftRight, Nat.add_sub_cancel' (not_lt.mp hle)]
        exact hb
      rw [eq_of_beq hvalid] at hbit
      simp at hbit

theorem validBitmaps_eq (words : BatchWords) : ∃ valid, validBitmaps words = .ok valid := by
  obtain ⟨valid, hvalid, -⟩ := validBitmap_eq words.nextBatch words.batches
  rw [validBitmaps, hvalid, ok_bind]
  cases valid with
  | false => exact ⟨false, rfl⟩
  | true =>
    obtain ⟨validAck, hvalidAck, -⟩ := validBitmap_eq words.ackNextBatch words.ackBatches
    exact ⟨validAck, hvalidAck⟩

variable {words : BatchWords}

theorem validBitmaps_eq_true (h : validBitmaps words = .ok true) :
    (∀ b, words.batches.getLsbD b = true → b < words.nextBatch) ∧
      ∀ b, words.ackBatches.getLsbD b = true → b < words.ackNextBatch := by
  obtain ⟨valid, hvalid, hannounced⟩ := validBitmap_eq words.nextBatch words.batches
  rw [validBitmaps, hvalid, ok_bind] at h
  cases valid with
  | false => cases h
  | true =>
    obtain ⟨validAck, hvalidAck, hacknowledged⟩ :=
      validBitmap_eq words.ackNextBatch words.ackBatches
    obtain rfl : validAck = true := Except.ok.inj (hvalidAck.symm.trans h)
    exact ⟨hannounced rfl, hacknowledged rfl⟩

/-- What is known of the words of a reply that is taken. -/
structure WordsChecked (s : BatchScheduler) (words : BatchWords) : Prop where
  announced : ∀ b, words.batches.getLsbD b = true → b < words.nextBatch
  acknowledged : ∀ b, words.ackBatches.getLsbD b = true → b < words.ackNextBatch
  nextBatch_le : words.nextBatch ≤ i32Max
  ackNextBatch_le : words.ackNextBatch ≤ s.nextBatch
  samePeer : s.peerIncarnation = none ∨ s.peerIncarnation = some words.incarnation

theorem checkWords_eq_ok (h : s.checkWords words = .ok ()) : s.WordsChecked words := by
  obtain ⟨valid, hvalid, h⟩ := bind_eq_ok.mp h
  obtain ⟨hguard, h⟩ := guard_eq_ok h
  obtain ⟨hpeer, -⟩ := guard_eq_ok h
  rw [not_or, not_or, not_or, not_or, not_or, Bool.not_eq_false] at hguard
  obtain ⟨rfl, -, hnext, -, -, hack⟩ := hguard
  obtain ⟨hannounced, hacknowledged⟩ := validBitmaps_eq_true hvalid
  refine ⟨hannounced, hacknowledged, not_lt.mp hnext, not_lt.mp hack, ?_⟩
  cases hincarnation : s.peerIncarnation with
  | none => exact Or.inl rfl
  | some epoch =>
    rw [hincarnation] at hpeer
    exact Or.inr (congrArg some (by simpa using hpeer))

theorem and_shiftLeft_one_eq_zero (x : BitVec 32) {b : ℕ} (hb : b < 32) :
    x &&& 1#32 <<< b = 0 ↔ x.getLsbD b = false := by
  rw [← beq_iff_eq, DedupWindow.and_shiftLeft_one_beq_zero x b hb, Bool.not_eq_true']

/-- The loop over the acknowledged batches takes those named out of the history, and gathers the
sequences of their results. -/
theorem acknowledgeBits_eq {words : BatchWords} (history : BTreeMap ℕ Epoch)
    (acknowledged : BTreeSet ℤ) {bits : List ℕ} (hbits : ∀ b ∈ bits, b < 32)
    (hvalid : ∀ b, words.ackBatches.getLsbD b = true → b < words.ackNextBatch) :
    ∃ history' acknowledged', acknowledgeBits words bits history acknowledged =
        .ok (history', acknowledged') ∧
      (∀ n, (∃ b ∈ bits, words.ackBatches.getLsbD b = true ∧ n + b + 1 = words.ackNextBatch) →
        history'[n]? = none) ∧
      (∀ n, (¬∃ b ∈ bits, words.ackBatches.getLsbD b = true ∧ n + b + 1 = words.ackNextBatch) →
        history'[n]? = history[n]?) ∧ ∀ x ∈ acknowledged', x ∈ acknowledged ∨ ∃ n epoch,
        (∃ b ∈ bits, words.ackBatches.getLsbD b = true ∧ n + b + 1 = words.ackNextBatch) ∧
          history[n]? = some epoch ∧ x ∈ epoch.bucket.results := by
  induction bits generalizing history acknowledged with
  | nil => exact ⟨history, acknowledged, rfl, by simp, fun _ _ => rfl, fun _ hx => Or.inl hx⟩
  | cons b rest ih =>
    obtain ⟨hb, hrest⟩ := forall_mem_cons.mp hbits
    rw [acknowledgeBits, checkedShl_eq _ hb, ok_bind]
    by_cases hbit : words.ackBatches.getLsbD b = true
    · have hlt := hvalid b hbit
      have hset : ¬words.ackBatches &&& 1#32 <<< b = 0 := by
        rw [and_shiftLeft_one_eq_zero _ hb, hbit]
        exact Bool.true_eq_false_eq_False
      rw [if_neg hset, checkedSub_eq (by omega), ok_bind, checkedSub_eq (by omega), ok_bind]
      -- `number` is what this bit names
      generalize hnumber : words.ackNextBatch - 1 - b = number
      have hnames : ∀ n, n + b + 1 = words.ackNextBatch ↔ n = number := by omega
      cases hfound : history[number]? with
      | none =>
        obtain ⟨history', acknowledged', heq, hgone, hkept, hresults⟩ :=
          ih history acknowledged hrest
        refine ⟨history', acknowledged', heq, ?_, ?_, ?_⟩
        · rintro n ⟨b', hb', hset', hn⟩
          by_cases hother : ∃ b ∈ rest, words.ackBatches.getLsbD b = true ∧
              n + b + 1 = words.ackNextBatch
          · exact hgone n hother
          · rw [hkept n hother]
            rcases mem_cons.mp hb' with rfl | hmem
            · rw [(hnames n).mp hn, hfound]
            · exact absurd ⟨b', hmem, hset', hn⟩ hother
        · intro n hn
          exact hkept n fun ⟨b', hb', h⟩ => hn ⟨b', mem_cons_of_mem _ hb', h⟩
        · intro x hx
          refine (hresults x hx).imp_right ?_
          rintro ⟨n, epoch, ⟨b', hb', h⟩, hrest⟩
          exact ⟨n, epoch, ⟨b', mem_cons_of_mem _ hb', h⟩, hrest⟩
      | some epoch =>
        obtain ⟨history', acknowledged', heq, hgone, hkept, hresults⟩ := ih (history.erase number)
          (acknowledged.insertMany epoch.bucket.results.keys) hrest
        refine ⟨history', acknowledged', heq, ?_, ?_, ?_⟩
        · rintro n ⟨b', hb', hset', hn⟩
          by_cases hother : ∃ b ∈ rest, words.ackBatches.getLsbD b = true ∧
              n + b + 1 = words.ackNextBatch
          · exact hgone n hother
          · rw [hkept n hother, BTreeMap.get_erase]
            rcases mem_cons.mp hb' with rfl | hmem
            · rw [if_pos ((hnames n).mp hn).symm]
            · exact absurd ⟨b', hmem, hset', hn⟩ hother
        · intro n hn
          rw [hkept n fun ⟨b', hb', h⟩ => hn ⟨b', mem_cons_of_mem _ hb', h⟩, BTreeMap.get_erase,
            if_neg]
          rintro rfl
          exact hn ⟨b, mem_cons_self, hbit, (hnames _).mpr rfl⟩
        · intro x hx
          rcases hresults x hx with hx | ⟨n, epoch', ⟨b', hb', h⟩, hget, hmem⟩
          · rw [BTreeSet.mem_insertMany, Std.ExtTreeMap.mem_keys] at hx
            exact hx.imp_right fun hx =>
              ⟨number, epoch, ⟨b, mem_cons_self, hbit, (hnames _).mpr rfl⟩, hfound, hx⟩
          · rw [BTreeMap.get_erase] at hget
            split at hget
            case isTrue => cases hget
            case isFalse => exact Or.inr ⟨n, epoch', ⟨b', mem_cons_of_mem _ hb', h⟩, hget, hmem⟩
    · have hclear : words.ackBatches &&& 1#32 <<< b = 0 :=
        (and_shiftLeft_one_eq_zero _ hb).mpr (Bool.not_eq_true _ ▸ hbit)
      rw [if_pos hclear]
      obtain ⟨history', acknowledged', heq, hgone, hkept, hresults⟩ := ih history acknowledged hrest
      refine ⟨history', acknowledged', heq, ?_, ?_, ?_⟩
      · rintro n ⟨b', hb', hset', hn⟩
        rcases mem_cons.mp hb' with rfl | hmem
        · exact absurd hset' hbit
        · exact hgone n ⟨b', hmem, hset', hn⟩
      · intro n hn
        exact hkept n fun ⟨b', hb', h⟩ => hn ⟨b', mem_cons_of_mem _ hb', h⟩
      · intro x hx
        refine (hresults x hx).imp_right ?_
        rintro ⟨n, epoch, ⟨b', hb', h⟩, hrest⟩
        exact ⟨n, epoch, ⟨b', mem_cons_of_mem _ hb', h⟩, hrest⟩

/-- Whether the reply acknowledges the batch. -/
def Acknowledges (s : BatchScheduler) (words : BatchWords) (n : ℕ) : Prop :=
  words.ackIncarnation = s.localIncarnation ∧ Named words.ackNextBatch words.ackBatches n

/-- An acknowledgement is exact: the batches named are gone, the others are kept as they are. -/
theorem acknowledge_eq (h : s.WordsChecked words) :
    ∃ history acknowledged, s.acknowledge words = .ok (history, acknowledged) ∧
      (∀ n, s.Acknowledges words n → history[n]? = none) ∧
      (∀ n, ¬s.Acknowledges words n → history[n]? = s.history[n]?) ∧
      ∀ x ∈ acknowledged, ∃ n epoch, s.Acknowledges words n ∧ s.history[n]? = some epoch ∧
        x ∈ epoch.bucket.results := by
  rw [acknowledge]
  by_cases hlocal : words.ackIncarnation = s.localIncarnation
  · rw [if_pos hlocal]
    obtain ⟨history, acknowledged, heq, hgone, hkept, hresults⟩ :=
      @acknowledgeBits_eq words s.history
      ∅ (range 32) (fun b hb => mem_range.mp hb) h.acknowledged
    have hnamed : ∀ n, (∃ b ∈ range 32, words.ackBatches.getLsbD b = true ∧
        n + b + 1 = words.ackNextBatch) ↔ s.Acknowledges words n := fun n =>
      ⟨fun ⟨b, hb, h⟩ => ⟨hlocal, b, mem_range.mp hb, h⟩,
        fun ⟨_, b, hb, h⟩ => ⟨b, mem_range.mpr hb, h⟩⟩
    simp only [hnamed] at hgone hkept hresults
    refine ⟨history, acknowledged, heq, hgone, hkept, fun x hx => ?_⟩
    exact (hresults x hx).resolve_left Std.ExtTreeSet.not_mem_empty
  · rw [if_neg hlocal]
    exact ⟨s.history, ∅, rfl, fun n hn => absurd hn.1 hlocal, fun _ _ => rfl,
      fun x hx => absurd hx Std.ExtTreeSet.not_mem_empty⟩

/-- Merging two bitmaps names no batch that neither named. -/
theorem mergeBitmap_eq (next : ℕ) (bits : BitVec 32) (incomingNext : ℕ) (incomingBits : BitVec 32) :
    ∃ merged, mergeBitmap next bits incomingNext incomingBits =
      .ok (max next incomingNext, merged) ∧
      ∀ n, Named (max next incomingNext) merged n →
        Named next bits n ∨ Named incomingNext incomingBits n := by
  rw [mergeBitmap]
  by_cases hle : next ≤ incomingNext
  · rw [if_pos hle, checkedSub_eq hle, ok_bind, max_eq_right hle]
    by_cases hlong : 32 ≤ incomingNext - next
    · rw [if_pos hlong]
      refine ⟨_, rfl, ?_⟩
      rintro n ⟨b, hb, hset, hn⟩
      rw [BitVec.getLsbD_or, BitVec.getLsbD_zero, Bool.false_or] at hset
      exact Or.inr ⟨b, hb, hset, hn⟩
    · rw [if_neg hlong, checkedShl_eq _ (not_le.mp hlong)]
      refine ⟨_, rfl, ?_⟩
      rintro n ⟨b, hb, hset, hn⟩
      rw [BitVec.getLsbD_or, Bool.or_eq_true, BitVec.getLsbD_shiftLeft, Bool.and_eq_true,
        Bool.and_eq_true, Bool.not_eq_true', decide_eq_false_iff_not] at hset
      rcases hset with ⟨⟨-, hshift⟩, hset⟩ | hset
      · exact Or.inl ⟨b - (incomingNext - next), by omega, hset, by omega⟩
      · exact Or.inr ⟨b, hb, hset, hn⟩
  · rw [if_neg hle, checkedSub_eq (Nat.le_of_not_le hle), ok_bind,
      max_eq_left (Nat.le_of_not_le hle)]
    by_cases hshort : next - incomingNext < 32
    · rw [if_pos hshort, checkedShl_eq _ hshort]
      refine ⟨_, rfl, ?_⟩
      rintro n ⟨b, hb, hset, hn⟩
      rw [BitVec.getLsbD_or, Bool.or_eq_true, BitVec.getLsbD_shiftLeft, Bool.and_eq_true,
        Bool.and_eq_true, Bool.not_eq_true', decide_eq_false_iff_not] at hset
      rcases hset with hset | ⟨⟨-, hshift⟩, hset⟩
      · exact Or.inl ⟨b, hb, hset, hn⟩
      · exact Or.inr ⟨b - (next - incomingNext), by omega, hset, by omega⟩
    · rw [if_neg hshort]
      exact ⟨bits, rfl, fun n hn => Or.inl hn⟩

end BatchScheduler

/-! ## Runs -/

inductive Op where
  | queueHosting (call : PreparedHostingCall) (metadata : List RpcProperty)
  | retireClientRequest (sequence : ℤ)
  | prepare (now : ℕ)
  | markEncoded (batch : ScheduledBatch)
  | cancelPrepared
  | commitSubmission (batch : ScheduledBatch) (now : ℕ)
  | onReply (reply : OwnedBatchReply) (now : ℕ)
  | completeServerRequest (ticket : ServerRequestTicket) (code : ℕ) (stream : Bytes)
  | close
  /-- another holder of the connection closes it -/
  | closeConnection

inductive Answer where
  | returned (r : Except Stop Unit)
  | prepared (r : Except Stop ScheduledBatch)
  | replied (r : Except Stop (Option BatchDelivery))
  | completed (r : Except Stop Bool)

/-- A scheduler and the snapshots it has handed out. -/
structure System where
  scheduler : BatchScheduler
  snapshots : List ScheduledBatch

namespace System

def new (owner connection identity incarnation : ℕ) : System :=
  ⟨.new owner connection identity incarnation, []⟩

/-- The system with another scheduler. -/
def set (s : System) (scheduler : BatchScheduler) : System := { s with scheduler := scheduler }

def step (s : System) : Op → Answer × System
  | .queueHosting call metadata =>
    let (r, scheduler) := s.scheduler.queueHosting call metadata
    (.returned r, s.set scheduler)
  | .retireClientRequest sequence =>
    (.returned (.ok ()), s.set (s.scheduler.retireClientRequest sequence))
  | .prepare now =>
    let (r, scheduler) := s.scheduler.prepare now
    (.prepared r, ⟨scheduler, s.snapshots ++ r.toOption.toList⟩)
  | .markEncoded batch => (.returned (.ok ()), s.set (s.scheduler.markEncoded batch))
  | .cancelPrepared => (.returned (.ok ()), s.set s.scheduler.cancelPrepared)
  | .commitSubmission batch now =>
    -- nobody but the scheduler makes snapshots with its token
    if batch.scheduler = s.scheduler.identity ∧ batch ∉ s.snapshots then
      (.returned (.error (.refuse .scope)), s)
    else
      let (r, scheduler) := s.scheduler.commitSubmission batch now
      (.returned r, s.set scheduler)
  | .onReply reply now =>
    let (r, scheduler) := s.scheduler.onReply reply now
    (.replied r, s.set scheduler)
  | .completeServerRequest ticket code stream =>
    let (r, scheduler) := s.scheduler.completeServerRequest ticket code stream
    (.completed r, s.set scheduler)
  | .close => (.returned (.ok ()), s.set s.scheduler.close)
  | .closeConnection => (.returned (.ok ()), s.set { s.scheduler with connectionOpen := false })

end System

end SimMaster.Jegotrip
