import SimMaster.BatchSnapshots

/-!
# The books of a scheduler

While a scheduler is open its state agrees with the ledger of the calls made so far (`Books`): the
buckets hold what is posted for them, what was submitted is of some batch, and the words for the
peer name only what the peer has announced. Each method keeps this.
-/

namespace SimMaster.Jegotrip

open Rust Method List

/-- The state agrees with the ledger. -/
structure Books (incarnation : ℕ) (s : BatchScheduler) (l : Ledger) : Prop where
  localIncarnation : s.localIncarnation = incarnation
  accounts : Accounts s.bucketAt (· ∈ s.history) s.nextBatch incarnation l
  sequences : ∀ q ∈ l.requests, q.sequence ≤ s.lastClientSequence
  results : ∀ q ∈ l.results, q.sequence ∉ s.pendingServer ∧ s.dedup.Known q.sequence
  submitted : ∀ x ∈ s.submittedClient, ∃ q ∈ l.requests, q.sequence = x ∧ q.batch ≠ none
  pending : ∀ x ∈ s.pendingClient, x ≤ s.lastClientSequence
  answered : ∀ x ∈ l.answered, x ≤ s.lastClientSequence ∧ x ∉ s.pendingClient
  peer : ∀ n, BatchScheduler.Named s.peerNext s.peerBatches n →
    ∃ i, s.peerIncarnation = some i ∧ l.Announced i n
  created : ∀ (n : ℕ) (epoch : Epoch), s.history[n]? = some epoch → epoch.createdAtMs ≤ s.clockMs
  nextBatch_le : s.nextBatch ≤ i32Max

namespace Ledger

section

variable {δ : Type} {ps : List (Posting δ)}

theorem sequences_retire (x : ℤ) (ps : List (Posting δ)) :
    (ps.map (Posting.retire x)).map Posting.sequence = ps.map Posting.sequence := by
  rw [map_map]
  exact map_congr_left fun q _ => Posting.sequence_retire x q

theorem sequences_send (n : ℕ) (ps : List (Posting δ)) :
    (ps.map (Posting.send n)).map Posting.sequence = ps.map Posting.sequence := by
  rw [map_map]
  exact map_congr_left fun q _ => Posting.sequence_send n q

theorem nodup_sequences_append (h : (ps.map Posting.sequence).Nodup) {q : Posting δ}
    (hq : ∀ q' ∈ ps, q'.sequence ≠ q.sequence) : ((ps ++ [q]).map Posting.sequence).Nodup := by
  rw [map_append, map_singleton, (perm_append_singleton _ _).nodup_iff,
    nodup_cons]
  refine ⟨fun hmem => ?_, h⟩
  obtain ⟨q', hq', heq⟩ := mem_map.mp hmem
  exact hq q' hq' heq

end

variable {l : Ledger}

theorem Lasting.retire (h : l.Lasting) (x : ℤ) :
    Lasting { l with requests := l.requests.map (Posting.retire x) } :=
  ⟨by rw [sequences_retire]; exact h.requests, h.results, h.answered⟩

theorem Lasting.send (h : l.Lasting) :
    Lasting { l with
      requests := l.requests.map (Posting.send l.batches)
      results := l.results.map (Posting.send l.batches)
      batches := l.batches + 1 } :=
  ⟨by rw [sequences_send]; exact h.requests, by rw [sequences_send]; exact h.results, h.answered⟩

end Ledger

namespace BatchScheduler

variable {s s' : BatchScheduler} {now : ℕ}

/-- The results of a reply that are delivered are those of submitted requests, and they are
delivered once. -/
theorem deliver_client (s : BatchScheduler) (reply : OwnedBatchReply)
    (fresh : List (ℤ × RequestData)) :
    (s.deliver reply fresh).1.2.keys.Nodup ∧
      (∀ x ∈ (s.deliver reply fresh).1.2.keys, x ∈ s.pendingClient ∧ x ∈ s.submittedClient) ∧
      (∀ x, x ∈ (s.deliver reply fresh).2.pendingClient ↔
        x ∈ s.pendingClient ∧ x ∉ (s.deliver reply fresh).1.2.keys) ∧
      ∀ x ∈ (s.deliver reply fresh).2.submittedClient, x ∈ s.submittedClient := by
  refine ⟨BTreeMap.nodup_keys _, fun x hx => ?_, fun x => BTreeSet.mem_foldl_erase _ _ x,
    fun x hx => ((BTreeSet.mem_foldl_erase _ _ x).mp hx).1⟩
  rw [deliver, Std.ExtTreeMap.mem_keys, Std.ExtTreeMap.mem_map, Std.ExtTreeMap.mem_filter] at hx
  obtain ⟨hmem, hx⟩ := hx
  rw [Std.ExtTreeMap.getKey_eq, Bool.and_eq_true] at hx
  exact ⟨Std.ExtTreeSet.contains_iff_mem.mp hx.1, Std.ExtTreeSet.contains_iff_mem.mp hx.2⟩

/-- What a reply that is taken leaves. -/
structure Replied (s s' : BatchScheduler) (words : BatchWords) (matched : List ℤ) (now : ℕ) :
    Prop where
  clock : s.clockMs ≤ now
  checked : s.WordsChecked words
  nodup : matched.Nodup
  submitted : ∀ x ∈ matched, x ∈ s.pendingClient ∧ x ∈ s.submittedClient
  unchanged : s' = { s with
    clockMs := now
    history := s'.history
    peerIncarnation := some words.incarnation
    peerNext := s'.peerNext
    peerBatches := s'.peerBatches
    dedup := s'.dedup
    pendingServer := s'.pendingServer
    submittedClient := s'.submittedClient
    pendingClient := s'.pendingClient
    retiredThrough := s'.retiredThrough }
  acknowledged : ∀ n, s.Acknowledges words n → s'.history[n]? = none
  kept : ∀ n, ¬s.Acknowledges words n → s'.history[n]? = s.history[n]?
  peer : ∀ n, Named s'.peerNext s'.peerBatches n →
    Named s.peerNext s.peerBatches n ∨ Named words.nextBatch words.batches n
  pendingServer : ∀ x, s.dedup.Known x → x ∈ s'.pendingServer → x ∈ s.pendingServer
  known : ∀ x, s.dedup.Known x → s'.dedup.Known x
  submittedClient : ∀ x ∈ s'.submittedClient, x ∈ s.submittedClient
  pendingClient : ∀ x, x ∈ s'.pendingClient ↔ x ∈ s.pendingClient ∧ x ∉ matched

theorem replied_onReply {reply : OwnedBatchReply} {delivery : BatchDelivery}
    (h : s.onReply reply now = (.ok (some delivery), s')) :
    Replied s s' reply.payload.fields delivery.matchedResultSequences now := by
  obtain ⟨-, hclock, -, hwords, -, fresh, dedup, history, acknowledged, peerNext, peerBatches,
    hfresh, -, hacknowledge, hmerge, hdelivery⟩ := onReply_eq_ok h
  have hchecked := checkWords_eq_ok hwords
  obtain ⟨history', acknowledged', heq, hgone, hkept, -⟩ := acknowledge_eq hchecked
  obtain ⟨rfl, rfl⟩ := Prod.mk.inj (Except.ok.inj (heq.symm.trans hacknowledge))
  obtain ⟨merged, hmerged, hnamed⟩ := mergeBitmap_eq s.peerNext s.peerBatches
    reply.payload.fields.nextBatch reply.payload.fields.batches
  obtain ⟨rfl, rfl⟩ := Prod.mk.inj (Except.ok.inj (hmerged.symm.trans hmerge))
  obtain ⟨hknown, -, -, hunknown, -⟩ := takeFresh_spec hfresh
  -- the parts of the step: `t` is the scheduler settled, `t'` after the delivery
  generalize ht : s.settle now reply.payload.fields history' _ merged dedup = t at hdelivery
  obtain ⟨hnodup, hmatched, hpendingClient, hsubmittedClient⟩ := t.deliver_client reply fresh
  obtain ⟨-, pendingServer, submittedClient, pendingClient, ht', hpending⟩ :=
    t.deliver_eq reply fresh
  generalize t.deliver reply fresh = delivered
    at hdelivery ht' hnodup hmatched hpendingClient hsubmittedClient
  obtain ⟨⟨requests, results⟩, t'⟩ := delivered
  dsimp only at hdelivery ht' hnodup hmatched hpendingClient hsubmittedClient
  obtain ⟨through, hs', -, -⟩ := t'.retire_eq reply.payload.fields.incarnation acknowledged'
  generalize t'.retire reply.payload.fields.incarnation acknowledged' = retired at hdelivery hs'
  obtain ⟨retirement, s''⟩ := retired
  obtain ⟨rfl, rfl⟩ := hdelivery
  subst hs' ht' ht
  exact {
    clock := hclock
    checked := hchecked
    nodup := hnodup
    submitted := hmatched
    unchanged := rfl
    acknowledged := hgone
    kept := hkept
    peer := hnamed
    pendingServer := fun x hx hmem => ((hpending x).mp hmem).resolve_right fun hnew =>
      (hunknown x hnew).1 hx
    known := hknown
    submittedClient := hsubmittedClient
    pendingClient := hpendingClient }

end BatchScheduler

namespace Books

open BatchScheduler

variable {incarnation now : ℕ} {s s' : BatchScheduler} {l : Ledger}

variable (h : Books incarnation s l)
include h

/-- What the books do not look at. -/
theorem touch (hnow : s.clockMs ≤ now) (prepared : Option (ℕ × ℕ))
    (flags : List Flags) (connectionOpen : Bool) (nextSerial : Option ℕ) :
    Books incarnation { s with
      clockMs := now
      prepared := prepared
      flags := flags
      connectionOpen := connectionOpen
      nextSerial := nextSerial } l :=
  { h with
    accounts := h.accounts
    created := fun n epoch hn => (h.created n epoch hn).trans hnow }

theorem halted (hhalted : Halted s s') (hopen : s'.closed = false) : Books incarnation s' l := by
  obtain ⟨now, hnow, rfl | rfl⟩ := hhalted
  · exact h.touch hnow _ _ _ _
  · cases hopen

/-- A request is queued. -/
theorem queue {x : ℤ} (hx : s.lastClientSequence < x) (data : RequestData) :
    Books incarnation { s with
        lastClientSequence := x
        pendingClient := s.pendingClient.insert x
        working := { s.working with requests := s.working.requests.insert x data } }
      { l with requests := l.requests ++ [⟨x, data.borrowed, none, false⟩] } := by
  have hne : ∀ q ∈ l.requests, q.sequence ≠ x := fun q hq => ((h.sequences q hq).trans_lt hx).ne
  refine { h with
    accounts := h.accounts.queue hne data rfl fun _ => rfl
    sequences := fun q hq => ?_
    submitted := fun y hy => ?_
    pending := fun y hy => ?_
    answered := fun y hy => ?_ }
  · rcases mem_append.mp hq with hq | hq
    · exact (h.sequences q hq).trans hx.le
    · exact (mem_singleton.mp hq ▸ le_refl _)
  · obtain ⟨q, hq, hrest⟩ := h.submitted y hy
    exact ⟨q, mem_append_left _ hq, hrest⟩
  · rcases (BTreeSet.mem_insert _ _ _).mp hy with rfl | hy
    · exact le_refl _
    · exact (h.pending y hy).trans hx.le
  · obtain ⟨hle, hpending⟩ := h.answered y hy
    refine ⟨hle.trans hx.le, fun hmem => ?_⟩
    rcases (BTreeSet.mem_insert _ _ _).mp hmem with rfl | hmem
    · exact not_lt.mpr hle hx
    · exact hpending hmem

/-- A request is retired. -/
theorem retire (hprepared : s.prepared = none) (x : ℤ) : Books incarnation (s.retireClientRequest x)
      { l with requests := l.requests.map (Posting.retire x) } := by
  have hnone : ¬s.prepared.isSome = true := by
    rw [hprepared]
    exact Bool.false_ne_true
  rw [retireClientRequest, if_neg hnone]
  refine { h with
    accounts := h.accounts.retire x (fun p => ?_) (fun p => ?_) fun n => Std.ExtTreeMap.mem_map
    sequences := fun q hq => ?_
    submitted := fun y hy => ?_
    pending := fun y hy => h.pending y ((BTreeSet.mem_erase _ _ _).mp hy).2
    answered := fun y hy => ?_
    created := fun n epoch hn => ?_ }
  · cases p with
    | none => rfl
    | some n =>
      rw [bucketAt, bucketAt]
      rw [Std.ExtTreeMap.getElem?_map]
      cases s.history[n]? with
      | none => exact (Std.ExtTreeMap.ext_getElem? fun _ => rfl).symm
      | some epoch => rfl
  · cases p with
    | none => rfl
    | some n =>
      rw [bucketAt, bucketAt]
      rw [Std.ExtTreeMap.getElem?_map]
      cases s.history[n]? <;> rfl
  · obtain ⟨q', hq', rfl⟩ := mem_map.mp hq
    rw [Posting.sequence_retire]
    exact h.sequences q' hq'
  · obtain ⟨q, hq, hsequence, hbatch⟩ := h.submitted y ((BTreeSet.mem_erase _ _ _).mp hy).2
    refine ⟨_, mem_map_of_mem hq, (q.sequence_retire x).trans hsequence, ?_⟩
    rwa [Posting.batch_retire]
  · obtain ⟨hle, hpending⟩ := h.answered y hy
    exact ⟨hle, fun hmem => hpending ((BTreeSet.mem_erase _ _ _).mp hmem).2⟩
  · rw [Std.ExtTreeMap.getElem?_map, Option.map_eq_some_iff] at hn
    obtain ⟨epoch', hget, rfl⟩ := hn
    exact h.created n epoch' hget

/-- The working bucket becomes a batch. -/
theorem send (hnow : s.clockMs ≤ now) (hmax : s.nextBatch + 1 ≤ i32Max) : Books incarnation { s with
        clockMs := now
        working := .empty
        submittedClient := s.submittedClient.insertMany s.working.requests.keys
        history := s.history.insert s.nextBatch ⟨now, s.working⟩
        nextBatch := s.nextBatch + 1 }
      { l with
        requests := l.requests.map (Posting.send l.batches)
        results := l.results.map (Posting.send l.batches)
        batches := l.batches + 1 } := by
  refine { h with
    accounts := h.accounts.send rfl ?_ (fun n hn => ?_) fun n => BTreeMap.mem_insert _ _ _ _
    sequences := fun q hq => ?_
    results := fun q hq => ?_
    submitted := fun x hx => ?_
    created := fun n epoch hn => ?_
    nextBatch_le := hmax }
  · refine (bucketAt_of_get ?_ : _ = Epoch.bucket ⟨now, s.working⟩)
    rw [BTreeMap.get_insert, if_pos rfl]
  · rw [bucketAt, bucketAt]
    rw [BTreeMap.get_insert, if_neg (Ne.symm hn)]
  · obtain ⟨q', hq', rfl⟩ := mem_map.mp hq
    rw [Posting.sequence_send]
    exact h.sequences q' hq'
  · obtain ⟨q', hq', rfl⟩ := mem_map.mp hq
    rw [Posting.sequence_send]
    exact h.results q' hq'
  · rcases (BTreeSet.mem_insertMany _ _ _).mp hx with hx | hx
    · obtain ⟨q, hq, hsequence, hbatch⟩ := h.submitted x hx
      refine ⟨_, mem_map_of_mem hq, (q.sequence_send _).trans hsequence, ?_⟩
      rw [Posting.send]
      split
      · exact Option.some_ne_none _
      · exact hbatch
    · -- what is in the working bucket waits for this batch
      obtain ⟨data, hdata⟩ := (BTreeMap.mem_iff _ _).mp (Std.ExtTreeMap.mem_keys.mp hx)
      obtain ⟨q, hq, hbatch, hretired, hsequence, -⟩ :=
        (h.accounts.requests none (fun _ hn => by cases hn) x data.borrowed).mp ⟨data, hdata, rfl⟩
      refine ⟨_, mem_map_of_mem hq, (q.sequence_send _).trans hsequence, ?_⟩
      rw [Posting.send, if_pos ((Posting.waiting_iff q).mpr ⟨hbatch, hretired⟩)]
      exact Option.some_ne_none _
  · rw [BTreeMap.get_insert] at hn
    split at hn
    case isTrue =>
      cases hn
      exact le_refl now
    case isFalse => exact (h.created n epoch hn).trans hnow

/-- A reply is taken. -/
theorem reply {words : BatchWords} {matched : List ℤ} (hreply : Replied s s' words matched now) :
    Books incarnation s' { l with
      replies := l.replies ++ [words]
      answered := l.answered ++ matched } := by
  have hannounced : ∀ i n, l.Announced i n → Ledger.Announced { l with
      replies := l.replies ++ [words], answered := l.answered ++ matched } i n := by
    rintro i n ⟨words', hmem, hrest⟩
    exact ⟨words', mem_append_left _ hmem, hrest⟩
  have hsub : ∀ (n : ℕ) (epoch : Epoch), s'.history[n]? = some epoch →
      ¬s.Acknowledges words n ∧ s.history[n]? = some epoch := by
    intro n epoch hget
    by_cases hack : s.Acknowledges words n
    · rw [hreply.acknowledged n hack] at hget
      cases hget
    · exact ⟨hack, hreply.kept n hack ▸ hget⟩
  have hs' := hreply.unchanged
  have hacks : ∀ n, s.Acknowledges words n ↔ words.ackIncarnation = incarnation ∧
      Named words.ackNextBatch words.ackBatches n := by
    intro n
    rw [Acknowledges, h.localIncarnation]
  have hhistory : ∀ n, n ∈ s'.history ↔ n ∈ s.history ∧ ¬s.Acknowledges words n := by
    intro n
    rw [BTreeMap.mem_iff, BTreeMap.mem_iff]
    constructor
    · rintro ⟨epoch, hget⟩
      exact ⟨⟨epoch, (hsub n epoch hget).2⟩, (hsub n epoch hget).1⟩
    · rintro ⟨⟨epoch, hget⟩, hack⟩
      exact ⟨epoch, (hreply.kept n hack).trans hget⟩
  have hbucket : ∀ n, ¬s.Acknowledges words n → s'.bucketAt (some n) = s.bucketAt (some n) := by
    intro n hack
    rw [bucketAt, bucketAt, hreply.kept n hack]
  have hworking : s'.bucketAt none = s.bucketAt none := by
    rw [hs']
    rfl
  have hnext : s'.nextBatch = s.nextBatch := by rw [hs']
  have hlast : s'.lastClientSequence = s.lastClientSequence := by rw [hs']
  have hincarnation : s'.peerIncarnation = some words.incarnation := by rw [hs']
  refine
    { localIncarnation := by rw [hs']; exact h.localIncarnation
      accounts := ?_
      sequences := fun q hq => hlast ▸ h.sequences q hq
      results := fun q hq => ?_
      submitted := fun x hx => h.submitted x (hreply.submittedClient x hx)
      pending := fun x hx => hlast ▸ h.pending x ((hreply.pendingClient x).mp hx).1
      answered := fun x hx => ?_
      peer := fun n hn => ?_
      created := fun n epoch hget => ?_
      nextBatch_le := hnext ▸ h.nextBatch_le }
  · rw [hnext]
    exact h.accounts.reply hreply.checked.ackNextBatch_le _ hacks hworking hbucket hhistory
  · obtain ⟨hpending, hknown⟩ := h.results q hq
    exact ⟨fun hmem => hpending (hreply.pendingServer _ hknown hmem), hreply.known _ hknown⟩
  · rw [hlast, hreply.pendingClient]
    rcases mem_append.mp hx with hx | hx
    · exact ⟨(h.answered x hx).1, fun hmem => (h.answered x hx).2 hmem.1⟩
    · exact ⟨h.pending x (hreply.submitted x hx).1, fun hmem => hmem.2 hx⟩
  · refine ⟨words.incarnation, hincarnation, ?_⟩
    rcases hreply.peer n hn with hn | hn
    · obtain ⟨i, hi, hold⟩ := h.peer n hn
      have hsame : i = words.incarnation := by
        rcases hreply.checked.samePeer with hnone | hsome
        · rw [hnone] at hi
          cases hi
        · exact Option.some.inj (hi.symm.trans hsome)
      exact hsame ▸ hannounced i n hold
    · exact ⟨words, mem_append_right _ mem_cons_self, rfl, hn⟩
  · have hclock : s'.clockMs = now := by rw [hs']
    rw [hclock]
    exact (h.created n epoch (hsub n epoch hget).2).trans hreply.clock

/-- A server request is completed. -/
theorem complete {x : ℤ} (hx : x ∈ s.pendingServer) (hknown : s.dedup.Known x) (data : ResultData) :
    Books incarnation { s with
        pendingServer := s.pendingServer.erase x
        working := { s.working with results := s.working.results.insert x data } }
      { l with results := l.results ++ [⟨x, data.borrowed, none, false⟩] } := by
  refine { h with
    accounts := h.accounts.complete (fun q hq heq => ?_) data rfl fun _ => rfl
    results := fun q hq => ?_ }
  · exact (h.results q hq).1 (heq ▸ hx)
  · rcases mem_append.mp hq with hq | hq
    · obtain ⟨hpending, hknown⟩ := h.results q hq
      exact ⟨fun hmem => hpending ((BTreeMap.mem_erase _ _ _).mp hmem).2, hknown⟩
    · rw [mem_singleton.mp hq]
      exact ⟨fun hmem => ((BTreeMap.mem_erase _ _ _).mp hmem).1 rfl, hknown⟩

end Books

/-! ## Checked arithmetic -/

namespace BatchScheduler

variable {s : BatchScheduler} {now : ℕ}

/-- The computation does not panic. -/
def Sound {α : Type} (x : Except Stop α) : Prop := Raises (· ≠ .panic) x

variable {α : Type}

theorem sound_ofCodec {stop : BatchError → Stop} (hstop : ∀ e, stop e ≠ .panic)
    (x : Except CodecError α) : Sound (ofCodec stop x) := by
  cases x with
  | ok a => exact .ok a
  | error e => exact .error (hstop _)

theorem sound_overdue {epochs : List Epoch} (h : ∀ epoch ∈ epochs, epoch.createdAtMs ≤ now) :
    Sound (overdue now epochs) := by
  induction epochs with
  | nil => exact .ok _
  | cons epoch rest ih =>
    obtain ⟨hepoch, hrest⟩ := forall_mem_cons.mp h
    rw [overdue, checkedSub_eq hepoch, ok_bind]
    split
    · exact .ok _
    · exact ih hrest

theorem sound_ensureRetention {history : BTreeMap ℕ Epoch}
    (h : ∀ (n : ℕ) (epoch : Epoch), history[n]? = some epoch → epoch.createdAtMs ≤ now) :
    Sound (ensureRetention history now) := by
  refine Raises.bind (sound_overdue fun epoch hepoch => ?_) fun late => ?_
  · obtain ⟨n, hn⟩ := (BTreeMap.mem_vals _ _).mp hepoch
    exact h n epoch hn
  · split
    · exact .error (by decide)
    · exact .ok _

theorem sound_addRetained {next : ℕ} {entries : List (ℕ × Epoch)}
    (h : ∀ entry ∈ entries, entry.1 < i32Max) (mask : BitVec 32) (bucket : Bucket) :
    Sound (addRetained next entries mask bucket) := by
  induction entries generalizing mask bucket with
  | nil => exact .ok _
  | cons entry rest ih =>
    obtain ⟨hentry, hrest⟩ := forall_mem_cons.mp h
    obtain ⟨epoch, retained⟩ := entry
    have hadd : epoch + 1 < 2 ^ 32 := by
      rw [i32Max] at hentry
      omega
    rw [addRetained, checkedAdd_eq hadd, ok_bind]
    refine Raises.guard (by decide) ?_
    by_cases hshort : 32 ≤ next - (epoch + 1)
    · rw [if_pos hshort]
      exact .error (by decide)
    · rw [if_neg hshort]
      rw [checkedShl_eq _ (not_le.mp hshort), ok_bind]
      exact ih hrest _ _

theorem sound_takeFresh (entries : List (ℤ × BatchRequest)) (dedup : DedupWindow) :
    Sound (takeFresh entries dedup) := by
  induction entries generalizing dedup with
  | nil => exact .ok _
  | cons entry rest ih =>
    rw [takeFresh]
    split
    · exact Raises.bind (sound_ofCodec (fun _ h => by cases h) _) fun _ =>
        Raises.bind (ih _) fun _ => .ok _
    · exact ih _

theorem sound_checkWords (s : BatchScheduler) (words : BatchWords) :
    Sound (s.checkWords words) := by
  obtain ⟨valid, hvalid⟩ := validBitmaps_eq words
  rw [checkWords, hvalid, ok_bind]
  refine Raises.guard (by decide) (Raises.guard (by decide) ?_)
  split
  case isTrue hlt =>
    rw [checkedSub_eq hlt.le, ok_bind]
    split
    · exact .error (by decide)
    · exact .ok _
  case isFalse => exact .ok _

theorem sound_commitWorking (batch : ScheduledBatch) (now : ℕ) (h : s.nextBatch ≤ i32Max) :
    Sound (s.commitWorking batch now) := by
  rw [commitWorking]
  split
  case isTrue => exact .ok _
  case isFalse =>
    have hadd : s.nextBatch + 1 < 2 ^ 32 := by
      rw [i32Max] at h
      omega
    rw [checkedAdd_eq hadd, ok_bind]
    exact Raises.guard (by decide) (.ok _)

/-- What is pending is part of the totals. -/
theorem le_totals {x : ℤ} {bytes : ℕ} (h : s.pendingServer[x]? = some bytes) :
    bytes ≤ s.totals.2.2 := by
  have hmem : bytes ∈ s.pendingServer.vals := (BTreeMap.mem_vals _ _).mpr ⟨x, h⟩
  exact (le_sum_of_mem hmem).trans (Nat.le_add_left _ _)

theorem timed_ne_panic {body : BatchScheduler → Except Stop (α × BatchScheduler)}
    (h : s.isOpen = true → s.clockMs ≤ now → Sound (body { s with clockMs := now })) :
    (s.timed now body).1 ≠ .error .panic := by
  intro hpanic
  cases hcall : s.timed now body with
  | mk r s' =>
  rw [hcall] at hpanic
  obtain rfl : r = .error .panic := hpanic
  obtain ⟨hopen, hclock, hbody⟩ := (timed_eq_error hcall).2 rfl
  exact h hopen hclock _ hbody rfl

theorem whileOpen_ne_panic {body : Except Stop (α × BatchScheduler)} (h : Sound body) :
    (s.whileOpen body).1 ≠ .error .panic := by
  intro hpanic
  cases hcall : s.whileOpen body with
  | mk r s' =>
  rw [hcall] at hpanic
  obtain rfl : r = .error .panic := hpanic
  exact h _ ((whileOpen_eq_error hcall).2 rfl) rfl

variable {incarnation : ℕ} {l : Ledger}

section

variable (h : s.isOpen = true → Books incarnation s l)
include h

theorem prepare_ne_panic (now : ℕ) : (s.prepare now).1 ≠ .error .panic := by
  refine timed_ne_panic fun hopen hclock => ?_
  have hbooks := h hopen
  refine Raises.bind (sound_ensureRetention fun n epoch hget =>
    (hbooks.created n epoch hget).trans hclock) fun _ => Raises.guard (by decide) ?_
  refine Raises.bind ?_ fun serial => Raises.bind ?_ fun next => Raises.bind ?_ fun _ => .ok _
  · cases s.nextSerial with
    | none => exact .error (by decide)
    | some serial => exact .ok _
  · rw [nextOfSnapshot]
    split
    · split
      · exact .error (by decide)
      · split
        · exact .ok _
        · exact .error (by decide)
    · exact .ok _
  · refine sound_addRetained (fun entry hentry => ?_) _ _
    have hkept := (hbooks.accounts.kept entry.1).mp (BTreeMap.mem_of_mem_toList hentry)
    exact hkept.1.trans_le hbooks.nextBatch_le

theorem commitSubmission_ne_panic (batch : ScheduledBatch) (now : ℕ) :
    (s.commitSubmission batch now).1 ≠ .error .panic := by
  refine timed_ne_panic fun hopen hclock => ?_
  have hbooks := h hopen
  refine Raises.bind (sound_ensureRetention fun n epoch hget =>
    (hbooks.created n epoch hget).trans hclock) fun _ => Raises.guard (by decide) ?_
  exact Raises.bind (sound_commitWorking batch now hbooks.nextBatch_le) fun _ => .ok _

theorem onReply_ne_panic (reply : OwnedBatchReply)
    (now : ℕ) : (s.onReply reply now).1 ≠ .error .panic := by
  rw [onReply]
  split
  case isTrue => exact fun h => by cases h
  case isFalse =>
  split
  case isTrue => exact fun h => by cases h
  case isFalse =>
  refine timed_ne_panic fun hopen hclock => ?_
  have hbooks := h hopen
  refine Raises.guard (by decide) <| Raises.guard (by decide) <|
    Raises.bind_of (sound_checkWords _ _)
    fun _ hwords => Raises.guard (by decide) ?_
  obtain ⟨history, acknowledged, heq, hgone, hkept, -⟩ := acknowledge_eq (checkWords_eq_ok hwords)
  obtain ⟨merged, hmerged, -⟩ := mergeBitmap_eq s.peerNext s.peerBatches
    reply.payload.fields.nextBatch reply.payload.fields.batches
  refine Raises.bind (sound_ofCodec (fun _ h => by cases h) _) fun _ => Raises.guard (by decide) ?_
  refine Raises.bind (sound_takeFresh _ _) fun _ => Raises.guard (by decide) ?_
  rw [heq, ok_bind]
  -- what is left of the history is not younger than the clock either
  refine Raises.bind (sound_ensureRetention fun n epoch hget => ?_) fun _ => ?_
  · by_cases hack : Acknowledges { s with clockMs := now } reply.payload.fields n
    · rw [hgone n hack] at hget
      cases hget
    · rw [hkept n hack] at hget
      exact (hbooks.created n epoch hget).trans hclock
  · rw [hmerged, ok_bind]
    exact .ok _

end

theorem queueHosting_ne_panic (s : BatchScheduler) (call : PreparedHostingCall)
    (metadata : List RpcProperty) : (s.queueHosting call metadata).1 ≠ .error .panic :=
  whileOpen_ne_panic <| Raises.guard (by decide) <| Raises.guard (by decide) <|
    Raises.guard (by decide) <|
    Raises.bind (sound_ofCodec (fun _ h => by cases h) _) fun _ => Raises.guard (by decide) <|
      Raises.bind (sound_ofCodec (fun _ h => by cases h) _) fun _ => .ok _

theorem completeServerRequest_ne_panic (s : BatchScheduler) (ticket : ServerRequestTicket)
    (code : ℕ)
    (stream : Bytes) : (s.completeServerRequest ticket code stream).1 ≠ .error .panic := by
  refine whileOpen_ne_panic <| Raises.guard (by decide) <| Raises.guard (by decide) ?_
  cases hpending : s.pendingServer[ticket.sequence]? with
  | none => exact .ok _
  | some bytes =>
    refine Raises.guard (by decide) ?_
    rw [checkedSub_eq (le_totals hpending), ok_bind]
    exact Raises.guard (by decide) (.ok _)

end BatchScheduler

end SimMaster.Jegotrip
