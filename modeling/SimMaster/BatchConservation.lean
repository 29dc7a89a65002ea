import SimMaster.BatchBooks

/-!
# The batch scheduler loses and duplicates nothing

Along every run the scheduler is in order and agrees with the ledger, as long as it is open
(`Consistent`). The snapshot that is out has a number after the working bucket, if there is work,
and nobody can commit another one (`Sealed`). What the ledger has once, it has once for good, also
after the scheduler was closed.
-/

namespace SimMaster.Jegotrip

open Rust Machine Method List Option

/-! ## Snapshots that are out -/

namespace BatchScheduler

variable {s' s : BatchScheduler} {n : ℕ}

theorem flagsOf_deactivate (hflags : s'.flags = deactivate s.flags n)
    {batch : ScheduledBatch} (h : (s'.flagsOf batch).active = true) :
    batch.flags ≠ n ∧ (s.flagsOf batch).active = true := by
  rw [flagsOf, hflags, deactivate, getD_eq_getElem?_getD, getElem?_modify] at h
  rw [flagsOf, getD_eq_getElem?_getD]
  cases hget : s.flags[batch.flags]? with
  | none =>
    rw [hget] at h
    cases h
  | some f =>
    rw [hget] at h
    by_cases hn : n = batch.flags
    · simp [hn] at h
    · simp only [hn, if_false, Option.map_eq_map, map_some, getD_some] at h
      exact ⟨Ne.symm hn, h⟩

theorem flagsOf_modify_encoded
    (hflags : s'.flags = s.flags.modify n fun f => { f with encoded := true })
    (batch : ScheduledBatch) : (s'.flagsOf batch).active = (s.flagsOf batch).active := by
  rw [flagsOf, flagsOf, hflags, getD_eq_getElem?_getD, getD_eq_getElem?_getD,
    getElem?_modify]
  cases s.flags[batch.flags]? with
  | none => rfl
  | some f =>
    by_cases hn : n = batch.flags <;> simp [hn]

end BatchScheduler

/-- Of the snapshots only the one that is out is active, and it has the number after the working
bucket, if there is work. -/
def System.Sealed (s : System) : Prop :=
  ∀ batch ∈ s.snapshots, batch.flags < s.scheduler.flags.length ∧
    ((s.scheduler.flagsOf batch).active = true →
      s.scheduler.prepared = some (batch.serial, batch.flags) ∧
        s.scheduler.nextOfSnapshot = .ok batch.words.nextBatch)

namespace System

open BatchScheduler

variable {s : System} {t : BatchScheduler}

/-- While no snapshot is out. -/
theorem Sealed.idle (h : s.Sealed) (hprepared : s.scheduler.prepared = none)
    (hflags : t.flags = s.scheduler.flags) : (s.set t).Sealed := by
  intro batch hbatch
  obtain ⟨hlt, hactive⟩ := h batch hbatch
  refine ⟨hflags ▸ hlt, fun hactive' => ?_⟩
  have hsame : t.flagsOf batch = s.scheduler.flagsOf batch := by rw [flagsOf, flagsOf, hflags]
  obtain ⟨hsome, -⟩ := hactive (hsame ▸ hactive')
  rw [hprepared] at hsome
  cases hsome

/-- After the snapshot that was out is cancelled or committed. -/
theorem Sealed.deactivate (h : s.Sealed) {n serial : ℕ}
    (hprepared : s.scheduler.prepared = some (serial, n))
    (hflags : t.flags = deactivate s.scheduler.flags n) : (s.set t).Sealed := by
  intro batch hbatch
  obtain ⟨hlt, hactive⟩ := h batch hbatch
  refine ⟨?_, fun hactive' => ?_⟩
  · rw [set, hflags, BatchScheduler.deactivate, length_modify]
    exact hlt
  · obtain ⟨hne, hold⟩ := flagsOf_deactivate hflags hactive'
    obtain ⟨hsome, -⟩ := hactive hold
    rw [hprepared] at hsome
    exact absurd (Prod.mk.inj (some.inj hsome)).2.symm hne

theorem Sealed.halted (h : s.Sealed) (hhalted : Halted s.scheduler t) (hopen : t.closed = false) :
    (s.set t).Sealed := by
  obtain ⟨now, -, rfl | rfl⟩ := hhalted
  · exact h
  · cases hopen

variable {batch : ScheduledBatch}

theorem Sealed.prepare (h : s.Sealed) (hprepared : s.scheduler.prepared = none)
    (hflags : batch.flags = s.scheduler.flags.length)
    (hnext : s.scheduler.nextOfSnapshot = .ok batch.words.nextBatch) (now : ℕ) :
    Sealed ⟨{ s.scheduler with
      clockMs := now
      prepared := some (batch.serial, s.scheduler.flags.length)
      flags := s.scheduler.flags ++ [⟨true, false⟩] }, s.snapshots ++ [batch]⟩ := by
  intro b hb
  rcases mem_append.mp hb with hb | hb
  · obtain ⟨hlt, hactive⟩ := h b hb
    refine ⟨?_, fun hactive' => ?_⟩
    · rw [length_append]
      exact Nat.lt_add_right _ hlt
    · rw [flagsOf, getD_append _ _ _ _ hlt] at hactive'
      obtain ⟨hsome, -⟩ := hactive hactive'
      rw [hprepared] at hsome
      cases hsome
  · obtain rfl := mem_singleton.mp hb
    refine ⟨?_, fun _ => ⟨by rw [hflags], hnext⟩⟩
    rw [length_append, hflags]
    exact Nat.lt_succ_self _

theorem Sealed.markEncoded (h : s.Sealed) (batch : ScheduledBatch) :
    (s.set (s.scheduler.markEncoded batch)).Sealed := by
  intro b hb
  obtain ⟨hlt, hactive⟩ := h b hb
  refine ⟨?_, fun hactive' => hactive ?_⟩
  · rw [set, BatchScheduler.markEncoded, length_modify]
    exact hlt
  · rwa [set, flagsOf_modify_encoded rfl] at hactive'

/-! ## Steps -/

/-- The scheduler is in order and agrees with the ledger, as long as it is open. -/
structure Consistent (incarnation : ℕ) (s : System) (l : Ledger) : Prop where
  orderly : s.scheduler.Orderly
  lasting : l.Lasting
  open_ : s.scheduler.closed = false → Books incarnation s.scheduler l ∧ s.Sealed

variable {incarnation : ℕ} {l : Ledger}

theorem consistent_new (owner connection identity incarnation : ℕ) :
    Consistent incarnation (new owner connection identity incarnation) .empty := by
  refine ⟨orderly_new _ _ _ _, ⟨nodup_nil, nodup_nil, nodup_nil⟩,
    fun _ => ⟨?_, fun _ hb => by cases hb⟩⟩
  have hack : ∀ i n, ¬Ledger.Acknowledged .empty i n := fun i n ⟨words, hmem, _⟩ => by cases hmem
  have hplace : ∀ p, (BatchScheduler.new owner connection identity incarnation).bucketAt p =
      .empty := by
    rintro (_ | n)
    · rfl
    · exact bucketAt_of_not_mem Std.ExtTreeMap.not_mem_empty
  refine
    { localIncarnation := rfl
      accounts :=
        { batches := rfl
          kept := fun n => iff_of_false Std.ExtTreeMap.not_mem_empty fun hn =>
            Nat.not_lt_zero _ hn.1
          acknowledged := fun n hn => absurd hn (hack _ _)
          requests := fun p _ => ?_
          results := fun p _ => ?_
          sentRequests := fun _ hq => by cases hq
          sentResults := fun _ hq => by cases hq
          unretired := fun _ hq => by cases hq }
      sequences := fun _ hq => by cases hq
      results := fun _ hq => by cases hq
      submitted := fun x hx => absurd hx Std.ExtTreeSet.not_mem_empty
      pending := fun x hx => absurd hx Std.ExtTreeSet.not_mem_empty
      answered := fun _ hq => by cases hq
      peer := fun n ⟨b, _, hset, _⟩ => ?_
      created := fun n epoch hget => ?_
      nextBatch_le := Nat.zero_le _ }
  · rw [new, hplace]
    exact .nil _ _
  · rw [new, hplace]
    exact .nil _ _
  · simp [new, BatchScheduler.new] at hset
  · simp [new, BatchScheduler.new] at hget

/-- A method that failed. -/
theorem Consistent.halted (h : Consistent incarnation s l) (hhalted : Halted s.scheduler t)
    (horderly : t.Orderly) (hopen : t.closed = false → s.scheduler.closed = false) :
    Consistent incarnation (s.set t) l :=
  ⟨horderly, h.lasting, fun hclosed =>
    have hs := h.open_ (hopen hclosed)
    ⟨hs.1.halted hhalted hclosed, hs.2.halted hhalted hclosed⟩⟩

variable {now : ℕ}

section

variable (h : Consistent incarnation s l)
include h

/-- A snapshot is committed. -/
theorem Consistent.commit (hbatch : ¬(batch.scheduler = s.scheduler.identity ∧ batch ∉ s.snapshots))
    (hcommit : s.scheduler.commitSubmission batch now = (.ok (), t)) (horderly : t.Orderly) :
    Consistent incarnation (s.set t)
      (l.record (.commitSubmission batch now, .returned (.ok ()))) := by
  obtain ⟨hopen, hclock, hactive, hidentity, -, t', ht, -, rfl⟩ := commitSubmission_eq_ok hcommit
  obtain ⟨hbooks, hsealed⟩ := h.open_ (closed_of_isOpen hopen)
  have hmem : batch ∈ s.snapshots := by
    by_contra hnot
    exact hbatch ⟨hidentity.symm, hnot⟩
  obtain ⟨hprepared, hnext⟩ := (hsealed batch hmem).2 hactive
  obtain ⟨hwork, hidle, hmax⟩ := nextOfSnapshot_eq_ok hnext
  have hwaiting := hbooks.accounts.hasWork
  rw [Ledger.record]
  cases hbusy : s.scheduler.hasWork with
  | true =>
    rw [if_neg (by rw [hwork hbusy]; exact Nat.succ_ne_self _), hwork hbusy] at ht
    have hyes : l.waiting = true := hwaiting ▸ hbusy
    rw [if_pos hyes]
    have hsent := hbooks.send hclock (hwork hbusy ▸ hmax hbooks.nextBatch_le)
    subst ht
    exact ⟨horderly, h.lasting.send, fun _ =>
      ⟨hsent.touch (le_refl now) _ _ _ _, hsealed.deactivate hprepared rfl⟩⟩
  | false =>
    rw [if_pos (hidle hbusy)] at ht
    have hno : ¬l.waiting = true := by
      rw [← hwaiting, hbusy]
      exact Bool.false_ne_true
    rw [if_neg hno]
    subst ht
    exact ⟨horderly, h.lasting, fun _ =>
      ⟨hbooks.touch hclock _ _ _ _, hsealed.deactivate hprepared rfl⟩⟩

/-- A reply is taken. -/
theorem Consistent.reply {reply : OwnedBatchReply}
    {delivery : BatchDelivery} (hreply : s.scheduler.onReply reply now = (.ok (some delivery), t))
    (horderly : t.Orderly) :
    Consistent incarnation (s.set t)
      (l.record (.onReply reply now, .replied (.ok (some delivery)))) := by
  obtain ⟨hopen, -, hprepared, -⟩ := onReply_eq_ok hreply
  obtain ⟨hbooks, hsealed⟩ := h.open_ (closed_of_isOpen hopen)
  have hreplied := replied_onReply hreply
  refine ⟨horderly, ⟨h.lasting.requests, h.lasting.results, ?_⟩, fun _ =>
    ⟨hbooks.reply hreplied, hsealed.idle hprepared (by rw [hreplied.unchanged])⟩⟩
  exact nodup_append'.mpr ⟨h.lasting.answered, hreplied.nodup, fun x hold hnew =>
    (hbooks.answered x hold).2 (hreplied.submitted x hnew).1⟩

/-- Every call keeps the scheduler and the ledger in agreement. -/
theorem Consistent.step (op : Op) :
    Consistent incarnation (s.step op).2 (l.record (op, (s.step op).1)) := by
  have horderly := h.orderly.step (s.serverStep op)
  have hopen : (s.step op).2.scheduler.closed = false → s.scheduler.closed = false := fun hclosed =>
    ((s.serverStep op).known hclosed).1
  cases op with
  | queueHosting call metadata =>
    rw [System.step] at horderly hopen ⊢
    cases hcall : s.scheduler.queueHosting call metadata with
    | mk r s' =>
    rw [hcall] at horderly hopen
    cases r with
    | error stop => exact h.halted (whileOpen_eq_error hcall).1 horderly hopen
    | ok u =>
      obtain ⟨hisOpen, hlt, hprepared, request, hcapture, rfl⟩ := queueHosting_eq_ok hcall
      obtain ⟨hbooks, hsealed⟩ := h.open_ (closed_of_isOpen hisOpen)
      rw [Ledger.record, ← RequestData.borrowed_of_capture hcapture]
      refine ⟨horderly, ⟨?_, h.lasting.results, h.lasting.answered⟩, fun _ =>
        ⟨hbooks.queue hlt request, hsealed.idle hprepared rfl⟩⟩
      exact Ledger.nodup_sequences_append h.lasting.requests fun q hq =>
        ((hbooks.sequences q hq).trans_lt hlt).ne
  | retireClientRequest x =>
    refine ⟨horderly, h.lasting.retire x, fun hclosed => ?_⟩
    obtain ⟨hbooks, hsealed⟩ := h.open_ (hopen hclosed)
    cases hprepared : s.scheduler.prepared with
    | none =>
      refine ⟨hbooks.retire hprepared x, hsealed.idle hprepared ?_⟩
      rw [retireClientRequest, hprepared]
      rfl
    | some out =>
      have hclose : s.scheduler.retireClientRequest x = s.scheduler.close := by
        rw [retireClientRequest, hprepared]
        rfl
      rw [System.step, set, hclose] at hclosed
      cases hclosed
  | prepare now =>
    rw [System.step] at horderly hopen ⊢
    cases hcall : s.scheduler.prepare now with
    | mk r s' =>
    rw [hcall] at horderly hopen
    cases r with
    | error stop =>
      have hsame : s.set s' = ⟨s', s.snapshots ++ []⟩ := by rw [append_nil, set]
      have hhalted := h.halted (timed_eq_error hcall).1 horderly hopen
      rw [hsame] at hhalted
      exact hhalted
    | ok batch =>
      obtain ⟨hisOpen, hclock, hprepared, serial, next, mask, bucket, -, hnext, -, hbatch, rfl⟩ :=
        prepare_eq_ok hcall
      obtain ⟨hbooks, hsealed⟩ := h.open_ (closed_of_isOpen hisOpen)
      refine ⟨horderly, h.lasting, fun _ => ⟨hbooks.touch hclock _ _ _ _, ?_⟩⟩
      subst hbatch
      exact hsealed.prepare hprepared rfl hnext now
  | markEncoded batch =>
    refine ⟨horderly, h.lasting, fun hclosed => ?_⟩
    obtain ⟨hbooks, hsealed⟩ := h.open_ (hopen hclosed)
    exact ⟨hbooks.touch (le_refl _) _ _ _ _, hsealed.markEncoded batch⟩
  | cancelPrepared =>
    refine ⟨horderly, h.lasting, fun hclosed => ?_⟩
    obtain ⟨hbooks, hsealed⟩ := h.open_ (hopen hclosed)
    rw [System.step, cancelPrepared.eq_def] at hclosed ⊢
    cases hprepared : s.scheduler.prepared with
    | none => exact ⟨hbooks, hsealed⟩
    | some out =>
      rw [hprepared] at hclosed
      dsimp only at hclosed ⊢
      split at hclosed
      case isTrue => cases hclosed
      case isFalse hencoded =>
        rw [if_neg hencoded]
        exact ⟨hbooks.touch (le_refl _) _ _ _ _, hsealed.deactivate hprepared rfl⟩
  | commitSubmission batch now =>
    rw [System.step] at horderly hopen ⊢
    split at horderly
    case isTrue hforeign =>
      rw [if_pos hforeign]
      exact h
    case isFalse hown =>
    rw [if_neg hown] at hopen ⊢
    cases hcall : s.scheduler.commitSubmission batch now with
    | mk r s' =>
    rw [hcall] at horderly hopen
    cases r with
    | error stop => exact h.halted (timed_eq_error hcall).1 horderly hopen
    | ok u => exact h.commit hown hcall horderly
  | onReply reply now =>
    rw [System.step] at horderly hopen ⊢
    cases hcall : s.scheduler.onReply reply now with
    | mk r s' =>
    rw [hcall] at horderly hopen
    cases r with
    | error stop => exact h.halted (onReply_eq_error hcall) horderly hopen
    | ok delivery =>
      cases delivery with
      | none =>
        obtain rfl := onReply_eq_none hcall
        exact h
      | some delivery => exact h.reply hcall horderly
  | completeServerRequest ticket code stream =>
    rw [System.step] at horderly hopen ⊢
    cases hcall : s.scheduler.completeServerRequest ticket code stream with
    | mk r s' =>
    rw [hcall] at horderly hopen
    cases r with
    | error stop => exact h.halted (whileOpen_eq_error hcall).1 horderly hopen
    | ok completed =>
      obtain ⟨hisOpen, hprepared, ⟨rfl, rfl⟩ | ⟨rfl, hpending, rfl⟩⟩ :=
        completeServerRequest_eq_ok hcall
      · exact h
      · obtain ⟨hbooks, hsealed⟩ := h.open_ (closed_of_isOpen hisOpen)
        have hknown := h.orderly.known (closed_of_isOpen hisOpen) ticket.sequence (Or.inl hpending)
        refine ⟨horderly, ⟨h.lasting.requests, ?_, h.lasting.answered⟩, fun _ =>
          ⟨hbooks.complete hpending hknown ⟨code, stream⟩, hsealed.idle hprepared rfl⟩⟩
        exact Ledger.nodup_sequences_append h.lasting.results fun q hq heq =>
          (hbooks.results q hq).1 (heq ▸ hpending)
  | close => exact ⟨horderly, h.lasting, fun hclosed => by cases hclosed⟩
  | closeConnection =>
    refine ⟨horderly, h.lasting, fun hclosed => ?_⟩
    obtain ⟨hbooks, hsealed⟩ := h.open_ (hopen hclosed)
    exact ⟨hbooks.touch (le_refl _) _ _ _ _, hsealed⟩

end

theorem consistent_run (owner connection identity incarnation : ℕ) (ops : List Op) :
    Consistent incarnation (run step (new owner connection identity incarnation) ops)
      (.ofHistory (trace step (new owner connection identity incarnation) ops)) :=
  @history_invariant _ _ _ step (fun h s => Consistent incarnation s (.ofHistory h)) _
    (consistent_new owner connection identity incarnation)
    (fun h s op hs => by rw [Ledger.ofHistory_concat]; exact hs.step op) ops

end System

/-! ## Runs -/

/-- How a call ended early, if it did. -/
def Answer.stop : Answer → Option Stop
  | .returned (.error stop) => some stop
  | .prepared (.error stop) => some stop
  | .replied (.error stop) => some stop
  | .completed (.error stop) => some stop
  | _ => none

/-- The client sequences whose results a call delivers. -/
def Answer.matched : Answer → List ℤ
  | .replied (.ok (some delivery)) => delivery.matchedResultSequences
  | _ => []

namespace System

open BatchScheduler

variable {incarnation : ℕ} {s : System} {l : Ledger}

variable (h : Consistent incarnation s l)
include h

theorem Consistent.books (hopen : s.scheduler.isOpen = true) :
    Books incarnation s.scheduler l := (h.open_ (closed_of_isOpen hopen)).1

/-- No call panics. -/
theorem Consistent.stop_ne_panic (op : Op) : (s.step op).1.stop ≠ some .panic := by
  cases op with
  | queueHosting call metadata =>
    have hne := queueHosting_ne_panic s.scheduler call metadata
    rw [System.step]
    cases hcall : s.scheduler.queueHosting call metadata with
    | mk r s' =>
    rw [hcall] at hne
    cases r with
    | error stop => exact fun heq => hne (congrArg Except.error (some.inj heq))
    | ok u => exact fun h => by cases h
  | prepare now =>
    have hne := prepare_ne_panic h.books now
    rw [System.step]
    cases hcall : s.scheduler.prepare now with
    | mk r s' =>
    rw [hcall] at hne
    cases r with
    | error stop => exact fun heq => hne (congrArg Except.error (some.inj heq))
    | ok batch => exact fun h => by cases h
  | commitSubmission batch now =>
    have hne := commitSubmission_ne_panic h.books batch now
    rw [System.step]
    split
    case isTrue => exact fun h => by cases h
    case isFalse =>
    cases hcall : s.scheduler.commitSubmission batch now with
    | mk r s' =>
    rw [hcall] at hne
    cases r with
    | error stop => exact fun heq => hne (congrArg Except.error (some.inj heq))
    | ok u => exact fun h => by cases h
  | onReply reply now =>
    have hne := onReply_ne_panic h.books reply now
    rw [System.step]
    cases hcall : s.scheduler.onReply reply now with
    | mk r s' =>
    rw [hcall] at hne
    cases r with
    | error stop => exact fun heq => hne (congrArg Except.error (some.inj heq))
    | ok delivery => exact fun h => by cases h
  | completeServerRequest ticket code stream =>
    have hne := completeServerRequest_ne_panic s.scheduler ticket code stream
    rw [System.step]
    cases hcall : s.scheduler.completeServerRequest ticket code stream with
    | mk r s' =>
    rw [hcall] at hne
    cases r with
    | error stop => exact fun heq => hne (congrArg Except.error (some.inj heq))
    | ok completed => exact fun h => by cases h
  | retireClientRequest x => exact fun h => by cases h
  | markEncoded batch => exact fun h => by cases h
  | cancelPrepared => exact fun h => by cases h
  | close => exact fun h => by cases h
  | closeConnection => exact fun h => by cases h

/-- The results that are delivered are those of submitted requests. -/
theorem Consistent.submitted (op : Op) :
    ∀ x ∈ (s.step op).1.matched, ∃ q ∈ l.requests, q.sequence = x ∧ q.batch ≠ none := by
  cases op with
  | onReply reply now =>
    intro x hx
    rw [System.step] at hx
    cases hcall : s.scheduler.onReply reply now with
    | mk r s' =>
    rw [hcall] at hx
    cases r with
    | error stop => cases hx
    | ok delivery =>
      cases delivery with
      | none => cases hx
      | some delivery =>
        obtain ⟨hisOpen, -⟩ := onReply_eq_ok hcall
        exact (h.books hisOpen).submitted x ((replied_onReply hcall).submitted x hx).2
  | commitSubmission batch now =>
    intro x hx
    rw [System.step] at hx
    split at hx <;> cases hx
  | _ => exact fun x hx => by cases hx

/-- A snapshot is complete, and acknowledges only what the peer has announced. -/
theorem Consistent.prepared {now : ℕ} {batch : ScheduledBatch}
    (hbatch : (s.step (.prepare now)).1 = .prepared (.ok batch)) :
    Books incarnation s.scheduler l ∧ Complete l incarnation batch.payload ∧
      ∀ n, Named batch.words.ackNextBatch batch.words.ackBatches n →
        l.Announced batch.words.ackIncarnation n := by
  rw [System.step] at hbatch
  cases hcall : s.scheduler.prepare now with
  | mk r s' =>
  rw [hcall] at hbatch
  obtain rfl : r = .ok batch := Answer.prepared.inj hbatch
  obtain ⟨hisOpen, -, -, serial, next, mask, bucket, -, hnext, hadd, rfl, -⟩ := prepare_eq_ok hcall
  have hbooks := h.books hisOpen
  refine ⟨hbooks, complete_of_addRetained h.lasting hbooks.accounts hnext hadd ⟨rfl, rfl⟩,
    fun n hn => ?_⟩
  obtain ⟨i, hi, hannounced⟩ := hbooks.peer n hn
  rw [hi]
  exact hannounced

end System

/-- **The batch scheduler loses and duplicates nothing.** In every run no result is delivered twice
and no server request completed twice. No call panics; the results that a call delivers are those of
requests that went out with a batch; and every snapshot holds exactly what is outstanding, under the
batches that are not acknowledged, and acknowledges only batches of the peer that a reply has
announced. What is in a snapshot is in every later one too, unless it was retired in between or its
batch was acknowledged in between. -/
theorem batch_scheduler_conserves (owner connection identity incarnation : ℕ) (ops : List Op) :
    let start := System.new owner connection identity incarnation
    let ledger := fun ops => Ledger.ofHistory (trace System.step start ops)
    (ledger ops).answered.Nodup ∧ ((ledger ops).results.map Posting.sequence).Nodup ∧
    (∀ op, let answer := ((run System.step start ops).step op).1
      answer.stop ≠ some .panic ∧
      (∀ x ∈ answer.matched, ∃ q ∈ (ledger ops).requests, q.sequence = x ∧ q.batch ≠ none) ∧
      ∀ now batch, op = .prepare now → answer = .prepared (.ok batch) →
        Complete (ledger ops) incarnation batch.payload ∧
        ∀ n, BatchScheduler.Named batch.words.ackNextBatch batch.words.ackBatches n →
          (ledger ops).Announced batch.words.ackIncarnation n) ∧
    ∀ now batch mid now' batch', let later := ops ++ Op.prepare now :: mid
      ((run System.step start ops).step (.prepare now)).1 = .prepared (.ok batch) →
      ((run System.step start later).step (.prepare now')).1 = .prepared (.ok batch') →
      (∀ x r, batch.payload.requests[x]? = some r → batch'.payload.requests[x]? = some r ∨
        Op.retireClientRequest x ∈ mid ∨ ∃ q ∈ (ledger later).requests, q.sequence = x ∧
          ∃ n, q.batch = some n ∧ (ledger later).Acknowledged incarnation n ∧
            ¬(ledger ops).Acknowledged incarnation n) ∧
      ∀ x r, batch.payload.results[x]? = some r → batch'.payload.results[x]? = some r ∨
        ∃ q ∈ (ledger later).results, q.sequence = x ∧
          ∃ n, q.batch = some n ∧ (ledger later).Acknowledged incarnation n ∧
            ¬(ledger ops).Acknowledged incarnation n := by
  intro start ledger
  have hrun : ∀ ops, System.Consistent incarnation (run System.step start ops) (ledger ops) :=
    System.consistent_run owner connection identity incarnation
  have h := hrun ops
  refine ⟨h.lasting.answered, h.lasting.results, fun op => ⟨h.stop_ne_panic op, h.submitted op, ?_⟩,
    ?_⟩
  · rintro now batch rfl hbatch
    exact (h.prepared hbatch).2
  · intro now batch mid now' batch' later hbatch hbatch'
    obtain ⟨hbooks, hcomplete, -⟩ := h.prepared hbatch
    obtain ⟨-, hcomplete', -⟩ := (hrun later).prepared hbatch'
    have hack : ∀ n, (ledger ops).Acknowledged incarnation n → n < (ledger ops).batches :=
      fun n hn =>
      hbooks.accounts.batches ▸ hbooks.accounts.acknowledged n hn
    have hkeeps := Ledger.keeps_ofHistory (trace System.step start ops)
      (trace System.step (run System.step start ops) (.prepare now :: mid))
    rw [← trace_append, map_fst_trace] at hkeeps
    refine ⟨fun x r hx => ?_, fun x r hx => ?_⟩
    · obtain ⟨q, hq, hout, rfl, rfl⟩ := (hcomplete.requests x r).mp hx
      obtain ⟨q', hq', hsequence, hdata, hout' | hretired | hacked⟩ :=
        @Ledger.outstanding_or _ _ (ledger later) _ _ _ _ hkeeps.requests hack q hq hout
      · exact Or.inl ((hcomplete'.requests _ _).mpr ⟨q', hq', hout', hsequence, hdata⟩)
      · rcases mem_cons.mp hretired with heq | hmem
        · cases heq
        · exact Or.inr (Or.inl hmem)
      · exact Or.inr (Or.inr ⟨q', hq', hsequence, hacked⟩)
    · obtain ⟨q, hq, hout, rfl, rfl⟩ := (hcomplete.results x r).mp hx
      obtain ⟨q', hq', hsequence, hdata, hout' | hretired | hacked⟩ :=
        @Ledger.outstanding_or _ _ (ledger later) _ _ _ _ hkeeps.results hack q hq hout
      · exact Or.inl ((hcomplete'.results _ _).mpr ⟨q', hq', hout', hsequence, hdata⟩)
      · exact absurd hretired not_false
      · exact Or.inr ⟨q', hq', hsequence, hacked⟩

end SimMaster.Jegotrip
