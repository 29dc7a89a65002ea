import SimMaster.BatchSteps

/-!
# Server requests are fresh once

A server sequence is delivered when the dedup window has not seen it, and the window never forgets a
number without moving beyond it. So a sequence that was delivered, or is below the window, is never
delivered again (`Known`). It is pending until it is completed, its result then waits in the working
bucket and in one batch, and when that is acknowledged the sequence is nowhere any more. What a
retirement names is gone in this sense (`Gone`), and every step keeps what is gone (`gone_step`).
-/

namespace SimMaster.Jegotrip

open Rust Machine List

namespace DedupWindow

/-- The window will never find the sequence fresh. -/
def Known (w : DedupWindow) (x : ℤ) : Prop := x.toNat < w.base ∨ w.Marked x.toNat

variable {w : DedupWindow} {x : ℤ}

theorem Known.insert (h : w.Known x) (n : ℕ) : (w.insert n).2.Known x := by
  have hbase := base_le_insert w n
  by_cases hlt : x.toNat < (w.insert n).2.base
  · exact Or.inl hlt
  have hmarked := h.resolve_left fun hx => hlt (hx.trans_le hbase)
  rcases lt_or_ge n w.base with hn | hn
  · rw [insert_of_lt hn]
    exact Or.inr hmarked
  · exact Or.inr (((insert_spec hn).2.2.2 _ (not_lt.mp hlt)).mpr (Or.inl hmarked))

theorem known_insert_self (w : DedupWindow) (x : ℤ) : (w.insert x.toNat).2.Known x := by
  rcases lt_or_ge x.toNat w.base with hx | hx
  · rw [insert_of_lt hx]
    exact Or.inl hx
  · obtain ⟨-, -, hle, hmarked⟩ := insert_spec hx
    exact Or.inr ((hmarked _ hle).mpr (Or.inr rfl))

theorem not_known_of_fresh (h : (w.insert x.toNat).1 = true) : ¬w.Known x := by
  rcases lt_or_ge x.toNat w.base with hx | hx
  · rw [insert_of_lt hx] at h
    cases h
  · rintro (hlt | hmarked)
    · exact not_lt.mpr hx hlt
    · exact (insert_spec hx).1.mp h hmarked

theorem base_insert_le (w : DedupWindow) (n : ℕ) : (w.insert n).2.base ≤ max w.base n := by
  rcases lt_or_ge n w.base with hn | hn
  · rw [insert_of_lt hn]
    exact le_max_left _ _
  · exact (insert_spec hn).2.2.1.trans (le_max_right _ _)

end DedupWindow

namespace BatchScheduler

/-- What the loop over the requests of a reply finds fresh: sequences that were not known, each
once, and known from now on. -/
theorem takeFresh_spec {entries : List (ℤ × BatchRequest)} {w w' : DedupWindow}
    {fresh : List (ℤ × RequestData)} (h : takeFresh entries w = .ok (fresh, w')) :
    (∀ x, w.Known x → w'.Known x) ∧ w.base ≤ w'.base ∧
      (fresh.map Prod.fst).Sublist (entries.map Prod.fst) ∧
      (∀ x ∈ fresh.map Prod.fst, ¬w.Known x ∧ w'.Known x) ∧
      ∀ bound, w.base ≤ bound → (∀ x ∈ entries.map Prod.fst, x.toNat ≤ bound) →
      w'.base ≤ bound := by
  induction entries generalizing w fresh with
  | nil =>
    cases h
    exact ⟨fun _ h => h, le_refl _, .refl _, nofun, fun _ h _ => h⟩
  | cons entry rest ih =>
    obtain ⟨x, request⟩ := entry
    have hbase := DedupWindow.base_le_insert w x.toNat
    rw [takeFresh] at h
    split at h
    case isTrue hfresh =>
      obtain ⟨captured, -, h⟩ := bind_eq_ok.mp h
      obtain ⟨⟨fresh', w''⟩, hrest, h⟩ := bind_eq_ok.mp h
      cases h
      obtain ⟨hknown, hle, hsublist, hnew, hbound⟩ := ih hrest
      refine ⟨fun y hy => hknown y (hy.insert _), hbase.trans hle, hsublist.cons_cons x, ?_, ?_⟩
      · rw [map_cons, forall_mem_cons]
        refine ⟨⟨DedupWindow.not_known_of_fresh hfresh,
          hknown x (DedupWindow.known_insert_self w x)⟩, fun y hy => ?_⟩
        exact ⟨fun hw => (hnew y hy).1 (hw.insert _), (hnew y hy).2⟩
      · intro bound hw hentries
        obtain ⟨hx, hentries⟩ := forall_mem_cons.mp hentries
        exact hbound bound ((DedupWindow.base_insert_le w _).trans (max_le hw hx)) hentries
    case isFalse =>
      obtain ⟨hknown, hle, hsublist, hnew, hbound⟩ := ih h
      refine ⟨fun y hy => hknown y (hy.insert _), hbase.trans hle, hsublist.cons x, ?_, ?_⟩
      · intro y hy
        exact ⟨fun hw => (hnew y hy).1 (hw.insert _), (hnew y hy).2⟩
      · intro bound hw hentries
        obtain ⟨hx, hentries⟩ := forall_mem_cons.mp hentries
        exact hbound bound ((DedupWindow.base_insert_le w _).trans (max_le hw hx)) hentries

/-- The server request is pending, or its result is not acknowledged. -/
def Live (s : BatchScheduler) (x : ℤ) : Prop :=
  x ∈ s.pendingServer ∨ ∃ p, x ∈ (s.bucketAt p).results

/-! ## The bound of a retirement -/

variable {s : BatchScheduler}

theorem mem_keys_of_live {x : ℤ} (h : s.Live x) :
    x ∈ s.pendingServer.keys ++ s.working.results.keys ++
      s.history.vals.flatMap fun epoch => epoch.bucket.results.keys := by
  rw [mem_append, mem_append, Std.ExtTreeMap.mem_keys, Std.ExtTreeMap.mem_keys, mem_flatMap]
  rcases h with hpending | ⟨_ | n, hresults⟩
  · exact Or.inl (Or.inl hpending)
  · exact Or.inl (Or.inr hresults)
  · rw [bucketAt] at hresults
    cases hepoch : s.history[n]? with
    | none =>
      rw [hepoch] at hresults
      exact absurd hresults (not_mem_results_empty x)
    | some epoch =>
      rw [hepoch] at hresults
      exact Or.inr ⟨epoch, (BTreeMap.mem_vals _ _).mpr ⟨n, hepoch⟩,
        Std.ExtTreeMap.mem_keys.mpr hresults⟩

/-- The bound is below the window and below everything that is live. -/
theorem retirementBound_spec (hbase : s.dedup.base ≤ i32Max) (hpositive : ∀ x, s.Live x → 0 < x) :
    s.retirementBound ≤ (s.dedup.base - 1 : ℕ) ∧ ∀ x, s.Live x → s.retirementBound < x := by
  have hcast : Int.bmod ((s.dedup.base - 1 : ℕ) : ℤ) (2 ^ 32) = (s.dedup.base - 1 : ℕ) := by
    rw [i32Max] at hbase
    exact Int.bmod_eq_of_le (by omega) (by omega)
  refine ⟨(min_le_left _ _).trans_eq hcast, fun x hx => ?_⟩
  refine (min_le_right _ _).trans_lt ?_
  have hmem := mem_keys_of_live hx
  cases hmin : (s.pendingServer.keys ++ s.working.results.keys ++
      s.history.vals.flatMap fun epoch => epoch.bucket.results.keys).min? with
  | none =>
    rw [List.min?_eq_none_iff] at hmin
    rw [hmin] at hmem
    cases hmem
  | some sequence =>
    have hle := (List.min?_eq_some_iff.mp hmin).2 x hmem
    have := hpositive x hx
    dsimp only
    omega

/-! ## Server steps -/

/-- The server requests of a scheduler are where they were. -/
structure SameServer (s s' : BatchScheduler) : Prop where
  pending : s'.pendingServer = s.pendingServer
  results : ∀ p, (s'.bucketAt p).results = (s.bucketAt p).results
  dedup : s'.dedup = s.dedup
  retiredThrough : s'.retiredThrough = s.retiredThrough
  closed : s'.closed = s.closed
  history : ∀ n ∈ s'.history, n ∈ s.history
  nextBatch : s'.nextBatch = s.nextBatch

/-- What a reply does to the server requests: `acknowledged` are the batches it acknowledges. -/
structure ServerReply (s s' : BatchScheduler) (fresh : List ℤ) (acknowledged : ℕ → Prop)
    (retirement : Option BatchReplayRetirement) : Prop where
  pending : ∀ x, x ∈ s'.pendingServer ↔ x ∈ s.pendingServer ∨ x ∈ fresh
  working : (s'.bucketAt none).results = (s.bucketAt none).results
  gone : ∀ n, acknowledged n → (s'.bucketAt (some n)).results = ∅
  kept : ∀ n, ¬acknowledged n → (s'.bucketAt (some n)).results = (s.bucketAt (some n)).results
  closed : s'.closed = false
  history : ∀ n ∈ s'.history, n ∈ s.history
  nextBatch : s'.nextBatch = s.nextBatch
  positive : ∀ x ∈ fresh, 0 < x
  nodup : fresh.Nodup
  unknown : ∀ x ∈ fresh, ¬s.dedup.Known x ∧ s'.dedup.Known x
  known : ∀ x, s.dedup.Known x → s'.dedup.Known x
  base_le : s.dedup.base ≤ s'.dedup.base
  base_le_max : s.dedup.base ≤ i32Max → s'.dedup.base ≤ i32Max
  retired : s'.retiredThrough = s.retiredThrough ∨
    s.retiredThrough ≤ s'.retiredThrough ∧ s'.retiredThrough = s'.retirementBound
  proof : ∀ r ∈ retirement, r.through = s'.retiredThrough ∧ ∀ x ∈ r.acknowledged,
    ∃ n, acknowledged n ∧ x ∈ (s.bucketAt (some n)).results

/-- What a step does to the server requests, which it delivers and what it retires. -/
inductive ServerStep (s s' : BatchScheduler) : List ℤ → Option BatchReplayRetirement → Prop
  | same : SameServer s s' → ServerStep s s' [] none
  | closed : s'.closed = true → s'.dedup.base = 0 → (∀ x, ¬s'.Live x) → (∀ n, n ∉ s'.history) →
      ServerStep s s' [] none
  /-- a request is completed -/
  | completed (x : ℤ) : s.closed = false → x ∈ s.pendingServer →
      (∀ y, y ∈ s'.pendingServer ↔ y ≠ x ∧ y ∈ s.pendingServer) →
      (∀ y, y ∈ (s'.bucketAt none).results ↔ y = x ∨ y ∈ (s.bucketAt none).results) →
      (∀ n, s'.bucketAt (some n) = s.bucketAt (some n)) → s'.dedup = s.dedup →
      s'.retiredThrough = s.retiredThrough → s'.closed = s.closed → s'.history = s.history →
      s'.nextBatch = s.nextBatch → ServerStep s s' [] none
  /-- the working bucket becomes a batch -/
  | committed : s'.pendingServer = s.pendingServer → s'.bucketAt none = .empty →
      s'.bucketAt (some s.nextBatch) = s.bucketAt none →
      (∀ n ≠ s.nextBatch, s'.bucketAt (some n) = s.bucketAt (some n)) → s'.dedup = s.dedup →
      s'.retiredThrough = s.retiredThrough → s'.closed = s.closed →
      (∀ n ∈ s'.history, n = s.nextBatch ∨ n ∈ s.history) → s'.nextBatch = s.nextBatch + 1 →
      ServerStep s s' [] none
  | replied (fresh : List ℤ) (acknowledged : ℕ → Prop) (retirement : Option BatchReplayRetirement) :
      s.closed = false → ServerReply s s' fresh acknowledged retirement →
      ServerStep s s' fresh retirement

theorem not_live_close (s : BatchScheduler) (x : ℤ) : ¬s.close.Live x := by
  rintro (hpending | ⟨p, hresults⟩)
  · exact Std.ExtTreeMap.not_mem_empty hpending
  · rw [bucketAt_close] at hresults
    exact not_mem_results_empty x hresults

theorem serverStep_close (s t : BatchScheduler) : ServerStep s t.close [] none :=
  .closed rfl rfl (not_live_close t) fun _ => Std.ExtTreeMap.not_mem_empty

theorem SameServer.refl (s : BatchScheduler) : SameServer s s :=
  ⟨rfl, fun _ => rfl, rfl, rfl, rfl, fun _ h => h, rfl⟩

variable {s s' : BatchScheduler}

theorem Halted.serverStep (h : Halted s s') : ServerStep s s' [] none := by
  obtain ⟨now, -, rfl | rfl⟩ := h
  · exact .same ⟨rfl, fun p => by cases p <;> rfl, rfl, rfl, rfl, fun _ h => h, rfl⟩
  · exact serverStep_close s _

theorem closed_of_isOpen (h : s.isOpen = true) : s.closed = false := by
  rw [isOpen, Bool.and_eq_true, Bool.not_eq_true'] at h
  exact h.1

theorem serverStep_retireClientRequest (s : BatchScheduler) (sequence : ℤ) :
    ServerStep s (s.retireClientRequest sequence) [] none := by
  rw [retireClientRequest]
  split
  case isTrue => exact serverStep_close s s
  case isFalse =>
    refine .same ⟨rfl, fun p => ?_, rfl, rfl, rfl, fun n hn => ?_, rfl⟩
    · cases p with
      | none => rfl
      | some n =>
        rw [bucketAt, bucketAt, Std.ExtTreeMap.getElem?_map]
        cases s.history[n]? <;> rfl
    · exact Std.ExtTreeMap.mem_map.mp hn

theorem serverStep_cancelPrepared (s : BatchScheduler) : ServerStep s s.cancelPrepared [] none := by
  rw [cancelPrepared.eq_def]
  split
  case h_1 => exact .same (.refl s)
  case h_2 =>
    split
    case isTrue => exact serverStep_close s _
    case isFalse => exact .same ⟨rfl, fun p => by cases p <;> rfl, rfl, rfl, rfl, fun _ h => h, rfl⟩

variable {now : ℕ}

theorem serverStep_commitSubmission {batch : ScheduledBatch}
    (h : s.commitSubmission batch now = (.ok (), s')) : ServerStep s s' [] none := by
  obtain ⟨-, -, -, -, -, t, ht, hnext, rfl⟩ := commitSubmission_eq_ok h
  split at ht
  case isTrue =>
    subst ht
    exact .same ⟨rfl, fun p => by cases p <;> rfl, rfl, rfl, rfl, fun _ h => h, rfl⟩
  case isFalse hnew =>
    subst ht
    refine .committed rfl rfl ?_ (fun n hn => ?_) rfl rfl rfl (fun n hn => ?_) (hnext hnew)
    · refine (bucketAt_of_get ?_ : _ = Epoch.bucket ⟨now, s.working⟩)
      rw [BTreeMap.get_insert, if_pos rfl]
    · rw [bucketAt, bucketAt, BTreeMap.get_insert, if_neg (Ne.symm hn)]
    · exact (BTreeMap.mem_insert _ _ _ _).mp hn

theorem serverStep_completeServerRequest {ticket : ServerRequestTicket}
    {code : ℕ} {stream : Bytes} {completed : Bool}
    (h : s.completeServerRequest ticket code stream = (.ok completed, s')) :
    ServerStep s s' [] none := by
  obtain ⟨hopen, -, ⟨-, rfl⟩ | ⟨-, hpending, rfl⟩⟩ := completeServerRequest_eq_ok h
  · exact .same (.refl _)
  · exact .completed ticket.sequence (closed_of_isOpen hopen) hpending
      (fun y => BTreeMap.mem_erase _ _ _) (fun y => BTreeMap.mem_insert _ _ _ _) (fun _ =>
        rfl) rfl rfl
      rfl rfl rfl

/-- The fresh requests become pending. -/
theorem mem_foldl_insert {pending : BTreeMap ℤ ℕ} (fresh : List (ℤ × RequestData)) (x : ℤ) :
    x ∈ fresh.foldl (fun pending (sequence, request) => pending.insert sequence request.bytes)
      pending ↔
      x ∈ pending ∨ x ∈ fresh.map Prod.fst := by
  induction fresh generalizing pending with
  | nil => simp
  | cons entry rest ih =>
    rw [foldl_cons, ih, BTreeMap.mem_insert, map_cons, mem_cons]
    tauto

theorem retire_eq (s : BatchScheduler) (incarnation : ℕ) (acknowledged : BTreeSet ℤ) :
    ∃ through, (s.retire incarnation acknowledged).2 = { s with retiredThrough := through } ∧
      (through = s.retiredThrough ∨ s.retiredThrough ≤ through ∧ through = s.retirementBound) ∧
      ∀ r ∈ (s.retire incarnation acknowledged).1, r.through = through ∧
        ∀ x ∈ r.acknowledged, x ∈ acknowledged := by
  by_cases hnews : s.retiredThrough < s.retirementBound ∨ acknowledged.isEmpty = false
  · have heq : s.retire incarnation acknowledged =
        (some ⟨incarnation, max s.retiredThrough s.retirementBound, acknowledged.toList⟩,
          { s with retiredThrough := max s.retiredThrough s.retirementBound }) := if_pos hnews
    rw [heq]
    refine ⟨max s.retiredThrough s.retirementBound, rfl, ?_, ?_⟩
    · rcases le_total s.retiredThrough s.retirementBound with hle | hle
      · exact Or.inr ⟨le_max_left _ _, max_eq_right hle⟩
      · exact Or.inl (max_eq_left hle)
    · rintro r ⟨⟩
      exact ⟨rfl, fun x hx => Std.ExtTreeSet.mem_toList.mp hx⟩
  · have heq : s.retire incarnation acknowledged = (none, s) := if_neg hnews
    rw [heq]
    exact ⟨s.retiredThrough, rfl, Or.inl rfl, nofun⟩

theorem deliver_eq (s : BatchScheduler) (reply : OwnedBatchReply) (fresh : List (ℤ × RequestData)) :
    (s.deliver reply fresh).1.1.map (fun r => r.ticket.sequence) = fresh.map Prod.fst ∧
      ∃ pendingServer submittedClient pendingClient,
        (s.deliver reply fresh).2 = { s with
          pendingServer := pendingServer
          submittedClient := submittedClient
          pendingClient := pendingClient } ∧
        (∀ x, x ∈ pendingServer ↔ x ∈ s.pendingServer ∨ x ∈ fresh.map Prod.fst) := by
  refine ⟨?_, _, _, _, rfl, fun x => mem_foldl_insert fresh x⟩
  rw [deliver, map_map]
  rfl

theorem serverStep_onReply {reply : OwnedBatchReply}
    {delivery : BatchDelivery} (h : s.onReply reply now = (.ok (some delivery), s')) :
    ServerStep s s' (delivery.requests.map fun r => r.ticket.sequence) delivery.retirement := by
  obtain ⟨hopen, -, -, hwords, hpositive, fresh, dedup, history, acknowledged, peerNext,
    peerBatches, hfresh, -, hacknowledge, -, hdelivery⟩ := onReply_eq_ok h
  obtain ⟨history', acknowledged', heq, hgone, hkept, hresults⟩ :=
    acknowledge_eq (checkWords_eq_ok hwords)
  obtain ⟨rfl, rfl⟩ := Prod.mk.inj (Except.ok.inj (heq.symm.trans hacknowledge))
  obtain ⟨hknown, hbase, hsublist, hunknown, hbound⟩ := takeFresh_spec hfresh
  have hclosed := closed_of_isOpen hopen
  -- the parts of the step: `t` is the scheduler settled, `t'` after the delivery
  generalize ht : s.settle now reply.payload.fields history' peerNext peerBatches dedup = t
    at hdelivery
  obtain ⟨hsequences, pendingServer, submittedClient, pendingClient, ht', hpending⟩ :=
    t.deliver_eq reply fresh
  generalize t.deliver reply fresh = delivered at hdelivery hsequences ht'
  obtain ⟨⟨requests, results⟩, t'⟩ := delivered
  dsimp only at hdelivery hsequences ht'
  obtain ⟨through, hs', hthrough, hproof⟩ :=
    t'.retire_eq reply.payload.fields.incarnation acknowledged'
  generalize t'.retire reply.payload.fields.incarnation acknowledged' = retired
    at hdelivery hs' hproof
  obtain ⟨retirement, s''⟩ := retired
  obtain ⟨rfl, rfl⟩ := hdelivery
  rw [hsequences]
  subst hs' ht' ht
  have hsub : ∀ (n : ℕ) (epoch : Epoch), history'[n]? = some epoch →
      s.history[n]? = some epoch := by
    intro n epoch hget
    by_cases hack : s.Acknowledges reply.payload.fields n
    · rw [hgone n hack] at hget
      cases hget
    · rwa [hkept n hack] at hget
  have hkeys : ∀ x ∈ reply.payload.requests.toList.map Prod.fst, x ∈ reply.payload.requests := by
    intro x hx
    obtain ⟨entry, hentry, rfl⟩ := mem_map.mp hx
    exact BTreeMap.mem_of_mem_toList hentry
  refine .replied _ (s.Acknowledges reply.payload.fields) retirement hclosed
    { pending := hpending
      working := rfl
      gone := fun n hn => ?_
      kept := fun n hn => ?_
      closed := hclosed
      history := fun n hn => ?_
      nextBatch := rfl
      positive := fun x hx => hpositive x (Or.inl (hkeys x (hsublist.subset hx)))
      nodup := hsublist.nodup (BTreeMap.nodup_keys_toList _)
      unknown := hunknown
      known := hknown
      base_le := hbase
      base_le_max := fun hle => hbound _ hle fun x hx => ?_
      retired := hthrough
      proof := fun r hr => ?_ }
  · rw [bucketAt]
    dsimp only [settle]
    rw [hgone n hn]
    rfl
  · rw [bucketAt, bucketAt]
    dsimp only [settle]
    rw [hkept n hn]
  · obtain ⟨epoch, hget⟩ := (BTreeMap.mem_iff _ _).mp hn
    exact (BTreeMap.mem_iff _ _).mpr ⟨epoch, hsub n epoch hget⟩
  · have := reply.fits x (hkeys x hx)
    omega
  · obtain ⟨hr1, hr2⟩ := hproof r hr
    refine ⟨hr1, fun x hx => ?_⟩
    obtain ⟨n, epoch, hack, hget, hmem⟩ := hresults x (hr2 x hx)
    exact ⟨n, hack, by rwa [bucketAt_of_get hget]⟩

end BatchScheduler

/-- The server sequences a call delivers. -/
def Answer.delivered : Answer → List ℤ
  | .replied (.ok (some delivery)) => delivery.requests.map fun r => r.ticket.sequence
  | _ => []

def Answer.retirement : Answer → Option BatchReplayRetirement
  | .replied (.ok (some delivery)) => delivery.retirement
  | _ => none

open BatchScheduler in
theorem System.serverStep (s : System) (op : Op) :
    ServerStep s.scheduler (s.step op).2.scheduler (s.step op).1.delivered
      (s.step op).1.retirement := by
  cases op with
  | queueHosting call metadata =>
    rw [System.step]
    cases h : s.scheduler.queueHosting call metadata with
    | mk r s' =>
    cases r with
    | error stop => exact (whileOpen_eq_error h).1.serverStep
    | ok u =>
      obtain ⟨-, -, -, request, -, rfl⟩ := queueHosting_eq_ok h
      exact .same ⟨rfl, fun p => by cases p <;> rfl, rfl, rfl, rfl, fun _ h => h, rfl⟩
  | retireClientRequest sequence => exact serverStep_retireClientRequest _ _
  | prepare now =>
    rw [System.step]
    cases h : s.scheduler.prepare now with
    | mk r s' =>
    cases r with
    | error stop => exact (timed_eq_error h).1.serverStep
    | ok batch =>
      obtain ⟨-, -, -, serial, next, mask, bucket, -, -, -, -, rfl⟩ := prepare_eq_ok h
      exact .same ⟨rfl, fun p => by cases p <;> rfl, rfl, rfl, rfl, fun _ h => h, rfl⟩
  | markEncoded batch =>
    exact .same ⟨rfl, fun p => by cases p <;> rfl, rfl, rfl, rfl, fun _ h => h, rfl⟩
  | cancelPrepared => exact serverStep_cancelPrepared _
  | commitSubmission batch now =>
    rw [System.step]
    split
    case isTrue => exact .same (.refl _)
    case isFalse =>
    cases h : s.scheduler.commitSubmission batch now with
    | mk r s' =>
    cases r with
    | error stop => exact (timed_eq_error h).1.serverStep
    | ok u => exact serverStep_commitSubmission h
  | onReply reply now =>
    rw [System.step]
    cases h : s.scheduler.onReply reply now with
    | mk r s' =>
    cases r with
    | error stop => exact (onReply_eq_error h).serverStep
    | ok delivery =>
      cases delivery with
      | none =>
        obtain rfl := onReply_eq_none h
        exact .same (.refl _)
      | some delivery => exact serverStep_onReply h
  | completeServerRequest ticket code stream =>
    rw [System.step]
    cases h : s.scheduler.completeServerRequest ticket code stream with
    | mk r s' =>
    cases r with
    | error stop => exact (whileOpen_eq_error h).1.serverStep
    | ok completed => exact serverStep_completeServerRequest h
  | close => exact serverStep_close _ _
  | closeConnection =>
    exact .same ⟨rfl, fun p => by cases p <;> rfl, rfl, rfl, rfl, fun _ h => h, rfl⟩

namespace BatchScheduler

/-! ## Order -/

/-- Every live sequence is at one place, above what is retired and known to the window. -/
structure Orderly (s : BatchScheduler) : Prop where
  positive : ∀ x, s.Live x → 0 < x
  known : s.closed = false → ∀ x, s.Live x → s.dedup.Known x
  once : ∀ p q x, x ∈ (s.bucketAt p).results → x ∈ (s.bucketAt q).results → p = q
  apart : ∀ p x, x ∈ s.pendingServer → x ∉ (s.bucketAt p).results
  above : ∀ x, s.Live x → s.retiredThrough < x
  below : s.closed = false → ∀ x, 0 < x → x ≤ s.retiredThrough → s.dedup.Known x
  base_le : s.dedup.base ≤ i32Max
  history : ∀ n ∈ s.history, n < s.nextBatch

theorem orderly_new (owner connection identity incarnation : ℕ) :
    (new owner connection identity incarnation).Orderly := by
  have hlive : ∀ x, ¬(new owner connection identity incarnation).Live x := by
    rintro x (hpending | ⟨_ | n, hresults⟩)
    · exact Std.ExtTreeMap.not_mem_empty hpending
    · exact not_mem_results_empty x hresults
    · rw [bucketAt_of_not_mem Std.ExtTreeMap.not_mem_empty] at hresults
      exact not_mem_results_empty x hresults
  refine ⟨fun x hx => absurd hx (hlive x), fun _ x hx => absurd hx (hlive x),
    fun p q x hx _ => absurd (Or.inr ⟨p, hx⟩) (hlive x), fun p x hx => absurd (Or.inl hx) (hlive x),
    fun x hx => absurd hx (hlive x), fun _ x hpos hx => ?_, Nat.zero_le _,
    fun n hn => absurd hn Std.ExtTreeMap.not_mem_empty⟩
  exact absurd (hpos.trans_le hx) (lt_irrefl _)

/-- The sequence is nowhere, and the window will not find it fresh. -/
def Gone (s : BatchScheduler) (x : ℤ) : Prop :=
  ¬s.Live x ∧ (s.closed = false → 0 < x → s.dedup.Known x)

variable {s s' : BatchScheduler} {delivered : List ℤ} {retirement : Option BatchReplayRetirement}
  {x : ℤ}

section

variable (h : ServerStep s s' delivered retirement)
include h

/-- A step makes only what it delivers live. -/
theorem ServerStep.live (hx : s'.Live x) : s.Live x ∨ x ∈ delivered := by
  cases h with
  | same h =>
    refine Or.inl (hx.imp (fun hx => h.pending ▸ hx) ?_)
    rintro ⟨p, hx⟩
    exact ⟨p, h.results p ▸ hx⟩
  | closed _ _ hlive _ => exact absurd hx (hlive x)
  | completed y _ hy hpending hworking hbatches =>
    refine Or.inl ?_
    rcases hx with hx | ⟨_ | n, hx⟩
    · exact Or.inl ((hpending x).mp hx).2
    · rcases (hworking x).mp hx with rfl | hx
      · exact Or.inl hy
      · exact Or.inr ⟨none, hx⟩
    · exact Or.inr ⟨some n, hbatches n ▸ hx⟩
  | committed hpending hworking hnew hbatches =>
    refine Or.inl ?_
    rcases hx with hx | ⟨_ | n, hx⟩
    · exact Or.inl (hpending ▸ hx)
    · rw [hworking] at hx
      exact absurd hx (not_mem_results_empty x)
    · by_cases hn : n = s.nextBatch
      · subst hn
        exact Or.inr ⟨none, hnew ▸ hx⟩
      · exact Or.inr ⟨some n, hbatches n hn ▸ hx⟩
  | replied fresh acknowledged _ _ h =>
    rcases hx with hx | ⟨_ | n, hx⟩
    · exact ((h.pending x).mp hx).imp_left Or.inl
    · exact Or.inl (Or.inr ⟨none, h.working ▸ hx⟩)
    · by_cases hn : acknowledged n
      · rw [h.gone n hn] at hx
        exact absurd hx Std.ExtTreeMap.not_mem_empty
      · exact Or.inl (Or.inr ⟨some n, h.kept n hn ▸ hx⟩)

/-- What is known stays known, as long as the scheduler is open; what is delivered becomes known,
and was not known before. -/
theorem ServerStep.known (hclosed : s'.closed = false) :
    s.closed = false ∧ (∀ x, s.dedup.Known x → s'.dedup.Known x) ∧
      ∀ x ∈ delivered, 0 < x ∧ ¬s.dedup.Known x ∧ s'.dedup.Known x := by
  cases h with
  | same h => exact ⟨h.closed ▸ hclosed, fun _ hx => h.dedup ▸ hx, nofun⟩
  | closed hclosed' => rw [hclosed] at hclosed'; cases hclosed'
  | completed _ hopen _ _ _ _ hdedup => exact ⟨hopen, fun _ hx => hdedup ▸ hx, nofun⟩
  | committed _ _ _ _ hdedup _ hsame =>
    exact ⟨hsame ▸ hclosed, fun _ hx => hdedup ▸ hx, nofun⟩
  | replied fresh acknowledged _ hopen h =>
    exact ⟨hopen, h.known, fun x hx => ⟨h.positive x hx, h.unknown x hx⟩⟩

theorem ServerStep.nodup : delivered.Nodup := by
  cases h with
  | replied fresh acknowledged _ _ h => exact h.nodup
  | _ => exact nodup_nil

end

variable {fresh : List ℤ} {acknowledged : ℕ → Prop}

/-- Where a result is after a reply it was before. -/
theorem ServerReply.results (h : ServerReply s s' fresh acknowledged retirement) {p : Option ℕ}
    (hx : x ∈ (s'.bucketAt p).results) :
    x ∈ (s.bucketAt p).results ∧ ∀ n, p = some n → ¬acknowledged n := by
  cases p with
  | none => exact ⟨h.working ▸ hx, nofun⟩
  | some n =>
    by_cases hn : acknowledged n
    · rw [h.gone n hn] at hx
      exact absurd hx Std.ExtTreeMap.not_mem_empty
    · exact ⟨h.kept n hn ▸ hx, fun m hm => Option.some.inj hm ▸ hn⟩

theorem ServerReply.orderly (hs : s.Orderly)
    (hopen : s.closed = false) (h : ServerReply s s' fresh acknowledged retirement) :
    s'.Orderly := by
  have hstep : ServerStep s s' fresh retirement := .replied fresh acknowledged retirement hopen h
  have hfresh : ∀ x ∈ fresh, ¬s.Live x := fun x hx hlive =>
    (h.unknown x hx).1 (hs.known hopen x hlive)
  have hpositive : ∀ x, s'.Live x → 0 < x := fun x hx =>
    (hstep.live hx).elim (hs.positive x) (h.positive x)
  obtain ⟨hbound, habove⟩ := retirementBound_spec (h.base_le_max hs.base_le) hpositive
  refine ⟨hpositive, fun _ x hx => ?_, fun p q x hp hq => ?_, fun p x hx hp => ?_, fun x hx => ?_,
    fun _ x hpos hx => ?_, h.base_le_max hs.base_le, fun n hn => ?_⟩
  · exact (hstep.live hx).elim (fun hx => h.known x (hs.known hopen x hx)) fun hx =>
      (h.unknown x hx).2
  · exact hs.once p q x (h.results hp).1 (h.results hq).1
  · rcases (h.pending x).mp hx with hx | hx
    · exact hs.apart p x hx (h.results hp).1
    · exact hfresh x hx (Or.inr ⟨p, (h.results hp).1⟩)
  · rcases h.retired with hsame | ⟨-, hnew⟩
    · rw [hsame]
      rcases hstep.live hx with hx | hx
      · exact hs.above x hx
      · by_contra hle
        exact (h.unknown x hx).1 (hs.below hopen x (h.positive x hx) (not_lt.mp hle))
    · rw [hnew]
      exact habove x hx
  · rcases h.retired with hsame | ⟨-, hnew⟩
    · rw [hsame] at hx
      exact h.known x (hs.below hopen x hpos hx)
    · rw [hnew] at hx
      exact Or.inl (by omega)
  · rw [h.nextBatch]
    exact hs.history n (h.history n hn)

/-- Every step keeps the order. -/
theorem Orderly.step (hs : s.Orderly) (h : ServerStep s s' delivered retirement) : s'.Orderly := by
  cases h with
  | same h =>
    have hlive : ∀ x, s'.Live x → s.Live x := fun x hx =>
      ((ServerStep.same h).live hx).resolve_right not_mem_nil
    refine ⟨fun x hx => hs.positive x (hlive x hx), fun hopen x hx => ?_, fun p q x hp hq => ?_,
      fun p x hx hp => ?_, fun x hx => ?_, fun hopen x hpos hx => ?_, h.dedup ▸ hs.base_le,
      fun n hn => h.nextBatch ▸ hs.history n (h.history n hn)⟩
    · exact h.dedup ▸ hs.known (h.closed ▸ hopen) x (hlive x hx)
    · exact hs.once p q x (h.results p ▸ hp) (h.results q ▸ hq)
    · exact hs.apart p x (h.pending ▸ hx) (h.results p ▸ hp)
    · exact h.retiredThrough ▸ hs.above x (hlive x hx)
    · exact h.dedup ▸ hs.below (h.closed ▸ hopen) x hpos (h.retiredThrough ▸ hx)
  | closed hclosed hbase hlive hhistory =>
    refine ⟨fun x hx => absurd hx (hlive x), fun _ x hx => absurd hx (hlive x),
      fun p q x hx _ => absurd (Or.inr ⟨p, hx⟩) (hlive x),
      fun p x hx => absurd (Or.inl hx) (hlive x), fun x hx => absurd hx (hlive x), fun hopen => ?_,
      by rw [hbase]; exact Nat.zero_le _, fun n hn => absurd hn (hhistory n)⟩
    rw [hclosed] at hopen
    cases hopen
  | completed y hopen hy hpending hworking hbatches hdedup hretired hsame hhistory hnext =>
    have hlive : ∀ x, s'.Live x → s.Live x := fun x hx =>
      ((ServerStep.completed y hopen hy hpending hworking hbatches hdedup hretired hsame hhistory
        hnext).live hx).resolve_right not_mem_nil
    have hplace : ∀ p x, x ∈ (s'.bucketAt p).results →
        (x = y ∧ p = none) ∨ x ∈ (s.bucketAt p).results := by
      rintro (_ | n) x hx
      · exact ((hworking x).mp hx).imp_left fun hx => ⟨hx, rfl⟩
      · exact Or.inr (hbatches n ▸ hx)
    refine ⟨fun x hx => hs.positive x (hlive x hx),
      fun hopen' x hx => hdedup ▸ hs.known hopen x (hlive x hx), fun p q x hp hq => ?_,
      fun p x hx hp => ?_, fun x hx => hretired ▸ hs.above x (hlive x hx),
      fun _ x hpos hx => hdedup ▸ hs.below hopen x hpos (hretired ▸ hx), hdedup ▸ hs.base_le,
      fun n hn => hnext ▸ hs.history n (hhistory ▸ hn)⟩
    · rcases hplace p x hp with ⟨rfl, rfl⟩ | hp
      · rcases hplace q x hq with ⟨-, rfl⟩ | hq
        · rfl
        · exact absurd hq (hs.apart q x hy)
      · rcases hplace q x hq with ⟨rfl, rfl⟩ | hq
        · exact absurd hp (hs.apart p x hy)
        · exact hs.once p q x hp hq
    · obtain ⟨hne, hx⟩ := (hpending x).mp hx
      rcases hplace p x hp with ⟨rfl, -⟩ | hp
      · exact hne rfl
      · exact hs.apart p x hx hp
  | committed hpending hworking hnew hbatches hdedup hretired hsame hhistory hnext =>
    have hlive : ∀ x, s'.Live x → s.Live x := fun x hx =>
      ((ServerStep.committed hpending hworking hnew hbatches hdedup hretired hsame hhistory
        hnext).live hx).resolve_right not_mem_nil
    have hplace : ∀ p x, x ∈ (s'.bucketAt p).results →
        (p = some s.nextBatch ∧ x ∈ (s.bucketAt none).results) ∨
          (p ≠ some s.nextBatch ∧ p ≠ none ∧ x ∈ (s.bucketAt p).results) := by
      rintro (_ | n) x hx
      · rw [hworking] at hx
        exact absurd hx (not_mem_results_empty x)
      · by_cases hn : n = s.nextBatch
        · exact Or.inl ⟨congrArg some hn, hnew ▸ hn ▸ hx⟩
        · exact Or.inr ⟨fun h => hn (Option.some.inj h), nofun, hbatches n hn ▸ hx⟩
    refine ⟨fun x hx => hs.positive x (hlive x hx),
      fun hopen x hx => hdedup ▸ hs.known (hsame ▸ hopen) x (hlive x hx), fun p q x hp hq => ?_,
      fun p x hx hp => ?_, fun x hx => hretired ▸ hs.above x (hlive x hx),
      fun hopen x hpos hx => hdedup ▸ hs.below (hsame ▸ hopen) x hpos (hretired ▸ hx),
      hdedup ▸ hs.base_le, fun n hn => ?_⟩
    · rcases hplace p x hp with ⟨rfl, hold⟩ | ⟨-, hne, hold⟩
      · rcases hplace q x hq with ⟨rfl, -⟩ | ⟨-, hne, hold'⟩
        · rfl
        · exact absurd (hs.once q none x hold' hold) hne
      · rcases hplace q x hq with ⟨rfl, hold'⟩ | ⟨-, -, hold'⟩
        · exact absurd (hs.once p none x hold hold') hne
        · exact hs.once p q x hold hold'
    · rw [hpending] at hx
      rcases hplace p x hp with ⟨-, hp⟩ | ⟨-, -, hp⟩ <;> exact hs.apart _ x hx hp
    · rw [hnext]
      rcases hhistory n hn with rfl | hn
      · exact Nat.lt_succ_self _
      · exact Nat.lt_succ_of_lt (hs.history n hn)
  | replied fresh acknowledged _ hopen h => exact h.orderly hs hopen

/-- What is gone stays gone, and is not delivered. -/
theorem Gone.step (hx : s.Gone x) (h : ServerStep s s' delivered retirement) :
    s'.Gone x ∧ x ∉ delivered := by
  have hdelivered : x ∉ delivered := by
    intro hmem
    cases h with
    | replied fresh acknowledged _ hopen h =>
      exact (h.unknown x hmem).1 (hx.2 hopen (h.positive x hmem))
    | _ => cases hmem
  refine ⟨⟨fun hlive => (h.live hlive).elim hx.1 hdelivered, fun hopen hpos => ?_⟩, hdelivered⟩
  obtain ⟨hopen', hknown, -⟩ := h.known hopen
  exact hknown x (hx.2 hopen' hpos)

/-- What a retirement names is gone. -/
theorem ServerStep.gone (hs : s.Orderly) {r : BatchReplayRetirement}
    (h : ServerStep s s' delivered (some r)) (hx : x ≤ r.through ∨ x ∈ r.acknowledged) :
    s'.Gone x := by
  cases h with
  | replied fresh acknowledged _ hopen h =>
    have hs' := h.orderly hs hopen
    obtain ⟨hthrough, hproof⟩ := h.proof r rfl
    rcases hx with hx | hx
    · rw [hthrough] at hx
      exact ⟨fun hlive => not_lt.mpr hx (hs'.above x hlive), fun hclosed hpos =>
        hs'.below hclosed x hpos hx⟩
    · obtain ⟨n, hn, hmem⟩ := hproof x hx
      have hlive : s.Live x := Or.inr ⟨some n, hmem⟩
      refine ⟨?_, fun _ _ => h.known x (hs.known hopen x hlive)⟩
      rintro (hpending | ⟨p, hp⟩)
      · rcases (h.pending x).mp hpending with hpending | hfresh
        · exact hs.apart (some n) x hpending hmem
        · exact (h.unknown x hfresh).1 (hs.known hopen x hlive)
      · obtain ⟨hp, hkept⟩ := h.results hp
        exact hkept n (hs.once p (some n) x hp hmem) hn

end BatchScheduler

/-! ## Runs -/

namespace System

variable (owner connection identity incarnation : ℕ)

theorem orderly_run (ops : List Op) :
    (run step (new owner connection identity incarnation) ops).scheduler.Orderly :=
  @run_invariant _ _ _ step (fun s => s.scheduler.Orderly) _
    (BatchScheduler.orderly_new owner connection identity incarnation)
    (fun s op hs => hs.step (s.serverStep op)) ops

/-- The server sequences that the calls of a history delivered, in order. -/
def delivered (history : List (Op × Answer)) : List ℤ :=
  history.flatMap fun call => call.2.delivered

theorem delivered_concat (history : List (Op × Answer)) (op : Op) (answer : Answer) :
    delivered (history ++ [(op, answer)]) = delivered history ++ answer.delivered := by
  rw [delivered, delivered, flatMap_append, flatMap_singleton]

/-- No server sequence is delivered twice. -/
theorem nodup_delivered (ops : List Op) :
    (delivered (trace step (new owner connection identity incarnation) ops)).Nodup := by
  -- while the scheduler is open, what was delivered is known to the window
  have h := @history_invariant _ _ _ step (fun h s => (delivered h).Nodup ∧
    (s.scheduler.closed = false → ∀ x ∈ delivered h, s.scheduler.dedup.Known x))
    (new owner connection identity incarnation) ⟨nodup_nil, fun _ => nofun⟩ ?_ ops
  · exact h.1
  · intro h s op ⟨hnodup, hpast⟩
    have hstep := s.serverStep op
    rw [delivered_concat]
    refine ⟨nodup_append'.mpr ⟨hnodup, hstep.nodup, fun x hold hnew => ?_⟩,
      fun hopen x hx => ?_⟩
    · generalize (s.step op).1.delivered = now at hstep hnew
      generalize (s.step op).1.retirement = retirement at hstep
      cases hstep with
      | replied fresh acknowledged _ hopen hreply =>
        exact (hreply.unknown x hnew).1 (hpast hopen x hold)
      | _ => cases hnew
    · obtain ⟨hopen', hknown, hnew⟩ := hstep.known hopen
      rcases mem_append.mp hx with hx | hx
      · exact hknown x (hpast hopen' x hx)
      · exact (hnew x hx).2.2

/-- What is gone is gone for good. -/
theorem gone_run {s : System} {x : ℤ} (hx : s.scheduler.Gone x) (ops : List Op) :
    (run step s ops).scheduler.Gone x ∧ x ∉ delivered (trace step s ops) := by
  induction ops generalizing s with
  | nil => exact ⟨hx, not_mem_nil⟩
  | cons op rest ih =>
    obtain ⟨hgone, hdelivered⟩ := hx.step (s.serverStep op)
    obtain ⟨hrun, hrest⟩ := ih hgone
    refine ⟨hrun, fun hmem => ?_⟩
    rw [delivered, trace_cons, flatMap_cons, mem_append] at hmem
    exact hmem.elim hdelivered hrest

end System

/-- **Server requests are fresh once, and what is retired stays retired.** A number is fresh to a
dedup window exactly if it was not there before and is not below its base, which only moves up and
beyond what the window has lost. In every run of a scheduler no server sequence is delivered twice;
and what a retirement names, all up to its bound and each of its list, is from then on neither
pending nor has an unacknowledged result, and is not delivered. -/
theorem server_requests_fresh_once :
    (∀ (xs : List ℕ) (n : ℕ), let w := run DedupWindow.insert .default xs
      ((w.insert n).1 = true ↔ n ∉ xs ∧ w.base ≤ n) ∧ w.base ≤ (w.insert n).2.base ∧
        ∀ m ∈ xs, ¬w.Marked m → m < w.base) ∧
    ∀ (owner connection identity incarnation : ℕ) (ops : List Op),
      let start := System.new owner connection identity incarnation
      (System.delivered (trace System.step start ops)).Nodup ∧
      ∀ (before : List Op) (op : Op) (after : List Op) (r : BatchReplayRetirement),
        ops = before ++ op :: after →
        ((run System.step start before).step op).1.retirement = some r →
        ∀ x, x ≤ r.through ∨ x ∈ r.acknowledged →
          (∀ mid rest, after = mid ++ rest →
            ¬(run System.step ((run System.step start before).step op).2 mid).scheduler.Live x) ∧
          x ∉ System.delivered
            (trace System.step ((run System.step start before).step op).2 after) := by
  refine ⟨fun xs n => DedupWindow.insert_fresh_iff xs n,
    fun owner connection identity incarnation ops => ?_⟩
  refine ⟨System.nodup_delivered _ _ _ _ ops, fun before op after r hops hr x hx => ?_⟩
  have hs := System.orderly_run owner connection identity incarnation before
  have hstep := (run System.step (.new owner connection identity incarnation) before).serverStep op
  rw [hr] at hstep
  have hgone := hstep.gone hs hx
  exact ⟨fun mid rest _ => (System.gone_run hgone mid).1.1, (System.gone_run hgone after).2⟩

end SimMaster.Jegotrip
