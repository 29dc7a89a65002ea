import SimMaster.BatchLedger

/-!
# Snapshots are complete

A snapshot joins the working bucket with the buckets of all batches that are kept, and its bitmap
has a bit for each of them. Where the buckets hold what is posted for them, the snapshot holds
exactly what is outstanding (`Complete`).
-/

namespace SimMaster.Jegotrip

open Rust Method List

namespace Bucket

theorem requests_foldl_extend (buckets : List Bucket) (bucket : Bucket) :
    (buckets.foldl extend bucket).requests = (buckets.map requests).foldl (· ∪ ·)
      bucket.requests := by
  induction buckets generalizing bucket with
  | nil => rfl
  | cons _ rest ih => rw [foldl_cons, ih, map_cons, foldl_cons]; rfl

theorem results_foldl_extend (buckets : List Bucket) (bucket : Bucket) :
    (buckets.foldl extend bucket).results = (buckets.map results).foldl (· ∪ ·) bucket.results := by
  induction buckets generalizing bucket with
  | nil => rfl
  | cons _ rest ih => rw [foldl_cons, ih, map_cons, foldl_cons]; rfl

end Bucket

namespace BatchScheduler

theorem named_or (next : ℕ) (x y : BitVec 32) (n : ℕ) :
    Named next (x ||| y) n ↔ Named next x n ∨ Named next y n := by
  simp only [Named, BitVec.getLsbD_or, Bool.or_eq_true, or_and_right, and_or_left, exists_or]

variable {next : ℕ}

theorem named_shiftLeft_one {b : ℕ} (hb : b < 32) (n : ℕ) :
    Named next (1#32 <<< b) n ↔ n + b + 1 = next := by
  have hbit : ∀ b' < 32, (1#32 <<< b).getLsbD b' = decide (b' = b) := by
    intro b' hb'
    rw [BitVec.getLsbD_shiftLeft, BitVec.getLsbD_one, Bool.eq_iff_iff]
    simp only [Bool.and_eq_true, Bool.not_eq_true', decide_eq_true_eq, decide_eq_false_iff_not]
    omega
  constructor
  · rintro ⟨b', hb', hset, hn⟩
    rw [hbit b' hb', decide_eq_true_eq] at hset
    rwa [hset] at hn
  · exact fun hn => ⟨b, hb, by rw [hbit b hb, decide_eq_true_eq], hn⟩

/-- The loop over the batches that are kept names exactly these, and gathers their entries. -/
theorem addRetained_eq_ok {entries : List (ℕ × Epoch)} {mask mask' : BitVec 32}
    {bucket bucket' : Bucket} (h : addRetained next entries mask bucket = .ok (mask', bucket')) :
    (∀ n, Named next mask' n ↔ Named next mask n ∨ n ∈ entries.map Prod.fst) ∧
      bucket' = (entries.map fun entry => entry.2.bucket).foldl Bucket.extend bucket := by
  induction entries generalizing mask bucket with
  | nil =>
    cases h
    simp
  | cons entry rest ih =>
    obtain ⟨epoch, retained⟩ := entry
    rw [addRetained] at h
    obtain ⟨after, hafter, h⟩ := bind_eq_ok.mp h
    obtain ⟨hle, h⟩ := guard_eq_ok h
    obtain ⟨hshort, h⟩ := guard_eq_ok h
    rw [not_le] at hshort
    rw [checkedShl_eq _ hshort, ok_bind] at h
    obtain rfl : after = epoch + 1 := by
      rw [checkedAdd] at hafter
      split at hafter <;> cases hafter
      rfl
    obtain ⟨hmask, hbucket⟩ := ih h
    refine ⟨fun n => ?_, hbucket⟩
    rw [hmask, named_or, named_shiftLeft_one hshort, map_cons, mem_cons, or_assoc]
    refine or_congr_right (or_congr_left ?_)
    dsimp only
    omega

end BatchScheduler

/-- The snapshot holds what is outstanding, under the batches that are not acknowledged. -/
structure Complete (l : Ledger) (incarnation : ℕ) (payload : BatchPayload) : Prop where
  requests : ∀ x r, payload.requests[x]? = some r ↔
    ∃ q ∈ l.requests, l.Outstanding incarnation q ∧ q.sequence = x ∧ q.data = r
  results : ∀ x r, payload.results[x]? = some r ↔
    ∃ q ∈ l.results, l.Outstanding incarnation q ∧ q.sequence = x ∧ q.data = r
  batches : ∀ n, BatchScheduler.Named payload.fields.nextBatch payload.fields.batches n ↔
    (n < l.batches ∧ ¬l.Acknowledged incarnation n) ∨ (l.waiting = true ∧ n = l.batches)

/-- No two postings are of one sequence, and no result was delivered twice. -/
structure Ledger.Lasting (l : Ledger) : Prop where
  requests : (l.requests.map Posting.sequence).Nodup
  results : (l.results.map Posting.sequence).Nodup
  answered : l.answered.Nodup

namespace Accounts

variable {s : BatchScheduler} {incarnation : ℕ} {l : Ledger}

variable (h : Accounts s.bucketAt (· ∈ s.history) s.nextBatch incarnation l)
include h

theorem hasWork : s.hasWork = l.waiting := by
  have hrequests := (h.requests none fun _ hn => by cases hn).isEmpty_iff
  have hresults := (h.results none fun _ hn => by cases hn).isEmpty_iff
  rw [Bool.eq_iff_iff, BatchScheduler.hasWork, Ledger.waiting, Bool.or_eq_true, Bool.or_eq_true,
    Bool.not_eq_true', Bool.not_eq_true']
  exact or_congr hrequests hresults

/-- The batches of the scheduler's history, and what is outstanding in terms of them. -/
theorem outstanding_iff {δ : Type} {q : Posting δ}
    (hsent : ∀ n, q.batch = some n → n < s.nextBatch) :
    (∀ n, q.batch = some n → n ∈ s.history.toList.map Prod.fst) ∧ q.retired = false ↔
      l.Outstanding incarnation q := by
  rw [and_comm]
  refine and_congr_right fun _ => forall_congr' fun n => imp_congr_right fun hn => ?_
  rw [BTreeMap.mem_keys_toList, h.kept, and_iff_right (hsent n hn)]

end Accounts

namespace BatchScheduler

variable {s : BatchScheduler} {next : ℕ}

theorem nextOfSnapshot_eq_ok (h : s.nextOfSnapshot = .ok next) :
    (s.hasWork = true → next = s.nextBatch + 1) ∧ (s.hasWork = false → next = s.nextBatch) ∧
      (s.nextBatch ≤ i32Max → next ≤ i32Max) := by
  rw [nextOfSnapshot] at h
  split at h
  case isTrue hwork =>
    split at h
    case isTrue => cases h
    case isFalse =>
    split at h
    case isTrue hmax =>
      cases h
      exact ⟨fun _ => rfl, fun hno => absurd (hwork.symm.trans hno) (by decide), fun _ => hmax⟩
    case isFalse => cases h
  case isFalse hwork =>
    cases h
    exact ⟨fun hyes => absurd hyes hwork, fun _ => rfl, id⟩

/-- What a snapshot holds. -/
theorem complete_of_addRetained {incarnation : ℕ} {l : Ledger}
    {mask : BitVec 32} {bucket : Bucket} {words : BatchWords} (hl : l.Lasting)
    (h : Accounts s.bucketAt (· ∈ s.history) s.nextBatch incarnation l)
    (hnext : s.nextOfSnapshot = .ok next)
    (hadd : addRetained next s.history.toList (if s.hasWork then 1 else 0) s.working =
      .ok (mask, bucket))
    (hfields : words.nextBatch = next ∧ words.batches = mask) :
    Complete l incarnation ⟨words, bucket.requests.map fun _ => RequestData.borrowed,
      bucket.results.map fun _ => ResultData.borrowed⟩ := by
  obtain ⟨hmask, hbucket⟩ := addRetained_eq_ok hadd
  obtain ⟨hwork, hidle, -⟩ := nextOfSnapshot_eq_ok hnext
  -- the buckets of the history are those at the places of its batches
  have hplaces : s.history.toList.map (fun entry => entry.2.bucket) =
      (s.history.toList.map Prod.fst).map fun n => s.bucketAt (some n) := by
    rw [map_map]
    exact map_congr_left fun entry hentry =>
      (bucketAt_of_get ((BTreeMap.mem_toList _ _ _).mp hentry)).symm
  have hkept : ∀ p, (∀ n, p = some n → n ∈ s.history.toList.map Prod.fst) → ∀ n, p = some n →
      ¬l.Acknowledged incarnation n := fun p hp n hn =>
    ((h.kept n).mp ((BTreeMap.mem_keys_toList _ _).mp (hp n hn))).2
  rw [hplaces] at hbucket
  refine ⟨fun x r => ?_, fun x r => ?_, fun n => ?_⟩
  · rw [Std.ExtTreeMap.getElem?_map, Option.map_eq_some_iff, hbucket, Bucket.requests_foldl_extend,
      map_map]
    have hstores : ∀ p, (∀ n, p = some n → n ∈ s.history.toList.map Prod.fst) →
        Holds (s.bucketAt p).requests RequestData.borrowed l.requests p := fun p hp =>
      h.requests p (hkept p hp)
    refine (Holds.union hl.requests hstores x r).trans ?_
    refine exists_congr fun q => and_congr_right fun hq => ?_
    rw [← h.outstanding_iff (h.sentRequests q hq), and_assoc]
  · rw [Std.ExtTreeMap.getElem?_map, Option.map_eq_some_iff, hbucket, Bucket.results_foldl_extend,
      map_map]
    have hstores : ∀ p, (∀ n, p = some n → n ∈ s.history.toList.map Prod.fst) →
        Holds (s.bucketAt p).results ResultData.borrowed l.results p := fun p hp =>
      h.results p (hkept p hp)
    refine (Holds.union hl.results hstores x r).trans ?_
    refine exists_congr fun q => and_congr_right fun hq => ?_
    rw [← h.outstanding_iff (h.sentResults q hq), and_assoc]
  · rw [hfields.1, hfields.2, hmask, BTreeMap.mem_keys_toList, h.kept, h.batches, or_comm]
    refine or_congr_right ?_
    rw [← h.hasWork]
    cases hbusy : s.hasWork with
    | true =>
      rw [if_pos rfl, hwork hbusy]
      have hbit : Named (s.nextBatch + 1) (1#32 <<< 0) n ↔ n + 0 + 1 = s.nextBatch + 1 :=
        named_shiftLeft_one (by decide) n
      rw [BitVec.shiftLeft_zero] at hbit
      rw [show (1 : BitVec 32) = 1#32 from rfl, hbit, and_iff_right rfl]
      omega
    | false =>
      rw [if_neg (by decide)]
      exact iff_of_false (fun ⟨b, _, hset, _⟩ => by simp at hset) fun hn => absurd hn.1 (by decide)

end BatchScheduler

end SimMaster.Jegotrip
