import SimMaster.BatchRetirement

/-!
# The ledger of a run

What a scheduler ought to keep can be told from the calls and their answers alone. The `Ledger`
writes down every request that was queued and every result that was given (`Posting`), with the
batch it first went out with; that a request was retired; and the words of every reply that was
taken. A posting is outstanding while it is neither retired nor of a batch that a reply has
acknowledged.

`Accounts` says that the buckets of the scheduler hold exactly what is posted for their places.
-/

namespace SimMaster.Jegotrip

open Rust List

/-- A request or a result that the scheduler was given. -/
structure Posting (δ : Type) where
  sequence : ℤ
  data : δ
  /-- the batch it was committed with -/
  batch : Option ℕ
  retired : Bool

namespace Posting

variable {δ : Type}

def retire (x : ℤ) (q : Posting δ) :
    Posting δ := if q.sequence = x then { q with retired := true } else q

def waiting (q : Posting δ) : Bool := q.batch.isNone && !q.retired

/-- Goes out with the batch, if it was waiting. -/
def send (n : ℕ) (q : Posting δ) : Posting δ := if q.waiting then { q with batch := some n } else q

theorem sequence_retire (x : ℤ) (q : Posting δ) : (q.retire x).sequence = q.sequence := by
  rw [retire]
  split <;> rfl

theorem sequence_send (n : ℕ) (q : Posting δ) : (q.send n).sequence = q.sequence := by
  rw [send]
  split <;> rfl

theorem data_retire (x : ℤ) (q : Posting δ) : (q.retire x).data = q.data := by
  rw [retire]
  split <;> rfl

theorem data_send (n : ℕ) (q : Posting δ) : (q.send n).data = q.data := by
  rw [send]
  split <;> rfl

theorem batch_retire (x : ℤ) (q : Posting δ) : (q.retire x).batch = q.batch := by
  rw [retire]
  split <;> rfl

theorem retired_send (n : ℕ) (q : Posting δ) : (q.send n).retired = q.retired := by
  rw [send]
  split <;> rfl

theorem retired_retire (x : ℤ) (q : Posting δ) :
    (q.retire x).retired = false ↔ q.sequence ≠ x ∧ q.retired = false := by
  rw [retire]
  by_cases h : q.sequence = x
  · rw [if_pos h]
    exact iff_of_false Bool.true_eq_false_eq_False fun hq => hq.1 h
  · rw [if_neg h]
    exact (and_iff_right h).symm

theorem waiting_iff (q : Posting δ) : q.waiting = true ↔ q.batch = none ∧ q.retired = false := by
  rw [waiting, Bool.and_eq_true, Option.isNone_iff_eq_none, Bool.not_eq_true']

/-- Where a posting is that is not retired, after a batch was sent. -/
theorem batch_send {n : ℕ} {q : Posting δ} (hq : q.retired = false) (p : Option ℕ) :
    (q.send n).batch = p ↔ (q.batch = none ∧ p = some n) ∨ (q.batch = p ∧ p ≠ none) := by
  rw [send]
  by_cases hbatch : q.batch = none
  · rw [if_pos ((waiting_iff q).mpr ⟨hbatch, hq⟩), hbatch]
    constructor
    · rintro rfl
      exact Or.inl ⟨rfl, rfl⟩
    · rintro (⟨-, rfl⟩ | ⟨rfl, h⟩)
      · rfl
      · exact absurd rfl h
  · rw [if_neg fun h => hbatch ((waiting_iff q).mp h).1]
    constructor
    · rintro rfl
      exact Or.inr ⟨rfl, hbatch⟩
    · rintro (⟨h, -⟩ | ⟨h, -⟩)
      · exact absurd h hbatch
      · exact h

end Posting

theorem RequestData.borrowed_of_capture {request : BatchRequest} {data : RequestData}
    (h : capture request = .ok data) : data.borrowed = request := by
  obtain ⟨bytes, -, h⟩ := bind_eq_ok.mp h
  cases h
  rw [borrowed, map_map]
  exact congrArg (BatchRequest.mk request.method request.arguments) (map_id request.metadata)

/-! ## Stores and postings -/

/-- A map holds what is posted for the place and not retired. -/
def Holds {α δ : Type} (store : BTreeMap ℤ α) (f : α → δ) (postings : List (Posting δ))
    (p : Option ℕ) : Prop :=
  ∀ x r, (∃ d, store[x]? = some d ∧ f d = r) ↔
    ∃ q ∈ postings, q.batch = p ∧ q.retired = false ∧ q.sequence = x ∧ q.data = r

namespace Holds

variable {α δ : Type} {store : BTreeMap ℤ α} {f : α → δ} {postings : List (Posting δ)}
  {p : Option ℕ}

theorem nil (f : α → δ) (p : Option ℕ) : Holds ∅ f [] p := by
  intro x r
  simp

variable {x : ℤ}

theorem insert (h : Holds store f postings none) (hx : ∀ q ∈ postings, q.sequence ≠ x) (d : α) :
    Holds (store.insert x d) f (postings ++ [⟨x, f d, none, false⟩]) none := by
  intro y r
  simp only [BTreeMap.get_insert, mem_append, mem_singleton]
  by_cases hy : x = y
  · subst hy
    simp only [if_true]
    constructor
    · rintro ⟨_, ⟨⟩, rfl⟩
      exact ⟨_, Or.inr rfl, rfl, rfl, rfl, rfl⟩
    · rintro ⟨q, hq | rfl, -, -, hsequence, rfl⟩
      · exact absurd hsequence (hx q hq)
      · exact ⟨d, rfl, rfl⟩
  · simp only [if_neg hy]
    rw [h y r]
    constructor
    · rintro ⟨q, hq, hrest⟩
      exact ⟨q, Or.inl hq, hrest⟩
    · rintro ⟨q, hq | rfl, hrest⟩
      · exact ⟨q, hq, hrest⟩
      · exact absurd hrest.2.2.1 hy

theorem append (h : Holds store f postings p) (hp : p ≠ none) (x : ℤ) (r : δ) :
    Holds store f (postings ++ [⟨x, r, none, false⟩]) p := by
  intro y r'
  rw [h y r']
  simp only [mem_append, mem_singleton]
  constructor
  · rintro ⟨q, hq, hrest⟩
    exact ⟨q, Or.inl hq, hrest⟩
  · rintro ⟨q, hq | rfl, hrest⟩
    · exact ⟨q, hq, hrest⟩
    · exact absurd hrest.1.symm hp

theorem erase (h : Holds store f postings p) (x : ℤ) :
    Holds (store.erase x) f (postings.map (Posting.retire x)) p := by
  intro y r
  simp only [BTreeMap.get_erase, mem_map, exists_exists_and_eq_and, Posting.batch_retire,
    Posting.retired_retire, Posting.sequence_retire, Posting.data_retire]
  by_cases hy : x = y
  · subst hy
    exact iff_of_false (by simp) fun ⟨q, _, _, ⟨hne, _⟩, hsequence, _⟩ => hne hsequence
  · simp only [if_neg hy]
    rw [h y r]
    refine exists_congr fun q => and_congr_right fun _ => and_congr_right fun _ => ?_
    constructor
    · rintro ⟨hretired, rfl, hdata⟩
      exact ⟨⟨Ne.symm hy, hretired⟩, rfl, hdata⟩
    · rintro ⟨⟨-, hretired⟩, hrest⟩
      exact ⟨hretired, hrest⟩

variable {n : ℕ}

/-- After a batch was sent, what is at a place. -/
theorem send_iff {r : δ} :
    (∃ q ∈ postings.map (Posting.send n), q.batch = p ∧ q.retired = false ∧ q.sequence = x ∧
      q.data = r) ↔
    ∃ q ∈ postings, ((q.batch = none ∧ p = some n) ∨ (q.batch = p ∧ p ≠ none)) ∧ q.retired = false ∧
      q.sequence = x ∧ q.data = r := by
  simp only [mem_map, exists_exists_and_eq_and, Posting.retired_send, Posting.sequence_send,
    Posting.data_send]
  refine exists_congr fun q => and_congr_right fun _ => ?_
  constructor
  · rintro ⟨hbatch, hretired, hrest⟩
    exact ⟨(Posting.batch_send hretired p).mp hbatch, hretired, hrest⟩
  · rintro ⟨hbatch, hretired, hrest⟩
    exact ⟨(Posting.batch_send hretired p).mpr hbatch, hretired, hrest⟩

theorem send_working (f : α → δ) (postings : List (Posting δ)) (n : ℕ) :
    Holds ∅ f (postings.map (Posting.send n)) none := by
  intro x r
  rw [send_iff]
  refine iff_of_false (by simp) ?_
  rintro ⟨q, -, ⟨-, h⟩ | ⟨-, h⟩, -⟩
  · cases h
  · exact h rfl

theorem send_batch (h : Holds store f postings none) (hn : ∀ q ∈ postings, q.batch ≠ some n) :
    Holds store f (postings.map (Posting.send n)) (some n) := by
  intro x r
  rw [send_iff, h x r]
  refine exists_congr fun q => and_congr_right fun hq => and_congr_left fun _ => ?_
  constructor
  · exact fun hbatch => Or.inl ⟨hbatch, rfl⟩
  · rintro (⟨hbatch, -⟩ | ⟨hbatch, -⟩)
    · exact hbatch
    · exact absurd hbatch (hn q hq)

theorem send_other (h : Holds store f postings p) (hnone : p ≠ none) (hn : p ≠ some n) :
    Holds store f (postings.map (Posting.send n)) p := by
  intro x r
  rw [send_iff, h x r]
  refine exists_congr fun q => and_congr_right fun hq => and_congr_left fun _ => ?_
  constructor
  · exact fun hbatch => Or.inr ⟨hbatch, hnone⟩
  · rintro (⟨-, hp⟩ | ⟨hbatch, -⟩)
    · exact absurd hp hn
    · exact hbatch

/-- The map is empty exactly if nothing is posted for the working bucket. -/
theorem isEmpty_iff (h : Holds store f postings none) :
    store.isEmpty = false ↔ postings.any Posting.waiting = true := by
  rw [← Bool.not_eq_true, Std.ExtTreeMap.isEmpty_iff, any_eq_true]
  constructor
  · intro hne
    obtain ⟨x, hx⟩ : ∃ x, x ∈ store := by
      by_contra hall
      rw [not_exists] at hall
      exact hne (Std.ExtTreeMap.eq_empty_iff_forall_not_mem.mpr hall)
    obtain ⟨d, hd⟩ := (BTreeMap.mem_iff _ _).mp hx
    obtain ⟨q, hq, hbatch, hretired, -⟩ := (h x (f d)).mp ⟨d, hd, rfl⟩
    exact ⟨q, hq, (Posting.waiting_iff q).mpr ⟨hbatch, hretired⟩⟩
  · rintro ⟨q, hq, hwaiting⟩ rfl
    obtain ⟨hbatch, hretired⟩ := (Posting.waiting_iff q).mp hwaiting
    obtain ⟨d, hd, -⟩ := (h q.sequence q.data).mpr ⟨q, hq, hbatch, hretired, rfl, rfl⟩
    simp at hd

/-- What maps of several places hold together, where no two postings have one sequence. -/
theorem union {stores : Option ℕ → BTreeMap ℤ α} {ns : List ℕ}
    (hsequences : (postings.map Posting.sequence).Nodup)
    (h : ∀ p, (∀ n, p = some n → n ∈ ns) → Holds (stores p) f postings p) (x : ℤ) (r : δ) :
    (∃ d, ((ns.map fun n => stores (some n)).foldl (· ∪ ·) (stores none))[x]? = some d ∧ f d = r) ↔
      ∃ q ∈ postings, (∀ n, q.batch = some n → n ∈ ns) ∧ q.retired = false ∧ q.sequence = x ∧
        q.data = r := by
  have hof : ∀ d, ((ns.map fun n => stores (some n)).foldl (· ∪ ·) (stores none))[x]? = some d →
      ∃ q ∈ postings, (∀ n, q.batch = some n → n ∈ ns) ∧ q.retired = false ∧ q.sequence = x ∧
        q.data = f d := by
    intro d hd
    obtain ⟨p, hp, hget⟩ : ∃ p, (∀ n, p = some n → n ∈ ns) ∧ (stores p)[x]? = some d := by
      rcases BTreeMap.of_get_foldl_union hd with hget | ⟨m, hm, hget⟩
      · exact ⟨none, fun _ hn => (by cases hn), hget⟩
      · obtain ⟨n, hn, rfl⟩ := mem_map.mp hm
        exact ⟨some n, fun _ heq => Option.some.inj heq ▸ hn, hget⟩
    obtain ⟨q, hq, hbatch, hrest⟩ := (h p hp x (f d)).mp ⟨d, hget, rfl⟩
    exact ⟨q, hq, hbatch ▸ hp, hrest⟩
  constructor
  · rintro ⟨d, hd, rfl⟩
    exact hof d hd
  · rintro ⟨q, hq, hbatch, hretired, hsequence, rfl⟩
    obtain ⟨d, hd, hdata⟩ := (h q.batch hbatch x q.data).mpr ⟨q, hq, rfl, hretired, hsequence, rfl⟩
    have hmem : x ∈ (ns.map fun n => stores (some n)).foldl (· ∪ ·) (stores none) := by
      rw [BTreeMap.mem_foldl_union]
      cases hp : q.batch with
      | none =>
        rw [hp] at hd
        exact Or.inl ((BTreeMap.mem_iff _ _).mpr ⟨d, hd⟩)
      | some n =>
        rw [hp] at hd
        exact Or.inr ⟨_, mem_map_of_mem (hbatch n hp), (BTreeMap.mem_iff _ _).mpr ⟨d, hd⟩⟩
    obtain ⟨d', hd'⟩ := (BTreeMap.mem_iff _ _).mp hmem
    obtain ⟨q', hq', -, -, hsequence', hdata'⟩ := hof d' hd'
    -- the posting found there is the one we started from
    have hsame : q' = q := inj_on_of_nodup_map hsequences hq' hq (hsequence'.trans hsequence.symm)
    exact ⟨d', hd', by rw [← hdata', hsame]⟩

end Holds

/-! ## The ledger -/

structure Ledger where
  requests : List (Posting BatchRequest)
  results : List (Posting BatchResult)
  /-- how many batches were committed -/
  batches : ℕ
  /-- the words of the replies that were taken -/
  replies : List BatchWords
  /-- the client sequences whose results were delivered -/
  answered : List ℤ

namespace Ledger

def empty : Ledger := ⟨[], [], 0, [], []⟩

/-- A reply has acknowledged the batch. -/
def Acknowledged (l : Ledger) (incarnation n : ℕ) : Prop :=
  ∃ words ∈ l.replies, words.ackIncarnation = incarnation ∧
    BatchScheduler.Named words.ackNextBatch words.ackBatches n

/-- A reply has announced the batch of the peer. -/
def Announced (l : Ledger) (incarnation n : ℕ) : Prop :=
  ∃ words ∈ l.replies, words.incarnation = incarnation ∧
    BatchScheduler.Named words.nextBatch words.batches n

/-- Something waits for a batch. -/
def waiting (l : Ledger) : Bool := l.requests.any Posting.waiting || l.results.any Posting.waiting

/-- The posting is to be in every snapshot. -/
def Outstanding {δ : Type} (l : Ledger) (incarnation : ℕ) (q : Posting δ) : Prop :=
  q.retired = false ∧ ∀ n, q.batch = some n → ¬l.Acknowledged incarnation n

/-- Writes a call and its answer down. -/
def record (l : Ledger) : Op × Answer → Ledger
  | (.queueHosting call metadata, .returned (.ok _)) =>
    { l with requests :=
      l.requests ++ [⟨call.sequence, call.asBatchRequest metadata, none, false⟩] }
  | (.retireClientRequest x, _) => { l with requests := l.requests.map (Posting.retire x) }
  | (.commitSubmission _ _, .returned (.ok _)) =>
    if l.waiting then
      { l with
        requests := l.requests.map (Posting.send l.batches)
        results := l.results.map (Posting.send l.batches)
        batches := l.batches + 1 }
    else l
  | (.onReply reply _, .replied (.ok (some delivery))) =>
    { l with
      replies := l.replies ++ [reply.payload.fields]
      answered := l.answered ++ delivery.matchedResultSequences }
  | (.completeServerRequest ticket code stream, .completed (.ok true)) =>
    { l with results := l.results ++ [⟨ticket.sequence, ⟨code, stream⟩, none, false⟩] }
  | _ => l

/-- The ledger of a history. -/
def ofHistory (history : List (Op × Answer)) : Ledger := history.foldl record empty

theorem ofHistory_concat (history : List (Op × Answer)) (call : Op × Answer) :
    ofHistory (history ++ [call]) = (ofHistory history).record call := by
  rw [ofHistory, ofHistory, foldl_append]
  rfl

theorem ofHistory_append (history history' : List (Op × Answer)) :
    ofHistory (history ++ history') = history'.foldl record (ofHistory history) :=
  foldl_append

end Ledger

/-! ## Later ledgers -/

/-- What became of a posting, after there were `batches` batches. -/
def Posting.Follows {δ : Type} (batches : ℕ) (retired : ℤ → Prop) (q q' : Posting δ) : Prop :=
  q'.sequence = q.sequence ∧ q'.data = q.data ∧
    (q'.retired = true → q.retired = true ∨ retired q.sequence) ∧
    ∀ n, q'.batch = some n → q.batch = some n ∨ batches ≤ n

/-- Every posting is still there, in a list after `batches` batches. -/
def Followed {δ : Type} (batches : ℕ) (retired : ℤ → Prop) (ps ps' : List (Posting δ)) : Prop :=
  ∀ q ∈ ps, ∃ q' ∈ ps', q.Follows batches retired q'

namespace Followed

variable {δ : Type} {batches batches' : ℕ} {retired retired' : ℤ → Prop}
  {ps ps' ps'' : List (Posting δ)}

theorem refl (batches : ℕ) (retired : ℤ → Prop) (ps : List (Posting δ)) :
    Followed batches retired ps ps :=
  fun q hq => ⟨q, hq, rfl, rfl, Or.inl, fun _ => Or.inl⟩

theorem append (batches : ℕ) (retired : ℤ → Prop) (ps : List (Posting δ)) (q : Posting δ) :
    Followed batches retired ps (ps ++ [q]) :=
  fun q hq => ⟨q, mem_append_left _ hq, rfl, rfl, Or.inl, fun _ => Or.inl⟩

theorem retire (batches : ℕ) (ps : List (Posting δ)) (x : ℤ) :
    Followed batches (· = x) ps (ps.map (Posting.retire x)) := by
  intro q hq
  refine ⟨_, mem_map_of_mem hq, q.sequence_retire x, q.data_retire x, fun h => ?_,
    fun n hn => Or.inl (q.batch_retire x ▸ hn)⟩
  rw [Posting.retire] at h
  split at h
  case isTrue heq => exact Or.inr heq
  case isFalse => exact Or.inl h

theorem send (batches : ℕ) (retired : ℤ → Prop) (ps : List (Posting δ)) :
    Followed batches retired ps (ps.map (Posting.send batches)) := by
  intro q hq
  refine ⟨_, mem_map_of_mem hq, q.sequence_send _, q.data_send _,
    fun h => Or.inl (q.retired_send _ ▸ h), fun n hn => ?_⟩
  rw [Posting.send] at hn
  split at hn
  case isTrue => exact Or.inr (Option.some.inj hn).le
  case isFalse => exact Or.inl hn

theorem trans (h : Followed batches retired ps ps') (h' : Followed batches' retired' ps' ps'')
    (hle : batches ≤ batches') : Followed batches (fun x => retired x ∨ retired' x) ps ps'' := by
  intro q hq
  obtain ⟨q', hq', hsequence, hdata, hretired, hbatch⟩ := h q hq
  obtain ⟨q'', hq'', hsequence', hdata', hretired', hbatch'⟩ := h' q' hq'
  refine ⟨q'', hq'', hsequence'.trans hsequence, hdata'.trans hdata, fun hr => ?_, fun n hn => ?_⟩
  · rcases hretired' hr with hr | hr
    · exact (hretired hr).imp_right Or.inl
    · exact Or.inr (Or.inr (hsequence ▸ hr))
  · rcases hbatch' n hn with hn | hn
    · exact hbatch n hn
    · exact Or.inr (hle.trans hn)

end Followed

namespace Ledger

/-- A later ledger; `retired` are the requests that were retired in between. -/
structure Keeps (l l' : Ledger) (retired : ℤ → Prop) : Prop where
  batches : l.batches ≤ l'.batches
  requests : Followed l.batches retired l.requests l'.requests
  results : Followed l.batches (fun _ => False) l.results l'.results

theorem Keeps.refl (l : Ledger) (retired : ℤ → Prop) : Keeps l l retired :=
  ⟨le_refl _, .refl _ _ _, .refl _ _ _⟩

theorem keeps_record (l : Ledger) (call : Op × Answer) :
    Keeps l (l.record call) fun x => call.1 = .retireClientRequest x := by
  rw [record.eq_def]
  split
  case h_1 => exact ⟨le_refl _, .append _ _ _ _, .refl _ _ _⟩
  case h_2 x answer =>
    have h := Followed.retire l.batches l.requests x
    refine ⟨le_refl _, fun q hq => ?_, .refl _ _ _⟩
    obtain ⟨q', hq', hsequence, hdata, hretired, hbatch⟩ := h q hq
    exact ⟨q', hq', hsequence, hdata, fun hr => (hretired hr).imp_right fun (h : q.sequence = x) =>
      congrArg Op.retireClientRequest h.symm, hbatch⟩
  case h_3 =>
    split
    case isTrue => exact ⟨Nat.le_succ _, .send _ _ _, .send _ _ _⟩
    case isFalse => exact .refl _ _
  case h_4 => exact ⟨le_refl _, .refl _ _ _, .refl _ _ _⟩
  case h_5 => exact ⟨le_refl _, .refl _ _ _, .append _ _ _ _⟩
  case h_6 => exact .refl _ _

/-- The ledger of a longer history. -/
theorem keeps_ofHistory (history history' : List (Op × Answer)) :
    Keeps (ofHistory history) (ofHistory (history ++ history')) fun x =>
      .retireClientRequest x ∈ history'.map Prod.fst := by
  rw [ofHistory_append]
  generalize ofHistory history = l
  induction history' generalizing l with
  | nil => exact .refl _ _
  | cons call rest ih =>
    have hcall := keeps_record l call
    have hrest := ih (l.record call)
    refine ⟨hcall.batches.trans hrest.batches, fun q hq => ?_, fun q hq => ?_⟩
    · obtain ⟨q', hq', hsequence, hdata, hretired, hbatch⟩ :=
        hcall.requests.trans hrest.requests hcall.batches q hq
      exact ⟨q', hq', hsequence, hdata, fun hr => (hretired hr).imp_right fun h =>
        mem_cons.mpr (h.imp_left Eq.symm), hbatch⟩
    · obtain ⟨q', hq', hsequence, hdata, hretired, hbatch⟩ :=
        hcall.results.trans hrest.results hcall.batches q hq
      exact ⟨q', hq', hsequence, hdata, fun hr => (hretired hr).imp_right (or_self _).mp, hbatch⟩

/-- What is outstanding stays outstanding, if it is not retired and its batch not acknowledged. -/
theorem outstanding_or {δ : Type} {l l' : Ledger} {retired : ℤ → Prop} {ps ps' : List (Posting δ)}
    {incarnation : ℕ} (h : Followed l.batches retired ps ps')
    (hack : ∀ n, l.Acknowledged incarnation n → n < l.batches) {q : Posting δ} (hq : q ∈ ps)
    (hout : l.Outstanding incarnation q) : ∃ q' ∈ ps', q'.sequence = q.sequence ∧ q'.data = q.data ∧
      (l'.Outstanding incarnation q' ∨ retired q.sequence ∨
        ∃ n, q'.batch = some n ∧ l'.Acknowledged incarnation n ∧
        ¬l.Acknowledged incarnation n) := by
  obtain ⟨q', hq', hsequence, hdata, hretired, hbatch⟩ := h q hq
  refine ⟨q', hq', hsequence, hdata, ?_⟩
  by_cases hr : q'.retired = true
  · rcases hretired hr with hr | hr
    · rw [hout.1] at hr
      cases hr
    · exact Or.inr (Or.inl hr)
  by_cases hn : ∃ n, q'.batch = some n ∧ l'.Acknowledged incarnation n
  · obtain ⟨n, hn, hnew⟩ := hn
    refine Or.inr (Or.inr ⟨n, hn, hnew, fun hold => ?_⟩)
    rcases hbatch n hn with hsent | hle
    · exact hout.2 n hsent hold
    · exact not_lt.mpr hle (hack n hold)
  · exact Or.inl ⟨Bool.not_eq_true _ ▸ hr, fun n hsent hnew => hn ⟨n, hsent, hnew⟩⟩

end Ledger

/-! ## Accounts -/

/-- The buckets hold what is posted. `places` are the buckets, `kept` the batches that are kept. -/
structure Accounts (places : Option ℕ → Bucket) (kept : ℕ → Prop) (nextBatch incarnation : ℕ)
    (l : Ledger) : Prop where
  batches : l.batches = nextBatch
  kept : ∀ n, kept n ↔ n < nextBatch ∧ ¬l.Acknowledged incarnation n
  acknowledged : ∀ n, l.Acknowledged incarnation n → n < nextBatch
  requests : ∀ p, (∀ n, p = some n → ¬l.Acknowledged incarnation n) →
    Holds (places p).requests RequestData.borrowed l.requests p
  results : ∀ p, (∀ n, p = some n → ¬l.Acknowledged incarnation n) →
    Holds (places p).results ResultData.borrowed l.results p
  sentRequests : ∀ q ∈ l.requests, ∀ n, q.batch = some n → n < nextBatch
  sentResults : ∀ q ∈ l.results, ∀ n, q.batch = some n → n < nextBatch
  unretired : ∀ q ∈ l.results, q.retired = false

namespace Accounts

variable {places places' : Option ℕ → Bucket} {kept kept' : ℕ → Prop} {nextBatch incarnation : ℕ}
  {l : Ledger} {x : ℤ}

variable (h : Accounts places kept nextBatch incarnation l)
include h

/-- A request is queued. -/
theorem queue (hx : ∀ q ∈ l.requests, q.sequence ≠ x) (data : RequestData)
    (hworking : places' none =
      { places none with requests := (places none).requests.insert x data })
    (hbatches : ∀ n, places' (some n) = places (some n)) :
    Accounts places' kept nextBatch incarnation
      { l with requests := l.requests ++ [⟨x, data.borrowed, none, false⟩] } := by
  refine ⟨h.batches, h.kept, h.acknowledged, fun p hp => ?_, fun p hp => ?_, fun q hq n hn => ?_,
    h.sentResults, h.unretired⟩
  · cases p with
    | none =>
      rw [hworking]
      exact (h.requests none hp).insert hx data
    | some n =>
      rw [hbatches]
      exact (h.requests (some n) hp).append (Option.some_ne_none n) x _
  · cases p with
    | none =>
      rw [hworking]
      exact h.results none hp
    | some n =>
      rw [hbatches]
      exact h.results (some n) hp
  · rcases mem_append.mp hq with hq | hq
    · exact h.sentRequests q hq n hn
    · rw [mem_singleton.mp hq] at hn
      cases hn

/-- A request is retired. -/
theorem retire (x : ℤ) (hrequests : ∀ p, (places' p).requests = (places p).requests.erase x)
    (hresults : ∀ p, (places' p).results = (places p).results) (hkept : ∀ n, kept' n ↔ kept n) :
    Accounts places' kept' nextBatch incarnation
      { l with requests := l.requests.map (Posting.retire x) } := by
  refine ⟨h.batches, fun n => (hkept n).trans (h.kept n), h.acknowledged, fun p hp => ?_,
    fun p hp => ?_, fun q hq n hn => ?_, h.sentResults, h.unretired⟩
  · rw [hrequests]
    exact (h.requests p hp).erase x
  · rw [hresults]
    exact h.results p hp
  · obtain ⟨q', hq', rfl⟩ := mem_map.mp hq
    rw [Posting.batch_retire] at hn
    exact h.sentRequests q' hq' n hn

/-- The working bucket becomes a batch. -/
theorem send (hworking : places' none = .empty) (hbatch : places' (some nextBatch) = places none)
    (hother : ∀ n ≠ nextBatch, places' (some n) = places (some n))
    (hkept : ∀ n, kept' n ↔ n = nextBatch ∨ kept n) :
    Accounts places' kept' (nextBatch + 1) incarnation { l with
        requests := l.requests.map (Posting.send l.batches)
        results := l.results.map (Posting.send l.batches)
        batches := l.batches + 1 } := by
  have hnew : ¬l.Acknowledged incarnation nextBatch := fun hack =>
    lt_irrefl _ (h.acknowledged nextBatch hack)
  rw [h.batches]
  refine ⟨rfl, fun n => ?_, fun n hn => Nat.lt_succ_of_lt (h.acknowledged n hn),
    fun p hp => ?_, fun p hp => ?_, fun q hq n hn => ?_, fun q hq n hn => ?_, fun q hq => ?_⟩
  · rw [hkept, h.kept]
    constructor
    · rintro (rfl | ⟨hlt, hack⟩)
      · exact ⟨Nat.lt_succ_self _, hnew⟩
      · exact ⟨Nat.lt_succ_of_lt hlt, hack⟩
    · rintro ⟨hle, hack⟩
      exact (Nat.eq_or_lt_of_le (Nat.le_of_lt_succ hle)).imp_right fun hlt => ⟨hlt, hack⟩
  · cases p with
    | none =>
      rw [hworking]
      exact Holds.send_working _ _ _
    | some n =>
      by_cases hn : n = nextBatch
      · subst hn
        rw [hbatch]
        exact (h.requests none fun _ hn => by cases hn).send_batch fun q hq hsent =>
          lt_irrefl _ (h.sentRequests q hq _ hsent)
      · rw [hother n hn]
        exact (h.requests (some n) hp).send_other (Option.some_ne_none n)
          fun heq => hn (Option.some.inj heq)
  · cases p with
    | none =>
      rw [hworking]
      exact Holds.send_working _ _ _
    | some n =>
      by_cases hn : n = nextBatch
      · subst hn
        rw [hbatch]
        exact (h.results none fun _ hn => by cases hn).send_batch fun q hq hsent =>
          lt_irrefl _ (h.sentResults q hq _ hsent)
      · rw [hother n hn]
        exact (h.results (some n) hp).send_other (Option.some_ne_none n)
          fun heq => hn (Option.some.inj heq)
  · obtain ⟨q', hq', rfl⟩ := mem_map.mp hq
    rw [Posting.send] at hn
    split at hn
    · exact Option.some.inj hn ▸ Nat.lt_succ_self _
    · exact Nat.lt_succ_of_lt (h.sentRequests q' hq' n hn)
  · obtain ⟨q', hq', rfl⟩ := mem_map.mp hq
    rw [Posting.send] at hn
    split at hn
    · exact Option.some.inj hn ▸ Nat.lt_succ_self _
    · exact Nat.lt_succ_of_lt (h.sentResults q' hq' n hn)
  · obtain ⟨q', hq', rfl⟩ := mem_map.mp hq
    rw [Posting.retired_send]
    exact h.unretired q' hq'

/-- A reply is taken. -/
theorem reply {words : BatchWords}
    (hwords : words.ackNextBatch ≤ nextBatch) (answered : List ℤ) {acks : ℕ → Prop}
    (hacks : ∀ n, acks n ↔ words.ackIncarnation = incarnation ∧
      BatchScheduler.Named words.ackNextBatch words.ackBatches n)
    (hworking : places' none = places none)
    (hother : ∀ n, ¬acks n → places' (some n) = places (some n))
    (hkept : ∀ n, kept' n ↔ kept n ∧ ¬acks n) : Accounts places' kept' nextBatch incarnation
      { l with replies := l.replies ++ [words], answered := answered } := by
  have hack : ∀ n,
      Ledger.Acknowledged { l with replies := l.replies ++ [words], answered := answered }
      incarnation n ↔ l.Acknowledged incarnation n ∨ acks n := by
    intro n
    rw [hacks]
    simp only [Ledger.Acknowledged, mem_append, mem_singleton]
    constructor
    · rintro ⟨words', hmem | rfl, hrest⟩
      · exact Or.inl ⟨words', hmem, hrest⟩
      · exact Or.inr hrest
    · rintro (⟨words', hmem, hrest⟩ | hrest)
      · exact ⟨words', Or.inl hmem, hrest⟩
      · exact ⟨words, Or.inr rfl, hrest⟩
  have hplaces : ∀ p, (∀ n, p = some n → ¬(l.Acknowledged incarnation n ∨ acks n)) →
      places' p = places p := by
    rintro (_ | n) hp
    · exact hworking
    · exact hother n fun hn => hp n rfl (Or.inr hn)
  refine ⟨h.batches, fun n => ?_, fun n hn => ?_, fun p hp => ?_, fun p hp => ?_, h.sentRequests,
    h.sentResults, h.unretired⟩
  · rw [hkept, h.kept, hack, not_or, and_assoc]
  · rcases (hack n).mp hn with hn | hn
    · exact h.acknowledged n hn
    · obtain ⟨-, b, -, -, hb⟩ := (hacks n).mp hn
      omega
  · simp only [hack] at hp
    rw [hplaces p hp]
    exact h.requests p fun n hn hack => hp n hn (Or.inl hack)
  · simp only [hack] at hp
    rw [hplaces p hp]
    exact h.results p fun n hn hack => hp n hn (Or.inl hack)

/-- A server request is completed. -/
theorem complete (hx : ∀ q ∈ l.results, q.sequence ≠ x) (data : ResultData)
    (hworking : places' none = { places none with results := (places none).results.insert x data })
    (hbatches : ∀ n, places' (some n) = places (some n)) :
    Accounts places' kept nextBatch incarnation
      { l with results := l.results ++ [⟨x, data.borrowed, none, false⟩] } := by
  refine ⟨h.batches, h.kept, h.acknowledged, fun p hp => ?_, fun p hp => ?_, h.sentRequests,
    fun q hq n hn => ?_, fun q hq => ?_⟩
  · cases p with
    | none =>
      rw [hworking]
      exact h.requests none hp
    | some n =>
      rw [hbatches]
      exact h.requests (some n) hp
  · cases p with
    | none =>
      rw [hworking]
      exact (h.results none hp).insert hx data
    | some n =>
      rw [hbatches]
      exact (h.results (some n) hp).append (Option.some_ne_none n) x _
  · rcases mem_append.mp hq with hq | hq
    · exact h.sentResults q hq n hn
    · rw [mem_singleton.mp hq] at hn
      cases hn
  · rcases mem_append.mp hq with hq | hq
    · exact h.unretired q hq
    · rw [mem_singleton.mp hq]

end Accounts

end SimMaster.Jegotrip
