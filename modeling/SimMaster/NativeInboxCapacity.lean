import SimMaster.NativeInboxStep

/-!
# The inbox is bounded and replay is complete

Every operation but the staging rewrites rows in place: their identity stays and a finished row is
never reopened (`Rewrite`). So open rows only become more where a staging checked that there is
room, and only finished rows are ever deleted. The bound on the open rows of a line is the limit of
the replay, which therefore loses nothing.
-/

namespace SimMaster

namespace NativeInbox

open Rust Method List Bool

variable {chrono : Chrono} {db next : Database} {call : Call} {reply : Except DbError Reply}

/-! ## Rewriting rows -/

/-- The unique key of the table. -/
def InboxRow.key (row : InboxRow) : Str × Str × PduKind × Str :=
  (row.lineId, row.simKey, row.kind, row.fingerprint)

/-- Both are states of one row. -/
def InboxRow.SameRow (row row' : InboxRow) : Prop := row.id = row'.id ∧ row.key = row'.key

variable {row row' : InboxRow}

theorem InboxRow.SameRow.lineId (h : row.SameRow row') :
    row.lineId = row'.lineId := congrArg (·.1) h.2

theorem InboxRow.SameRow.simKey (h : row.SameRow row') :
    row.simKey = row'.simKey := congrArg (·.2.1) h.2

theorem InboxRow.SameRow.refl (row : InboxRow) : row.SameRow row := ⟨rfl, rfl⟩

/-- A change of the rows that keeps their identity and reopens none. -/
structure Rewrite (rows : List InboxRow) (f : InboxRow → InboxRow) : Prop where
  same : ∀ row, (f row).SameRow row
  done : ∀ row ∈ rows, (f row).isOpen = true → row.isOpen = true

theorem Rewrite.id (rows : List InboxRow) : Rewrite rows id where
  same := .refl
  done := fun _ _ h => h

variable {rows : List InboxRow} {p : InboxRow → Bool} {f : InboxRow → InboxRow}

/-- A conditional change is a rewrite if it keeps the identity, and reopens no row it applies to. -/
theorem Rewrite.ite (hsame : ∀ row, (f row).SameRow row)
    (hdone : ∀ row ∈ rows, p row = true → (f row).isOpen = true → row.isOpen = true) :
    Rewrite rows fun row => if p row then f row else row where
  same row := by
    split
    · exact hsame row
    · exact .refl row
  done row hrow h := by
    split at h
    next hp => exact hdone row hrow hp h
    next => exact h

/-! ## What calls do to the inbox -/

/-- The ids of the rows grow, and the next one is above them. -/
def Numbered (db : Database) : Prop :=
  db.inbox.Pairwise (·.id < ·.id) ∧ ∀ row ∈ db.inbox, row.id < db.nextInboxId

theorem Numbered.eq_of_id (h : Numbered db) (hrow : row ∈ db.inbox)
    (hrow' : row' ∈ db.inbox) (hid : row.id = row'.id) : row = row' := by
  have hnodup : (db.inbox.map (·.id)).Nodup := by
    rw [Nodup, pairwise_map]
    exact h.1.imp Nat.ne_of_lt
  exact inj_on_of_nodup_map hnodup hrow hrow' hid

variable {line sim : Str}

theorem waits_state (h : row.waits line sim = true) : row.state = .pending := by
  rw [InboxRow.waits, and_eq_true, beq_iff_eq] at h
  exact h.2

theorem isOpen_of_pending (h : row.state = .pending) : row.isOpen = true := by
  rw [InboxRow.isOpen, h]
  rfl

/-- The inbox is rewritten in place. -/
def Rewrites (db next : Database) : Prop :=
  (∃ f, Rewrite db.inbox f ∧ next.inbox = db.inbox.map f) ∧ next.nextInboxId = db.nextInboxId

theorem Rewrites.of_same (hinbox : next.inbox = db.inbox)
    (hnext : next.nextInboxId = db.nextInboxId) :
    Rewrites db next := ⟨⟨id, .id _, by rw [hinbox, map_id]⟩, hnext⟩

theorem rewrites_updateInbox (hsame : ∀ row, (f row).SameRow row)
    (hdone : ∀ row ∈ db.inbox, p row = true → (f row).isOpen = true → row.isOpen = true) :
    Rewrites db (db.updateInbox p f) := ⟨⟨_, .ite hsame hdone, rfl⟩, rfl⟩

theorem rewrites_quarantine (id : ℕ) (line sim : Str) :
    Rewrites db (db.quarantine id line sim) := by
  refine rewrites_updateInbox (fun row => ⟨rfl, rfl⟩) fun row _ hp _ => ?_
  rw [and_eq_true] at hp
  exact isOpen_of_pending (waits_state hp.2)

theorem rewrites_markDone (ids : List ℕ) : Rewrites db (db.markDone ids) := by
  refine rewrites_updateInbox (fun row => ⟨rfl, rfl⟩) ?_
  rintro row _ _ ⟨⟩

theorem rewrites_promote (message : InboxMessage) (stamp : Str) :
    Rewrites db (db.promote message stamp).2 := by
  rw [Database.promote]
  split
  · exact rewrites_markDone message.ids
  · exact rewrites_markDone message.ids

theorem applyCorrelated_inbox (db : Database) (report : NativeReport) (reportTime : ℤ) :
    (db.applyCorrelated report reportTime).2.inbox = db.inbox ∧
      (db.applyCorrelated report reportTime).2.nextInboxId = db.nextInboxId := by
  rw [Database.applyCorrelated]
  split
  · rw [Database.applyReport]
    split
    · exact ⟨rfl, rfl⟩
    · exact ⟨rfl, rfl⟩
  · exact ⟨rfl, rfl⟩

variable {report : NativeReport}

theorem waitingReport_some (h : db.waitingReport report = some row) :
    row ∈ db.inbox ∧ row.state = .pending ∧ row.id = report.id := by
  have hp := find?_some h
  simp only [and_eq_true, beq_iff_eq] at hp
  exact ⟨mem_of_find?_eq_some h, waits_state hp.1.2, hp.1.1⟩

variable {now : ℤ}

/-- The row of a report waits, so it is open whatever becomes of it. -/
theorem rewrites_consumeReport {reportTime : ℤ}
    (hnumbered : Numbered db) (hrow : db.waitingReport report = some row) :
    Rewrites db (db.consumeReport row report reportTime now).2 := by
  obtain ⟨hinbox, hnext⟩ := applyCorrelated_inbox db report reportTime
  obtain ⟨hmem, hstate, -⟩ := waitingReport_some hrow
  refine ⟨⟨_, Rewrite.ite (p := (·.id == row.id)) ?_ ?_, congrArg (map _) hinbox⟩, hnext⟩
  · intro row
    split
    · exact ⟨rfl, rfl⟩
    · exact ⟨rfl, rfl⟩
  · intro row' hrow' hid _
    rw [beq_iff_eq] at hid
    rw [hnumbered.eq_of_id hrow' hmem hid]
    exact isOpen_of_pending hstate

/-- A call rewrites the inbox, or stages a row and deletes finished ones. -/
theorem Transition.inbox (h : Transition chrono db call reply next) (hnumbered : Numbered db) :
    Rewrites db next ∨ ∃ line sim parsed fingerprint pdu now,
      scopeValid line sim = .ok () ∧ db.findPdu line sim parsed fingerprint = none ∧
      db.full line = false ∧
      next = (db.insertPdu line sim parsed fingerprint pdu now).pruneDone line := by
  cases h with
  | staged hscope _ hnone hroom => exact Or.inr ⟨_, _, _, _, _, _, hscope, hnone, hroom, rfl⟩
  | acked => exact Or.inl (rewrites_updateInbox (fun _ => ⟨rfl, rfl⟩) fun _ _ _ h => h)
  | quarantined => exact Or.inl (rewrites_quarantine _ _ _)
  | promoted => exact Or.inl (rewrites_promote _ _)
  | reportDropped => exact Or.inl (rewrites_quarantine _ _ _)
  | reportConsumed _ _ hrow => exact Or.inl (rewrites_consumeReport hnumbered hrow)
  | _ => exact Or.inl (.of_same rfl rfl)

/-! ## The invariant -/

/-- Open rows of a line. -/
def Database.openOn (db : Database) (line : Str) : ℕ :=
  db.inbox.countP fun row => row.isOpen && row.lineId == line

def Database.openRows (db : Database) : ℕ := db.inbox.countP (·.isOpen)

structure InboxInvariant (db : Database) : Prop where
  numbered : Numbered db
  keys : (db.inbox.map (·.key)).Nodup
  scopes : ∀ row ∈ db.inbox, scopeValid row.lineId row.simKey = .ok ()
  line : ∀ line, db.openOn line ≤ maxPendingPerLine
  total : db.openRows ≤ maxPendingTotal

theorem countP_rewrite_le (hf : Rewrite rows f) (hp : ∀ row, p (f row) = p row) :
    (rows.map f).countP (fun row => row.isOpen && p row) ≤
      rows.countP fun row => row.isOpen && p row := by
  rw [countP_map]
  refine countP_mono_left fun row hrow h => ?_
  rw [Function.comp_apply, hp, and_eq_true] at h
  rw [and_eq_true]
  exact ⟨hf.done row hrow h.1, h.2⟩

theorem InboxInvariant.rewrites (hinv : InboxInvariant db) (h : Rewrites db next) :
    InboxInvariant next := by
  obtain ⟨⟨f, hf, hinbox⟩, hnext⟩ := h
  refine ⟨⟨?_, ?_⟩, ?_, ?_, fun line => ?_, ?_⟩
  · rw [hinbox, pairwise_map]
    refine hinv.numbered.1.imp fun h => ?_
    rwa [(hf.same _).1, (hf.same _).1]
  · rw [hinbox, hnext]
    intro row hrow
    obtain ⟨row', hrow', rfl⟩ := mem_map.1 hrow
    rw [(hf.same row').1]
    exact hinv.numbered.2 row' hrow'
  · rw [hinbox, map_map]
    have hkeys : (fun row : InboxRow => row.key) ∘ f = (·.key) := funext fun row => (hf.same row).2
    rw [hkeys]
    exact hinv.keys
  · rw [hinbox]
    intro row hrow
    obtain ⟨row', hrow', rfl⟩ := mem_map.1 hrow
    rw [(hf.same row').lineId, (hf.same row').simKey]
    exact hinv.scopes row' hrow'
  · rw [Database.openOn, hinbox]
    refine (countP_rewrite_le hf fun row => ?_).trans (hinv.line line)
    rw [(hf.same row).lineId]
  · rw [Database.openRows, hinbox]
    have hle := countP_rewrite_le (p := fun _ => true) hf fun _ => rfl
    simp only [Bool.and_true] at hle
    exact hle.trans hinv.total

/-- Pruning deletes rows only. -/
theorem InboxInvariant.pruneDone (hinv : InboxInvariant db) (line : Str) :
    InboxInvariant (db.pruneDone line) := by
  have hsub : (db.pruneDone line).inbox.Sublist db.inbox := filter_sublist
  exact ⟨⟨hinv.numbered.1.sublist hsub, fun row hrow => hinv.numbered.2 row (hsub.subset hrow)⟩,
    hinv.keys.sublist (hsub.map _), fun row hrow => hinv.scopes row (hsub.subset hrow),
    fun line => hsub.countP_le.trans (hinv.line line), hsub.countP_le.trans hinv.total⟩

variable {fingerprint : Str} {kind : PduKind}

/-- A row with the key is one that a search for the key accepts. -/
theorem findPdu_key (h : row.key = (line, sim, kind, fingerprint)) :
    (row.inScope line sim && row.kind == kind && row.fingerprint == fingerprint) = true := by
  simp only [InboxRow.key, Prod.mk.injEq] at h
  simp [InboxRow.inScope, h]

variable {pdu : Str}

/-- Staging adds a row for which there is room. -/
theorem InboxInvariant.insertPdu (hinv : InboxInvariant db) (hscope : scopeValid line sim = .ok ())
    (hnone : db.findPdu line sim kind fingerprint = none) (hroom : db.full line = false) :
    InboxInvariant (db.insertPdu line sim kind fingerprint pdu now) := by
  rw [Database.full, or_eq_false_iff, decide_eq_false_iff_not, decide_eq_false_iff_not,
    Nat.not_le, Nat.not_le] at hroom
  obtain ⟨hline, htotal⟩ := hroom
  refine ⟨⟨?_, ?_⟩, ?_, ?_, fun line' => ?_, ?_⟩
  · refine pairwise_append.2 ⟨hinv.numbered.1, pairwise_singleton _ _, ?_⟩
    intro row hrow row' hrow'
    rw [mem_singleton.1 hrow']
    exact hinv.numbered.2 row hrow
  · intro row hrow
    rcases mem_append.1 hrow with hrow | hrow
    · exact (hinv.numbered.2 row hrow).trans (Nat.lt_succ_self _)
    · rw [mem_singleton.1 hrow]
      exact Nat.lt_succ_self _
  · rw [Database.insertPdu, map_append]
    refine nodup_append.2 ⟨hinv.keys, nodup_singleton _, ?_⟩
    intro key hkey key' hkey' heq
    obtain ⟨row, hrow, rfl⟩ := mem_map.1 hkey
    rw [map_singleton, mem_singleton] at hkey'
    rw [hkey'] at heq
    exact find?_eq_none.1 hnone row hrow (findPdu_key heq)
  · intro row hrow
    rcases mem_append.1 hrow with hrow | hrow
    · exact hinv.scopes row hrow
    · rw [mem_singleton.1 hrow]
      exact hscope
  · rw [Database.openOn, Database.insertPdu, countP_append, countP_singleton]
    have hbefore := hinv.line line'
    split
    next hcounts =>
      rw [and_eq_true, beq_iff_eq] at hcounts
      obtain rfl : line = line' := hcounts.2
      exact hline
    next => exact hbefore
  · rw [Database.openRows, Database.insertPdu, countP_append, countP_singleton]
    split
    · exact htotal
    · exact hinv.total

theorem InboxInvariant.step (hinv : InboxInvariant db) (h : Transition chrono db call reply next) :
    InboxInvariant next := by
  rcases h.inbox hinv.numbered with hrewrites |
    ⟨line, sim, parsed, fingerprint, pdu, now, hscope, hnone, hroom, rfl⟩
  · exact hinv.rewrites hrewrites
  · exact (hinv.insertPdu hscope hnone hroom).pruneDone line

theorem inboxInvariant_run (chrono : Chrono) (calls : List Call) :
    InboxInvariant (Machine.run (step chrono) {} calls) := by
  have hinitial : InboxInvariant {} := by
    refine ⟨⟨Pairwise.nil, ?_⟩, Pairwise.nil, ?_, fun _ => Nat.zero_le _, Nat.zero_le _⟩
    all_goals
      intro row hrow
      cases hrow
  exact Machine.run_invariant _ hinitial (fun _ call hinv => hinv.step (step_transition call)) calls

/-! ## The results -/

/-- An open row is there after any call. -/
theorem Transition.keeps_open (h : Transition chrono db call reply next) (hnumbered : Numbered db)
    (hrow : row ∈ db.inbox) (hopen : row.isOpen = true) :
    ∃ row' ∈ next.inbox, row'.SameRow row := by
  rcases h.inbox hnumbered with ⟨⟨f, hf, hinbox⟩, -⟩ | ⟨line, _, _, _, _, _, -, -, -, rfl⟩
  · exact ⟨f row, by rw [hinbox]; exact mem_map_of_mem hrow, hf.same row⟩
  · refine ⟨row, mem_filter.2 ⟨mem_append_left _ hrow, ?_⟩, .refl row⟩
    rw [InboxRow.isOpen, bne_iff_ne] at hopen
    simp [InboxRow.doneOn, hopen]

/-- The replay returns every row that waits: there are no more than its limit. -/
theorem InboxInvariant.pending_complete (hinv : InboxInvariant db)
    (hscope : scopeValid line sim = .ok ()) : pendingNativePdus line sim db =
      .ok ((db.inbox.filter (·.waits line sim)).map (·.toPdu)) := by
  have hbound : (db.inbox.filter (·.waits line sim)).length ≤ 256 := by
    rw [← countP_eq_length_filter]
    refine (countP_mono_left fun row _ hwaits => ?_).trans (hinv.line line)
    rw [isOpen_of_pending (waits_state hwaits), Bool.true_and]
    rw [InboxRow.waits, InboxRow.inScope, and_eq_true, and_eq_true] at hwaits
    exact hwaits.1.1
  rw [pendingNativePdus, hscope, ok_bind, take_of_length_le hbound]
  rfl

/-- A present fingerprint is staged again without a change. -/
theorem InboxInvariant.restage (hinv : InboxInvariant db) (hrow : row ∈ db.inbox)
    {kind : Str} (hkind : stageKind kind row.fingerprint pdu = .ok row.kind) (now : ℤ) :
    (stageNativePdu row.lineId row.simKey kind row.fingerprint pdu now).call db =
      (.ok row.id, db) := by
  have hfind : db.findPdu row.lineId row.simKey row.kind row.fingerprint = some row := by
    cases hfind : db.findPdu row.lineId row.simKey row.kind row.fingerprint with
    | none => exact absurd (findPdu_key rfl) (find?_eq_none.1 hfind row hrow)
    | some found =>
      have hkey : found.key = row.key := by
        have hfound := find?_some hfind
        simp only [InboxRow.inScope, and_eq_true, beq_iff_eq] at hfound
        simp [InboxRow.key, hfound]
      rw [inj_on_of_nodup_map hinv.keys (mem_of_find?_eq_some hfind) hrow hkey]
  rw [stageNativePdu, call_lift_bind, hinv.scopes row hrow]
  rw [call_lift_bind, hkind]
  dsimp only
  rw [call_get_bind, hfind]
  rfl

/-- **The inbox is bounded and replay is complete.** After any calls there are at most 256 open rows
on a line and 4096 in all, no call deletes an open row, the replay of a scope returns all its
waiting rows, and staging a fingerprint that is present returns its id and changes nothing. -/
theorem inbox_capacity (chrono : Chrono) (calls : List Call) :
    let db : Database := Machine.run (step chrono) {} calls
    (∀ line, db.openOn line ≤ maxPendingPerLine) ∧ db.openRows ≤ maxPendingTotal ∧
    (∀ call, ∀ row ∈ db.inbox, row.state ≠ .done →
      ∃ row' ∈ (step chrono db call).2.inbox, row'.SameRow row) ∧
    (∀ line sim, scopeValid line sim = .ok () → pendingNativePdus line sim db =
      .ok ((db.inbox.filter (·.waits line sim)).map (·.toPdu))) ∧
    ∀ row ∈ db.inbox, ∀ kind pdu now, stageKind kind row.fingerprint pdu = .ok row.kind →
      (stageNativePdu row.lineId row.simKey kind row.fingerprint pdu now).call db =
        (.ok row.id, db) := by
  intro db
  have hinv : InboxInvariant db := inboxInvariant_run chrono calls
  refine ⟨hinv.line, hinv.total, fun call row hrow hstate => ?_, fun line sim =>
    hinv.pending_complete,
    fun row hrow kind pdu now hkind => hinv.restage hrow hkind now⟩
  exact (step_transition call).keeps_open hinv.numbered hrow (bne_iff_ne.2 hstate)

end NativeInbox

end SimMaster
